import AlgoBot.Core.Machine
import AlgoBot.Python.Text

/-!
# Recovery codes

`verify_user_code` accepts the current code of the authenticator, or a recovery code that
the profile stores, as a digest or (from before digests) in the clear. Codes are matched,
marked as used and rewritten under the lock of the profile's row, while the requests that
call it go on with the copy of the row they have read before.

* `verify_spec`: what one call answers and writes.
* `redeemed_once`, `redeemed_gone`: in every run each stored code is accepted at most once,
  and none that was accepted is found again.
* `single_use_iff`: with that, no call raises exactly if each one gets text that can be
  encoded, and finds no code that `compare_digest` refuses to compare with it.
  `numero_raises` is a token that is not ASCII, where a code in the clear is stored.
-/

namespace AlgoBot.Auth

open AlgoBot.Core AlgoBot.Python

/-! ## The service -/

/-- What `two_factor_service` calls: text tables, decryption (`none` is its `RuntimeError`), the
authenticator's check, and a digest that no two ASCII texts share. -/
structure CodeEnv where
  host : Host
  decrypt : String → Option String
  isdigit : CodePoint → Bool
  totp : String → Text → ℤ → Bool
  sha256 : String → String
  sha256_ascii : ∀ s, (Text.ofString (sha256 s)).isAscii = true
  sha256_inj : ∀ a b, (Text.ofString a).isAscii = true → (Text.ofString b).isAscii = true →
    sha256 a = sha256 b → a = b

/-- The fields of `UserProfile` that hold the second factor. -/
structure Profile where
  two_factor_enabled : Bool
  two_factor_secret_encrypted : String
  two_factor_recovery_codes : List Value

/-- What is stored for one code. -/
def record (digest : String) (used : Bool) : Value :=
  .dict [("digest", .str digest), ("used", .bool used)]

variable (env : CodeEnv)

/-- The records of `generate_recovery_codes`, for the codes it has drawn. -/
def generateRecoveryCodes (codes : List String) : List Value :=
  codes.map fun code => record (env.sha256 code) false

/-- `TwoFactorService.validate_token`; an exception of the authenticator is a `False`. -/
def validateToken (secret : String) (token : Text) (now : ℤ) : Bool :=
  let token := token.unspaced.strip
  token.length == 6 && token.all env.isdigit && env.totp secret token now

/-- `str(saved.get("digest", ""))`. -/
def storedDigest (saved : Dict) : String := (Dict.getD saved "digest" (.str "")).toStr env.host

/-- `bool(saved.get("used", False))`. -/
def storedUsed (saved : Dict) : Bool := (Dict.getD saved "used" (.bool false)).truthy

/-- `legacy_code`. -/
def legacyCode (saved : Value) : String :=
  upper env.host (unspaced (strip (textOr env.host saved "")))

/-- `bool(stored) and hmac.compare_digest(stored, presented)`. -/
def sameCode (stored : String) (presented : Text) : Except PyError Bool :=
  if stored == "" then .ok false else (Text.ofString stored).compareDigest presented

/-- One turn of the loop over the stored codes: whether the code matches, and its record. -/
def matchCode (token : Text) (digest : String) (consume_recovery : Bool) (saved : Value) :
    Except PyError (Bool × Value) :=
  match saved with
  | .dict saved =>
      (sameCode (storedDigest env saved) (Text.ofString digest)).map fun same =>
        (same && !storedUsed saved, record (storedDigest env saved) (storedUsed saved))
  | saved =>
      (sameCode (legacyCode env saved) (token.upper env.host)).map fun matched =>
        (matched,
          record (if legacyCode env saved == "" then "" else env.sha256 (legacyCode env saved))
            (matched && consume_recovery))

/-- `normalized_records[index]["used"] = True` where the code matched. -/
def redeem (entry : Bool × Value) : Value :=
  match entry with
  | (true, .dict saved) => .dict (Dict.insert saved "used" (.bool true))
  | (_, saved) => saved

/-- `not isinstance(item, dict)`. -/
def isLegacy (saved : Value) : Bool := !saved.isDict

/-- The locked part of `verify_user_code`: the answer, and the codes it writes. -/
def redeemCode (token : Text) (digest : String) (consume_recovery : Bool) (codes : List Value) :
    Except PyError (Bool × Option (List Value)) := do
  let entries ← codes.mapM (matchCode env token digest consume_recovery)
  if !entries.any Prod.fst then
    .ok (false, if codes.any isLegacy then some (entries.map Prod.snd) else none)
  else
    let records := if consume_recovery then entries.map redeem else entries.map Prod.snd
    .ok (true, if codes.any isLegacy || consume_recovery then some records else none)

/-- `token = str(token or "").strip().replace(" ", "")`. -/
def presentedToken (token : Text) : Text := token.strip.unspaced

/-- `verify_user_code`: `profile` is the caller's copy, `locked` the row it finds under the lock. -/
def verifyUserCode (profile : Profile) (locked : Option Profile) (token : Text)
    (consume_recovery : Bool) (now : ℤ) : Except PyError (Bool × Option (List Value)) :=
  let token := presentedToken token
  match env.decrypt profile.two_factor_secret_encrypted with
  | none => .ok (false, none)
  | some secret =>
      if secret != "" && validateToken env secret token now then .ok (true, none)
      else if token.isEmpty then .ok (false, none)
      else do
        let digest ← env.sha256 <$> (token.upper env.host).encode
        match locked with
        | none => .ok (false, none)
        | some locked =>
            if !locked.two_factor_enabled then .ok (false, none)
            else redeemCode env token digest consume_recovery locked.two_factor_recovery_codes

/-! ## Runs -/

/-- The row of one user; `generation` counts how often its codes were replaced as a whole. -/
structure TwoFactor where
  row : Profile
  generation : ℕ

/-- What requests do to the row, each in a transaction of its own: a call of `verify_user_code`
with the copy the request has read, and the saves of the security center. -/
inductive CodeAction where
  | verify (profile : Profile) (token : Text) (now : ℤ)
  | enroll (secret_encrypted : String) (codes : List String)
  | disable
  | regenerate (codes : List String)

/-- All callers consume the recovery code; an exception rolls the transaction back. -/
def twoFactorMachine : Machine TwoFactor CodeAction where
  next s
    | .verify profile token now =>
        match verifyUserCode env profile (some s.row) token true now with
        | .ok (_, some codes) =>
            some { s with row := { s.row with two_factor_recovery_codes := codes } }
        | .ok (_, none) => some s
        | .error _ => some s
    | .enroll secret_encrypted codes =>
        some
          { row := ⟨true, secret_encrypted, generateRecoveryCodes env codes⟩
            generation := s.generation + 1 }
    | .disable => some { row := ⟨false, "", []⟩, generation := s.generation + 1 }
    | .regenerate codes =>
        some
          { row := { s.row with two_factor_recovery_codes := generateRecoveryCodes env codes }
            generation := s.generation + 1 }

/-! ## One stored code -/

variable {env} {s s' t : TwoFactor} {token : Text} {digest : String} {consume : Bool}
  {saved r : Value} {m : Bool}

/-- `compare_digest` takes the two texts, if it is called at all. -/
def Taken (stored : String) (presented : Text) : Prop :=
  stored = "" ∨ (Text.ofString stored).isAscii = true ∧ presented.isAscii = true

theorem sameCode_ok {stored : String} {presented : Text} {same : Bool} :
    sameCode stored presented = .ok same ↔
      Taken stored presented ∧ (same = true ↔ stored ≠ "" ∧ Text.ofString stored = presented) := by
  unfold sameCode Taken
  by_cases hempty : stored = ""
  · rw [if_pos (by simpa using hempty), Except.ok.injEq]
    cases same with
    | true => simp [hempty]
    | false => simp [hempty]
  · rw [if_neg (by simpa using hempty), Text.compareDigest_ok, or_iff_right hempty,
      and_iff_right hempty]
    refine and_congr_right fun _ => ?_
    rw [Bool.eq_iff_iff, beq_iff_eq]

theorem exists_sameCode {stored : String} {presented : Text} :
    (∃ same, sameCode stored presented = .ok same) ↔ Taken stored presented := by
  simp only [sameCode_ok]
  constructor
  · rintro ⟨_, h, _⟩
    exact h
  · intro h
    exact ⟨decide (stored ≠ "" ∧ Text.ofString stored = presented), h, decide_eq_true_iff⟩

/-- `compare_digest` takes what is stored together with the token. -/
def Comparable (env : CodeEnv) (token : Text) (saved : Value) : Prop :=
  if isLegacy saved then Taken (legacyCode env saved) (token.upper env.host)
  else (Text.ofString (storedDigest env saved.asDict)).isAscii = true

/-- What the turn of the loop makes of a record. -/
theorem matchCode_dict {saved : Dict}
    (h : matchCode env token digest consume (.dict saved) = .ok (m, r)) :
    r = record (storedDigest env saved) (storedUsed saved) ∧
      (m = true ↔ storedDigest env saved ≠ "" ∧ storedDigest env saved = digest ∧
        storedUsed saved = false) := by
  obtain ⟨same, hsame, h⟩ := map_ok.mp h
  obtain ⟨rfl, rfl⟩ := Prod.mk.inj h
  have hiff := (sameCode_ok.mp hsame).2
  rw [Text.ofString_injective.eq_iff] at hiff
  refine ⟨rfl, ?_⟩
  rw [Bool.and_eq_true, hiff, Bool.not_eq_true', and_assoc]

theorem matchCode_of_legacy (hlegacy : isLegacy saved = true) :
    matchCode env token digest consume saved =
      (sameCode (legacyCode env saved) (token.upper env.host)).map fun matched =>
        (matched,
          record (if legacyCode env saved == "" then "" else env.sha256 (legacyCode env saved))
            (matched && consume)) := by
  cases saved with
  | dict saved => cases hlegacy
  | _ => rfl

/-- What it makes of a code in the clear. -/
theorem matchCode_legacy (hlegacy : isLegacy saved = true)
    (h : matchCode env token digest consume saved = .ok (m, r)) :
    r = record (if legacyCode env saved == "" then "" else env.sha256 (legacyCode env saved))
        (m && consume) ∧
      (m = true ↔ legacyCode env saved ≠ "" ∧
        Text.ofString (legacyCode env saved) = token.upper env.host) ∧
      Taken (legacyCode env saved) (token.upper env.host) := by
  rw [matchCode_of_legacy hlegacy] at h
  obtain ⟨same, hsame, h⟩ := map_ok.mp h
  obtain ⟨rfl, rfl⟩ := Prod.mk.inj h
  obtain ⟨htaken, hiff⟩ := sameCode_ok.mp hsame
  exact ⟨rfl, hiff, htaken⟩

/-- The turn raises nothing exactly if the two can be compared. -/
theorem exists_matchCode (hdigest : (Text.ofString digest).isAscii = true) :
    (∃ entry, matchCode env token digest consume saved = .ok entry) ↔
      Comparable env token saved := by
  have hmap : ∀ {x : Except PyError Bool} {f : Bool → Bool × Value},
      (∃ entry, x.map f = .ok entry) ↔ ∃ b, x = .ok b := by
    intro x f
    simp only [map_ok]
    constructor
    · rintro ⟨_, b, hb, _⟩
      exact ⟨b, hb⟩
    · rintro ⟨b, hb⟩
      exact ⟨f b, b, hb, rfl⟩
  unfold Comparable
  cases hlegacy : isLegacy saved with
  | true =>
    rw [matchCode_of_legacy hlegacy, if_pos rfl]
    exact hmap.trans exists_sameCode
  | false =>
    cases saved with
    | dict saved =>
      have htaken : Taken (storedDigest env saved) (Text.ofString digest) ↔
          (Text.ofString (storedDigest env saved)).isAscii = true := by
        unfold Taken
        rw [hdigest, and_iff_left rfl]
        constructor
        · rintro (hempty | hascii)
          · rw [hempty]
            rfl
          · exact hascii
        · exact Or.inr
      exact hmap.trans (exists_sameCode.trans htaken)
    | _ => cases hlegacy

@[simp] theorem storedDigest_record (d : String) (used : Bool) :
    storedDigest env [("digest", .str d), ("used", .bool used)] = d := rfl

@[simp] theorem storedUsed_record (d : String) (used : Bool) :
    storedUsed [("digest", .str d), ("used", .bool used)] = used := rfl

@[simp] theorem redeem_record (b : Bool) (d : String) (used : Bool) :
    redeem (b, record d used) = record d (b || used) := by
  cases b with
  | true => rfl
  | false => rfl

/-- Every turn leaves a record. -/
theorem exists_record (h : matchCode env token digest consume saved = .ok (m, r)) :
    ∃ d used, r = record d used := by
  cases hlegacy : isLegacy saved with
  | true => exact ⟨_, _, (matchCode_legacy hlegacy h).1⟩
  | false =>
    cases saved with
    | dict saved => exact ⟨_, _, (matchCode_dict h).1⟩
    | _ => cases hlegacy

/-- A record keeps its digest, and matches if it has the token's digest and is not used. -/
theorem matchCode_record {d : String} {used : Bool}
    (h : matchCode env token digest consume (record d used) = .ok (m, r)) :
    r = record d used ∧ (m = true ↔ d ≠ "" ∧ d = digest ∧ used = false) := matchCode_dict h

/-! ## One call -/

/-- The digest the call looks for. -/
def tokenDigest (env : CodeEnv) (token : Text) : Except PyError String :=
  ((presentedToken token).upper env.host).encode.map env.sha256

/-- The token, as the call reads it, matches what is stored. -/
def found (env : CodeEnv) (token : Text) (saved : Value) : Bool :=
  match (tokenDigest env token).bind fun digest =>
    matchCode env (presentedToken token) digest true saved with
  | .ok (matched, _) => matched
  | .error _ => false

/-- The call is over before it looks at the recovery codes. -/
def settled (env : CodeEnv) (profile : Profile) (token : Text) (now : ℤ) : Bool :=
  match env.decrypt profile.two_factor_secret_encrypted with
  | none => true
  | some secret =>
      (secret != "" && validateToken env secret (presentedToken token) now) ||
        (presentedToken token).isEmpty

/-- What the turns of the loop make of the stored codes. -/
def Entries (env : CodeEnv) (token : Text) (digest : String) (codes : List Value)
    (entries : List (Bool × Value)) : Prop :=
  List.Forall₂ (fun saved entry => matchCode env token digest true saved = .ok entry) codes entries

/-- What a call answers, and what it writes. -/
inductive Verified (env : CodeEnv) (row : Profile) (token : Text) :
    Bool × Option (List Value) → Prop
  | keeps (answer : Bool) : Verified env row token (answer, none)
  | migrates (digest : String) (entries : List (Bool × Value))
      (hentries : Entries env (presentedToken token) digest row.two_factor_recovery_codes entries)
      (hnone : ∀ entry ∈ entries, entry.1 = false) :
      Verified env row token (false, some (entries.map Prod.snd))
  | redeems (digest : String) (entries : List (Bool × Value))
      (hdigest : tokenDigest env token = .ok digest)
      (hentries : Entries env (presentedToken token) digest row.two_factor_recovery_codes
        entries) :
      Verified env row token (true, some (entries.map redeem))

theorem verify_spec {profile row : Profile} {now : ℤ} {result : Bool × Option (List Value)}
    (h : verifyUserCode env profile (some row) token true now = .ok result) :
    Verified env row token result := by
  unfold verifyUserCode at h
  dsimp only at h
  split at h
  · cases h
    exact .keeps false
  · split at h
    · cases h
      exact .keeps true
    · split at h
      · cases h
        exact .keeps false
      · obtain ⟨digest, hdigest, h⟩ := bind_ok.mp h
        split at h
        · cases h
          exact .keeps false
        · obtain ⟨entries, hentries, h⟩ := bind_ok.mp h
          split at h
          · next hnone =>
            cases h
            split
            · refine .migrates digest entries (mapM_ok.mp hentries) ?_
              simpa using hnone
            · exact .keeps false
          · cases h
            rw [Bool.or_true, if_pos rfl]
            exact .redeems digest entries hdigest (mapM_ok.mp hentries)

/-- A call raises nothing exactly if it is over before, or can encode the token and compare it. -/
def Handles (env : CodeEnv) (s : TwoFactor) : CodeAction → Prop
  | .verify profile token now =>
      settled env profile token now = true ∨
        (∃ text, (presentedToken token).upper env.host = Text.ofString text) ∧
          (s.row.two_factor_enabled = true →
            ∀ saved ∈ s.row.two_factor_recovery_codes,
              Comparable env (presentedToken token) saved)
  | _ => True

/-- `verify_user_code` raises nothing. -/
def NoRaise (env : CodeEnv) (s : TwoFactor) : CodeAction → Prop
  | .verify profile token now =>
      ∃ result, verifyUserCode env profile (some s.row) token true now = .ok result
  | _ => True

theorem exists_redeemCode (consume : Bool) {codes : List Value}
    (hdigest : (Text.ofString digest).isAscii = true) :
    (∃ result, redeemCode env token digest consume codes = .ok result) ↔
      ∀ saved ∈ codes, Comparable env token saved := by
  have hloop : (∃ result, redeemCode env token digest consume codes = .ok result) ↔
      ∃ entries, codes.mapM (matchCode env token digest consume) = .ok entries := by
    constructor
    · rintro ⟨_, h⟩
      obtain ⟨entries, hentries, _⟩ := bind_ok.mp h
      exact ⟨entries, hentries⟩
    · rintro ⟨entries, hentries⟩
      unfold redeemCode
      rw [hentries]
      simp only [bind, Except.bind]
      split
      · exact ⟨_, rfl⟩
      · exact ⟨_, rfl⟩
  rw [hloop, exists_mapM_ok]
  exact forall₂_congr fun saved _ => exists_matchCode hdigest

theorem noRaise_iff (s : TwoFactor) (action : CodeAction) :
    NoRaise env s action ↔ Handles env s action := by
  cases action with
  | verify profile token now =>
    unfold NoRaise Handles settled verifyUserCode
    dsimp only
    cases hsecret : env.decrypt profile.two_factor_secret_encrypted with
    | none => simp
    | some secret =>
      dsimp only
      split
      · next htotp => simp [htotp]
      · next htotp =>
        rw [Bool.not_eq_true] at htotp
        split
        · next hempty => simp [hempty]
        · next hempty =>
          rw [Bool.not_eq_true] at hempty
          rw [htotp, hempty, Bool.or_false, or_iff_right Bool.false_ne_true]
          cases hencode : ((presentedToken token).upper env.host).encode with
          | error e =>
            have hnot : ¬ ∃ text, (presentedToken token).upper env.host = Text.ofString text := by
              rintro ⟨text, htext⟩
              rw [Text.encode_ok.mpr htext] at hencode
              cases hencode
            simp [hnot, bind, Except.bind]
          | ok text =>
            rw [and_iff_right ⟨text, Text.encode_ok.mp hencode⟩]
            cases henabled : s.row.two_factor_enabled with
            | false => simp [bind, Except.bind]
            | true =>
              rw [← exists_redeemCode true (env.sha256_ascii text)]
              simp [bind, Except.bind]
  | enroll => exact Iff.rfl
  | disable => exact Iff.rfl
  | regenerate => exact Iff.rfl

/-! ## Runs -/

/-- The call accepts the token as a recovery code. -/
def accepts (env : CodeEnv) (s : TwoFactor) : CodeAction → Bool
  | .verify profile token now =>
      match verifyUserCode env profile (some s.row) token true now with
      | .ok (true, some _) => true
      | _ => false
  | _ => false

/-- It is accepted as the code stored at place `i` of generation `g`. -/
def redeemsAt (env : CodeEnv) (g i : ℕ) (s : TwoFactor) (action : CodeAction) : Bool :=
  match action with
  | .verify _ token _ =>
      s.generation == g && accepts env s action &&
        (s.row.two_factor_recovery_codes[i]?).any (found env token)
  | _ => false

/-- How often the code stored at place `i` of generation `g` is accepted. -/
def redemptions (env : CodeEnv) (g i : ℕ) (s : TwoFactor) (action : CodeAction) : ℕ :=
  (redeemsAt env g i s action).toNat

/-- After the call, while the codes are not replaced, none of them matches its token. -/
def GoneSince (env : CodeEnv) (u : TwoFactor) (action : CodeAction) (v : TwoFactor) : Prop :=
  match action with
  | .verify _ token _ => v.generation = u.generation →
      ∀ saved ∈ v.row.two_factor_recovery_codes, found env token saved = false
  | _ => True

/-- Recovery codes are used once. -/
structure SingleUse (env : CodeEnv) (s : TwoFactor) (actions : List CodeAction) (t : TwoFactor) :
    Prop where
  raises_nothing : (twoFactorMachine env).RunIf (NoRaise env) s actions t
  once : ∀ g i, (twoFactorMachine env).total (redemptions env g i) s actions ≤ 1
  gone : Machine.RunIf.Since (twoFactorMachine env) (fun u action => accepts env u action = true)
    (GoneSince env) s actions

/-- A code that has been used. -/
def IsUsed (saved : Value) : Prop := ∃ d, saved = record d true

theorem found_iff (hdigest : tokenDigest env token = .ok digest) :
    found env token saved = true ↔
      ∃ r, matchCode env (presentedToken token) digest true saved = .ok (true, r) := by
  unfold found
  rw [hdigest]
  simp only [Except.bind]
  cases hmatch : matchCode env (presentedToken token) digest true saved with
  | error e => simp
  | ok entry =>
    obtain ⟨m, r⟩ := entry
    simp

/-- A used code matches nothing and stays as it is. -/
theorem IsUsed.matchCode (hused : IsUsed saved)
    (h : matchCode env token digest true saved = .ok (m, r)) : m = false ∧ r = saved := by
  obtain ⟨d, rfl⟩ := hused
  obtain ⟨hr, hm⟩ := matchCode_record h
  refine ⟨?_, hr⟩
  cases m with
  | false => rfl
  | true => cases (hm.mp rfl).2.2

theorem entries_getElem? {codes : List Value} {entries : List (Bool × Value)}
    (h : Entries env token digest codes entries) {i : ℕ} (hsaved : codes[i]? = some saved) :
    ∃ entry, entries[i]? = some entry ∧ matchCode env token digest true saved = .ok entry := by
  obtain ⟨hlt, rfl⟩ := List.getElem?_eq_some_iff.mp hsaved
  have hlen := h.length_eq
  refine ⟨entries[i], List.getElem?_eq_getElem (by omega), ?_⟩
  exact List.Forall₂.get h hlt (by omega)

theorem mem_entries {codes : List Value} {entries : List (Bool × Value)}
    (h : Entries env token digest codes entries) {entry : Bool × Value} (hentry : entry ∈ entries) :
    ∃ saved ∈ codes, matchCode env token digest true saved = .ok entry := by
  induction h with
  | nil => cases hentry
  | cons hhead _ ih =>
    rcases List.mem_cons.mp hentry with rfl | hentry
    · exact ⟨_, List.mem_cons_self, hhead⟩
    · obtain ⟨saved, hsaved, hmatch⟩ := ih hentry
      exact ⟨saved, List.mem_cons_of_mem _ hsaved, hmatch⟩

/-- What an action does to the row: it starts a new generation of codes, leaves them, or is a call
that writes them. -/
inductive CodeStep (env : CodeEnv) (s : TwoFactor) : CodeAction → TwoFactor → Prop
  | replaces (action : CodeAction) (t : TwoFactor) (hgen : t.generation = s.generation + 1)
      (haction : accepts env s action = false) : CodeStep env s action t
  | keeps (action : CodeAction) (haction : accepts env s action = false) : CodeStep env s action s
  | migrates (profile : Profile) (token : Text) (now : ℤ) (digest : String)
      (entries : List (Bool × Value))
      (hentries : Entries env (presentedToken token) digest s.row.two_factor_recovery_codes
        entries)
      (hnone : ∀ entry ∈ entries, entry.1 = false)
      (haction : accepts env s (.verify profile token now) = false) :
      CodeStep env s (.verify profile token now)
        { s with row := { s.row with two_factor_recovery_codes := entries.map Prod.snd } }
  | redeems (profile : Profile) (token : Text) (now : ℤ) (digest : String)
      (entries : List (Bool × Value)) (hdigest : tokenDigest env token = .ok digest)
      (hentries : Entries env (presentedToken token) digest s.row.two_factor_recovery_codes
        entries) :
      CodeStep env s (.verify profile token now)
        { s with row := { s.row with two_factor_recovery_codes := entries.map redeem } }

theorem codeStep {action : CodeAction} (h : (twoFactorMachine env).next s action = some s') :
    CodeStep env s action s' := by
  cases action with
  | verify profile token now =>
    simp only [twoFactorMachine] at h
    have haccepts : accepts env s (.verify profile token now) =
        match verifyUserCode env profile (some s.row) token true now with
        | .ok (true, some _) => true
        | _ => false := rfl
    split at h
    · next answer codes hverify =>
      cases h
      rw [hverify] at haccepts
      cases verify_spec hverify with
      | migrates digest entries hentries hnone =>
        exact .migrates profile token now digest entries hentries hnone haccepts
      | redeems digest entries hdigest hentries =>
        exact .redeems profile token now digest entries hdigest hentries
    · next answer hverify =>
      cases h
      refine .keeps _ ?_
      rw [haccepts, hverify]
      cases answer with
      | true => rfl
      | false => rfl
    · next e hverify =>
      cases h
      refine .keeps _ ?_
      rw [haccepts, hverify]
  | enroll secret_encrypted codes =>
    cases h
    exact .replaces _ _ rfl rfl
  | disable =>
    cases h
    exact .replaces _ _ rfl rfl
  | regenerate codes =>
    cases h
    exact .replaces _ _ rfl rfl

/-! ### Every stored code is accepted at most once -/

/-- The code at place `i` of generation `g` is used, or was replaced. -/
def Spent (g i : ℕ) (s : TwoFactor) : Prop :=
  g < s.generation ∨
    s.generation = g ∧ ∃ saved, s.row.two_factor_recovery_codes[i]? = some saved ∧ IsUsed saved

/-- A used code survives the loop. -/
theorem entries_used {codes : List Value} {entries : List (Bool × Value)} {i : ℕ}
    (h : Entries env token digest codes entries) (hsaved : codes[i]? = some saved)
    (hused : IsUsed saved) :
    (entries.map redeem)[i]? = some saved ∧ (entries.map Prod.snd)[i]? = some saved := by
  obtain ⟨⟨m, r⟩, hentry, hmatch⟩ := entries_getElem? h hsaved
  obtain ⟨rfl, rfl⟩ := hused.matchCode hmatch
  rw [List.getElem?_map, List.getElem?_map, hentry]
  exact ⟨rfl, rfl⟩

theorem spent_step {g i : ℕ} {action : CodeAction} (hspent : Spent g i s)
    (h : CodeStep env s action s') : Spent g i s' := by
  cases h with
  | replaces _ _ hgen =>
    left
    rcases hspent with hlt | ⟨heq, _⟩
    · omega
    · omega
  | keeps => exact hspent
  | migrates profile token now digest entries hentries =>
    rcases hspent with hlt | ⟨heq, saved, hsaved, hused⟩
    · exact Or.inl hlt
    · exact Or.inr ⟨heq, saved, (entries_used hentries hsaved hused).2, hused⟩
  | redeems profile token now digest entries hdigest hentries =>
    rcases hspent with hlt | ⟨heq, saved, hsaved, hused⟩
    · exact Or.inl hlt
    · exact Or.inr ⟨heq, saved, (entries_used hentries hsaved hused).1, hused⟩

/-- The place at which a token is accepted is that of a code that matches it. -/
theorem redeemsAt_found {g i : ℕ} {profile : Profile} {token : Text} {now : ℤ}
    (h : redeemsAt env g i s (.verify profile token now) = true) :
    s.generation = g ∧ ∃ saved, s.row.two_factor_recovery_codes[i]? = some saved ∧
      found env token saved = true := by
  simp only [redeemsAt, Bool.and_eq_true, beq_iff_eq, Option.any_eq_true] at h
  obtain ⟨⟨hgen, _⟩, saved, hsaved, hfound⟩ := h
  exact ⟨hgen, saved, hsaved, hfound⟩

/-- A used code is not found. -/
theorem IsUsed.not_found (hused : IsUsed saved) (token : Text) : found env token saved = false := by
  unfold found
  split
  · next matched r h =>
    cases hdigest : tokenDigest env token with
    | error e =>
      rw [hdigest] at h
      cases h
    | ok digest =>
      rw [hdigest] at h
      exact (hused.matchCode h).1
  · rfl

theorem not_redeemsAt_of_spent {g i : ℕ} {action : CodeAction} (hspent : Spent g i s) :
    redeemsAt env g i s action = false := by
  cases action with
  | verify profile token now =>
    cases h : redeemsAt env g i s (.verify profile token now) with
    | false => rfl
    | true =>
      obtain ⟨hgen, saved, hsaved, hfound⟩ := redeemsAt_found h
      rcases hspent with hlt | ⟨_, saved', hsaved', hused⟩
      · omega
      · obtain rfl := Option.some.inj (hsaved.symm.trans hsaved')
        rw [hused.not_found] at hfound
        cases hfound
  | _ => rfl

/-- A code that is accepted is used afterwards. -/
theorem spent_of_redeemsAt {g i : ℕ} {action : CodeAction}
    (hredeems : redeemsAt env g i s action = true) (h : CodeStep env s action s') :
    Spent g i s' := by
  have haccepts : accepts env s action = true := by
    cases action with
    | verify profile token now =>
      simp only [redeemsAt, Bool.and_eq_true] at hredeems
      exact hredeems.1.2
    | _ => cases hredeems
  cases h with
  | replaces _ _ _ haction =>
    rw [haction] at haccepts
    cases haccepts
  | keeps _ haction =>
    rw [haction] at haccepts
    cases haccepts
  | migrates _ _ _ _ _ _ _ haction =>
    rw [haction] at haccepts
    cases haccepts
  | redeems profile token now digest entries hdigest hentries =>
    obtain ⟨hgen, saved, hsaved, hfound⟩ := redeemsAt_found hredeems
    obtain ⟨r, hmatch⟩ := (found_iff hdigest).mp hfound
    obtain ⟨entry, hentry, hmatch'⟩ := entries_getElem? hentries hsaved
    obtain rfl : (true, r) = entry := Except.ok.inj (hmatch.symm.trans hmatch')
    obtain ⟨d, used, rfl⟩ := exists_record hmatch
    refine Or.inr ⟨hgen, record d true, ?_, d, rfl⟩
    show (entries.map redeem)[i]? = some (record d true)
    rw [List.getElem?_map, hentry]
    rfl

theorem redeemed_once {actions : List CodeAction} {G : TwoFactor → CodeAction → Prop}
    (hrun : (twoFactorMachine env).RunIf G s actions t) (g i : ℕ) :
    (twoFactorMachine env).total (redemptions env g i) s actions ≤ 1 := by
  apply hrun.total_le_one (Spent g i)
  · intro s action s' _ _
    unfold redemptions
    cases redeemsAt env g i s action <;> simp
  · intro s action s' _ hn hspent
    exact spent_step hspent (codeStep hn)
  · intro s action s' _ _ hspent
    rw [redemptions, not_redeemsAt_of_spent hspent]
    rfl
  · intro s action s' _ hn hcost
    refine spent_of_redeemsAt ?_ (codeStep hn)
    unfold redemptions at hcost
    cases hr : redeemsAt env g i s action with
    | true => rfl
    | false =>
      rw [hr] at hcost
      exact absurd rfl hcost

/-! ### An accepted code is gone -/

/-- All codes are records, and the ones with this digest are used. -/
def Withdrawn (digest : String) (codes : List Value) : Prop :=
  ∀ saved ∈ codes, ∃ d used, saved = record d used ∧ (d = digest → d ≠ "" → used = true)

theorem withdrawn_entries {digest' : String} {codes : List Value}
    {entries : List (Bool × Value)} (hgone : Withdrawn digest' codes)
    (h : Entries env token digest codes entries) :
    Withdrawn digest' (entries.map redeem) ∧ Withdrawn digest' (entries.map Prod.snd) := by
  have hrecord : ∀ entry ∈ entries,
      ∃ d used, entry.2 = record d used ∧ (d = digest' → d ≠ "" → used = true) := by
    rintro ⟨m, r⟩ hentry
    obtain ⟨saved, hsaved, hmatch⟩ := mem_entries h hentry
    obtain ⟨d, used, rfl, hused⟩ := hgone saved hsaved
    exact ⟨d, used, (matchCode_record hmatch).1, hused⟩
  constructor
  · intro saved hsaved
    obtain ⟨⟨m, r⟩, hentry, rfl⟩ := List.mem_map.mp hsaved
    obtain ⟨d, used, hr, hused⟩ := hrecord _ hentry
    obtain rfl : r = record d used := hr
    refine ⟨d, m || used, redeem_record m d used, ?_⟩
    intro hd hne
    rw [hused hd hne, Bool.or_true]
  · intro saved hsaved
    obtain ⟨entry, hentry, rfl⟩ := List.mem_map.mp hsaved
    exact hrecord entry hentry

/-- The token's digest is withdrawn by the call that accepts it. -/
theorem withdrawn_of_redeemed {codes : List Value} {entries : List (Bool × Value)}
    (hdigest : tokenDigest env token = .ok digest)
    (h : Entries env (presentedToken token) digest codes entries) :
    Withdrawn digest (entries.map redeem) := by
  intro saved' hsaved'
  obtain ⟨⟨m, r⟩, hentry, rfl⟩ := List.mem_map.mp hsaved'
  obtain ⟨saved, _, hmatch⟩ := mem_entries h hentry
  cases hlegacy : isLegacy saved with
  | false =>
    cases saved with
    | dict saved =>
      obtain ⟨rfl, hm⟩ := matchCode_dict hmatch
      refine ⟨_, _, redeem_record m _ _, ?_⟩
      intro hd hne
      cases hused : storedUsed saved with
      | true => exact Bool.or_true m
      | false => rw [hm.mpr ⟨hne, hd, hused⟩, Bool.true_or]
    | _ => cases hlegacy
  | true =>
    obtain ⟨rfl, hm, htaken⟩ := matchCode_legacy hlegacy hmatch
    refine ⟨_, _, redeem_record m _ _, ?_⟩
    intro hd hne
    by_cases hempty : legacyCode env saved = ""
    · rw [if_pos (by simpa using hempty)] at hne
      exact absurd rfl hne
    · -- two ASCII texts with one digest are one text
      obtain ⟨text, htext, rfl⟩ := map_ok.mp hdigest
      rw [Text.encode_ok] at htext
      rw [if_neg (by simpa using hempty)] at hd
      rcases htaken with hempty' | ⟨hascii, hascii'⟩
      · exact absurd hempty' hempty
      · rw [htext] at hascii'
        have hsame : legacyCode env saved = text := env.sha256_inj _ _ hascii hascii' hd
        rw [hm.mpr ⟨hempty, by rw [hsame, htext]⟩, Bool.true_or]

theorem not_found_of_withdrawn {codes : List Value} (hdigest : tokenDigest env token = .ok digest)
    (h : Withdrawn digest codes) : ∀ saved ∈ codes, found env token saved = false := by
  intro saved hsaved
  cases hfound : found env token saved with
  | false => rfl
  | true =>
    obtain ⟨r, hmatch⟩ := (found_iff hdigest).mp hfound
    obtain ⟨d, used, rfl, hused⟩ := h saved hsaved
    obtain ⟨hne, hd, hfree⟩ := (matchCode_record hmatch).2.mp rfl
    rw [hused hd hne] at hfree
    cases hfree

/-- What the run keeps after an accepted call: the digest is withdrawn until the codes are
replaced. -/
def WithdrawnSince (env : CodeEnv) (u : TwoFactor) (action : CodeAction) (v : TwoFactor) : Prop :=
  match action with
  | .verify _ token _ => ∃ digest, tokenDigest env token = .ok digest ∧
      (u.generation < v.generation ∨
        u.generation = v.generation ∧ Withdrawn digest v.row.two_factor_recovery_codes)
  | _ => True

theorem withdrawnSince_set {action : CodeAction} (haccepts : accepts env s action = true)
    (h : CodeStep env s action s') : WithdrawnSince env s action s' := by
  cases h with
  | replaces _ _ _ haction =>
    rw [haction] at haccepts
    cases haccepts
  | keeps _ haction =>
    rw [haction] at haccepts
    cases haccepts
  | migrates _ _ _ _ _ _ _ haction =>
    rw [haction] at haccepts
    cases haccepts
  | redeems profile token now digest entries hdigest hentries =>
    exact ⟨digest, hdigest, Or.inr ⟨rfl, withdrawn_of_redeemed hdigest hentries⟩⟩

theorem withdrawnSince_keep {u : TwoFactor} {called action : CodeAction}
    (hsince : WithdrawnSince env u called s) (h : CodeStep env s action s') :
    WithdrawnSince env u called s' := by
  cases called with
  | verify profile token now =>
    obtain ⟨digest, hdigest, hor⟩ := hsince
    refine ⟨digest, hdigest, ?_⟩
    cases h with
    | replaces _ _ hgen =>
      left
      rcases hor with hlt | ⟨heq, _⟩
      · omega
      · omega
    | keeps => exact hor
    | migrates _ _ _ _ entries hentries =>
      exact hor.imp_right fun h => ⟨h.1, (withdrawn_entries h.2 hentries).2⟩
    | redeems _ _ _ _ entries _ hentries =>
      exact hor.imp_right fun h => ⟨h.1, (withdrawn_entries h.2 hentries).1⟩
  | _ => trivial

theorem redeemed_gone {actions : List CodeAction} {G : TwoFactor → CodeAction → Prop}
    (hrun : (twoFactorMachine env).RunIf G s actions t) :
    Machine.RunIf.Since (twoFactorMachine env) (fun u action => accepts env u action = true)
      (GoneSince env) s actions := by
  have hsince : Machine.RunIf.Since (twoFactorMachine env)
      (fun u action => accepts env u action = true) (WithdrawnSince env) s actions := by
    refine hrun.since ?_ ?_
    · intro s action s' _ haccepts hn
      exact withdrawnSince_set haccepts (codeStep hn)
    · intro u called s action s' hsince _ hn
      exact withdrawnSince_keep hsince (codeStep hn)
  intro before action after rest u v hactions hbefore haccepts hafter
  have hlast := hsince before action after rest u v hactions hbefore haccepts hafter
  cases action with
  | verify profile token now =>
    obtain ⟨digest, hdigest, hor⟩ := hlast
    intro hgen
    rcases hor with hlt | ⟨_, hwithdrawn⟩
    · omega
    · exact not_found_of_withdrawn hdigest hwithdrawn
  | _ => trivial

/-- In every run the recovery codes are single use and no call raises, exactly if each call can
encode its token and compare it with what is stored. -/
theorem single_use_iff (env : CodeEnv) (s : TwoFactor) (actions : List CodeAction)
    (t : TwoFactor) :
    SingleUse env s actions t ↔ (twoFactorMachine env).RunIf (Handles env) s actions t := by
  constructor
  · intro h
    exact h.raises_nothing.mono fun s action => (noRaise_iff s action).mp
  · intro h
    exact
      ⟨h.mono fun s action => (noRaise_iff s action).mpr, redeemed_once h, redeemed_gone h⟩

/-! ### A token that cannot be compared -/

/-- An environment for examples: an authenticator that accepts nothing, and a digest that leaves
ASCII text as it is. -/
def CodeEnv.plain : CodeEnv where
  host := Host.ascii
  decrypt secret := if secret == "" then some "" else none
  isdigit c := match c with
    | .char c => c.isDigit
    | .surrogate _ => false
  totp _ _ _ := false
  sha256 s := if (Text.ofString s).isAscii then s else ""
  sha256_ascii s := by
    split
    · assumption
    · rfl
  sha256_inj a b ha hb h := by
    rwa [if_pos ha, if_pos hb] at h

/-- A row that still holds a code in the clear. -/
def legacyRow : TwoFactor where
  row := ⟨true, "", [.str "ABCDE12345"]⟩
  generation := 0

/-- Somebody types a numero sign. -/
def numeroCall : CodeAction := .verify legacyRow.row (Text.ofString "№1") 0

/-- `compare_digest` refuses the token, and the exception leaves `verify_user_code`. -/
theorem numero_raises :
    ¬ ∀ s actions t, (twoFactorMachine .plain).Run s actions t → SingleUse .plain s actions t := by
  intro hall
  have hrun : (twoFactorMachine .plain).Run legacyRow [numeroCall] legacyRow :=
    Machine.exec_eq_some_iff.mp rfl
  cases (hall _ _ _ hrun).raises_nothing with
  | cons hcall _ _ =>
    obtain ⟨result, hresult⟩ := hcall
    have herror : (verifyUserCode .plain legacyRow.row (some legacyRow.row) (Text.ofString "№1")
        true 0).isOk = false := by
      decide +kernel
    rw [hresult] at herror
    cases herror

end AlgoBot.Auth
