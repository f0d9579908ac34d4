import Mathlib.Data.List.Sort
import AlgoBot.Python.Value

/-!
# The sessions of a user

`_sessions_for` decodes the sessions that have not expired, of all users and the longest-lived
first, and keeps those of one user. It stops after 2000 of them.

* `inventory_complete_iff`: the inventory lists the sessions of a user, each once, and what is
  listed can be revoked, exactly if fewer than 2000 sessions come before each of them.
* `revoked`: a listed session that is not the current one is deleted, and no other.
* `crowded_out`: a session with 2000 longer-lived ones of somebody else.
-/

namespace AlgoBot.Auth.Sessions

open AlgoBot.Python

/-! ## Rows -/

structure Session where
  session_key : String
  session_data : String
  expire_date : ℕ
  deriving DecidableEq, Repr

structure AuditEvent where
  actor_id : ℕ
  action : String
  resource_type : String
  resource_id : String
  outcome : String
  ip_address : Option String
  metadata : List (String × String)
  deriving DecidableEq, Repr

/-- The table of sessions; the key is its primary key. -/
structure SessionStore where
  rows : List Session
  unique : (rows.map Session.session_key).Nodup

/-- `order_by("-expire_date")`; sessions that expire together come as the database has them. -/
structure Ordering where
  order_by : List Session → List Session
  perm : ∀ rows, (order_by rows).Perm rows
  sorted : ∀ rows, (order_by rows).Pairwise fun s t => t.expire_date ≤ s.expire_date

def SessionStore.delete (store : SessionStore) (key : String) : SessionStore where
  rows := store.rows.filter fun s => s.session_key != key
  unique := store.unique.sublist (List.filter_sublist.map _)

/-! ## Views -/

/-- What a request reads: the time, the order of rows, `get_decoded` where it does not raise, and
the user and session it comes with. -/
structure Request where
  host : Host
  now : ℕ
  ordering : Ordering
  get_decoded : String → Option Dict
  user : ℕ
  session_key : Option String
  remote_addr : Option String
  /-- Writing the audit event raises. -/
  audit_fails : Bool

variable (r : Request) (store : SessionStore)

/-- The session is one of the user's. -/
def Request.owns (s : Session) : Bool :=
  match r.get_decoded s.session_data with
  | none => false
  | some data => (data.getD "_auth_user_id" (.str "")).toStr r.host == toString r.user

/-- The unexpired sessions of all users, in their order. -/
def unexpired : List Session :=
  r.ordering.order_by (store.rows.filter fun s => r.now < s.expire_date)

def _sessions_for : List Session := ((unexpired r store).take 2000).filter r.owns

def _fingerprint (session_key : String) : String := r.host.sha256 session_key

def Request.isCurrent (s : Session) : Bool :=
  match r.session_key with
  | none => false
  | some key => key != "" && s.session_key == key

structure Item where
  id : String
  current : Bool
  expires_at : ℕ
  device : String
  deriving DecidableEq, Repr

def item (s : Session) : Item where
  id := _fingerprint r s.session_key
  current := r.isCurrent s
  expires_at := s.expire_date
  device := if r.isCurrent s then "Current browser" else "Other signed-in browser"

def session_inventory : List Item := (_sessions_for r store).map (item r)

inductive Response
  | invalid (detail : String)
  | missing (detail : String)
  | revoked (session : String)
  deriving DecidableEq, Repr

def auditEvent : AuditEvent where
  actor_id := r.user
  action := "Session revoked"
  resource_type := "Security session"
  resource_id := "Other browser session"
  outcome := "success"
  ip_address := r.remote_addr.filter (· != "")
  metadata := [("operation", "revoke_other_session")]

/-- `revoke_session`: the response, the sessions left, and the audit event if one is written. -/
def revoke_session (fingerprint : String) : Response × SessionStore × Option AuditEvent :=
  if fingerprint.length ≠ 64 then (.invalid "Invalid session reference.", store, none)
  else
    match (_sessions_for r store).find? fun s => _fingerprint r s.session_key == fingerprint with
    | none => (.missing "Session not found or already expired.", store, none)
    | some s =>
      if r.isCurrent s then (.invalid "Use Sign out to end the current session.", store, none)
      else (.revoked fingerprint, store.delete s.session_key,
        if r.audit_fails then none else some (auditEvent r))

/-! ## What is asked of them -/

/-- The unexpired sessions of the user. -/
def own : List Session := store.rows.filter fun s => r.now < s.expire_date && r.owns s

/-- The inventory has an item for each of the user's sessions, and no other. -/
def Complete : Prop := (session_inventory r store).Perm ((own r store).map (item r))

/-- Of a session of the user that is not the current one the fingerprint deletes just this session,
and every other fingerprint nothing. -/
structure Revokes : Prop where
  listed : ∀ s ∈ own r store, r.isCurrent s = false →
    (revoke_session r store (_fingerprint r s.session_key)).2.1 = store.delete s.session_key
  other : ∀ fingerprint, (∀ s ∈ own r store, r.isCurrent s = false →
      _fingerprint r s.session_key ≠ fingerprint) →
    (revoke_session r store fingerprint).2.1 = store

/-- A session the platform has fewer than 2000 sessions before. -/
def InFront (s : Session) : Prop := (unexpired r store).idxOf s < 2000

/-- Fingerprints are SHA-256 digests in hexadecimal, and no two sessions of the store share one. -/
structure Digests : Prop where
  length : ∀ s ∈ store.rows, (_fingerprint r s.session_key).length = 64
  collision : ∀ s ∈ store.rows, ∀ t ∈ store.rows,
    _fingerprint r s.session_key = _fingerprint r t.session_key → s.session_key = t.session_key

/-! ## Lists of sessions -/

variable {r store} {s t : Session}

theorem eq_of_key (hs : s ∈ store.rows) (ht : t ∈ store.rows)
    (h : s.session_key = t.session_key) : s = t :=
  List.inj_on_of_nodup_map store.unique hs ht h

theorem mem_unexpired : s ∈ unexpired r store ↔ s ∈ store.rows ∧ r.now < s.expire_date := by
  rw [unexpired, (r.ordering.perm _).mem_iff, List.mem_filter, decide_eq_true_iff]

theorem mem_own : s ∈ own r store ↔ s ∈ unexpired r store ∧ r.owns s = true := by
  rw [own, List.mem_filter, mem_unexpired, Bool.and_eq_true, decide_eq_true_iff, and_assoc]

theorem own_perm : ((unexpired r store).filter r.owns).Perm (own r store) := by
  have hfilter : own r store =
      (store.rows.filter fun s => decide (r.now < s.expire_date)).filter r.owns := by
    rw [own, List.filter_filter]
    exact List.filter_congr fun s _ => Bool.and_comm _ _
  rw [hfilter]
  exact (r.ordering.perm _).filter _

theorem own_of_listed (hs : s ∈ _sessions_for r store) : s ∈ own r store := by
  obtain ⟨htake, howns⟩ := List.mem_filter.mp hs
  exact mem_own.mpr ⟨List.mem_of_mem_take htake, howns⟩

/-- A session of the user is listed exactly if it is in front. -/
theorem listed_iff (hs : s ∈ own r store) : s ∈ _sessions_for r store ↔ InFront r store s := by
  obtain ⟨hmem, howns⟩ := mem_own.mp hs
  rw [_sessions_for, List.mem_filter, List.mem_take_iff_idxOf_lt hmem, InFront]
  exact and_iff_left howns

/-- What is left out are the user's sessions behind the first 2000. -/
theorem complete_iff : Complete r store ↔ ∀ s ∈ own r store, InFront r store s := by
  have hsplit : (unexpired r store).filter r.owns =
      _sessions_for r store ++ ((unexpired r store).drop 2000).filter r.owns := by
    rw [_sessions_for, ← List.filter_append, List.take_append_drop]
  constructor
  · intro hcomplete s hs
    have hlength : (_sessions_for r store).length = (own r store).length := by
      simpa [session_inventory] using hcomplete.length_eq
    have hrest : ((unexpired r store).drop 2000).filter r.owns = [] := by
      rw [← own_perm.length_eq, hsplit, List.length_append] at hlength
      exact List.length_eq_zero_iff.mp (by omega)
    rw [hrest, List.append_nil] at hsplit
    rw [← listed_iff hs, ← hsplit]
    exact own_perm.mem_iff.mpr hs
  · intro hfront
    have hnodup : (unexpired r store).Nodup :=
      (r.ordering.perm _).nodup_iff.mpr (List.Nodup.of_map _ store.unique |>.filter _)
    have hrest : ((unexpired r store).drop 2000).filter r.owns = [] := by
      rw [List.filter_eq_nil_iff]
      intro s hdrop howns
      -- a session cannot be both in front and behind
      have hown := mem_own.mpr ⟨List.mem_of_mem_drop hdrop, howns⟩
      have htake := (List.mem_filter.mp ((listed_iff hown).mpr (hfront s hown))).1
      exact List.disjoint_take_drop hnodup le_rfl htake hdrop
    rw [hrest, List.append_nil] at hsplit
    rw [Complete, session_inventory, ← hsplit]
    exact own_perm.map _

/-! ## Revoking -/

/-- The session a fingerprint finds. -/
theorem found (hdigests : Digests r store) (hs : s ∈ _sessions_for r store) :
    (_sessions_for r store).find? (fun t =>
      _fingerprint r t.session_key == _fingerprint r s.session_key) = some s := by
  cases hfind : (_sessions_for r store).find? fun t =>
      _fingerprint r t.session_key == _fingerprint r s.session_key with
  | none => exact absurd (beq_self_eq_true _) (List.find?_eq_none.mp hfind s hs)
  | some t =>
    have hrow : ∀ u ∈ _sessions_for r store, u ∈ store.rows := fun u hu =>
      (mem_unexpired.mp (mem_own.mp (own_of_listed hu)).1).1
    have ht := hrow t (List.mem_of_find?_eq_some hfind)
    have hsame : _fingerprint r t.session_key = _fingerprint r s.session_key := by
      simpa using List.find?_some hfind
    -- two rows with one digest have one key, and keys are unique
    have hkey := hdigests.collision t ht s (hrow s hs) hsame
    rw [eq_of_key ht (hrow s hs) hkey]

/-- A listed session that is not the current one is deleted by its fingerprint. -/
theorem revoked (hdigests : Digests r store) (hs : s ∈ _sessions_for r store)
    (hcurrent : r.isCurrent s = false) :
    (revoke_session r store (_fingerprint r s.session_key)).2.1 = store.delete s.session_key := by
  have hrow := (mem_unexpired.mp (mem_own.mp (own_of_listed hs)).1).1
  rw [revoke_session, if_neg (not_not.mpr (hdigests.length s hrow)), found hdigests hs]
  simp only [hcurrent, Bool.false_eq_true, if_false]

/-- Every other fingerprint deletes nothing. -/
theorem not_revoked {fingerprint : String}
    (hother : ∀ s ∈ _sessions_for r store, r.isCurrent s = false →
      _fingerprint r s.session_key ≠ fingerprint) :
    (revoke_session r store fingerprint).2.1 = store := by
  rw [revoke_session]
  split
  · rfl
  · split
    · rfl
    · next s hfind =>
      split
      · rfl
      · next hcurrent =>
        have hsame : _fingerprint r s.session_key = fingerprint := by
          simpa using List.find?_some hfind
        exact absurd hsame (hother s (List.mem_of_find?_eq_some hfind)
          (Bool.eq_false_iff.mpr hcurrent))

/-- The inventory is complete and revoking does what is asked of it exactly if the platform has
fewer than 2000 sessions before each of the user's. -/
theorem inventory_complete_iff {r : Request} {store : SessionStore} (hdigests : Digests r store) :
    Complete r store ∧ Revokes r store ↔ ∀ s ∈ own r store, InFront r store s := by
  rw [complete_iff]
  refine and_iff_left_of_imp fun hfront => ⟨fun s hs hcurrent => ?_, fun fingerprint hother => ?_⟩
  · exact revoked hdigests ((listed_iff hs).mpr (hfront s hs)) hcurrent
  · exact not_revoked fun s hs hcurrent => hother s (own_of_listed hs) hcurrent

/-! ## Stores -/

/-- Sessions that expire together come as they are in the table. -/
def byExpiry : Ordering where
  order_by rows := rows.insertionSort fun s t => t.expire_date ≤ s.expire_date
  perm rows := rows.perm_insertionSort _
  sorted rows :=
    haveI : Std.Total fun s t : Session => t.expire_date ≤ s.expire_date :=
      ⟨fun s t => Nat.le_total t.expire_date s.expire_date⟩
    haveI : IsTrans Session fun s t => t.expire_date ≤ s.expire_date :=
      ⟨fun _ _ _ hst htu => Nat.le_trans htu hst⟩
    rows.pairwise_insertionSort _

theorem byExpiry_of_sorted {rows : List Session}
    (hsorted : rows.Pairwise fun s t => t.expire_date ≤ s.expire_date) :
    byExpiry.order_by rows = rows :=
  hsorted.insertionSort_eq

/-- The data of a session is the user it is of; the two digests are those of the keys. -/
def firstUser : Request where
  host := { Host.ascii with
    sha256 := fun key =>
      if key = "a" then "ca978112ca1bbdcafac231b39a23dc4da786eff8147c4e72b9807785afee48bb"
      else "3e23e8160039594a33894f6564e1b1348bbd7a0088d42c4acb73eeaed59c009d" }
  now := 0
  ordering := byExpiry
  get_decoded data := some [("_auth_user_id", .str data)]
  user := 1
  session_key := some "a"
  remote_addr := none
  audit_fails := false

theorem owns_firstUser (s : Session) : firstUser.owns s = (s.session_data == "1") := by
  have hpk : toString firstUser.user = "1" := by decide
  show (s.session_data == toString firstUser.user) = _
  rw [hpk]

/-- Two browsers. -/
def twoBrowsers : SessionStore := ⟨[⟨"a", "1", 1⟩, ⟨"b", "1", 2⟩], by decide⟩

theorem both_listed :
    Digests firstUser twoBrowsers ∧ Complete firstUser twoBrowsers ∧ Revokes firstUser twoBrowsers :=
  have hdigests : Digests firstUser twoBrowsers := ⟨by decide, by decide⟩
  have hfront : ∀ s ∈ own firstUser twoBrowsers, InFront firstUser twoBrowsers s := by
    intro s _
    have hshort : (unexpired firstUser twoBrowsers).length = 2 := by decide
    have hle := List.idxOf_le_length (l := unexpired firstUser twoBrowsers) (a := s)
    exact lt_of_le_of_lt hle (by omega)
  ⟨hdigests, (inventory_complete_iff hdigests).mpr hfront⟩

/-- A key of 32 letters. -/
def letters (i : ℕ) : String :=
  String.ofList (List.replicate 29 'k' ++
    [Char.ofNat (97 + i / 100), Char.ofNat (97 + i / 10 % 10), Char.ofNat (97 + i % 10)])

theorem toNat_letter {n : ℕ} (hn : n < 20) : (Char.ofNat (97 + n)).toNat = 97 + n := by
  have hvalid : (97 + n).isValidChar := Or.inl (by omega)
  rw [Char.ofNat, dif_pos hvalid]
  rfl

theorem letters_injective {i j : ℕ} (hi : i < 2000) (hj : j < 2000) (h : letters i = letters j) :
    i = j := by
  have hlists := List.append_cancel_left (String.ofList_injective h)
  simp only [List.cons.injEq, and_true] at hlists
  obtain ⟨hhundreds, htens, hones⟩ := hlists
  have hhundreds := congrArg Char.toNat hhundreds
  have htens := congrArg Char.toNat htens
  have hones := congrArg Char.toNat hones
  rw [toNat_letter (by omega), toNat_letter (by omega)] at hhundreds htens hones
  omega

/-- Sessions of the second user. -/
def others : List Session := (List.range 2000).map fun i => ⟨letters i, "2", 2⟩

theorem others_nodup : (others.map Session.session_key).Nodup := by
  rw [others, List.map_map]
  refine List.Nodup.map_on (fun i hi j hj h => ?_) List.nodup_range
  exact letters_injective (List.mem_range.mp hi) (List.mem_range.mp hj) h

/-- One more, of the first user, that expires before they do. -/
def crowded : SessionStore where
  rows := others ++ [⟨"00000000000000000000000000000000", "1", 1⟩]
  unique := by
    rw [List.map_append]
    refine others_nodup.append (List.nodup_singleton _) ?_
    intro key hkey hlast
    obtain ⟨s, hs, rfl⟩ := List.mem_map.mp hkey
    obtain ⟨i, _, rfl⟩ := List.mem_map.mp hs
    have hhead := congrArg String.toList (List.mem_singleton.mp hlast)
    simp [letters] at hhead

/-- The session is there and not listed. -/
theorem crowded_out : ¬ ∀ (r : Request) (store : SessionStore), Complete r store := by
  intro hall
  have hcomplete := hall firstUser crowded
  have hall_unexpired : (crowded.rows.filter fun s => decide (firstUser.now < s.expire_date)) =
      crowded.rows := by
    refine List.filter_eq_self.mpr fun s hs => ?_
    rcases List.mem_append.mp hs with hother | hown
    · obtain ⟨i, _, rfl⟩ := List.mem_map.mp hother
      rfl
    · rw [List.mem_singleton.mp hown]
      rfl
  have hsorted : crowded.rows.Pairwise fun s t => t.expire_date ≤ s.expire_date := by
    refine List.pairwise_append.mpr ⟨?_, List.pairwise_singleton _ _, ?_⟩
    · exact List.pairwise_map.mpr (List.pairwise_of_forall fun _ _ => le_rfl)
    · intro s hs t ht
      obtain ⟨i, _, rfl⟩ := List.mem_map.mp hs
      rw [List.mem_singleton.mp ht]
      exact Nat.le_succ 1
  have hunexpired : unexpired firstUser crowded = crowded.rows := by
    rw [unexpired, hall_unexpired]
    exact byExpiry_of_sorted hsorted
  have hfront : crowded.rows.take 2000 = others :=
    List.take_left' (by rw [others, List.length_map, List.length_range])
  have hnone : session_inventory firstUser crowded = [] := by
    rw [session_inventory, _sessions_for, hunexpired, hfront, List.map_eq_nil_iff,
      List.filter_eq_nil_iff]
    intro s hs
    obtain ⟨i, _, rfl⟩ := List.mem_map.mp hs
    rw [owns_firstUser]
    exact Bool.false_ne_true
  rw [Complete, hnone] at hcomplete
  have hown : (⟨"00000000000000000000000000000000", "1", 1⟩ : Session) ∈ own firstUser crowded :=
    List.mem_filter.mpr ⟨List.mem_append_right _ List.mem_cons_self, by decide⟩
  exact List.not_mem_nil (hcomplete.mem_iff.mpr (List.mem_map_of_mem hown))

end AlgoBot.Auth.Sessions
