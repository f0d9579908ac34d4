import AlgoBot.Python.Value

/-!
# Strings with lone surrogates

A Python string is a list of code points. What a client sends may hold a surrogate that
is part of no pair: JSON can name one, but it has no encoding in UTF-8.
-/

namespace AlgoBot.Python

/-- A code point: a character, or a lone surrogate. -/
inductive CodePoint where
  | char (c : Char)
  | surrogate (n : Fin 2048)
  deriving DecidableEq

/-- Any Python string. -/
abbrev Text := List CodePoint

namespace CodePoint

def isAscii : CodePoint → Bool
  | char c => decide (c.val < 128)
  | surrogate _ => false

def isBlank : CodePoint → Bool
  | char c => isSpace c
  | surrogate _ => false

/-- `upper()` of one code point. -/
def upper (h : Host) : CodePoint → Text
  | char c => (h.upper c).map char
  | surrogate n => [surrogate n]

end CodePoint

namespace Text

/-- A string without surrogates. -/
def ofString (s : String) : Text := s.toList.map CodePoint.char

def isAscii (t : Text) : Bool := t.all CodePoint.isAscii

/-- `t.strip()`. -/
def strip (t : Text) : Text :=
  ((t.dropWhile CodePoint.isBlank).reverse.dropWhile CodePoint.isBlank).reverse

/-- `t.replace(" ", "")`. -/
def unspaced (t : Text) : Text := t.filter fun c => c != .char ' '

/-- `t.upper()`. -/
def upper (h : Host) (t : Text) : Text := t.flatMap (CodePoint.upper h)

/-- `t.encode("utf-8")`, as the string that is encoded; a surrogate raises a
`UnicodeEncodeError`, which is a `ValueError`. -/
def encode : Text → Except PyError String
  | [] => .ok ""
  | .char c :: t => (encode t).map fun s => String.singleton c ++ s
  | .surrogate _ :: _ => .error .ValueError

/-- `hmac.compare_digest` of two strings, which takes ASCII only. -/
def compareDigest (a b : Text) : Except PyError Bool :=
  if a.isAscii && b.isAscii then .ok (a == b) else .error .TypeError

theorem ofString_injective : Function.Injective ofString := by
  intro a b h
  have hlist : a.toList = b.toList :=
    List.map_injective_iff.mpr (fun _ _ hc => CodePoint.char.inj hc) h
  exact String.toList_inj.mp hlist

@[simp] theorem compareDigest_ok {a b : Text} {same : Bool} :
    compareDigest a b = .ok same ↔ (a.isAscii = true ∧ b.isAscii = true) ∧ same = (a == b) := by
  unfold compareDigest
  split
  · next h =>
    rw [Bool.and_eq_true] at h
    simp [h, eq_comm]
  · next h =>
    rw [Bool.and_eq_true] at h
    simp [h]

/-- Text encodes to a string exactly if it is that string. -/
theorem encode_ok {t : Text} {s : String} : t.encode = .ok s ↔ t = ofString s := by
  induction t generalizing s with
  | nil =>
    have hempty : ([] : Text) = ofString "" := rfl
    rw [hempty, ofString_injective.eq_iff]
    exact ⟨Except.ok.inj, congrArg Except.ok⟩
  | cons c t ih =>
    cases c with
    | char c =>
      rw [encode, map_ok]
      constructor
      · rintro ⟨s', hs', rfl⟩
        rw [ih.mp hs']
        simp [ofString]
      · intro h
        cases hs : s.toList with
        | nil => simp [ofString, hs] at h
        | cons d ds =>
          obtain ⟨rfl, ht⟩ : c = d ∧ t = ds.map CodePoint.char := by simpa [ofString, hs] using h
          refine ⟨String.ofList ds, ih.mpr (by simp [ofString, ht]), ?_⟩
          apply String.toList_inj.mp
          simp [hs]
    | surrogate n =>
      constructor
      · intro h
        cases h
      · intro h
        cases hs : s.toList with
        | nil => simp [ofString, hs] at h
        | cons d ds => simp [ofString, hs] at h

end Text

/-! ## ASCII strings -/

/-- Hosts have the same capitals for ASCII strings. -/
theorem upper_of_ascii {h : Host} {text : String}
    (hascii : (text.toList.all fun c => decide (c.val < 128)) = true) :
    upper h text = String.ofList (text.toList.map Char.toUpper) := by
  have hchars : ∀ chars : List Char, (chars.all fun c => decide (c.val < 128)) = true →
      chars.flatMap h.upper = chars.map Char.toUpper := by
    intro chars
    induction chars with
    | nil => exact fun _ => rfl
    | cons c rest ih =>
      intro hall
      rw [List.all_cons, Bool.and_eq_true] at hall
      rw [List.flatMap_cons, List.map_cons, h.upper_ascii c (of_decide_eq_true hall.1), ih hall.2]
      rfl
  rw [upper, hchars _ hascii]

end AlgoBot.Python
