import Mathlib.Data.List.Basic
import Mathlib.Data.List.DropRight
import AlgoBot.Core.Decimal

/-!
# Python values, as far as the modelled code looks into them

JSON bodies, metadata columns and provider replies are Python values. A float is
kept as what the code reads of it: its `repr` and its truncation by `int()`.

What the interpreter takes from its Unicode tables, its JSON codec and its hash
library is a `Host`. The model is stated for every host, so its results hold for
the tables of any interpreter version; `Host.ascii` is the one the concrete runs
use, and on ASCII text it agrees with all of them.
-/

namespace AlgoBot.Python

open AlgoBot.Core

/-- A JSON-like Python value. -/
inductive Value where
  | none
  | bool (b : Bool)
  | int (n : ℤ)
  | float (repr : String) (trunc : ℤ)
  | str (s : String)
  | list (xs : List Value)
  | dict (kvs : List (String × Value))
deriving Repr, Inhabited

/-- The items of a `dict`. -/
abbrev Dict := List (String × Value)

/-- The exceptions the modelled code can raise. -/
inductive PyError where
  | ValueError
  | TypeError
  | AttributeError
  | OverflowError
  | DecimalOverflow
  | IntegrityError
  | DataError
deriving DecidableEq, Repr

/-- A computation that returns has a first part that returns. -/
theorem bind_ok {ε α β : Type} {x : Except ε α} {f : α → Except ε β} {b : β} :
    (x >>= f) = .ok b ↔ ∃ a, x = .ok a ∧ f a = .ok b := by
  cases x with
  | error e => simp [bind, Except.bind]
  | ok a => simp [bind, Except.bind]

theorem map_ok {ε α β : Type} {x : Except ε α} {f : α → β} {b : β} :
    x.map f = .ok b ↔ ∃ a, x = .ok a ∧ f a = b := by
  cases x with
  | error e => simp [Except.map]
  | ok a => simp [Except.map]

theorem mapError_ok {ε ε' α : Type} {x : Except ε α} {f : ε → ε'} {a : α} :
    x.mapError f = .ok a ↔ x = .ok a := by
  cases x with
  | error e => simp [Except.mapError]
  | ok b => simp [Except.mapError]

/-- A loop that returns has returned at every element. -/
theorem mapM_ok {ε α β : Type} {f : α → Except ε β} {xs : List α} {ys : List β} :
    xs.mapM f = .ok ys ↔ List.Forall₂ (fun x y => f x = .ok y) xs ys := by
  induction xs generalizing ys with
  | nil => simp [pure, Except.pure, eq_comm]
  | cons x xs ih =>
    rw [List.mapM_cons, bind_ok]
    constructor
    · rintro ⟨y, hy, hrest⟩
      obtain ⟨zs, hzs, he⟩ := bind_ok.mp hrest
      obtain rfl : y :: zs = ys := Except.ok.inj he
      exact List.Forall₂.cons hy (ih.mp hzs)
    · rintro (_ | ⟨hy, hys⟩)
      exact ⟨_, hy, bind_ok.mpr ⟨_, ih.mpr hys, rfl⟩⟩

/-- Where the body returns at every element, the loop returns. -/
theorem exists_mapM_ok {ε α β : Type} {f : α → Except ε β} {xs : List α} :
    (∃ ys, xs.mapM f = .ok ys) ↔ ∀ x ∈ xs, ∃ y, f x = .ok y := by
  simp only [mapM_ok]
  induction xs with
  | nil => simp
  | cons x xs ih =>
    rw [List.forall_mem_cons, ← ih]
    constructor
    · rintro ⟨_, _ | ⟨hy, hys⟩⟩
      exact ⟨⟨_, hy⟩, _, hys⟩
    · rintro ⟨⟨y, hy⟩, ys, hys⟩
      exact ⟨y :: ys, List.Forall₂.cons hy hys⟩

/-- What is found under a key is an item. -/
theorem mem_of_lookup {α β : Type} [BEq α] [LawfulBEq α] {kvs : List (α × β)} {k : α} {v : β}
    (hlookup : kvs.lookup k = some v) : (k, v) ∈ kvs := by
  obtain ⟨before, after, rfl, _⟩ := List.lookup_eq_some_iff.mp hlookup
  exact List.mem_append_right _ List.mem_cons_self

/-- Unicode tables, JSON codec and hash of the running interpreter. -/
structure Host where
  upper : Char → List Char
  lower : String → String
  digit? : Char → Option ℕ
  repr : Value → String
  loads : String → Option Value
  dumps : Value → String
  sha256 : String → String
  upper_ne_nil : ∀ c, upper c ≠ []
  upper_upper : ∀ c, (upper c).flatMap upper = upper c
  upper_ascii : ∀ c : Char, c.val < 128 → upper c = [c.toUpper]
  digit_ascii : ∀ c : Char, c.val < 128 →
    digit? c = if c.isDigit then some (c.toNat - 48) else Option.none

/-- A capital moves up by 32, every other character stays. -/
theorem toLower_cases (c : Char) :
    (65 ≤ c.toNat ∧ c.toNat ≤ 90 ∧ c.toLower.toNat = c.toNat + 32) ∨
      (c.toLower = c ∧ ¬ (65 ≤ c.toNat ∧ c.toNat ≤ 90)) := by
  unfold Char.toLower
  by_cases h : 'A'.val ≤ c.val ∧ c.val ≤ 'Z'.val
  · left
    have hsmall : c.toNat ≤ 90 := h.2
    refine ⟨h.1, h.2, ?_⟩
    rw [dif_pos h]
    show (c.val + 32).toNat = c.val.toNat + 32
    rw [UInt32.toNat_add]
    simp
    omega
  · right
    exact ⟨dif_neg h, h⟩

/-- A small letter moves down by 32, every other character stays. -/
theorem toUpper_cases (c : Char) :
    (97 ≤ c.toNat ∧ c.toNat ≤ 122 ∧ c.toUpper.toNat = c.toNat - 32) ∨
      (c.toUpper = c ∧ ¬ (97 ≤ c.toNat ∧ c.toNat ≤ 122)) := by
  unfold Char.toUpper
  by_cases h : 'a'.val ≤ c.val ∧ c.val ≤ 'z'.val
  · left
    have hletter : 97 ≤ c.toNat ∧ c.toNat ≤ 122 := h
    refine ⟨h.1, h.2, ?_⟩
    rw [dif_pos h]
    show (c.val + 4294967264).toNat = c.val.toNat - 32
    rw [UInt32.toNat_add]
    simp
    omega
  · right
    exact ⟨dif_neg h, h⟩

theorem toLower_toLower (c : Char) : c.toLower.toLower = c.toLower := by
  rcases toLower_cases c with ⟨hlow, hhigh, hlower⟩ | ⟨hc, _⟩
  · -- a small letter is above the capitals
    rcases toLower_cases c.toLower with ⟨_, hcapital, _⟩ | ⟨hc, _⟩
    · omega
    · exact hc
  · rw [hc, hc]

theorem toUpper_toUpper (c : Char) : c.toUpper.toUpper = c.toUpper := by
  rcases toUpper_cases c with ⟨hlow, hhigh, hupper⟩ | ⟨hc, _⟩
  · -- a capital is below the small letters
    rcases toUpper_cases c.toUpper with ⟨hsmall, _, _⟩ | ⟨hc, _⟩
    · omega
    · exact hc
  · rw [hc, hc]

theorem toUpper_toLower (c : Char) : c.toLower.toUpper = c.toUpper := by
  apply Char.toNat_inj.mp
  rcases toLower_cases c with ⟨hlow, hhigh, hlower⟩ | ⟨hsame, _⟩
  · rcases toUpper_cases c.toLower with ⟨_, _, hupper⟩ | ⟨_, hnot⟩
    · rcases toUpper_cases c with ⟨_, _, _⟩ | ⟨hc, _⟩
      · omega
      · rw [hc]
        omega
    · omega
  · rw [hsame]

theorem ascii_of_toLower {c : Char} (hc : c.toLower.val < 128) : c.val < 128 := by
  rcases toLower_cases c with ⟨_, hhigh, _⟩ | ⟨hsame, _⟩
  · have hnat : c.val.toNat ≤ 90 := hhigh
    exact UInt32.lt_iff_toNat_lt.mpr (by simpa using by omega)
  · rwa [hsame] at hc

/-- The host that knows ASCII only: other characters have no case and are no digits. -/
def Host.ascii : Host where
  upper c := [c.toUpper]
  lower s := String.ofList (s.toList.map Char.toLower)
  digit? c := if c.isDigit then some (c.toNat - 48) else Option.none
  repr _ := ""
  loads _ := Option.none
  dumps _ := ""
  sha256 s := s
  upper_ne_nil := by simp
  upper_upper c := congrArg List.singleton (toUpper_toUpper c)
  upper_ascii _ _ := rfl
  digit_ascii _ _ := rfl

/-- A host whose tables lower ASCII text as they all do. -/
structure TextHost extends Host where
  lower_ascii : ∀ s : String, (s.toList.all fun c => c.val < 128) = true →
    lower s = String.ofList (s.toList.map Char.toLower)

/-- ASCII words without capitals. -/
def inLowerCase (words : List String) : Bool :=
  words.all fun w => w.toList.all fun c => decide (c.val < 128) && c.toLower == c

/-- Lowering leaves such words as they are. -/
theorem TextHost.lower_of_mem (h : TextHost) {words : List String}
    (hwords : inLowerCase words = true) {w : String} (hw : w ∈ words) : h.lower w = w := by
  have hchars : ∀ c ∈ w.toList, c.val < 128 ∧ c.toLower = c := by
    simpa using List.all_eq_true.mp hwords w hw
  have hascii : (w.toList.all fun c => c.val < 128) = true := by
    simpa using fun c hc => (hchars c hc).1
  have hsame : w.toList.map Char.toLower = w.toList := by
    rw [List.map_congr_left fun c hc => (hchars c hc).2, List.map_id']
  rw [h.lower_ascii w hascii, hsame, String.ofList_toList]

def TextHost.ascii : TextHost := { Host.ascii with lower_ascii := fun _ _ => rfl }

namespace Value

/-- Truth value testing. -/
def truthy : Value → Bool
  | .none => false
  | .bool b => b
  | .int n => n != 0
  | .float r _ => r != "0.0" && r != "-0.0"
  | .str s => s != ""
  | .list xs => !xs.isEmpty
  | .dict kvs => !kvs.isEmpty

/-- `a or b`. -/
def or (a b : Value) : Value := if a.truthy then a else b

/-- `isinstance(v, dict)`. -/
def isDict : Value → Bool
  | .dict _ => true
  | _ => false

/-- `v if isinstance(v, dict) else {}`. -/
def asDict : Value → Dict
  | .dict kvs => kvs
  | _ => []

/-- `str(v)`. -/
def toStr (h : Host) : Value → String
  | .none => "None"
  | .bool true => "True"
  | .bool false => "False"
  | .int n => toString n
  | .float r _ => r
  | .str s => s
  | v@(.list _) => h.repr v
  | v@(.dict _) => h.repr v

mutual
/-- Equality of JSON values, as a key lookup in a JSON column compares them. -/
def beq : Value → Value → Bool
  | .none, .none => true
  | .bool a, .bool b => a == b
  | .int a, .int b => a == b
  | .float a _, .float b _ => a == b
  | .str a, .str b => a == b
  | .list xs, .list ys => beqList xs ys
  | .dict xs, .dict ys => xs.length == ys.length && beqDict xs ys
  | _, _ => false

def beqList : List Value → List Value → Bool
  | [], [] => true
  | x :: xs, y :: ys => beq x y && beqList xs ys
  | _, _ => false

/-- The order of the items does not matter. -/
def beqDict : List (String × Value) → List (String × Value) → Bool
  | [], _ => true
  | (k, x) :: xs, ys =>
    (match ys.lookup k with
      | some y => beq x y
      | Option.none => false) && beqDict xs ys
end

@[simp] theorem truthy_str (s : String) : (Value.str s).truthy = (s != "") := rfl

@[simp] theorem toStr_str (h : Host) (s : String) : (Value.str s).toStr h = s := rfl

end Value

namespace Dict

/-- `d.get(key)`. -/
def get (d : Dict) (key : String) : Value := (d.lookup key).getD .none

/-- `key in d`. -/
def contains (d : Dict) (key : String) : Bool := (d.lookup key).isSome

/-- `d.get(key, default)`. -/
def getD (d : Dict) (key : String) (dflt : Value) : Value := (d.lookup key).getD dflt

/-- The dict after `d[key] = v`. -/
def insert (d : Dict) (key : String) (v : Value) : Dict :=
  if d.contains key then d.map fun kv => if kv.1 = key then (key, v) else kv
  else d ++ [(key, v)]

/-- `{**d, **e}`. -/
def merge (d e : Dict) : Dict := e.foldl (fun acc kv => acc.insert kv.1 kv.2) d

/-- The first truthy value among the keys, `d.get(k1) or d.get(k2) or ...`. -/
def firstOf (d : Dict) : List String → Value
  | [] => .none
  | [k] => d.get k
  | k :: ks => (d.get k).or (d.firstOf ks)

/-- Writing the value of a key in place. -/
theorem lookup_map_set (d : Dict) (key : String) (v : Value) (k : String) :
    (d.map fun kv => if kv.1 = key then (key, v) else kv).lookup k =
      if k = key then (d.lookup key).map fun _ => v else d.lookup k := by
  induction d with
  | nil => simp
  | cons kv d ih =>
    rcases kv with ⟨k', v'⟩
    by_cases hk' : k' = key
    · subst hk'
      by_cases hk : k = k'
      · simp [hk]
      · have hne : (k == k') = false := by simpa using hk
        simpa [List.lookup_cons, hk, hne] using ih
    · have hne' : (key == k') = false := by simpa using Ne.symm hk'
      by_cases hk : k = k'
      · subst hk
        simp [hk']
      · have hne : (k == k') = false := by simpa using hk
        simpa [List.lookup_cons, hk', hne, hne'] using ih

theorem lookup_insert (d : Dict) (key : String) (v : Value) (k : String) :
    (d.insert key v).lookup k = if k = key then some v else d.lookup k := by
  unfold insert
  split
  · next hkey =>
    rcases Option.isSome_iff_exists.mp hkey with ⟨old, hold⟩
    rw [lookup_map_set, hold, Option.map_some]
  · next hkey =>
    have hnone : d.lookup key = Option.none := by
      cases hl : d.lookup key with
      | none => rfl
      | some old => simp [contains, hl] at hkey
    rw [List.lookup_append]
    by_cases hk : k = key
    · simp [hk, hnone]
    · have hne : (k == key) = false := by simpa using hk
      simp [hk, hne, List.lookup_cons]

theorem get_insert (d : Dict) (key : String) (v : Value) (k : String) :
    (d.insert key v).get k = if k = key then v else d.get k := by
  rw [get, lookup_insert]
  split <;> rfl

theorem getD_insert (d : Dict) (key : String) (v : Value) (k : String) (dflt : Value) :
    (d.insert key v).getD k dflt = if k = key then v else d.getD k dflt := by
  rw [getD, lookup_insert]
  split <;> rfl

theorem getD_of_contains {d : Dict} {key : String} (hkey : d.contains key = true)
    (dflt dflt' : Value) : d.getD key dflt = d.getD key dflt' := by
  obtain ⟨v, hv⟩ := Option.isSome_iff_exists.mp hkey
  rw [Dict.getD, Dict.getD, hv]
  rfl

theorem getD_of_not_contains {d : Dict} {key : String} (hkey : d.contains key = false)
    (dflt : Value) : d.getD key dflt = dflt := by
  have hnone : d.lookup key = none := by simpa [Dict.contains] using hkey
  rw [Dict.getD, hnone]
  rfl

end Dict

/-! ## Text -/

/-- `str(v or dflt)`. -/
def textOr (h : Host) (v : Value) (dflt : String) : String := (v.or (.str dflt)).toStr h

theorem textOr_str (h : Host) (s : String) : textOr h (.str s) "" = s := by
  unfold textOr Value.or
  split
  · rfl
  · next hs =>
    have hempty : s = "" := by simpa using hs
    rw [hempty]
    rfl

/-- Characters `str.strip` removes. -/
def isSpace (c : Char) : Bool :=
  let n := c.toNat
  (9 ≤ n && n ≤ 13) || (28 ≤ n && n ≤ 32) || n == 0x85 || n == 0xa0 || n == 0x1680 ||
    (0x2000 ≤ n && n ≤ 0x200a) || n == 0x2028 || n == 0x2029 || n == 0x202f || n == 0x205f ||
    n == 0x3000

def stripChars (cs : List Char) : List Char :=
  ((cs.dropWhile isSpace).reverse.dropWhile isSpace).reverse

/-- `s.strip()`. -/
def strip (s : String) : String := String.ofList (stripChars s.toList)

/-- `s.upper()`. -/
def upper (h : Host) (s : String) : String := String.ofList (s.toList.flatMap h.upper)

/-- `s.replace(" ", "")`. -/
def unspaced (s : String) : String := String.ofList (s.toList.filter fun c => c != ' ')

/-- `s[:n]`. -/
def take (n : ℕ) (s : String) : String := String.ofList (s.toList.take n)

@[simp] theorem toList_strip (s : String) : (strip s).toList = stripChars s.toList := by
  simp [strip]

@[simp] theorem toList_take (n : ℕ) (s : String) : (take n s).toList = s.toList.take n := by
  simp [take]

/-- Text without the blanks at its end. -/
def stripEnd (cs : List Char) : List Char := (cs.reverse.dropWhile isSpace).reverse

theorem stripEnd_of_forall {cs : List Char} (h : ∀ c ∈ cs, isSpace c = false) :
    stripEnd cs = cs := by
  have hkeep : cs.reverse.dropWhile isSpace = cs.reverse := by
    cases hcs : cs.reverse with
    | nil => rfl
    | cons c ds =>
      have hc : c ∈ cs := by
        rw [← List.mem_reverse, hcs]
        exact List.mem_cons_self
      simp [h c hc]
  rw [stripEnd, hkeep, List.reverse_reverse]

/-- What stands behind text without blanks at its ends is stripped on its own. -/
theorem stripChars_append {c d : Char} {cs ds : List Char} (hc : isSpace c = false)
    (hd : isSpace d = false) :
    stripChars (c :: cs ++ d :: ds) = c :: cs ++ d :: stripEnd ds := by
  have hhead : (c :: cs ++ d :: ds).dropWhile isSpace = c :: cs ++ d :: ds := by
    simp [hc]
  have hrev : (c :: cs ++ d :: ds).reverse = ds.reverse ++ d :: (c :: cs).reverse := by simp
  have hend : (d :: (c :: cs).reverse).dropWhile isSpace = d :: (c :: cs).reverse := by
    simp [hd]
  rw [stripChars, hhead, hrev, List.dropWhile_append, hend, stripEnd]
  split
  · next hempty =>
    have hnil : ds.reverse.dropWhile isSpace = [] := List.isEmpty_iff.mp hempty
    simp [hnil]
  · simp

/-! ## Case and blanks -/

/-- A host whose case tables leave the blanks of a text where they are. -/
structure CaseHost extends TextHost where
  lower_strip : ∀ s, lower (strip s) = strip (lower s)
  upper_space : ∀ c, isSpace c = false → ∀ d ∈ upper c, isSpace d = false

theorem stripChars_map {f : Char → Char} (hf : ∀ c, isSpace (f c) = isSpace c) (cs : List Char) :
    stripChars (cs.map f) = (stripChars cs).map f := by
  have hcomp : isSpace ∘ f = isSpace := funext hf
  simp only [stripChars, List.dropWhile_map, hcomp, ← List.map_reverse]

/-- Characters up to `z` and not below `A` are no blanks. -/
theorem isSpace_of_letter {c : Char} (hlow : 65 ≤ c.toNat) (hhigh : c.toNat ≤ 122) :
    isSpace c = false := by
  unfold isSpace
  simp only [Bool.or_eq_false_iff, Bool.and_eq_false_iff, decide_eq_false_iff_not,
    beq_eq_false_iff_ne]
  omega

theorem isSpace_toLower (c : Char) : isSpace c.toLower = isSpace c := by
  rcases toLower_cases c with ⟨hlow, hhigh, hlower⟩ | ⟨hc, _⟩
  · rw [isSpace_of_letter hlow (by omega), isSpace_of_letter (by omega) (by omega)]
  · rw [hc]

theorem isSpace_toUpper (c : Char) : isSpace c.toUpper = isSpace c := by
  rcases toUpper_cases c with ⟨hlow, hhigh, hupper⟩ | ⟨hc, _⟩
  · rw [isSpace_of_letter (by omega) hhigh, isSpace_of_letter (by omega) (by omega)]
  · rw [hc]

def CaseHost.ascii : CaseHost where
  toTextHost := TextHost.ascii
  lower_strip s := by
    have hmap := stripChars_map isSpace_toLower s.toList
    simp [TextHost.ascii, Host.ascii, strip, hmap]
  upper_space c hc d hd := by
    have hdc : d = c.toUpper := List.mem_singleton.mp hd
    rw [hdc, isSpace_toUpper, hc]

/-- Text without blanks at its ends. -/
def Trimmed (cs : List Char) : Prop :=
  (∀ c ∈ cs.head?, isSpace c = false) ∧ ∀ c ∈ cs.getLast?, isSpace c = false

theorem Trimmed.stripChars_eq {cs : List Char} (hcs : Trimmed cs) : stripChars cs = cs := by
  have hfront : cs.dropWhile isSpace = cs := by
    cases cs with
    | nil => rfl
    | cons c cs => simp [hcs.1 c rfl]
  have hback : cs.reverse.dropWhile isSpace = cs.reverse := by
    have hlast := hcs.2
    rw [← List.head?_reverse] at hlast
    cases hrev : cs.reverse with
    | nil => rfl
    | cons c ds => 
      rw [hrev] at hlast
      simp [hlast c rfl]
  rw [stripChars, hfront, hback, List.reverse_reverse]

theorem trimmed_stripChars (cs : List Char) : Trimmed (stripChars cs) := by
  have hback : stripChars cs = (cs.dropWhile isSpace).rdropWhile isSpace := rfl
  constructor
  · intro c hc
    rcases List.rdropWhile_prefix isSpace (l := cs.dropWhile isSpace) with ⟨blanks, hblanks⟩
    have hhead : c ∈ (cs.dropWhile isSpace).head? := by
      rw [← hblanks, ← hback, List.head?_append, hc]
      rfl
    have hnot := List.head?_dropWhile_not isSpace cs
    rw [hhead] at hnot
    exact hnot
  · intro c hc
    have hne : stripChars cs ≠ [] := by
      intro hnil
      simp [hnil] at hc
    have hnot := List.rdropWhile_last_not isSpace (cs.dropWhile isSpace) hne
    have hlast : (stripChars cs).getLast hne = c := by
      rw [List.getLast?_eq_some_getLast hne] at hc
      exact Option.some.inj hc
    rw [← hlast]
    exact Bool.eq_false_iff.mpr hnot

/-- Upper-casing keeps the blanks out. -/
theorem Trimmed.upper (h : CaseHost) {cs : List Char} (hcs : Trimmed cs) :
    Trimmed (cs.flatMap h.upper) := by
  constructor
  · intro d hd
    cases cs with
    | nil => simp at hd
    | cons c cs =>
      have hmem : d ∈ h.upper c := by
        cases hu : h.upper c with
        | nil => exact absurd hu (h.upper_ne_nil c)
        | cons e es =>
          have hde : e = d := by simpa [hu] using hd
          simp [hde]
      exact h.upper_space c (hcs.1 c rfl) d hmem
  · intro d hd
    cases cs using List.reverseRecOn with
    | nil => simp at hd
    | append_singleton cs c =>
      have hmem : d ∈ h.upper c := by
        rw [List.flatMap_append, List.flatMap_singleton,
          List.getLast?_append_of_ne_nil _ (h.upper_ne_nil c)] at hd
        exact List.mem_of_getLast? hd
      exact h.upper_space c (hcs.2 c (by simp)) d hmem

theorem strip_eq_self {s : String} : strip s = s ↔ Trimmed s.toList := by
  constructor
  · intro hs
    rw [← hs, toList_strip]
    exact trimmed_stripChars _
  · intro hs
    rw [strip, hs.stripChars_eq, String.ofList_toList]

@[simp] theorem strip_strip (s : String) : strip (strip s) = strip s := by
  rw [strip_eq_self, toList_strip]
  exact trimmed_stripChars _

/-- Text without blanks at its ends has none in upper case either. -/
theorem strip_upper (h : CaseHost) {s : String} (hs : strip s = s) :
    strip (upper h.toHost s) = upper h.toHost s := by
  have hupper := (strip_eq_self.mp hs).upper h
  rw [strip_eq_self, upper, String.toList_ofList]
  exact hupper

/-- `s.split(sep)` for a one-character separator. -/
def split (sep : Char) (s : String) : List String := (s.toList.splitOn sep).map String.ofList

/-- `s.partition(sep)` for a one-character separator. -/
def partition (sep : Char) (s : String) : String × String × String :=
  let before := s.toList.takeWhile (· != sep)
  let rest := s.toList.dropWhile (· != sep)
  (String.ofList before, String.ofList (rest.take 1), String.ofList (rest.drop 1))

/-- `needle in s`. -/
def contains (needle s : String) : Bool :=
  s.toList.tails.any fun t => needle.toList.isPrefixOf t

/-- Upper-casing a nonempty string leaves a nonempty string. -/
theorem upper_ne_empty (h : Host) {s : String} (hs : s ≠ "") : upper h s ≠ "" := by
  intro he
  have hnil : s.toList.flatMap h.upper = [] := by
    have := congrArg String.toList he
    simpa [upper] using this
  have hs' : s.toList ≠ [] := fun hn => hs (by simpa using congrArg String.ofList hn)
  obtain ⟨c, hc⟩ := List.exists_mem_of_ne_nil _ hs'
  exact h.upper_ne_nil c (List.flatMap_eq_nil_iff.mp hnil c hc)

/-- Upper-casing twice is upper-casing once. -/
@[simp] theorem upper_upper (h : Host) (s : String) : upper h (upper h s) = upper h s := by
  have key : ∀ l : List Char, (l.flatMap h.upper).flatMap h.upper = l.flatMap h.upper := by
    intro l
    induction l with
    | nil => rfl
    | cons c l ih => simp [List.flatMap_cons, List.flatMap_append, h.upper_upper, ih]
  simp [upper, key]

/-- Where the lowered text is ASCII, the text is, and uppers as its letters do. -/
theorem upper_of_toLower (h : Host) {s w : String}
    (hs : String.ofList (s.toList.map Char.toLower) = w)
    (hascii : ∀ c ∈ w.toList, c.val < 128) :
    upper h s = String.ofList (w.toList.map Char.toUpper) := by
  have hw : w.toList = s.toList.map Char.toLower := by rw [← hs, String.toList_ofList]
  have hchars : ∀ c ∈ s.toList, h.upper c = [c.toLower.toUpper] := by
    intro c hc
    have hlower : c.toLower.val < 128 := hascii _ (by
      rw [hw]
      exact List.mem_map_of_mem hc)
    rw [h.upper_ascii c (ascii_of_toLower hlower), toUpper_toLower]
  have hflat : s.toList.flatMap h.upper = (s.toList.map Char.toLower).map Char.toUpper := by
    rw [List.flatMap_congr hchars, List.map_map, List.map_eq_flatMap]
    rfl
  rw [upper, hflat, hw]

/-! ## Numbers -/

/-- Longest digit string `int()` converts. -/
def intMaxStrDigits : ℕ := 4300

/-- The digits of an integer literal; single underscores may separate digits. -/
def intDigits (h : Host) : Bool → List Char → Option (List ℕ)
  | prev, [] => if prev then some [] else Option.none
  | prev, c :: cs =>
    if c = '_' then (if prev then intDigits h false cs else Option.none)
    else match h.digit? c with
      | some d => (intDigits h true cs).map (d :: ·)
      | Option.none => Option.none

/-- `int(s)` for a string; `none` is a `ValueError`. -/
def intOfText (h : Host) (s : String) : Option ℤ :=
  let (neg, body) := Dec.takeSign (stripChars s.toList)
  match intDigits h false body with
  | some ds =>
    if intMaxStrDigits < ds.length then Option.none
    else some (if neg then -(Dec.ofDigits ds : ℤ) else Dec.ofDigits ds)
  | Option.none => Option.none

/-- `str(n)` for an integer; `none` is the `ValueError` of one that is too long. -/
def textOfInt (n : ℕ) : Option String :=
  if intMaxStrDigits < (Nat.toDigits 10 n).length then Option.none else some (toString n)

theorem isSpace_of_isDigit {c : Char} (hc : c.isDigit = true) : isSpace c = false := by
  have hrange : 48 ≤ c.toNat ∧ c.toNat ≤ 57 := by
    simpa [Char.isDigit, UInt32.le_iff_toNat_le] using hc
  simp [isSpace]
  omega

/-- The digits of a numeral are read one by one. -/
theorem intDigits_of_isDigit (h : Host) {cs : List Char} (hcs : ∀ c ∈ cs, c.isDigit = true)
    (prev : Bool) (hne : prev = true ∨ cs ≠ []) :
    intDigits h prev cs = some (cs.map fun c => c.toNat - 48) := by
  induction cs generalizing prev with
  | nil =>
    rcases hne with rfl | hne
    · rfl
    · exact absurd rfl hne
  | cons c cs ih =>
    have hc := hcs c List.mem_cons_self
    have hrange : 48 ≤ c.toNat ∧ c.toNat ≤ 57 := by
      simpa [Char.isDigit, UInt32.le_iff_toNat_le] using hc
    have hunder : c ≠ '_' := by
      rintro rfl
      exact absurd hrange.2 (by decide)
    have hascii : c.val < 128 := by
      have hlt : c.toNat < 128 := by omega
      exact hlt
    rw [intDigits, if_neg hunder, h.digit_ascii c hascii, if_pos hc]
    have hrest := ih (fun d hd => hcs d (List.mem_cons_of_mem c hd)) true (Or.inl rfl)
    simp only [hrest, Option.map_some, List.map_cons]

/-- Reading back what was written. -/
theorem intOfText_textOfInt (h : Host) {n : ℕ} {s : String} (hs : textOfInt n = some s) :
    intOfText h s = some (n : ℤ) := by
  obtain ⟨hlength, hn⟩ := Option.ite_none_left_eq_some.mp hs
  have hlist : s.toList = Nat.toDigits 10 n := by
    rw [← Option.some.inj hn]
    exact Nat.toList_repr
  have hdigit : ∀ c ∈ Nat.toDigits 10 n, c.isDigit = true := by
    intro c hc
    exact Nat.isDigit_of_mem_toDigits (by decide) (by decide) hc
  have hstrip : stripChars (Nat.toDigits 10 n) = Nat.toDigits 10 n := by
    refine Trimmed.stripChars_eq ⟨?_, ?_⟩
    · intro c hc
      exact isSpace_of_isDigit (hdigit c (List.mem_of_mem_head? hc))
    · intro c hc
      exact isSpace_of_isDigit (hdigit c (List.mem_of_getLast? hc))
  have hsign : Dec.takeSign (Nat.toDigits 10 n) = (false, Nat.toDigits 10 n) := by
    unfold Dec.takeSign
    split
    · next cs hcs => exact absurd (hdigit '-' (hcs ▸ List.mem_cons_self)) (by decide)
    · next cs hcs => exact absurd (hdigit '+' (hcs ▸ List.mem_cons_self)) (by decide)
    · rfl
  have hvalue : Dec.ofDigits ((Nat.toDigits 10 n).map fun c => c.toNat - 48) = n := by
    have hback := Nat.ofDigitChars_ten_toDigits (n := n)
    rw [Nat.ofDigitChars_eq_foldl] at hback
    rw [Dec.ofDigits, List.foldl_map]
    simpa [Nat.mul_comm] using hback
  rw [intOfText, hlist, hstrip, hsign]
  simp only [intDigits_of_isDigit h hdigit false (Or.inr Nat.toDigits_ne_nil), List.length_map,
    if_neg hlength, hvalue, Bool.false_eq_true, if_false]

/-- `int(v)`. -/
def Value.toInt (h : Host) : Value → Except PyError ℤ
  | .none => .error .TypeError
  | .bool b => .ok (if b then 1 else 0)
  | .int n => .ok n
  | .float r t =>
    if r = "nan" then .error .ValueError
    else if r = "inf" ∨ r = "-inf" then .error .OverflowError
    else .ok t
  | .str s => match intOfText h s with
    | some n => .ok n
    | Option.none => .error .ValueError
  | .list _ => .error .TypeError
  | .dict _ => .error .TypeError

/-- `Decimal(s)`; `none` is an `InvalidOperation`. Blanks around the number and
underscores anywhere in it are ignored. -/
def decimalOfText (h : Host) (s : String) : Option Dec :=
  let ascii := ((stripChars s.toList).filter (· ≠ '_')).map fun c =>
    match h.digit? c with
    | some d => Char.ofNat (48 + d)
    | Option.none => c
  Dec.ofChars ascii

end AlgoBot.Python
