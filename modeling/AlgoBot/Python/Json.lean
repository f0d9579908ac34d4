import Mathlib.Data.List.Sort
import AlgoBot.Python.Value

/-!
# JSON text

`json.dumps` with sorted keys, as far as concrete runs need it: text is written as
it is, so it is for text that needs no escapes. Results about JSON take a `Host`.
-/

namespace AlgoBot.Python

/-- The separators of `json.dumps`. -/
structure Separators where
  item : String
  key : String

/-- The default ones. -/
def spaced : Separators := ⟨", ", ": "⟩

/-- `separators=(",", ":")`. -/
def compact : Separators := ⟨",", ":"⟩

mutual
/-- `json.dumps(value, sort_keys=True)`. -/
def jsonText (separators : Separators) : Value → String
  | .none => "null"
  | .bool true => "true"
  | .bool false => "false"
  | .int n => toString n
  | .float repr _ => repr
  | .str text => "\"" ++ text ++ "\""
  | .list xs => "[" ++ separators.item.intercalate (jsonTexts separators xs) ++ "]"
  | .dict kvs =>
      let items := (jsonItems separators kvs).insertionSort fun a b => a.1 ≤ b.1
      "\x7b" ++ separators.item.intercalate
        (items.map fun kv => "\"" ++ kv.1 ++ "\"" ++ separators.key ++ kv.2) ++ "\x7d"

def jsonTexts (separators : Separators) : List Value → List String
  | [] => []
  | x :: xs => jsonText separators x :: jsonTexts separators xs

def jsonItems (separators : Separators) : List (String × Value) → List (String × String)
  | [] => []
  | (k, x) :: kvs => (k, jsonText separators x) :: jsonItems separators kvs
end

example : jsonText spaced (.dict [("user", .int 7), ("old", .none), ("action", .str "login")]) =
    "\x7b\"action\": \"login\", \"old\": null, \"user\": 7\x7d" := by
  decide +kernel

end AlgoBot.Python
