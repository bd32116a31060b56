import ChipEight.Key
import ChipEight.Text.Quoted

/-!
# Keys in data

A key in a settings file is an integer, the value of the key. Anything else is refused
with words that say what stood there and what was expected.
-/

namespace ChipEight

/-- A piece of data where a key is expected. -/
inductive Datum
  | integer (value : Int)
  | boolean (value : Bool)
  | text (value : String)
  deriving DecidableEq, Repr

/-- Why a piece of data is no key. -/
inductive KeyFault
  /-- It is an integer that is the value of no key. -/
  | value (n : Int)
  /-- It is no integer. -/
  | type (found : Datum)
  deriving DecidableEq, Repr

namespace Datum

/-- A piece of data in words. -/
def describe : Datum → String
  | integer n => "integer `" ++ toString n ++ "`"
  | boolean b => "boolean `" ++ (if b then "true" else "false") ++ "`"
  | text s => "string " ++ String.ofList (Text.quoted s.toList)

end Datum

/-- The wording of the refusal. -/
def KeyFault.message : KeyFault → String
  | value n => "invalid value: " ++ (Datum.integer n).describe ++ ", expected " ++ Key.rangeText
  | type found => "invalid type: " ++ found.describe ++ ", expected an integer between 0 and 15"

/-- The key that a piece of data stands for. -/
def Key.ofDatum : Datum → Except KeyFault Key
  | .integer n =>
    if 0 ≤ n then
      match Key.ofNat? n.toNat with
      | some k => .ok k
      | none => .error (.value n)
    else .error (.value n)
  | d => .error (.type d)

end ChipEight
