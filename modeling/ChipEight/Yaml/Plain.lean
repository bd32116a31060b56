import ChipEight.Hex
import ChipEight.Yaml.Node

/-!
# Meanings of plain scalars

A scalar without quotes may stand for an integer or for nothing at all. Integers are
decimal, or hexadecimal, octal or binary behind `0x`, `0o` or `0b`, with a sign in front
if need be; a decimal number of more than one digit does not begin with a zero. A natural
number has no minus sign, not even in front of zero.
-/

namespace ChipEight.Yaml

/-- The value of digits in a base, the first one highest; there is one digit at least. -/
def digitsValue? (base : Nat) (digits : List Char) : Option Nat :=
  match digits with
  | [] => none
  | _ => digits.foldlM (fun value c => do
      let d ← Hex.value? c
      if d < base then some (base * value + d) else none) 0

/-- The value of an integer without a sign. -/
def unsigned? : List Char → Option Nat
  | '0' :: 'x' :: digits => digitsValue? 16 digits
  | '0' :: 'o' :: digits => digitsValue? 8 digits
  | '0' :: 'b' :: digits => digitsValue? 2 digits
  | '0' :: _ :: _ => none
  | digits => digitsValue? 10 digits

/-- The value of a natural number. -/
def natural? : List Char → Option Nat
  | '+' :: digits => unsigned? digits
  | digits => unsigned? digits

/-- The value of an integer. -/
def integer? : List Char → Option Int
  | '-' :: digits => (unsigned? digits).map fun n => -Int.ofNat n
  | text => (natural? text).map Int.ofNat

/-- The words that stand for nothing. -/
def nullWords : List String := ["null", "Null", "NULL", "~"]

namespace Node

/-- The natural number that a plain scalar stands for. -/
def toNat? : Node → Option Nat
  | .scalar false text => natural? text
  | _ => none

/-- The integer that a plain scalar stands for. -/
def toInt? : Node → Option Int
  | .scalar false text => integer? text
  | _ => none

/-- Whether nothing at all is written. -/
def isEmpty : Node → Bool
  | .scalar false [] => true
  | _ => false

/-- Whether a plain scalar stands for nothing. -/
def isNull : Node → Bool
  | .scalar false text => text.isEmpty || nullWords.contains (String.ofList text)
  | _ => false

/-- The text of a scalar. -/
def toText? : Node → Option (List Char)
  | .scalar _ text => some text
  | _ => none

/-- The character of a scalar that has exactly one. -/
def toChar? : Node → Option Char
  | .scalar _ [c] => some c
  | _ => none

/-- The items of a sequence; nothing written stands for no items. -/
def toItems? (n : Node) : Option (List Node) :=
  match n with
  | .sequence items => some items
  | _ => if n.isEmpty then some [] else none

/-- The entries of a mapping by the texts of their keys; nothing written stands for no entries. -/
def toFields? (n : Node) : Option (List (List Char × Node)) :=
  match n with
  | .mapping entries => entries.mapM fun (key, value) => do return (← key.toText?, value)
  | _ => if n.isEmpty then some [] else none

end Node

/-- The entry of a name, if there is one; a repeated name is refused. -/
def field? (fields : List (List Char × Node)) (name : String) : Option (Option Node) :=
  match fields.filter fun entry => entry.1 = name.toList with
  | [] => some none
  | [entry] => some (some entry.2)
  | _ => none

end ChipEight.Yaml
