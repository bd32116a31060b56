import ChipEight.Hex
import ChipEight.Text.Unprintable

/-!
# Quoted text

A text in double quotes, for messages that show what was read. A double quote and a
backslash get a backslash in front of them; NUL, tab, line feed and carriage return have
short forms; every other character that has no printed form of its own is written as its
code point in hexadecimal.
-/

namespace ChipEight.Text

/-- How one character is written between quotes. -/
def escape (c : Char) : List Char :=
  if c = '"' ∨ c = '\\' then ['\\', c]
  else if c = '\x00' then ['\\', '0']
  else if c = '\t' then ['\\', 't']
  else if c = '\n' then ['\\', 'n']
  else if c = '\r' then ['\\', 'r']
  else if isUnprintable c then "\\u\x7b".toList ++ Hex.smallDigits c.toNat ++ ['}']
  else [c]

/-- A text between double quotes. -/
def quoted (s : List Char) : List Char := '"' :: s.flatMap escape ++ ['"']

/-- No printable character of ASCII is in the table. -/
theorem not_isUnprintable_of_ascii {c : Char} (low : 0x20 ≤ c.toNat) (high : c.toNat < 0x7F) :
    isUnprintable c = false := by
  have outside : unprintableRanges.all (fun r => r.2 < 0x20 || 0x7F ≤ r.1) = true := by
    decide +kernel
  rw [isUnprintable, List.any_eq_false]
  intro r hr
  have hout := List.all_eq_true.1 outside r hr
  simp only [Bool.or_eq_true, decide_eq_true_eq] at hout
  simp only [decide_eq_true_eq]
  omega

/-- A printable character of ASCII is written as it is, quotes and backslashes apart. -/
theorem escape_of_ascii {c : Char} (low : 0x20 ≤ c.toNat) (high : c.toNat < 0x7F)
    (notQuote : c ≠ '"') (notBackslash : c ≠ '\\') : escape c = [c] := by
  have hNul : c ≠ '\x00' := by rintro rfl; simp at low
  have hTab : c ≠ '\t' := by rintro rfl; simp at low
  have hFeed : c ≠ '\n' := by rintro rfl; simp at low
  have hReturn : c ≠ '\r' := by rintro rfl; simp at low
  simp [escape, notQuote, notBackslash, hNul, hTab, hFeed, hReturn,
    not_isUnprintable_of_ascii low high]

end ChipEight.Text
