/-!
# Hexadecimal digits

A digit and its value are defined side by side; reading a digit that was written gives
the value back. Numbers are written with capital digits, most significant first, as
bytes, as words of four digits, or filled up with zeros to a least width.
-/

namespace ChipEight.Hex

/-- The digit of a value below sixteen, a capital letter from ten on. -/
def digit (n : Nat) : Char := Char.ofNat (if n < 10 then 48 + n else 55 + n)

/-- The digit of a value below sixteen, a small letter from ten on. -/
def smallDigit (n : Nat) : Char := Char.ofNat (if n < 10 then 48 + n else 87 + n)

/-- The value of a digit in either case; any other character has none. -/
def value? (c : Char) : Option Nat :=
  let n := c.toNat
  if 48 ≤ n ∧ n ≤ 57 then some (n - 48)
  else if 65 ≤ n ∧ n ≤ 70 then some (n - 55)
  else if 97 ≤ n ∧ n ≤ 102 then some (n - 87)
  else none

/-- Reading a written digit gives its value back. -/
theorem value?_digit {n : Nat} (h : n < 16) : value? (digit n) = some n := by
  have all : ∀ k : Fin 16, value? (digit k) = some k.val := by decide
  exact all ⟨n, h⟩

/-- Both cases of a digit have the same value. -/
theorem value?_smallDigit {n : Nat} (h : n < 16) : value? (smallDigit n) = some n := by
  have all : ∀ k : Fin 16, value? (smallDigit k) = some k.val := by decide
  exact all ⟨n, h⟩

/-- A digit's value is below sixteen. -/
theorem value?_lt {c : Char} {n : Nat} (h : value? c = some n) : n < 16 := by
  simp only [value?] at h
  split at h <;> (try split at h) <;> (try split at h) <;> simp at h <;> omega

/-- The digits of a number in base sixteen, without leading zeros; zero has the one digit 0. -/
def digitsWith (digitOf : Nat → Char) (n : Nat) : List Char :=
  if n < 16 then [digitOf n] else digitsWith digitOf (n / 16) ++ [digitOf (n % 16)]

/-- Capital digits of a number. -/
def digits (n : Nat) : List Char := digitsWith digit n

/-- Small digits of a number. -/
def smallDigits (n : Nat) : List Char := digitsWith smallDigit n

/-- Capital digits of a number, filled up with zeros on the left to at least the given width. -/
def padded (width n : Nat) : List Char :=
  List.replicate (width - (digits n).length) '0' ++ digits n

/-- The two digits of a byte. -/
def byte (b : UInt8) : List Char := [digit (b.toNat / 16), digit (b.toNat % 16)]

/-- The four digits of a word. -/
def word (w : UInt16) : List Char :=
  let n := w.toNat
  [digit (n / 4096), digit (n / 256 % 16), digit (n / 16 % 16), digit (n % 16)]

/-- A word is written with four digits. -/
@[simp] theorem length_word (w : UInt16) : (word w).length = 4 := rfl

end ChipEight.Hex
