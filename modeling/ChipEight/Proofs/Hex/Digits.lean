import ChipEight.ProgramImage
import ChipEight.Word

/-!
# Written numbers

Numbers in hexadecimal digits and the way back. A number below 65536 that is filled up to
four digits is written like a word of that value. Four digits are read as the two bytes of
the number that they stand for, so a written word is read as its own bytes, and an image
has the bytes of each of its words in their places.
-/

namespace ChipEight

namespace Hex

/-- The number that digits stand for, the most significant first. -/
def number? (text : List Char) : Option Nat :=
  text.foldlM (fun n c => (value? c).map (16 * n + ·)) 0

/-- The digits of base sixteen: those of base ten and the first six letters, capital or small. -/
def IsDigit (c : Char) : Prop :=
  '0'.toNat ≤ c.toNat ∧ c.toNat ≤ '9'.toNat ∨ 'A'.toNat ≤ c.toNat ∧ c.toNat ≤ 'F'.toNat ∨
    'a'.toNat ≤ c.toNat ∧ c.toNat ≤ 'f'.toNat

instance (c : Char) : Decidable (IsDigit c) := inferInstanceAs (Decidable (_ ∨ _))

/-- Exactly the digits have a value. -/
theorem isSome_value?_iff {c : Char} : (value? c).isSome = true ↔ IsDigit c := by
  have hdigit : IsDigit c ↔ 48 ≤ c.toNat ∧ c.toNat ≤ 57 ∨ 65 ≤ c.toNat ∧ c.toNat ≤ 70 ∨
      97 ≤ c.toNat ∧ c.toNat ≤ 102 := Iff.rfl
  rw [hdigit, value?]
  grind

/-- A small letter of ASCII becomes a capital one, and any other character stays. -/
theorem toNat_toUpper (c : Char) :
    c.toUpper.toNat =
      if 97 ≤ c.toNat ∧ c.toNat ≤ 122 then c.toNat - 32 else c.toNat := by
  have hsmall : 'a'.val ≤ c.val ∧ c.val ≤ 'z'.val ↔ 97 ≤ c.toNat ∧ c.toNat ≤ 122 := by
    simp only [UInt32.le_iff_toNat_le]
    exact Iff.rfl
  have hshift : ('A'.val - 'a'.val).toNat = 4294967264 := by decide
  delta Char.toUpper
  by_cases h : 97 ≤ c.toNat ∧ c.toNat ≤ 122
  · rw [if_pos h, dif_pos (hsmall.mpr h), ← Char.toNat_val, UInt32.toNat_add, hshift,
      Char.toNat_val]
    omega
  · rw [if_neg h, dif_neg fun hl => h (hsmall.mp hl)]

theorem toNat_digit {n : Nat} (h : n < 16) :
    (digit n).toNat = if n < 10 then 48 + n else 55 + n := by
  have all : ∀ k : Fin 16, (digit k).toNat = if k.val < 10 then 48 + k.val else 55 + k.val := by
    decide
  exact all ⟨n, h⟩

/-- A character has the value whose digit it is, when it is made capital. -/
theorem value?_eq_some_iff {c : Char} {n : Nat} :
    value? c = some n ↔ n < 16 ∧ c.toUpper = digit n := by
  rw [← Char.toNat_inj, toNat_toUpper]
  constructor
  · intro h
    have hn := value?_lt h
    refine ⟨hn, ?_⟩
    rw [toNat_digit hn]
    simp only [value?] at h
    grind
  · rintro ⟨hn, h⟩
    rw [toNat_digit hn] at h
    simp only [value?]
    grind

/-- Every character of a text is a capital digit. -/
def AllDigits (text : List Char) : Prop := ∀ c ∈ text, ∃ d, d < 16 ∧ c = digit d

theorem AllDigits.not_blank {text : List Char} (h : AllDigits text) :
    ∀ c ∈ text, Text.isBlank c = false := by
  have all : ∀ d : Fin 16, Text.isBlank (digit d) = false := by decide
  intro c hc
  obtain ⟨d, hd, rfl⟩ := h c hc
  exact all ⟨d, hd⟩

theorem AllDigits.lineEnd_not_mem {text : List Char} (h : AllDigits text) : '\n' ∉ text :=
  fun hc => absurd (h.not_blank _ hc) (by decide)

theorem allDigits_digits (n : Nat) : AllDigits (digits n) := by
  unfold digits
  induction n using Nat.strongRecOn with
  | ind n ih =>
    intro c hc
    rw [digitsWith] at hc
    split at hc
    · next hn => exact ⟨n, hn, List.mem_singleton.mp hc⟩
    · next hn =>
      rcases List.mem_append.mp hc with hc | hc
      · exact ih (n / 16) (by omega) c hc
      · exact ⟨n % 16, Nat.mod_lt _ (by decide), List.mem_singleton.mp hc⟩

theorem allDigits_padded (width n : Nat) : AllDigits (padded width n) := by
  intro c hc
  rcases List.mem_append.mp hc with hc | hc
  · exact ⟨0, by decide, List.eq_of_mem_replicate hc⟩
  · exact allDigits_digits n c hc

theorem allDigits_byte (b : UInt8) : AllDigits (byte b) := by
  have hb := b.toNat_lt
  intro c hc
  simp only [byte, List.mem_cons, List.not_mem_nil, or_false] at hc
  rcases hc with rfl | rfl
  · exact ⟨_, by omega, rfl⟩
  · exact ⟨_, by omega, rfl⟩

/-- The digits of a byte are those of its two halves. -/
theorem byte_ofNat {p q : Nat} (hp : p < 16) (hq : q < 16) :
    byte (UInt8.ofNat (16 * p + q)) = [digit p, digit q] := by
  have hbyte : (UInt8.ofNat (16 * p + q)).toNat = 16 * p + q := Nat.mod_eq_of_lt (by omega)
  have hhigh : (16 * p + q) / 16 = p := by omega
  have hlow : (16 * p + q) % 16 = q := by omega
  rw [byte, hbyte, hhigh, hlow]

/-- A word is written as its two bytes are. -/
theorem word_ofBytes (a b : UInt8) : word (Word.ofBytes a b) = byte a ++ byte b := by
  have ha := a.toNat_lt
  have hb := b.toNat_lt
  have h1 : (256 * a.toNat + b.toNat) / 4096 = a.toNat / 16 := by omega
  have h2 : (256 * a.toNat + b.toNat) / 256 % 16 = a.toNat % 16 := by omega
  have h3 : (256 * a.toNat + b.toNat) / 16 % 16 = b.toNat / 16 := by omega
  have h4 : (256 * a.toNat + b.toNat) % 16 = b.toNat % 16 := by omega
  simp only [word, Word.toNat_ofBytes, h1, h2, h3, h4, byte, List.cons_append, List.nil_append]

theorem allDigits_word (w : UInt16) : AllDigits (word w) := by
  rw [← Word.ofBytes_high_low w, word_ofBytes]
  intro c hc
  rcases List.mem_append.mp hc with hc | hc
  · exact allDigits_byte _ c hc
  · exact allDigits_byte _ c hc

/-- A number that is filled up ends with its last digit. -/
theorem padded_succ {width : Nat} (h : 0 < width) (n : Nat) :
    padded (width + 1) n = padded width (n / 16) ++ [digit (n % 16)] := by
  by_cases hn : n < 16
  · have hall : digits n = [digit n] := by rw [digits, digitsWith, if_pos hn]
    have hnone : digits 0 = ['0'] := by rw [digits, digitsWith]; rfl
    have hzeros : List.replicate width '0' = List.replicate (width - 1) '0' ++ ['0'] := by
      rw [← List.replicate_succ', Nat.sub_add_cancel h]
    rw [padded, padded, hall, Nat.div_eq_of_lt hn, Nat.mod_eq_of_lt hn, hnone]
    simp only [List.length_singleton, Nat.add_sub_cancel]
    rw [hzeros]
  · have hsplit : digits n = digits (n / 16) ++ [digit (n % 16)] := by
      rw [digits, digitsWith, if_neg hn, digits]
    rw [padded, padded, hsplit, List.length_append, List.length_singleton, Nat.add_sub_add_right,
      List.append_assoc]

/-- Numbers of at most four digits are filled up to exactly four, as words are. -/
theorem padded_four {n : Nat} (h : n < 65536) : padded 4 n = word (UInt16.ofNat n) := by
  have hn : (UInt16.ofNat n).toNat = n := Nat.mod_eq_of_lt h
  have hone : padded 1 (n / 4096) = [digit (n / 4096)] := by
    have hlt : n / 4096 < 16 := by omega
    rw [padded, digits, digitsWith, if_pos hlt]
    rfl
  rw [padded_succ (by decide), padded_succ (by decide), padded_succ (by decide)]
  simp only [Nat.div_div_eq_div_mul, Nat.reduceMul, hone, word, hn]
  rfl

end Hex

namespace ProgramImage

/-- Two written bytes are read as these bytes. -/
theorem readWord_bytes (a b : UInt8) : readWord (Hex.byte a ++ Hex.byte b) = .ok (a, b) := by
  have ha := a.toNat_lt
  have hb := b.toNat_lt
  have h1 := Hex.value?_digit (show a.toNat / 16 < 16 by omega)
  have h2 := Hex.value?_digit (show a.toNat % 16 < 16 by omega)
  have h3 := Hex.value?_digit (show b.toNat / 16 < 16 by omega)
  have h4 := Hex.value?_digit (show b.toNat % 16 < 16 by omega)
  simp only [readWord, Hex.byte, List.cons_append, List.nil_append, h1, h2, h3, h4,
    Nat.div_add_mod, UInt8.ofNat_toNat]

/-- A written word is read as its two bytes. -/
theorem readWord_word (w : UInt16) : readWord (Hex.word w) = .ok (Word.high w, Word.low w) := by
  have hbytes := readWord_bytes (Word.high w) (Word.low w)
  rwa [← Hex.word_ofBytes, Word.ofBytes_high_low] at hbytes

/-- A word that can be read stands for the number of its two bytes. -/
theorem number?_of_readWord {token : List Char} {high low : UInt8}
    (h : readWord token = .ok (high, low)) :
    Hex.number? token = some (Word.ofBytes high low).toNat := by
  unfold readWord at h
  split at h
  · next a b c d =>
    split at h
    · next p q r s hp hq hr hs =>
      have hp' := Hex.value?_lt hp
      have hq' := Hex.value?_lt hq
      have hr' := Hex.value?_lt hr
      have hs' := Hex.value?_lt hs
      obtain ⟨rfl, rfl⟩ := Prod.mk.inj (Except.ok.inj h)
      simp only [Hex.number?, List.foldlM_cons, List.foldlM_nil, hp, hq, hr, hs, Option.map_some,
        Option.bind_eq_bind, Option.bind_some, Option.pure_def, Word.toNat_ofBytes,
        UInt8.toNat_ofNat', Option.some.injEq]
      omega
    · cases h
  · cases h

/-- Written words are read as their bytes. -/
theorem readWords_map_word (position : Nat) (ws : List UInt16) :
    readWords position (ws.map Hex.word) =
      .ok (ws.flatMap fun w => [Word.high w, Word.low w]) := by
  induction ws generalizing position with
  | nil => rfl
  | cons w ws ih =>
    rw [List.map_cons, readWords, readWord_word]
    simp only [ih, Except.map, List.flatMap_cons, List.cons_append, List.nil_append]

/-- An image that could be read has the bytes of each of its words in their places. -/
theorem getElem?_of_readWords {position : Nat} {ws : List (List Char)}
    {bytes : List UInt8} (h : readWords position ws = .ok bytes) {k : Nat}
    (hk : 2 * k < bytes.length) :
    ∃ token high low, ws[k]? = some token ∧ readWord token = .ok (high, low) ∧
      bytes[2 * k]? = some high ∧ bytes[2 * k + 1]? = some low := by
  induction ws generalizing position bytes k with
  | nil =>
    obtain rfl : [] = bytes := Except.ok.inj h
    cases hk
  | cons w ws ih =>
    rw [readWords] at h
    cases hw : readWord w with
    | error defect =>
      rw [hw] at h
      cases h
    | ok pair =>
      obtain ⟨high, low⟩ := pair
      rw [hw] at h
      cases hrest : readWords (position + 1) ws with
      | error bad =>
        rw [hrest] at h
        cases h
      | ok rest =>
        rw [hrest] at h
        obtain rfl : high :: low :: rest = bytes := Except.ok.inj h
        cases k with
        | zero => exact ⟨w, high, low, rfl, hw, rfl, rfl⟩
        | succ k =>
          have hk' : 2 * k < rest.length := by
            simp only [List.length_cons] at hk
            omega
          exact ih hrest hk'

end ProgramImage

end ChipEight
