import ChipEight.Proofs.Hex.Digits
import ChipEight.Proofs.Text.Fields

/-!
# Lines of a listing

A line of a listing is an address, a word and an instruction, and none of them holds a line
end, so the lines are found again in the written text and the word is the second field of
its line. The text that a reader writes, however it came to where its cursor is, is the
lines of the words from the cursor on.
-/

namespace ChipEight

namespace Instruction

theorem lineEnd_not_mem_registerText (x : Register) : '\n' ∉ (registerText x).toList := by
  have all : ∀ x : Register, '\n' ∉ ['V', Hex.digit x] := by decide
  simpa only [registerText, String.toList_ofList] using all x

theorem lineEnd_not_mem_byteText (b : UInt8) : '\n' ∉ (byteText b).toList := by
  simp [byteText, (Hex.allDigits_byte b).lineEnd_not_mem]

theorem lineEnd_not_mem_addressText (a : Address) : '\n' ∉ (addressText a).toList := by
  simp [addressText, (Hex.allDigits_padded 3 a).lineEnd_not_mem]

theorem lineEnd_not_mem_toDigits (n : Fin 16) : '\n' ∉ Nat.toDigits 10 n.val := by
  revert n
  decide

/-- An instruction is written on one line. -/
theorem lineEnd_not_mem_mnemonic (i : Instruction) : '\n' ∉ i.mnemonic.toList := by
  cases i with
  | arithmetic operation x y =>
    cases operation <;>
      simp [mnemonic, Arithmetic.mnemonic, lineEnd_not_mem_registerText]
  | unsupported w => simp [mnemonic, (Hex.allDigits_word w).lineEnd_not_mem]
  | _ =>
    simp [mnemonic, lineEnd_not_mem_registerText, lineEnd_not_mem_byteText,
      lineEnd_not_mem_addressText, lineEnd_not_mem_toDigits]

end Instruction

namespace Listing

theorem line_eq (address : Nat) (w : UInt16) :
    line address w = (Hex.padded 4 address ++ [':']) ++
      ' ' :: (Hex.word w ++ ' ' :: ' ' :: (Instruction.decode w).mnemonic.toList) := by
  simp only [line, List.append_assoc, List.cons_append, List.nil_append]

theorem lineEnd_not_mem_line (address : Nat) (w : UInt16) : '\n' ∉ line address w := by
  rw [line_eq]
  simp [(Hex.allDigits_padded 4 address).lineEnd_not_mem, (Hex.allDigits_word w).lineEnd_not_mem,
    Instruction.lineEnd_not_mem_mnemonic]

/-- The word is the second field of its line. -/
theorem field_line (address : Nat) (w : UInt16) : Text.field 1 (line address w) = Hex.word w := by
  have hblank : Text.isBlank ' ' = true := by decide
  have haddress : ∀ c ∈ Hex.padded 4 address ++ [':'], Text.isBlank c = false := by
    intro c hc
    rcases List.mem_append.mp hc with hc | hc
    · exact (Hex.allDigits_padded 4 address).not_blank c hc
    · rw [List.mem_singleton.mp hc]
      decide
  have hfirst : ∀ (text : List Char), ∀ c ∈ (' ' :: text).head?, Text.isBlank c = true := by
    rintro text c ⟨⟩
    exact hblank
  have hword : Hex.word w ≠ [] := List.cons_ne_nil _ _
  rw [Text.field, line_eq, Text.words_append (by simp) haddress (hfirst _),
    Text.words_cons_blank hblank,
    Text.words_append hword (Hex.allDigits_word w).not_blank (hfirst _)]
  rfl

theorem getElem?_linesFrom (address : Nat) (ws : List UInt16) (k : Nat) :
    (linesFrom address ws)[k]? = ws[k]?.map (line (address + 2 * k)) := by
  induction ws generalizing address k with
  | nil => rfl
  | cons w ws ih =>
    cases k with
    | zero => rfl
    | succ k =>
      have haddress : address + 2 + 2 * k = address + 2 * (k + 1) := by omega
      rw [linesFrom, List.getElem?_cons_succ, ih, haddress, List.getElem?_cons_succ]

@[simp] theorem length_linesFrom (address : Nat) (ws : List UInt16) :
    (linesFrom address ws).length = ws.length := by
  induction ws generalizing address with
  | nil => rfl
  | cons w ws ih => rw [linesFrom, List.length_cons, ih, List.length_cons]

/-- Word `k` is made of the bytes `2 * k` and `2 * k + 1`, the latter being zero behind the end. -/
theorem getElem?_wordsOf (bytes : List UInt8) (k : Nat) :
    (wordsOf bytes)[k]? =
      bytes[2 * k]?.map fun high => Word.ofBytes high (bytes[2 * k + 1]?.getD 0) := by
  induction bytes using wordsOf.induct generalizing k with
  | case1 => rfl
  | case2 b =>
    cases k with
    | zero => rfl
    | succ k => simp [wordsOf, Nat.mul_add]
  | case3 a b rest ih =>
    cases k with
    | zero => rfl
    | succ k => simp [wordsOf, ih, Nat.mul_add]

/-- There is a word for every two bytes and for an odd byte at the end. -/
theorem length_wordsOf (bytes : List UInt8) :
    (wordsOf bytes).length = (bytes.length + 1) / 2 := by
  induction bytes using wordsOf.induct with
  | case1 => rfl
  | case2 b => simp [wordsOf]
  | case3 a b rest ih =>
    simp only [wordsOf, List.length_cons, ih]
    omega

/-- The words of what is left of an image are one word and those two bytes further on. -/
theorem wordsOf_drop {bytes : List UInt8} {cursor : Nat} (h : cursor < bytes.length) :
    wordsOf (bytes.drop cursor) =
      Word.ofBytes (bytes[cursor]?.getD 0) (bytes[cursor + 1]?.getD 0) ::
        wordsOf (bytes.drop (cursor + 2)) := by
  rw [List.drop_eq_getElem_cons h, List.getElem?_eq_getElem h, Option.getD_some]
  by_cases hnext : cursor + 1 < bytes.length
  · rw [List.drop_eq_getElem_cons hnext, List.getElem?_eq_getElem hnext, Option.getD_some, wordsOf]
  · have hend : bytes.drop (cursor + 1) = [] := List.drop_eq_nil_of_le (by omega)
    have hbehind : bytes.drop (cursor + 2) = [] := List.drop_eq_nil_of_le (by omega)
    rw [hend, hbehind, List.getElem?_eq_none (by omega), Option.getD_none]
    rfl

namespace Reader

theorem toEnd_of_lt {r : Reader} (h : r.cursor < r.bytes.length) :
    r.toEnd = (r.next.1 ++ r.next.2.toEnd.1, r.next.2.toEnd.2) := by
  rw [toEnd, if_pos h]

theorem toEnd_of_le {r : Reader} (h : r.bytes.length ≤ r.cursor) : r.toEnd = ([], r) := by
  rw [toEnd, if_neg (Nat.not_lt.mpr h)]

/-- Up to the end of the image, a reader writes the lines of the words from its cursor on. -/
theorem toEnd_eq (r : Reader) :
    r.toEnd.1 =
      unlines (linesFrom (Memory.programStart + r.cursor) (wordsOf (r.bytes.drop r.cursor))) := by
  induction r using toEnd.induct with
  | case1 r h first ih =>
    rw [toEnd_of_lt h, wordsOf_drop h, linesFrom, unlines, List.flatMap_cons]
    exact congrArg (_ ++ ·) ih
  | case2 r h =>
    have hle : r.bytes.length ≤ r.cursor := Nat.not_lt.mp h
    rw [toEnd_of_le hle, List.drop_eq_nil_of_le hle]
    rfl

/-- The whole listing is that of the image, wherever the cursor is. -/
theorem all_eq (r : Reader) : r.all.1 = render r.bytes :=
  toEnd_eq { r with cursor := 0 }

end Reader

/-- The lines of an image are found in its listing. -/
theorem lines_render (bytes : List UInt8) : Text.lines (render bytes) = lines bytes := by
  refine Text.lines_unlines fun text htext => ?_
  obtain ⟨k, hk⟩ := List.getElem?_of_mem htext
  rw [lines, getElem?_linesFrom, Option.map_eq_some_iff] at hk
  obtain ⟨w, -, rfl⟩ := hk
  exact lineEnd_not_mem_line _ _

/-- Line `k` of a listing shows word `k` of the image and where it would lie. -/
theorem getElem?_lines (bytes : List UInt8) (k : Nat) :
    (lines bytes)[k]? = (wordsOf bytes)[k]?.map (line (Memory.programStart + 2 * k)) :=
  getElem?_linesFrom _ _ _

/-- The second column of a listing holds the words of the image. -/
theorem column_render (bytes : List UInt8) :
    Text.column 1 (render bytes) = (wordsOf bytes).map Hex.word := by
  rw [Text.column, lines_render]
  refine List.ext_getElem? fun k => ?_
  rw [List.getElem?_map, getElem?_lines, Option.map_map, List.getElem?_map]
  exact congrArg (Option.map · _) (funext fun w => field_line _ w)

end Listing

end ChipEight
