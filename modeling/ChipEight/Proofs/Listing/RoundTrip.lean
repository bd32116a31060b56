import ChipEight.Proofs.Listing.Lines

/-!
# Reading a listing back

A listing is a way to write an image: its second column, the words joined by any blanks, is
an image in hexadecimal text again, with the same bytes and one zero byte more where their
number is odd. The listing does not depend on what its reader was asked for before, and
reading it line by line gives the same text.
-/

namespace ChipEight.Listing

/-- The words of an image have its bytes, and a zero byte behind an odd one at the end. -/
theorem flatMap_wordsOf (bytes : List UInt8) :
    (wordsOf bytes).flatMap (fun w => [Word.high w, Word.low w]) =
      bytes ++ List.replicate (bytes.length % 2) 0 := by
  induction bytes using wordsOf.induct with
  | case1 => rfl
  | case2 b => simp [wordsOf]
  | case3 a b rest ih =>
    have hparity : (rest.length + 1 + 1) % 2 = rest.length % 2 := by omega
    simp only [wordsOf, List.flatMap_cons, Word.high_ofBytes, Word.low_ofBytes, ih,
      List.length_cons, hparity, List.cons_append, List.nil_append]

namespace Reader

/-- What a reader is asked for. -/
inductive Call
  /-- The line at the cursor. -/
  | next
  /-- The whole listing. -/
  | all
  deriving DecidableEq, Repr

/-- The text that a call writes, and the reader behind it. -/
def call (r : Reader) : Call → List Char × Reader
  | .next => r.next
  | .all => r.all

/-- The text that calls write one behind the other, and the reader behind them. -/
def calls (r : Reader) : List Call → List Char × Reader
  | [] => ([], r)
  | c :: rest =>
    let first := r.call c
    let others := first.2.calls rest
    (first.1 ++ others.1, others.2)

theorem bytes_toEnd (r : Reader) : r.toEnd.2.bytes = r.bytes := by
  induction r using toEnd.induct with
  | case1 r h first ih =>
    rw [toEnd_of_lt h]
    exact ih
  | case2 r h => rw [toEnd_of_le (Nat.not_lt.mp h)]

/-- A call moves the cursor and nothing else. -/
theorem bytes_calls (r : Reader) (cs : List Call) : (r.calls cs).2.bytes = r.bytes := by
  induction cs generalizing r with
  | nil => rfl
  | cons c rest ih =>
    have hone : (r.call c).2.bytes = r.bytes := by
      cases c with
      | next => rfl
      | all => exact bytes_toEnd _
    exact (ih _).trans hone

/-- Reading line by line to the end is reading to the end. -/
theorem calls_next (r : Reader) :
    r.calls (List.replicate ((r.bytes.length - r.cursor + 1) / 2) .next) = r.toEnd := by
  induction r using toEnd.induct with
  | case1 r h first ih =>
    have hcount : (r.bytes.length - r.cursor + 1) / 2 =
        (r.bytes.length - (r.cursor + 2) + 1) / 2 + 1 := by omega
    rw [toEnd_of_lt h, hcount, List.replicate_succ, calls]
    exact congrArg (fun others => (r.next.1 ++ others.1, others.2)) ih
  | case2 r h =>
    have hle : r.bytes.length ≤ r.cursor := Nat.not_lt.mp h
    have hcount : (r.bytes.length - r.cursor + 1) / 2 = 0 := by omega
    rw [toEnd_of_le hle, hcount]
    rfl

end Reader

/-- The second column of a listing, joined by any blanks, is read as the image that was listed,
filled up to whole words. The listing has a line for every two bytes, and it is the same whatever
the reader was asked for before, wherever its cursor was, and when it is read line by line. -/
theorem listing_reads_back (bytes : List UInt8) :
    (∀ text, Text.Joined (Text.column 1 (Reader.ofBytes bytes).all.1) text →
      ProgramImage.read text = .ok (bytes ++ List.replicate (bytes.length % 2) 0)) ∧
    (∀ k, (Text.lines (Reader.ofBytes bytes).all.1)[k]? =
      bytes[2 * k]?.map fun high =>
        line (0x200 + 2 * k) (Word.ofBytes high (bytes[2 * k + 1]?.getD 0))) ∧
    (∀ cursor calls, ((⟨bytes, cursor⟩ : Reader).calls calls).2.all.1 =
      (Reader.ofBytes bytes).all.1) ∧
    ((Reader.ofBytes bytes).calls (List.replicate ((bytes.length + 1) / 2) .next)).1 =
      (Reader.ofBytes bytes).all.1 := by
  have hall : (Reader.ofBytes bytes).all.1 = render bytes := Reader.all_eq _
  refine ⟨fun text htext => ?_, fun k => ?_, fun cursor calls => ?_, ?_⟩
  · rw [hall, column_render] at htext
    have hwords : ∀ w ∈ (wordsOf bytes).map Hex.word,
        w ≠ [] ∧ ∀ c ∈ w, Text.isBlank c = false := by
      intro w hw
      obtain ⟨v, -, rfl⟩ := List.mem_map.mp hw
      exact ⟨List.cons_ne_nil _ _, (Hex.allDigits_word v).not_blank⟩
    rw [ProgramImage.read, Text.words_of_joined htext hwords,
      ProgramImage.readWords_map_word, flatMap_wordsOf]
  · rw [hall, lines_render, getElem?_lines, getElem?_wordsOf, Option.map_map]
    rfl
  · rw [Reader.all_eq, Reader.bytes_calls, hall]
  · have hnext := (Reader.ofBytes bytes).calls_next
    exact congrArg Prod.fst hnext

/-- Three bytes, whose words are joined by a wide blank, a line end and a narrow blank. -/
theorem listing_reads_back_odd :
    Text.Joined (Text.column 1 (Reader.ofBytes [0x12, 0xFF, 0xA2]).all.1)
      (['1', '2', 'F', 'F'] ++ ['\u3000', '\n', ' '] ++ ['A', '2', '0', '0']) ∧
    ProgramImage.read (['1', '2', 'F', 'F'] ++ ['\u3000', '\n', ' '] ++ ['A', '2', '0', '0']) =
      .ok [0x12, 0xFF, 0xA2, 0x00] := by
  have hjoined : Text.Joined (Text.column 1 (Reader.ofBytes [0x12, 0xFF, 0xA2]).all.1)
      (['1', '2', 'F', 'F'] ++ ['\u3000', '\n', ' '] ++ ['A', '2', '0', '0']) := by
    rw [Reader.all_eq, column_render]
    exact .more _ _ (by decide) (List.all_eq_true.mp (by decide)) (.last _)
  exact ⟨hjoined, (listing_reads_back [0x12, 0xFF, 0xA2]).1 _ hjoined⟩

end ChipEight.Listing
