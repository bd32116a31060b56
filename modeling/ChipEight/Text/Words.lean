import ChipEight.Text.Blank

/-!
# Words of a text

The words of a text are its maximal runs of characters that are not blank, in order. No
word is empty, no word holds a blank, and a text of blanks has no words.
-/

namespace ChipEight.Text

/-- The maximal runs of characters that are not blank. -/
def words : List Char → List (List Char)
  | [] => []
  | c :: rest =>
    if isBlank c then words rest
    else
      (c :: rest.takeWhile fun d => !isBlank d) :: words (rest.dropWhile fun d => !isBlank d)
termination_by s => s.length
decreasing_by
  · simp
  · have h := (List.dropWhile_suffix (fun d => !isBlank d) (l := rest)).length_le
    simp only [List.length_cons]
    omega

@[simp] theorem words_nil : words [] = [] := by
  rw [words]

/-- Blanks in front of a text change none of its words. -/
theorem words_cons_blank {c : Char} (h : isBlank c = true) (s : List Char) :
    words (c :: s) = words s := by
  rw [words]
  simp [h]

/-- Words are not empty and hold no blanks. -/
theorem not_blank_of_mem_words {s w : List Char} (h : w ∈ words s) :
    w ≠ [] ∧ ∀ c ∈ w, isBlank c = false := by
  fun_induction words s with
  | case1 => simp at h
  | case2 c rest _ ih => exact ih h
  | case3 c rest hc ih =>
    rcases List.mem_cons.1 h with rfl | h
    · refine ⟨by simp, fun d hd => ?_⟩
      rcases List.mem_cons.1 hd with rfl | hd
      · simpa using hc
      · have hall := List.all_takeWhile (l := rest) (p := fun d => !isBlank d)
        simpa using List.all_eq_true.1 hall d hd
    · exact ih h

end ChipEight.Text
