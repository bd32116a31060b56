import ChipEight.Listing
import ChipEight.Text.Words

/-!
# Lines and fields

How a written text is taken apart again: into its lines, and a line into its fields, which
are the words between its blanks. Lines that hold no line end are found as they were
written, and so are words that were joined by any blanks.
-/

namespace ChipEight.Text

/-- The lines of a text without their ends. What stands behind the last end is a line too, unless
nothing does. -/
def lines : List Char → List (List Char)
  | [] => []
  | c :: rest =>
    if c = '\n' then [] :: lines rest
    else
      match lines rest with
      | [] => [[c]]
      | first :: others => (c :: first) :: others

/-- A field of a line, counted from zero; nothing where there are fewer. -/
def field (n : Nat) (line : List Char) : List Char := (words line)[n]?.getD []

/-- A field of every line. -/
def column (n : Nat) (text : List Char) : List (List Char) := (lines text).map (field n)

/-- A text is made of words with some blanks between each two neighbours. -/
inductive Joined : List (List Char) → List Char → Prop
  | none : Joined [] []
  | last (w : List Char) : Joined [w] w
  | more (w gap : List Char) {next : List Char} {others : List (List Char)} {text : List Char} :
    gap ≠ [] → (∀ c ∈ gap, isBlank c = true) → Joined (next :: others) text →
      Joined (w :: next :: others) (w ++ gap ++ text)

/-- A line without line ends is found in front of its end. -/
theorem lines_append {line : List Char} (h : '\n' ∉ line) (rest : List Char) :
    lines (line ++ '\n' :: rest) = line :: lines rest := by
  induction line with
  | nil => simp [lines]
  | cons c line ih =>
    have hc : c ≠ '\n' := fun e => h (e ▸ List.mem_cons_self)
    have hline : '\n' ∉ line := fun hm => h (List.mem_cons_of_mem _ hm)
    simp [lines, hc, ih hline]

/-- Lines without line ends are found as they were written. -/
theorem lines_unlines {ls : List (List Char)} (h : ∀ line ∈ ls, '\n' ∉ line) :
    lines (Listing.unlines ls) = ls := by
  induction ls with
  | nil => rfl
  | cons line ls ih =>
    have hline := h line List.mem_cons_self
    have hls := ih fun l hl => h l (List.mem_cons_of_mem _ hl)
    rw [Listing.unlines] at hls ⊢
    rw [List.flatMap_cons, List.append_assoc, List.singleton_append, lines_append hline, hls]

/-- Blanks in front of a text change none of its words. -/
theorem words_append_of_blank {gap : List Char} (h : ∀ c ∈ gap, isBlank c = true)
    (text : List Char) : words (gap ++ text) = words text := by
  induction gap with
  | nil => rfl
  | cons c gap ih =>
    rw [List.cons_append, words_cons_blank (h c List.mem_cons_self)]
    exact ih fun d hd => h d (List.mem_cons_of_mem _ hd)

/-- A word ends in front of a blank and at the end of a text. -/
theorem words_append {w : List Char} (hne : w ≠ []) (hw : ∀ c ∈ w, isBlank c = false)
    {rest : List Char} (hrest : ∀ c ∈ rest.head?, isBlank c = true) :
    words (w ++ rest) = w :: words rest := by
  cases w with
  | nil => exact absurd rfl hne
  | cons d w =>
    have hd := hw d List.mem_cons_self
    have hword : ∀ c ∈ w, (!isBlank c) = true := fun c hc => by
      rw [hw c (List.mem_cons_of_mem _ hc), Bool.not_false]
    have htake : rest.takeWhile (fun c => !isBlank c) = [] := by
      cases rest with
      | nil => rfl
      | cons c rest => simp [hrest c rfl]
    have hdrop : rest.dropWhile (fun c => !isBlank c) = rest := by
      cases rest with
      | nil => rfl
      | cons c rest => simp [hrest c rfl]
    rw [List.cons_append, words, hd, if_neg Bool.false_ne_true,
      List.takeWhile_append_of_pos hword, List.dropWhile_append_of_pos hword, htake, hdrop,
      List.append_nil]

/-- Words are found as they were joined. -/
theorem words_of_joined {ws : List (List Char)} {text : List Char} (h : Joined ws text)
    (hws : ∀ w ∈ ws, w ≠ [] ∧ ∀ c ∈ w, isBlank c = false) : words text = ws := by
  induction h with
  | none => exact words_nil
  | last w =>
    obtain ⟨hne, hw⟩ := hws w List.mem_cons_self
    have hend : ∀ c ∈ ([] : List Char).head?, isBlank c = true := fun _ hc => nomatch hc
    have hword := words_append hne hw hend
    rwa [List.append_nil, words_nil] at hword
  | @more w gap next others text hgap hblank _ ih =>
    obtain ⟨hne, hw⟩ := hws w List.mem_cons_self
    have hothers := ih fun v hv => hws v (List.mem_cons_of_mem _ hv)
    have hhead : ∀ c ∈ (gap ++ text).head?, isBlank c = true := by
      cases gap with
      | nil => exact absurd rfl hgap
      | cons d gap =>
        rintro c ⟨⟩
        exact hblank d List.mem_cons_self
    rw [List.append_assoc, words_append hne hw hhead, words_append_of_blank hblank, hothers]

end ChipEight.Text
