import ChipEight.Proofs.Text.Fields

/-!
# Maximal runs

The words of a text are its maximal runs of characters that are not blank: `Runs` says so without
the search that finds them. So a blank anywhere parts the words in front of it from those behind
it, and neither more blanks there nor blanks at the ends of the text make a difference.
-/

namespace ChipEight.Text

/-- The maximal runs of a text, in order: blanks, a run that goes on up to a blank or the end of the
text, and the runs of what is left. -/
inductive Runs : List (List Char) → List Char → Prop
  | none {gap : List Char} : (∀ c ∈ gap, isBlank c = true) → Runs [] gap
  | more {gap w rest : List Char} {ws : List (List Char)} :
    (∀ c ∈ gap, isBlank c = true) → w ≠ [] → (∀ c ∈ w, isBlank c = false) →
      (∀ c ∈ rest.head?, isBlank c = true) → Runs ws rest → Runs (w :: ws) (gap ++ (w ++ rest))

/-- A blank in front of a text is in none of its runs. -/
theorem Runs.cons_blank {ws : List (List Char)} {text : List Char} {c : Char}
    (hc : isBlank c = true) (h : Runs ws text) : Runs ws (c :: text) := by
  cases h with
  | none hgap => exact .none (List.forall_mem_cons.mpr ⟨hc, hgap⟩)
  | @more gap w rest ws hgap hne hw hend hrest =>
    rw [← List.cons_append]
    exact .more (List.forall_mem_cons.mpr ⟨hc, hgap⟩) hne hw hend hrest

/-- What is left behind a word begins with a blank. -/
theorem blank_of_mem_head?_dropWhile {text : List Char} :
    ∀ c ∈ (text.dropWhile fun d => !isBlank d).head?, isBlank c = true := by
  intro c hc
  have hnot := List.head?_dropWhile_not (fun d => !isBlank d) text
  rw [Option.mem_def.mp hc] at hnot
  simpa using hnot

theorem runs_words (text : List Char) : Runs (words text) text := by
  fun_induction words text with
  | case1 => exact .none fun c hc => absurd hc List.not_mem_nil
  | case2 c rest hc ih => exact ih.cons_blank hc
  | case3 c rest hc ih =>
    have hsplit : c :: rest = [] ++ ((c :: rest.takeWhile fun d => !isBlank d) ++
        rest.dropWhile fun d => !isBlank d) := by
      rw [List.nil_append, List.cons_append, List.takeWhile_append_dropWhile]
    have hword : ∀ d ∈ c :: rest.takeWhile fun d => !isBlank d, isBlank d = false := by
      refine List.forall_mem_cons.mpr ⟨eq_false_of_ne_true hc, fun d hd => ?_⟩
      have hall := List.all_takeWhile (l := rest) (p := fun d => !isBlank d)
      simpa using List.all_eq_true.mp hall d hd
    have hruns : Runs _ ([] ++ ((c :: rest.takeWhile fun d => !isBlank d) ++
        rest.dropWhile fun d => !isBlank d)) :=
      .more (fun d hd => absurd hd List.not_mem_nil) (List.cons_ne_nil _ _) hword
        blank_of_mem_head?_dropWhile ih
    rwa [← hsplit] at hruns

/-- A text has no other maximal runs than its words. -/
theorem Runs.words_eq {ws : List (List Char)} {text : List Char} (h : Runs ws text) :
    words text = ws := by
  induction h with
  | @none gap hgap =>
    have hblank := words_append_of_blank hgap []
    rwa [List.append_nil, words_nil] at hblank
  | more hgap hne hw hend _ ih =>
    rw [words_append_of_blank hgap, words_append hne hw hend, ih]

/-! ### Blanks between words and at the ends -/

/-- A blank parts a text: no word reaches over it. -/
theorem words_append_cons_blank {c : Char} (hc : isBlank c = true) (before after : List Char) :
    words (before ++ c :: after) = words before ++ words after := by
  have hruns := runs_words before
  generalize words before = ws at hruns ⊢
  induction hruns with
  | none hgap => rw [words_append_of_blank hgap, words_cons_blank hc, List.nil_append]
  | @more gap w rest ws hgap hne hw hend _ ih =>
    have hend' : ∀ d ∈ (rest ++ c :: after).head?, isBlank d = true := by
      cases rest with
      | nil =>
        rintro d ⟨⟩
        exact hc
      | cons d rest => exact hend
    rw [List.append_assoc, words_append_of_blank hgap, List.append_assoc,
      words_append hne hw hend', ih, List.cons_append]

/-- Some blanks part a text as one does. -/
theorem words_append_gap {gap : List Char} (hne : gap ≠ [])
    (hgap : ∀ c ∈ gap, isBlank c = true) (before after : List Char) :
    words (before ++ gap ++ after) = words before ++ words after := by
  cases gap with
  | nil => exact absurd rfl hne
  | cons c gap =>
    obtain ⟨hc, hrest⟩ := List.forall_mem_cons.mp hgap
    rw [List.append_assoc, List.cons_append, words_append_cons_blank hc,
      words_append_of_blank hrest]

/-- Blanks at the ends of a text make no words. -/
theorem words_between_blanks {lead trail : List Char} (hlead : ∀ c ∈ lead, isBlank c = true)
    (htrail : ∀ c ∈ trail, isBlank c = true) (text : List Char) :
    words (lead ++ text ++ trail) = words text := by
  rw [List.append_assoc, words_append_of_blank hlead]
  by_cases hne : trail = []
  · rw [hne, List.append_nil]
  · have hgap := words_append_gap hne htrail text []
    rwa [List.append_nil, words_nil, List.append_nil] at hgap

end ChipEight.Text
