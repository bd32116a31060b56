import ChipEight.Proofs.Hex.Digits
import ChipEight.Proofs.Text.Runs

/-!
# Which images can be read

An image can be read exactly when each of its maximal runs has four hexadecimal digits. Its bytes
are then those of the words that its runs, with their letters made capital, are the written forms
of. Otherwise the fault names the first run of another form: its place, its text, and whether it
has the wrong length or, at the right length, a character that is no digit.
-/

namespace ChipEight.ProgramImage

/-- Four digits, capital or small. -/
def WellFormed (token : List Char) : Prop := token.length = 4 ∧ ∀ c ∈ token, Hex.IsDigit c

/-- A word is read as the bytes whose written form it is, when its letters are made capital. -/
theorem readWord_eq_ok_iff {token : List Char} {high low : UInt8} :
    readWord token = .ok (high, low) ↔
      token.map Char.toUpper = Hex.word (Word.ofBytes high low) := by
  have hh := high.toNat_lt
  have hl := low.toNat_lt
  rw [Hex.word_ofBytes]
  constructor
  · intro h
    unfold readWord at h
    split at h
    · next a b c d =>
      split at h
      · next p q r s hp hq hr hs =>
        obtain ⟨hp16, hp⟩ := Hex.value?_eq_some_iff.mp hp
        obtain ⟨hq16, hq⟩ := Hex.value?_eq_some_iff.mp hq
        obtain ⟨hr16, hr⟩ := Hex.value?_eq_some_iff.mp hr
        obtain ⟨hs16, hs⟩ := Hex.value?_eq_some_iff.mp hs
        obtain ⟨rfl, rfl⟩ := Prod.mk.inj (Except.ok.inj h)
        simp only [List.map_cons, List.map_nil, hp, hq, hr, hs, Hex.byte_ofNat hp16 hq16,
          Hex.byte_ofNat hr16 hs16, List.cons_append, List.nil_append]
      · cases h
    · cases h
  · intro h
    -- the characters are those that become the four digits
    simp only [Hex.byte, List.cons_append, List.nil_append, List.map_eq_cons_iff,
      List.map_eq_nil_iff] at h
    obtain ⟨a, _, rfl, ha, b, _, rfl, hb, c, _, rfl, hc, d, _, rfl, hd, rfl⟩ := h
    have h1 := Hex.value?_eq_some_iff.mpr ⟨by omega, ha⟩
    have h2 := Hex.value?_eq_some_iff.mpr ⟨by omega, hb⟩
    have h3 := Hex.value?_eq_some_iff.mpr ⟨by omega, hc⟩
    have h4 := Hex.value?_eq_some_iff.mpr ⟨by omega, hd⟩
    simp only [readWord, h1, h2, h3, h4, Nat.div_add_mod, UInt8.ofNat_toNat]

/-- A word of another form than four digits has the wrong length or, at the right length, a
character that is no digit. -/
theorem readWord_of_not_wellFormed {token : List Char} (h : ¬ WellFormed token) :
    readWord token = .error (if token.length = 4 then .digit else .length) := by
  by_cases hlength : token.length = 4
  · match token, hlength with
    | [a, b, c, d], _ =>
      simp only [readWord]
      split
      · next p q r s hp hq hr hs =>
        have hdigit {e : Char} {n : Nat} (he : Hex.value? e = some n) : Hex.IsDigit e :=
          Hex.isSome_value?_iff.mp (Option.isSome_of_eq_some he)
        refine absurd ⟨rfl, ?_⟩ h
        simp only [List.forall_mem_cons, hdigit hp, hdigit hq, hdigit hr, hdigit hs, true_and]
        exact fun e he => absurd he List.not_mem_nil
      · rfl
  · unfold readWord
    split
    · exact absurd rfl hlength
    · rw [if_neg hlength]

theorem wellFormed_of_readWord {token : List Char} {high low : UInt8}
    (h : readWord token = .ok (high, low)) : WellFormed token := by
  refine Classical.byContradiction fun hnot => ?_
  cases (readWord_of_not_wellFormed hnot).symm.trans h

theorem exists_readWord {token : List Char} (h : WellFormed token) :
    ∃ high low, readWord token = .ok (high, low) := by
  obtain ⟨hlength, hdigits⟩ := h
  match token, hlength with
  | [a, b, c, d], _ =>
    have hvalue {e : Char} (he : e ∈ [a, b, c, d]) : ∃ n, Hex.value? e = some n :=
      Option.isSome_iff_exists.mp (Hex.isSome_value?_iff.mpr (hdigits e he))
    obtain ⟨p, hp⟩ := hvalue (e := a) (by simp)
    obtain ⟨q, hq⟩ := hvalue (e := b) (by simp)
    obtain ⟨r, hr⟩ := hvalue (e := c) (by simp)
    obtain ⟨s, hs⟩ := hvalue (e := d) (by simp)
    exact ⟨_, _, by simp only [readWord, hp, hq, hr, hs]; rfl⟩

/-- Words are read as the bytes whose written forms they are, one behind the other. -/
theorem readWords_eq_ok_iff {position : Nat} {ws : List (List Char)} {bytes : List UInt8} :
    readWords position ws = .ok bytes ↔
      ∃ vs : List UInt16, ws.map (List.map Char.toUpper) = vs.map Hex.word ∧
        bytes = vs.flatMap fun v => [Word.high v, Word.low v] := by
  induction ws generalizing position bytes with
  | nil =>
    constructor
    · intro h
      obtain rfl : [] = bytes := Except.ok.inj h
      exact ⟨[], rfl, rfl⟩
    · rintro ⟨vs, hvs, rfl⟩
      obtain rfl : vs = [] := List.map_eq_nil_iff.mp hvs.symm
      rfl
  | cons w ws ih =>
    rw [readWords]
    constructor
    · intro h
      split at h
      · cases h
      · next high low hw =>
        cases hrest : readWords (position + 1) ws with
        | error bad =>
          rw [hrest] at h
          cases h
        | ok rest =>
          rw [hrest] at h
          obtain rfl : high :: low :: rest = bytes := Except.ok.inj h
          obtain ⟨vs, hvs, rfl⟩ := ih.mp hrest
          refine ⟨Word.ofBytes high low :: vs, ?_, ?_⟩
          · rw [List.map_cons, List.map_cons, readWord_eq_ok_iff.mp hw, hvs]
          · simp
    · rintro ⟨vs, hvs, rfl⟩
      obtain ⟨v, rest, rfl, hw, hrest⟩ := List.map_eq_cons_iff.mp hvs.symm
      have hword : readWord w = .ok (Word.high v, Word.low v) := by
        rw [readWord_eq_ok_iff, Word.ofBytes_high_low, hw]
      have hwords : readWords (position + 1) ws = .ok _ := ih.mpr ⟨rest, hrest.symm, rfl⟩
      rw [hword, hwords]
      rfl

/-- The first word of another form is the fault, with its place. -/
theorem readWords_eq_error_iff {position : Nat} {ws : List (List Char)} {bad : BadWord} :
    readWords position ws = .error bad ↔
      ∃ k w, ws[k]? = some w ∧ ¬ WellFormed w ∧
        (∀ j < k, ∀ v, ws[j]? = some v → WellFormed v) ∧
        bad = ⟨position + k, w, if w.length = 4 then .digit else .length⟩ := by
  induction ws generalizing position with
  | nil => simp [readWords]
  | cons w ws ih =>
    rw [readWords]
    by_cases hw : WellFormed w
    · obtain ⟨high, low, hread⟩ := exists_readWord hw
      have hrest : (readWords (position + 1) ws).map (fun bytes => high :: low :: bytes) =
          .error bad ↔ readWords (position + 1) ws = .error bad := by
        cases readWords (position + 1) ws <;> simp [Except.map]
      rw [hread]
      refine hrest.trans (ih.trans ?_)
      constructor
      · rintro ⟨k, v, hv, hnot, hbefore, rfl⟩
        refine ⟨k + 1, v, hv, hnot, fun j hj u hu => ?_, ?_⟩
        · cases j with
          | zero =>
            obtain rfl : w = u := Option.some.inj hu
            exact hw
          | succ j => exact hbefore j (Nat.lt_of_succ_lt_succ hj) u hu
        · rw [Nat.add_assoc, Nat.add_comm 1 k]
      · rintro ⟨k, v, hv, hnot, hbefore, rfl⟩
        cases k with
        | zero =>
          obtain rfl : w = v := Option.some.inj hv
          exact absurd hw hnot
        | succ k =>
          refine ⟨k, v, hv, hnot, fun j hj u hu => ?_, ?_⟩
          · exact hbefore (j + 1) (Nat.succ_lt_succ hj) u hu
          · rw [Nat.add_assoc, Nat.add_comm 1 k]
    · rw [readWord_of_not_wellFormed hw]
      constructor
      · intro h
        refine ⟨0, w, rfl, hw, fun j hj => absurd hj (Nat.not_lt_zero j), ?_⟩
        exact (Except.error.inj h).symm
      · rintro ⟨k, v, hv, hnot, hbefore, rfl⟩
        cases k with
        | zero =>
          obtain rfl : w = v := Option.some.inj hv
          rfl
        | succ k => exact absurd (hbefore 0 (Nat.succ_pos k) w rfl) hw

/-- Words can be read exactly when all of them have four digits. -/
theorem exists_readWords_iff {position : Nat} {ws : List (List Char)} :
    (∃ bytes, readWords position ws = .ok bytes) ↔ ∀ w ∈ ws, WellFormed w := by
  constructor
  · rintro ⟨bytes, h⟩ w hw
    obtain ⟨vs, hvs, -⟩ := readWords_eq_ok_iff.mp h
    have hmem : w.map Char.toUpper ∈ vs.map Hex.word := hvs ▸ List.mem_map_of_mem hw
    obtain ⟨v, -, hv⟩ := List.mem_map.mp hmem
    have hread : readWord w = .ok (Word.high v, Word.low v) := by
      rw [readWord_eq_ok_iff, Word.ofBytes_high_low, hv]
    exact wellFormed_of_readWord hread
  · intro h
    cases hread : readWords position ws with
    | ok bytes => exact ⟨bytes, rfl⟩
    | error bad =>
      obtain ⟨k, w, hw, hnot, -, -⟩ := readWords_eq_error_iff.mp hread
      exact absurd (h w (List.mem_of_getElem? hw)) hnot

/-- Every word is read as two bytes. -/
theorem length_of_readWords {position : Nat} {ws : List (List Char)} {bytes : List UInt8}
    (h : readWords position ws = .ok bytes) : bytes.length = 2 * ws.length := by
  obtain ⟨vs, hvs, rfl⟩ := readWords_eq_ok_iff.mp h
  have hlength : ws.length = vs.length := by simpa using congrArg List.length hvs
  rw [hlength, List.length_flatMap]
  simp [List.map_const', Nat.mul_comm]

/-- Blanks matter to an image only as far as they part its words. -/
theorem read_congr {text text' : List Char} (h : Text.words text = Text.words text') :
    read text = read text' := by
  rw [read, read, h]

/-- An image has one list of maximal runs. It can be read exactly when each of them has four digits,
and then its bytes, two for each run, are those of the words whose written forms the runs are, when
their letters are made capital. It cannot be read exactly when some run has another form, and then
the fault is the first such run, with its place counted from one, its text, and whether it has the
wrong length or else a character that is no digit. Neither other blanks between two runs nor blanks
at the ends change the bytes or the fault. -/
theorem read_exactly (text : List Char) :
    ∃ ws, Text.Runs ws text ∧ (∀ ws', Text.Runs ws' text → ws' = ws) ∧
      ((∃ bytes, read text = .ok bytes) ↔ ∀ w ∈ ws, WellFormed w) ∧
      (∀ bytes, read text = .ok bytes →
        bytes.length = 2 * ws.length ∧
        ∃ vs : List UInt16, ws.map (List.map Char.toUpper) = vs.map Hex.word ∧
          bytes = vs.flatMap fun v => [Word.high v, Word.low v]) ∧
      (∀ bad, read text = .error bad ↔
        ∃ k w, ws[k]? = some w ∧ ¬ WellFormed w ∧
          (∀ j < k, ∀ v, ws[j]? = some v → WellFormed v) ∧
          bad = ⟨k + 1, w, if w.length = 4 then .digit else .length⟩) ∧
      (∀ before gap gap' after, text = before ++ gap ++ after →
        gap ≠ [] → (∀ c ∈ gap, Text.isBlank c = true) →
        gap' ≠ [] → (∀ c ∈ gap', Text.isBlank c = true) →
          read (before ++ gap' ++ after) = read text) ∧
      ∀ lead trail, (∀ c ∈ lead, Text.isBlank c = true) → (∀ c ∈ trail, Text.isBlank c = true) →
        read (lead ++ text ++ trail) = read text := by
  refine ⟨Text.words text, Text.runs_words text, fun ws' h => h.words_eq.symm,
    exists_readWords_iff, fun bytes h => ⟨length_of_readWords h, readWords_eq_ok_iff.mp h⟩,
    fun bad => ?_, ?_, ?_⟩
  · rw [read, readWords_eq_error_iff]
    simp only [Nat.add_comm 1]
  · rintro before gap gap' after rfl hne hgap hne' hgap'
    refine read_congr ?_
    rw [Text.words_append_gap hne' hgap', Text.words_append_gap hne hgap]
  · intro lead trail hlead htrail
    exact read_congr (Text.words_between_blanks hlead htrail text)

/-- An image whose second word begins with a sign. -/
def signed : List Char :=
  ['6', '0', '0', 'a'] ++ (['\u2003'] ++ (['+', '1', 'F', 'f'] ++ ([' '] ++ ['7'])))

/-- The sign is no digit, so the second word is the fault, although the third one is too short. Tabs
in place of the wide space and a line end behind the image make no difference. -/
theorem read_exactly_signed :
    read signed = .error ⟨2, ['+', '1', 'F', 'f'], .digit⟩ ∧
      read (['6', '0', '0', 'a'] ++ ['\t', '\t'] ++ (['+', '1', 'F', 'f'] ++ ([' '] ++ ['7']))) =
        read signed ∧
      read ([] ++ signed ++ ['\n']) = read signed := by
  obtain ⟨ws, -, hunique, -, -, herror, hgap, hends⟩ := read_exactly signed
  have hnone : ∀ c ∈ ([] : List Char), Text.isBlank c = true :=
    fun c hc => absurd hc List.not_mem_nil
  have hwide : ∀ c ∈ ['\u2003'], Text.isBlank c = true := List.all_eq_true.mp (by decide)
  have htabs : ∀ c ∈ ['\t', '\t'], Text.isBlank c = true := List.all_eq_true.mp (by decide)
  have hend : ∀ c ∈ ['\n'], Text.isBlank c = true := List.all_eq_true.mp (by decide)
  have hruns : Text.Runs [['6', '0', '0', 'a'], ['+', '1', 'F', 'f'], ['7']]
      ([] ++ (['6', '0', '0', 'a'] ++ (['\u2003'] ++ (['+', '1', 'F', 'f'] ++
        ([' '] ++ (['7'] ++ [])))))) := by
    refine .more hnone (List.cons_ne_nil _ _) ?_ ?_
      (.more hwide (List.cons_ne_nil _ _) ?_ ?_
        (.more ?_ (List.cons_ne_nil _ _) ?_ ?_ (.none hnone)))
    all_goals simp [Text.isBlank, Text.blankRanges]
  have hfirst : WellFormed ['6', '0', '0', 'a'] :=
    wellFormed_of_readWord (show readWord _ = .ok (0x60, 0x0A) from rfl)
  have hsign : ¬ WellFormed ['+', '1', 'F', 'f'] := fun h =>
    absurd (h.2 '+' List.mem_cons_self) (by decide)
  obtain rfl := hunique _ hruns
  refine ⟨(herror _).mpr ⟨1, _, rfl, hsign, ?_, rfl⟩,
    hgap _ _ _ _ rfl (List.cons_ne_nil _ _) hwide (List.cons_ne_nil _ _) htabs,
    hends _ _ hnone hend⟩
  intro j hj v hv
  obtain rfl : j = 0 := by omega
  obtain rfl : _ = v := Option.some.inj hv
  exact hfirst

end ChipEight.ProgramImage
