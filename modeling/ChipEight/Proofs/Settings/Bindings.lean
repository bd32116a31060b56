import ChipEight.Settings

/-!
# The key of a character

A character stands for the key of the first place in a keymap, entry by entry and character by
character, where it is found in either case. `FirstMatch` says so about the places themselves;
the table of bindings, which is made of small letters, is not mentioned. Case is that of the
twenty-six letters of ASCII, so any other character is found only as itself.
-/

namespace ChipEight

/-- Two characters are the same, or the same letter of ASCII in both cases. -/
def SameLetter (c d : Char) : Prop :=
  c = d ∨ ∃ n < 26, c.toNat = 65 + n ∧ d.toNat = 97 + n ∨ c.toNat = 97 + n ∧ d.toNat = 65 + n

namespace SameLetter

variable {c d : Char}

/-- Characters beyond ASCII have no case. -/
theorem eq_of_beyond (h : SameLetter c d) (hc : 128 ≤ c.toNat ∨ 128 ≤ d.toNat) : c = d := by
  rcases h with rfl | ⟨n, hn, hcase⟩
  · rfl
  · omega

end SameLetter

/-- A capital letter of ASCII becomes a small one, and any other character stays. -/
theorem toNat_toLower (c : Char) :
    c.toLower.toNat = if 65 ≤ c.toNat ∧ c.toNat ≤ 90 then c.toNat + 32 else c.toNat := by
  have hcapital : 'A'.val ≤ c.val ∧ c.val ≤ 'Z'.val ↔ 65 ≤ c.toNat ∧ c.toNat ≤ 90 := by
    simp only [UInt32.le_iff_toNat_le]
    exact Iff.rfl
  have hshift : ('a'.val - 'A'.val).toNat = 32 := by decide
  delta Char.toLower
  by_cases h : 65 ≤ c.toNat ∧ c.toNat ≤ 90
  · rw [if_pos h, dif_pos (hcapital.mpr h), ← Char.toNat_val, UInt32.toNat_add, hshift,
      Char.toNat_val]
    omega
  · rw [if_neg h, dif_neg fun hl => h (hcapital.mp hl)]

/-- Characters are the same letter when they are the same in small letters. -/
theorem sameLetter_iff {c d : Char} : SameLetter c d ↔ c.toLower = d.toLower := by
  rw [← Char.toNat_inj, toNat_toLower, toNat_toLower]
  constructor
  · rintro (rfl | ⟨n, hn, ⟨hc, hd⟩ | ⟨hc, hd⟩⟩)
    · rfl
    · split <;> split <;> omega
    · split <;> split <;> omega
  · intro h
    by_cases hsame : c = d
    · exact Or.inl hsame
    · have hne : c.toNat ≠ d.toNat := fun hn => hsame (Char.toNat_inj.mp hn)
      refine Or.inr ⟨min c.toNat d.toNat - 65, ?_⟩
      split at h <;> split at h <;> omega

namespace Settings

/-- A character at a place of an entry of the keymap, with the key of the entry. -/
def BoundAt (keymap : List KeyBinding) (entry place : Nat) (bound : Char) (k : Key) : Prop :=
  ∃ binding, keymap[entry]? = some binding ∧ binding.characters[place]? = some bound ∧
    binding.key = k

/-- The key of the first place of the keymap where a character is found in either case. -/
def FirstMatch (keymap : List KeyBinding) (c : Char) (k : Key) : Prop :=
  ∃ entry place bound, BoundAt keymap entry place bound k ∧ SameLetter bound c ∧
    ∀ entry' place' bound' k', BoundAt keymap entry' place' bound' k' → SameLetter bound' c →
      entry < entry' ∨ entry = entry' ∧ place ≤ place'

/-- Whether a character is among those of an entry, in either case. -/
def finds (c : Char) (binding : KeyBinding) : Bool :=
  binding.characters.any fun bound => bound.toLower == c.toLower

theorem finds_eq_true_iff {c : Char} {binding : KeyBinding} :
    finds c binding = true ↔
      ∃ (place : Nat) (bound : Char),
        binding.characters[place]? = some bound ∧ SameLetter bound c := by
  simp only [finds, List.any_eq_true, beq_iff_eq, ← sameLetter_iff, List.mem_iff_getElem?]
  constructor
  · rintro ⟨bound, ⟨place, hplace⟩, hsame⟩
    exact ⟨place, bound, hplace, hsame⟩
  · rintro ⟨place, bound, hplace, hsame⟩
    exact ⟨bound, ⟨place, hplace⟩, hsame⟩

/-- Of the places of an entry where a character is found, one is the first. -/
theorem exists_first_place {c : Char} {binding : KeyBinding} (h : finds c binding = true) :
    ∃ (place : Nat) (bound : Char),
      binding.characters[place]? = some bound ∧ SameLetter bound c ∧
        ∀ (place' : Nat) (bound' : Char), binding.characters[place']? = some bound' →
          SameLetter bound' c → place ≤ place' := by
  have hfound := List.find?_isSome.mpr (List.any_eq_true.mp h)
  obtain ⟨bound, hbound⟩ := Option.isSome_iff_exists.mp hfound
  obtain ⟨hsame, place, hlt, rfl, hbefore⟩ := List.find?_eq_some_iff_getElem.mp hbound
  refine ⟨place, _, List.getElem?_eq_getElem hlt, sameLetter_iff.mpr (beq_iff_eq.mp hsame), ?_⟩
  intro place' bound' hplace' hsame'
  refine Nat.le_of_not_lt fun hearly => ?_
  obtain ⟨hlt', rfl⟩ := List.getElem?_eq_some_iff.mp hplace'
  have hnot := hbefore place' hearly
  rw [sameLetter_iff] at hsame'
  simp [hsame'] at hnot

/-- Among the bindings of one entry, a character has the key of the entry if it is found there. -/
theorem keyOf?_entry (binding : KeyBinding) (c : Char) :
    keyOf? (binding.characters.map fun bound => (bound.toLower, binding.key)) c =
      if finds c binding then some binding.key else none := by
  rw [keyOf?, List.find?_map, Option.map_map]
  cases hfound : binding.characters.find? _ with
  | none =>
    have hnone : finds c binding = false := by
      rw [finds, List.any_eq_false]
      exact List.find?_eq_none.mp hfound
    rw [hnone]
    rfl
  | some bound =>
    have hsame := List.find?_some hfound
    have hsome : finds c binding = true :=
      List.any_eq_true.mpr ⟨bound, List.mem_of_find?_eq_some hfound, hsame⟩
    rw [hsome]
    rfl

/-- In the table of all bindings, a character is looked for entry by entry. -/
theorem keyOf?_bindings (s : Settings) (c : Char) :
    keyOf? s.bindings c = (s.keymap.find? (finds c)).map (·.key) := by
  rw [bindings]
  induction s.keymap with
  | nil => rfl
  | cons binding rest ih =>
    have hentry := keyOf?_entry binding c
    rw [keyOf?] at ih hentry
    rw [keyOf?, List.flatMap_cons, List.find?_append, Option.map_or, ih, hentry, List.find?_cons]
    cases finds c binding <;> rfl

section

variable {s : Settings} {c : Char} {k : Key}

theorem firstMatch_of_keyOf? (h : keyOf? s.bindings c = some k) : FirstMatch s.keymap c k := by
  rw [keyOf?_bindings, Option.map_eq_some_iff] at h
  obtain ⟨binding, hfound, rfl⟩ := h
  obtain ⟨hfinds, entry, hlt, rfl, hbefore⟩ := List.find?_eq_some_iff_getElem.mp hfound
  obtain ⟨place, bound, hplace, hsame, hfirst⟩ := exists_first_place hfinds
  refine ⟨entry, place, bound, ⟨_, List.getElem?_eq_getElem hlt, hplace, rfl⟩, hsame, ?_⟩
  rintro entry' place' bound' k' ⟨binding', hentry', hplace', -⟩ hsame'
  rcases Nat.lt_trichotomy entry entry' with hlater | rfl | hearlier
  · exact Or.inl hlater
  · rw [List.getElem?_eq_getElem hlt, Option.some.injEq] at hentry'
    subst hentry'
    exact Or.inr ⟨rfl, hfirst place' bound' hplace' hsame'⟩
  · -- no entry in front of the first one that finds the character finds it
    obtain ⟨hlt', rfl⟩ := List.getElem?_eq_some_iff.mp hentry'
    have hnot := hbefore entry' hearlier
    rw [finds_eq_true_iff.mpr ⟨place', bound', hplace', hsame'⟩] at hnot
    cases hnot

/-- There is no more than one first place. -/
theorem FirstMatch.unique {keymap : List KeyBinding} {k' : Key} (h : FirstMatch keymap c k)
    (h' : FirstMatch keymap c k') : k = k' := by
  obtain ⟨entry, place, bound, hbound, hsame, hfirst⟩ := h
  obtain ⟨entry', place', bound', hbound', hsame', hfirst'⟩ := h'
  have hentry : entry = entry' := by
    rcases hfirst _ _ _ _ hbound' hsame' with h | h <;>
      rcases hfirst' _ _ _ _ hbound hsame with h' | h' <;> omega
  subst hentry
  obtain ⟨binding, hget, -, rfl⟩ := hbound
  obtain ⟨binding', hget', -, rfl⟩ := hbound'
  rw [Option.some.inj (hget.symm.trans hget')]

theorem keyOf?_eq_none_iff :
    keyOf? s.bindings c = none ↔
      ∀ entry place bound k, BoundAt s.keymap entry place bound k → ¬ SameLetter bound c := by
  rw [keyOf?_bindings, Option.map_eq_none_iff, List.find?_eq_none]
  constructor
  · rintro h entry place bound k ⟨binding, hentry, hplace, -⟩ hsame
    have hfinds := finds_eq_true_iff.mpr ⟨place, bound, hplace, hsame⟩
    exact h binding (List.mem_of_getElem? hentry) hfinds
  · intro h binding hmem hfinds
    obtain ⟨entry, hentry⟩ := List.mem_iff_getElem?.mp hmem
    obtain ⟨place, bound, hplace, hsame⟩ := finds_eq_true_iff.mp hfinds
    exact h entry place bound binding.key ⟨binding, hentry, hplace, rfl⟩ hsame

theorem keyOf?_eq_some_iff : keyOf? s.bindings c = some k ↔ FirstMatch s.keymap c k := by
  constructor
  · exact firstMatch_of_keyOf?
  · intro h
    cases hkey : keyOf? s.bindings c with
    | none =>
      obtain ⟨entry, place, bound, hbound, hsame, -⟩ := h
      exact absurd hsame (keyOf?_eq_none_iff.mp hkey entry place bound k hbound)
    | some k' => rw [(firstMatch_of_keyOf? hkey).unique h]

end

/-- Characters that are the same letter are found in the same entries. -/
theorem keyOf?_congr (s : Settings) {c d : Char} (h : SameLetter c d) :
    keyOf? s.bindings c = keyOf? s.bindings d := by
  have hfinds : finds c = finds d := by
    funext binding
    simp only [finds, sameLetter_iff.mp h]
  rw [keyOf?_bindings, keyOf?_bindings, hfinds]

/-- A character beyond ASCII is looked for as it is. -/
theorem keyOf?_of_beyond (s : Settings) {c : Char} (h : 128 ≤ c.toNat) :
    keyOf? s.bindings c = (s.keymap.find? fun b => b.characters.contains c).map (·.key) := by
  have hfinds : finds c = fun b => b.characters.contains c := by
    funext binding
    rw [Bool.eq_iff_iff, finds, List.any_eq_true, List.contains_iff_mem]
    constructor
    · rintro ⟨bound, hmem, hsame⟩
      have hsame := sameLetter_iff.mpr (beq_iff_eq.mp hsame)
      rwa [hsame.eq_of_beyond (Or.inr h)] at hmem
    · intro hmem
      exact ⟨c, hmem, beq_self_eq_true _⟩
  rw [keyOf?_bindings, hfinds]

/-- Entries behind those of a keymap are looked at only for characters without a key. -/
theorem keyOf?_append (s : Settings) (more : List KeyBinding) (c : Char) :
    keyOf? { s with keymap := s.keymap ++ more }.bindings c =
      (keyOf? s.bindings c).or (keyOf? { s with keymap := more }.bindings c) := by
  rw [keyOf?_bindings, keyOf?_bindings, keyOf?_bindings, List.find?_append, Option.map_or]

/-- A character stands for the key of the first place of the keymap where it is found in either
case, and for none if there is no such place. So both cases of a letter stand for the same key, a
character beyond ASCII is found only as itself, and entries added at the end take no key from a
character. -/
theorem first_match_counts (s : Settings) (c : Char) :
    (∀ k, keyOf? s.bindings c = some k ↔ FirstMatch s.keymap c k) ∧
    (keyOf? s.bindings c = none ↔
      ∀ entry place bound k, BoundAt s.keymap entry place bound k → ¬ SameLetter bound c) ∧
    (∀ d, SameLetter c d ↔ c.toLower = d.toLower) ∧
    (∀ d, SameLetter c d → keyOf? s.bindings c = keyOf? s.bindings d) ∧
    (∀ d, SameLetter c d → 128 ≤ c.toNat ∨ 128 ≤ d.toNat → c = d) ∧
    (128 ≤ c.toNat →
      keyOf? s.bindings c = (s.keymap.find? fun b => b.characters.contains c).map (·.key)) ∧
    ∀ more k, keyOf? s.bindings c = some k →
      keyOf? { s with keymap := s.keymap ++ more }.bindings c = some k := by
  refine ⟨fun k => keyOf?_eq_some_iff, keyOf?_eq_none_iff, fun d => sameLetter_iff,
    fun d => s.keyOf?_congr, fun d => SameLetter.eq_of_beyond, s.keyOf?_of_beyond, ?_⟩
  intro more k hkey
  rw [keyOf?_append, hkey, Option.some_or]

/-- Settings where a letter has two keys, in both of its cases. -/
def shadowed : Settings :=
  { default with keymap := [⟨5, ['k', 'é']⟩, ⟨6, []⟩, ⟨7, ['K', 'É']⟩] }

/-- The letter has the first of its keys in either case, also with a third one behind them. Letters
beyond ASCII have their own keys in each case, and the sign of a unit is not the letter it is
written like. -/
theorem first_match_counts_shadowed :
    SameLetter 'K' 'k' ∧ keyOf? shadowed.bindings 'K' = keyOf? shadowed.bindings 'k' ∧
      keyOf? shadowed.bindings 'K' = some 5 ∧ FirstMatch shadowed.keymap 'K' 5 ∧
      128 ≤ 'É'.toNat ∧ keyOf? shadowed.bindings 'É' = some 7 ∧ ¬ SameLetter 'K' '\u212a' ∧
      keyOf? shadowed.bindings '\u212a' = none ∧
      keyOf? { shadowed with keymap := shadowed.keymap ++ [KeyBinding.mk 1 ['K']] }.bindings 'K' =
        some 5 := by
  have hsame : SameLetter 'K' 'k' := Or.inr ⟨10, by decide, Or.inl ⟨by decide, by decide⟩⟩
  have hkey : keyOf? shadowed.bindings 'K' = some 5 := by decide
  obtain ⟨hfirst, -, -, hcase, hself, -, happend⟩ := first_match_counts shadowed 'K'
  obtain ⟨-, -, -, -, -, hacute, -⟩ := first_match_counts shadowed 'É'
  obtain ⟨-, -, -, -, -, hsign, -⟩ := first_match_counts shadowed '\u212a'
  refine ⟨hsame, hcase _ hsame, hkey, (hfirst 5).mp hkey, by decide, (hacute (by decide)).trans ?_,
    ?_, (hsign (by decide)).trans ?_, happend _ 5 hkey⟩
  · decide
  · intro hunit
    have hsign := hself _ hunit (Or.inr (by decide))
    cases hsign
  · decide

end Settings

end ChipEight
