import ChipEight.Proofs.Flat.Refinement
import ChipEight.Proofs.Machine.Stalling
import Mathlib.Data.List.Induction

/-!
# Keys as they were written

Only the host writes keys, so behind any history a key is down if the value last written for it
since all keys were cleared says so: `downAfter` reads this off the history, without a mask.
`Mirrors` ties everything that looks at the mask to such a map: questions about a key, the least
key, the two instructions that skip, which look at a byte that need not be a key, and the dump.
-/

namespace ChipEight

/-- What an operation writes for a key. -/
def Operation.written? (k : Key) : Operation → Option Bool
  | .setKey j down => if j = k then some down else none
  | _ => none

/-- Whether the value last written for a key is down, of those written since all keys were cleared;
a key for which there is none is up. -/
def downAfter (history : List Operation) (k : Key) : Bool :=
  ((history.reverse.takeWhile (· != .clearKeys)).findSome? (Operation.written? k)).getD false

/-- The key of a byte, where the byte is a key; all other bytes count as up. -/
def downAt (down : Key → Bool) (v : UInt8) : Bool :=
  if h : v.toNat < 16 then down ⟨v.toNat, h⟩ else false

/-- One more operation writes its key, or clears all keys, or leaves them as they are. -/
theorem downAfter_concat (history : List Operation) (operation : Operation) (k : Key) :
    downAfter (history ++ [operation]) k =
      if operation = .clearKeys then false
      else (operation.written? k).getD (downAfter history k) := by
  unfold downAfter
  rw [List.reverse_append, List.reverse_singleton, List.singleton_append, List.takeWhile_cons]
  by_cases hclear : operation = .clearKeys
  · rw [if_pos hclear, hclear]
    rfl
  · have hkept : (operation != .clearKeys) = true := bne_iff_ne.mpr hclear
    rw [if_neg hclear, if_pos hkept, List.findSome?_cons]
    cases operation.written? k <;> rfl

/-- The same of a keypad. -/
theorem Keypad.isDown_after (p : Keypad) (operation : Operation) (k : Key) :
    (p.after operation).isDown k =
      if operation = .clearKeys then false else (operation.written? k).getD (p.isDown k) := by
  cases operation with
  | setKey j down =>
    have hother : Operation.setKey j down ≠ .clearKeys := by
      rintro ⟨⟩
    rw [after, isDown_set, if_neg hother, Operation.written?]
    by_cases hk : k = j
    · rw [if_pos hk, if_pos hk.symm, Option.getD_some]
    · rw [if_neg hk, if_neg fun h => hk h.symm, Option.getD_none]
  | clearKeys => exact isDown_released k
  | _ => rfl

namespace Machine

/-- Keys are written by the host alone, whatever is executed. -/
theorem keypad_apply_eq (m : Machine) (operation : Operation) :
    (m.apply operation).2.keypad = m.keypad.after operation := by
  by_cases hk : operation.changesKeys = true
  · rw [apply_of_changesKeys m hk]
    rfl
  · have hafter : m.keypad.after operation = m.keypad := by
      cases operation with
      | setKey j down | clearKeys => exact absurd rfl hk
      | _ => rfl
    rw [hafter]
    by_cases hr : operation.isRun = false
    · exact keypad_apply m hr (eq_false_of_ne_true hk)
    · cases operation with
      | run count =>
        change (m.run count).2.keypad = m.keypad
        rw [← behind_stepsOfRun]
        refine keypad_behind m fun o ho => ?_
        rw [eq_step_of_mem_stepsOfRun ho]
        exact ⟨rfl, rfl⟩
      | _ => exact absurd rfl hr

/-- From a machine with all keys up on, keys are as they were written. -/
theorem isDown_behind {m : Machine} (hup : m.Untouched) (history : List Operation) (k : Key) :
    (m.behind history).keypad.isDown k = downAfter history k := by
  induction history using List.reverseRecOn with
  | nil => exact hup k
  | append_singleton history operation ih =>
    rw [behind_append, behind_cons, behind_nil, keypad_apply_eq, Keypad.isDown_after,
      downAfter_concat, ih]

/-! ### Readers -/

/-- Everything that looks at the keys of a machine sees a map from keys to whether they are down. -/
structure Mirrors (m : Machine) (down : Key → Bool) : Prop where
  /-- Each key is down as the map says. -/
  isDown : ∀ k, m.keypad.isDown k = down k
  /-- The key that is found is the least one that is down. -/
  first_some : ∀ k, m.keypad.first? = some k ↔ down k = true ∧ ∀ j, down j = true → k ≤ j
  /-- No key is found when all are up. -/
  first_none : m.keypad.first? = none ↔ ∀ k, down k = false
  /-- The first instruction that skips looks at the key of a byte. -/
  skipIfDown : ∀ x, m.nextInstruction = .skipIfDown x →
    m.step = (.ok .ok, { m with
      counter := if downAt down (m.registers.get x) then m.counter + 4 else m.counter + 2 })
  /-- The other one skips where the first one does not. -/
  skipIfUp : ∀ x, m.nextInstruction = .skipIfUp x →
    m.step = (.ok .ok, { m with
      counter := if downAt down (m.registers.get x) then m.counter + 2 else m.counter + 4 })
  /-- The dump is empty when all keys are up. -/
  dump_empty : m.dumpKeys = [] ↔ ∀ k, down k = false
  /-- A dump that is not empty lists the keys that are down in ascending order. -/
  dump_lists : (∃ k, down k = true) → ∃ keys : List Key, keys.Pairwise (· < ·) ∧
    (∀ k, k ∈ keys ↔ down k = true) ∧ m.dumpKeys = "keys: ".toList ++ keys.flatMap Key.text

section

variable {m : Machine} {down : Key → Bool}

theorem isDownAt_eq (h : ∀ k, m.keypad.isDown k = down k) (v : UInt8) :
    m.keypad.isDownAt v = downAt down v := by
  unfold Keypad.isDownAt Key.ofNat? downAt
  by_cases hv : v.toNat < 16
  · simp only [hv, dite_true]
    exact h _
  · simp only [hv, dite_false]

/-- No key is listed when every key is up. -/
theorem down_eq_nil_iff (p : Keypad) : p.down = [] ↔ ∀ k, p.isDown k = false := by
  simp [Keypad.down, Key.all]

/-- The dump lists the keys that are down, if there are any. -/
theorem dumpKeys_of_ne_nil (m : Machine) (h : m.keypad.down ≠ []) :
    m.dumpKeys = "keys: ".toList ++ m.keypad.down.flatMap Key.text := by
  unfold dumpKeys
  split
  · next hnone => exact absurd hnone h
  · rfl

theorem dumpKeys_eq_nil_iff (m : Machine) : m.dumpKeys = [] ↔ m.keypad.down = [] := by
  constructor
  · intro hempty
    by_contra hne
    rw [m.dumpKeys_of_ne_nil hne] at hempty
    cases hempty
  · intro hnone
    rw [dumpKeys, hnone]

theorem mirrors_of_isDown (h : ∀ k, m.keypad.isDown k = down k) : m.Mirrors down where
  isDown := h
  first_some k := by
    simp only [Keypad.first?_eq_some_iff, h]
  first_none := by
    simp only [Keypad.first?_eq_none_iff, h]
  skipIfDown x hx := by
    rw [step_eq, hx, ← isDownAt_eq h]
    rfl
  skipIfUp x hx := by
    have hlanding : (Instruction.skipIfUp x).landing m =
        if m.keypad.isDownAt (m.registers.get x) then m.counter + 2 else m.counter + 4 := by
      change (if (!m.keypad.isDownAt (m.registers.get x)) = true then _ else _) = _
      cases m.keypad.isDownAt (m.registers.get x) with
      | true => rfl
      | false => rfl
    rw [step_eq, hx, ← isDownAt_eq h, ← hlanding]
    rfl
  dump_empty := by
    simp only [dumpKeys_eq_nil_iff, down_eq_nil_iff, h]
  dump_lists := by
    rintro ⟨k, hk⟩
    have hne : m.keypad.down ≠ [] := by
      rw [Ne, down_eq_nil_iff]
      intro hup
      rw [← h k, hup k] at hk
      cases hk
    refine ⟨m.keypad.down, (List.pairwise_lt_finRange 16).filter _, ?_, m.dumpKeys_of_ne_nil hne⟩
    intro j
    simp [Keypad.down, Key.all, h]

end

/-- Behind any history of a new machine, all that looks at its keys sees them as they were last
written since all keys were cleared. So it is with the word of the keys on bytes and words, where a
byte that is no key stands for no bit. -/
theorem keys_as_written (config : Config) (key : Vector UInt32 8) (history : List Operation) :
    let m := (new config key).behind history
    m.Mirrors (downAfter history) ∧
      (∃ answers, (Flat.new config key).replay history = .ok (answers, m.flat)) ∧
      (∀ v, m.flat.isDown v = .ok (downAt (downAfter history) v)) ∧
      m.flat.firstKey = .ok (m.keypad.first?.map Fin.val) ∧
      m.flat.dumpKeys = .ok m.dumpKeys := by
  intro m
  have hnew : (new config key).Untouched := Keypad.isDown_released
  have hdown := isDown_behind hnew history
  refine ⟨mirrors_of_isDown hdown, ⟨_, Flat.replay_new config key history⟩, ?_,
    Flat.firstKey_eq m, Flat.dumpKeys_eq m⟩
  intro v
  rw [Flat.isDown_eq, isDownAt_eq hdown]

/-- Keys are written, cleared and written again while a program puts a byte that is no key, but ends
like one, in front of an instruction that skips. -/
def pastTheKeys : List Operation :=
  [.loadProgram [0x60, 0x1A, 0xE0, 0x9E], .setKey 3 true, .clearKeys, .setKey 0xF true,
    .setKey 0xA true, .step, .tick, .setKey 0xF false]

/-- The key that was written last is the least one that is down, and the byte that ends like it does
not skip. -/
theorem keys_as_written_pastTheKeys :
    let m := fresh.behind pastTheKeys
    downAfter pastTheKeys 0xA = true ∧ m.keypad.first? = some 0xA ∧ m.dumpKeys ≠ [] ∧
      m.nextInstruction = .skipIfDown 0 ∧ (m.registers.get 0).toNat = 0x1A ∧
      m.step.2.counter = 0x204 := by
  intro m
  have hdown : downAfter pastTheKeys 0xA = true := by decide
  have hnext : m.nextInstruction = .skipIfDown 0 := by decide +kernel
  have hbyte : (m.registers.get 0).toNat = 0x1A := by decide +kernel
  have hcounter : m.counter = 0x202 := by decide +kernel
  have hm : m.Mirrors (downAfter pastTheKeys) :=
    (keys_as_written .unset (Vector.replicate 8 0) pastTheKeys).1
  clear_value m
  refine ⟨hdown, (hm.first_some 0xA).mpr ⟨hdown, by decide⟩, ?_, hnext, hbyte, ?_⟩
  · intro hempty
    have hup := hm.dump_empty.mp hempty 0xA
    rw [hdown] at hup
    cases hup
  · have hno : downAt (downAfter pastTheKeys) (m.registers.get 0) = false := by
      rw [downAt, dif_neg (by omega)]
    rw [hm.skipIfDown 0 hnext, hno]
    change m.counter + 2 = 0x204
    rw [hcounter]
    rfl

end Machine

end ChipEight
