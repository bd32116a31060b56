import ChipEight.Proofs.Machine.Footprint
import ChipEight.Proofs.Machine.History

/-!
# Faults of the stack

A step faults where a call finds every place of the stack occupied or a return finds none,
and nowhere else. It leaves the machine behind the instruction and otherwise as it was. No
history occupies more places than there are, so for the machines it leads to, the word at the
counter and the depth of the stack tell whether the next step faults. A run is one step after
another up to the first that faults.
-/

namespace ChipEight

namespace Instruction

/-- The words that reach the stack are those of one group, which are calls, and a single one that
is the return. -/
theorem decode_of_touches_calls {w : UInt16} (h : (decode w).touches .calls = true) :
    Word.group w = 0x2 ∧ decode w = .call (Word.address w) ∨ w = 0x00EE ∧ decode w = .ret := by
  rcases hasWord_decode w with hword | hnone
  · cases hi : decode w with
    | call target =>
      rw [hi] at hword
      obtain ⟨hgroup, rfl⟩ := Word.toNat_eq_withAddress_iff.mp hword
      exact Or.inl ⟨hgroup, rfl⟩
    | ret =>
      rw [hi] at hword
      exact Or.inr ⟨hword, rfl⟩
    | _ =>
      rw [hi] at h
      cases h
  · rw [hnone] at h
    cases h

variable {m : Machine} {i : Instruction}

/-- An instruction that does not reach the stack does not fault. -/
theorem outcome_ne_error (h : i.touches .calls = false) (cause : StackFault) :
    i.outcome m ≠ .error cause := by
  intro herror
  cases i with
  | call target => cases h
  | ret => cases h
  | awaitKey x =>
    by_cases hup : ∀ k, m.keypad.isDown k = false
    · cases (if_pos hup).symm.trans herror
    · cases (if_neg hup).symm.trans herror
  | _ => cases herror

theorem outcome_call_eq_error_iff {target : Address} {cause : StackFault} :
    (Instruction.call target).outcome m = .error cause ↔
      cause = .overflow ∧ ¬ m.calls.depth < 16 := by
  by_cases hd : m.calls.depth < 16
  · have ho : (Instruction.call target).outcome m = .ok .jump := if_pos hd
    simp [ho, hd]
  · have ho : (Instruction.call target).outcome m = .error .overflow := if_neg hd
    simp [ho, hd, eq_comm]

theorem outcome_ret_eq_error_iff {cause : StackFault} :
    Instruction.ret.outcome m = .error cause ↔ cause = .underflow ∧ m.calls.depth = 0 := by
  by_cases hd : m.calls.depth = 0
  · have ho : Instruction.ret.outcome m = .error .underflow := if_pos hd
    simp [ho, hd, eq_comm]
  · have ho : Instruction.ret.outcome m = .ok .jump := if_neg hd
    simp [ho, hd]

/-- The outcome of a word: calls fault on a full stack, the return on an empty one. -/
theorem outcome_decode_eq_error_iff {w : UInt16} {cause : StackFault} :
    (decode w).outcome m = .error cause ↔
      cause = .overflow ∧ Word.group w = 0x2 ∧ ¬ m.calls.depth < 16 ∨
        cause = .underflow ∧ w = 0x00EE ∧ m.calls.depth = 0 := by
  by_cases htouches : (decode w).touches .calls = true
  · obtain ⟨hgroup, hcall⟩ | ⟨rfl, hret⟩ := decode_of_touches_calls htouches
    · have hne : w ≠ 0x00EE := by
        rintro rfl
        cases hgroup
      rw [hcall, outcome_call_eq_error_iff]
      simp [hgroup, hne]
    · rw [hret, outcome_ret_eq_error_iff]
      simp [Word.group]
  · have hgroup : Word.group w ≠ 0x2 := by
      intro hgroup
      have hcall : decode w = .call (Word.address w) := by simp only [decode, hgroup]
      rw [hcall] at htouches
      exact htouches rfl
    have hne : w ≠ 0x00EE := by
      rintro rfl
      exact htouches rfl
    have hok := outcome_ne_error (m := m) (eq_false_of_ne_true htouches) cause
    simp [hok, hgroup, hne]

end Instruction

namespace Machine

/-- An instruction that faults does nothing. -/
theorem execute_of_error {m : Machine} {i : Instruction} {cause : StackFault}
    (h : (m.execute i).1 = .error cause) : (m.execute i).2 = m := by
  cases i with
  | ret | call target =>
    simp only [execute] at h ⊢
    split at h
    · cases h
    · rfl
  | awaitKey x =>
    simp only [execute] at h
    split at h <;> cases h
  | _ => cases h

theorem fits_step {m : Machine} (h : m.calls.Fits) : m.step.2.calls.Fits := by
  rw [step_eq]
  change (m.nextInstruction.callsAfter m).depth ≤ 16
  have hdepth : m.calls.depth ≤ 16 := h
  cases m.nextInstruction with
  | call target =>
    by_cases hd : m.calls.depth < 16
    · rw [Instruction.callsAfter_call_of_lt target hd]
      exact hd
    · rw [Instruction.callsAfter_call_of_full target hd]
      exact hdepth
  | ret => exact Nat.le_trans (Nat.sub_le _ _) hdepth
  | _ => exact hdepth

theorem fits_run_go {count : Nat} {m : Machine} (h : m.calls.Fits)
    (last : Except StackFault Flow) : (run.go last count m).2.calls.Fits := by
  induction count generalizing m last with
  | zero => exact h
  | succ count ih =>
    have hnext := fits_step h
    rw [run.go]
    split
    · next flow next hs =>
      rw [hs] at hnext
      exact ih hnext _
    · next fault next hs =>
      rw [hs] at hnext
      exact hnext

/-- No operation occupies more places than there are. -/
theorem fits_apply {m : Machine} (h : m.calls.Fits) (operation : Operation) :
    (m.apply operation).2.calls.Fits := by
  by_cases hs : operation = .step
  · subst hs
    exact fits_step h
  · by_cases hr : operation.isRun = false
    · obtain ⟨_, _, _, _, _, hm⟩ := m.apply_of_host hs hr
      rw [hm]
      exact h
    · cases operation with
      | run count => exact fits_run_go h _
      | _ => exact absurd rfl hr

theorem fits_behind {m : Machine} (h : m.calls.Fits) (history : List Operation) :
    (m.behind history).calls.Fits := by
  induction history generalizing m with
  | nil => exact h
  | cons operation rest ih => exact ih (fits_apply h operation)

theorem fits_of_reachable {m : Machine} (h : m.Reachable) : m.calls.Fits := by
  obtain ⟨config, key, history, rfl⟩ := h
  have hnew : (new config key).calls.Fits := Nat.zero_le 16
  exact fits_behind hnew history

/-- Where the stack is not overfilled, a step faults on a call with a full stack and on a return
with an empty one. -/
theorem step_eq_error_iff {m : Machine} (h : m.calls.Fits) {cause : StackFault} :
    m.step.1 = .error cause ↔
      cause = .overflow ∧ Word.group m.fetch = 0x2 ∧ m.calls.depth = 16 ∨
        cause = .underflow ∧ m.fetch = 0x00EE ∧ m.calls.depth = 0 := by
  have hfull : ¬ m.calls.depth < 16 ↔ m.calls.depth = 16 := by
    unfold CallStack.Fits at h
    omega
  rw [step_eq, ← hfull]
  exact Instruction.outcome_decode_eq_error_iff

/-- A step that faults leaves the machine behind the instruction and otherwise as it was. -/
theorem step_of_error {m : Machine} {cause : StackFault} (h : m.step.1 = .error cause) :
    m.step.2 = { m with counter := m.counter + 2 } :=
  execute_of_error h

/-- The machine after so many steps, whether they fault or not. -/
def stepped (m : Machine) (count : Nat) : Machine := m.behind (List.replicate count .step)

theorem stepped_zero (m : Machine) : m.stepped 0 = m := rfl

theorem stepped_succ (m : Machine) (count : Nat) :
    m.stepped (count + 1) = m.step.2.stepped count := rfl

/-- A run makes its steps up to the first that faults. The answer is that of the last one made. -/
theorem run_go_succ (last : Except StackFault Flow) (count : Nat) (m : Machine) :
    ∃ done ≤ count,
      (∀ i < done, ∃ flow, (m.stepped i).step.1 = .ok flow) ∧
      (done = count ∨ ∃ cause, (m.stepped done).step.1 = .error cause) ∧
      run.go last (count + 1) m = ((m.stepped done).step.1, m.stepped (done + 1)) := by
  induction count generalizing last m with
  | zero =>
    refine ⟨0, Nat.le_refl 0, fun i hi => absurd hi (Nat.not_lt_zero i), Or.inl rfl, ?_⟩
    rw [stepped_succ, stepped_zero, stepped_zero, run.go]
    rcases m.step with ⟨outcome, next⟩
    cases outcome <;> rfl
  | succ count ih =>
    rcases hs : m.step with ⟨outcome, next⟩
    cases outcome with
    | error cause =>
      refine ⟨0, Nat.zero_le _, fun i hi => absurd hi (Nat.not_lt_zero i), Or.inr ⟨cause, ?_⟩, ?_⟩
      · rw [stepped_zero, hs]
      · rw [stepped_succ, stepped_zero, stepped_zero, run.go, hs]
    | ok flow =>
      have hnext (i : Nat) : m.stepped (i + 1) = next.stepped i := by
        rw [stepped_succ, hs]
      obtain ⟨done, hle, hbefore, hlast, hrun⟩ := ih (.ok flow) next
      refine ⟨done + 1, Nat.succ_le_succ hle, ?_, ?_, ?_⟩
      · intro i hi
        cases i with
        | zero => exact ⟨flow, congrArg Prod.fst hs⟩
        | succ i =>
          rw [hnext]
          exact hbefore i (Nat.lt_of_succ_lt_succ hi)
      · rw [hnext]
        exact hlast.imp (congrArg Nat.succ) id
      · rw [run.go, hs, hnext, hnext]
        exact hrun

end Machine

end ChipEight
