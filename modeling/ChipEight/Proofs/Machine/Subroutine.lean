import ChipEight.Proofs.Machine.Effect
import ChipEight.Proofs.Machine.History

/-!
# Calls and returns

The stack is used like a stack: while its depth does not fall below `d`, the lowest `d`
return addresses stay as they are, and the first return that brings the depth back to what
it was before a call goes on behind that call. Both hold over every history, whatever is
called, returned from, stored, loaded or refused in between.
-/

namespace ChipEight

/-- Two stacks hold the same return addresses in their lowest places. -/
def CallStack.AgreeBelow (d : Nat) (s t : CallStack) : Prop :=
  ∀ j : Fin 16, j.val < d → t.slots.get j = s.slots.get j

theorem CallStack.AgreeBelow.trans {d : Nat} {s t u : CallStack} (h : AgreeBelow d s t)
    (h' : AgreeBelow d t u) : AgreeBelow d s u :=
  fun j hj => (h' j hj).trans (h j hj)

namespace Machine

/-- Only an executed instruction touches the stack. -/
theorem calls_apply {operation : Operation} (hs : operation ≠ .step)
    (hr : operation.isRun = false) (m : Machine) : (m.apply operation).2.calls = m.calls := by
  obtain ⟨_, _, _, _, _, h⟩ := m.apply_of_host hs hr
  rw [h]

/-- An instruction changes no place below the depth of the stack. -/
theorem agreeBelow_callsAfter {d : Nat} {m : Machine} (i : Instruction)
    (h : d ≤ m.calls.depth) : CallStack.AgreeBelow d m.calls (i.callsAfter m) := by
  cases i with
  | call target =>
    by_cases hd : m.calls.depth < 16
    · rw [Instruction.callsAfter_call_of_lt target hd]
      intro j hj
      have hne : m.calls.depth ≠ j.val := by omega
      exact Vector.getElem_set_ne hd j.isLt hne
    · rw [Instruction.callsAfter_call_of_full target hd]
      exact fun _ _ => rfl
  | _ => exact fun _ _ => rfl

/-- Only a return makes the stack less deep, and by one. -/
theorem depth_callsAfter (m : Machine) (i : Instruction) :
    m.calls.depth ≤ (i.callsAfter m).depth ∨
      (i = .ret ∧ (i.callsAfter m).depth + 1 = m.calls.depth) := by
  cases i with
  | call target =>
    by_cases hd : m.calls.depth < 16
    · rw [Instruction.callsAfter_call_of_lt target hd]
      exact Or.inl (Nat.le_succ _)
    · rw [Instruction.callsAfter_call_of_full target hd]
      exact Or.inl (Nat.le_refl _)
  | ret =>
    have hd : (Instruction.ret.callsAfter m).depth = m.calls.depth - 1 := rfl
    by_cases h0 : m.calls.depth = 0
    · exact Or.inl (by omega)
    · exact Or.inr ⟨rfl, by omega⟩
  | _ => exact Or.inl (Nat.le_refl _)

theorem calls_step (m : Machine) : m.step.2.calls = m.nextInstruction.callsAfter m := by
  rw [step_eq]
  rfl

/-- No single operation changes a place below the depth of the stack. -/
theorem agreeBelow_apply {d : Nat} {m : Machine} {operation : Operation}
    (hr : operation.isRun = false) (h : d ≤ m.calls.depth) :
    CallStack.AgreeBelow d m.calls (m.apply operation).2.calls := by
  by_cases hs : operation = .step
  · subst hs
    change CallStack.AgreeBelow d m.calls m.step.2.calls
    rw [calls_step]
    exact agreeBelow_callsAfter _ h
  · rw [calls_apply hs hr]
    exact fun _ _ => rfl

/-- Only an executed return makes the stack less deep, and by one. -/
theorem depth_apply (m : Machine) {operation : Operation} (hr : operation.isRun = false) :
    m.calls.depth ≤ (m.apply operation).2.calls.depth ∨
      (operation = .step ∧ m.nextInstruction = .ret ∧
        m.step.2.calls.depth + 1 = m.calls.depth) := by
  by_cases hs : operation = .step
  · subst hs
    change m.calls.depth ≤ m.step.2.calls.depth ∨ _
    rw [calls_step]
    exact (m.depth_callsAfter m.nextInstruction).imp id fun h => ⟨rfl, h⟩
  · rw [calls_apply hs hr]
    exact Or.inl (Nat.le_refl _)

/-- Over single operations that keep the depth at `d` or above, the lowest `d` places stay. -/
theorem agreeBelow_behind {d : Nat} {operations : List Operation}
    (hr : ∀ operation ∈ operations, operation.isRun = false) (m : Machine)
    (h : ∀ past, past <+: operations → d ≤ (m.behind past).calls.depth) :
    CallStack.AgreeBelow d m.calls (m.behind operations).calls := by
  induction operations generalizing m with
  | nil => exact fun _ _ => rfl
  | cons operation rest ih =>
    have hfirst : d ≤ m.calls.depth := h [] List.nil_prefix
    have hone := agreeBelow_apply (hr operation List.mem_cons_self) hfirst
    have hrest := ih (fun o ho => hr o (List.mem_cons_of_mem _ ho)) (m.apply operation).2
      (fun past hp => h (operation :: past) (List.cons_prefix_cons.mpr ⟨rfl, hp⟩))
    exact hone.trans hrest

/-- The history leads to a return that makes the depth `d`, and no return before it does. -/
structure ReturnsTo (m : Machine) (d : Nat) (history : List Operation) : Prop where
  /-- The next instruction is a return. -/
  next : (m.behind history).nextInstruction = .ret
  /-- It makes the depth `d`. -/
  depth : (m.behind history).step.2.calls.depth = d
  /-- No step on the way was such a return. -/
  first : ∀ past, past ++ [.step] <+: m.unroll history →
    (m.behind past).nextInstruction = .ret → (m.behind past).step.2.calls.depth ≠ d

/-- Until the first return that makes the depth `d`, the depth stays above `d`. -/
theorem lt_depth_behind {d : Nat} {operations : List Operation}
    (hr : ∀ operation ∈ operations, operation.isRun = false) (m : Machine)
    (hd : d < m.calls.depth)
    (hfirst : ∀ past, past ++ [.step] <+: operations →
      (m.behind past).nextInstruction = .ret → (m.behind past).step.2.calls.depth ≠ d) :
    d < (m.behind operations).calls.depth := by
  induction operations generalizing m with
  | nil => exact hd
  | cons operation rest ih =>
    refine ih (fun o ho => hr o (List.mem_cons_of_mem _ ho)) (m.apply operation).2 ?_ ?_
    · rcases m.depth_apply (hr operation List.mem_cons_self) with hle | ⟨rfl, hret, hone⟩
      · exact Nat.lt_of_lt_of_le hd hle
      · have hne := hfirst [] (List.cons_prefix_cons.mpr ⟨rfl, List.nil_prefix⟩) hret
        change d < m.step.2.calls.depth
        simp only [behind_nil] at hne
        omega
    · intro past hp
      exact hfirst (operation :: past) (List.cons_prefix_cons.mpr ⟨rfl, hp⟩)

/-- A call that makes the stack deeper leaves the address behind it in the new place. -/
theorem slot_of_call {m : Machine} {target : Address}
    (hcall : m.nextInstruction = .call target)
    (hd : m.step.2.calls.depth = m.calls.depth + 1) :
    m.step.2.calls.slots[m.calls.depth]? = some (m.counter + 2) := by
  have hstep := m.calls_step
  rw [hcall] at hstep
  by_cases hlt : m.calls.depth < 16
  · rw [hstep, Instruction.callsAfter_call_of_lt target hlt]
    exact Vector.getElem?_set_self hlt
  · rw [hstep, Instruction.callsAfter_call_of_full target hlt] at hd
    omega

/-- A return that makes the stack less deep goes on at the address in the place it frees. -/
theorem counter_step_of_ret {m : Machine} {d : Nat} {a : UInt16}
    (hret : m.nextInstruction = .ret) (hd : m.calls.depth = d + 1)
    (ha : m.calls.slots[d]? = some a) : m.step.2.counter = a := by
  have hl : m.nextInstruction.landing m = m.calls.top := by
    rw [hret]
    exact if_neg (by omega)
  rw [step_eq]
  change m.nextInstruction.landing m = a
  rw [hl, CallStack.top, hd, Nat.add_sub_cancel, ha, Option.getD_some]

/-- On the way to such a return the depth stays above `d`. -/
theorem lt_depth_of_returnsTo {m : Machine} {d : Nat} {history past : List Operation}
    (h : m.ReturnsTo d history) (hd : d < m.calls.depth) (hp : past <+: m.unroll history) :
    d < (m.behind past).calls.depth := by
  refine lt_depth_behind (fun _ ho => isRun_of_mem_unroll (hp.subset ho)) m hd ?_
  exact fun before hb => h.first before (hb.trans hp)

/-- Such a return finds one address more than it leaves. -/
theorem depth_of_returnsTo {m : Machine} {d : Nat} {history : List Operation}
    (h : m.ReturnsTo d history) (hd : d < m.calls.depth) :
    (m.behind history).calls.depth = d + 1 := by
  have hlt := lt_depth_of_returnsTo h hd (List.prefix_refl _)
  have hnext := h.depth
  rw [behind_unroll] at hlt
  have hrun : Operation.step.isRun = false := rfl
  rcases depth_apply (m.behind history) hrun with hle | ⟨_, _, hone⟩
  · change _ ≤ (m.behind history).step.2.calls.depth at hle
    omega
  · omega

/-- The lowest return addresses stay while the depth does not fall below them, and the first
return that brings the depth back to what it was before a call goes on behind the call. -/
theorem call_discipline (m : Machine) :
    (∀ history, (∀ past, past <+: m.unroll history → m.calls.depth ≤ (m.behind past).calls.depth) →
      ∀ j : Fin 16, j.val < m.calls.depth →
        (m.behind history).calls.slots.get j = m.calls.slots.get j) ∧
    (∀ target history, m.nextInstruction = .call target →
      m.step.2.calls.depth = m.calls.depth + 1 → m.step.2.ReturnsTo m.calls.depth history →
        (m.step.2.behind history).step.2.counter = m.counter + 2) := by
  constructor
  · intro history h j hj
    rw [← behind_unroll]
    exact agreeBelow_behind (fun _ => isRun_of_mem_unroll) m h j hj
  · intro target history hcall hd hreturns
    have hlt : m.calls.depth < m.step.2.calls.depth := by omega
    have hagree := agreeBelow_behind (fun _ => isRun_of_mem_unroll) m.step.2
      (fun _ hp => lt_depth_of_returnsTo hreturns hlt hp)
    rw [behind_unroll] at hagree
    obtain ⟨hplace, hslot⟩ := Vector.getElem?_eq_some_iff.mp (slot_of_call hcall hd)
    refine counter_step_of_ret hreturns.next (depth_of_returnsTo hreturns hlt) ?_
    rw [Vector.getElem?_eq_getElem hplace, ← hslot]
    exact congrArg some (hagree ⟨m.calls.depth, hplace⟩ (Nat.lt_succ_self _))

/-- A machine before a call whose subroutine calls another one. -/
def nested : Machine :=
  { new .unset (Vector.replicate 8 0) with
    memory := Memory.zero.writeBlock 0x200
      [0x22, 0x06, 0x00, 0x00, 0x00, 0x00, 0x22, 0x0A, 0x00, 0xEE, 0x00, 0xEE] }

private theorem nested_states :
    nested.nextInstruction = .call 0x206 ∧
    nested.step.2.calls.depth = 1 ∧
    nested.step.2.unroll [.run 2, .tick] = [.step, .step, .tick] ∧
    nested.step.2.nextInstruction = .call 0x20A ∧
    (nested.step.2.behind [.step]).calls.depth = 2 ∧
    (nested.step.2.behind [.step, .step]).calls.depth = 1 ∧
    (nested.step.2.behind [.step, .step, .tick]).calls.depth = 1 ∧
    (nested.step.2.behind [.step]).step.2.calls.depth = 1 ∧
    (nested.step.2.behind [.step, .step, .tick]).nextInstruction = .ret ∧
    (nested.step.2.behind [.step, .step, .tick]).step.2.calls.depth = 0 := by
  decide +kernel

private theorem prefix_nested {past : List Operation} (h : past <+: [.step, .step, .tick]) :
    past = [] ∨ past = [.step] ∨ past = [.step, .step] ∨ past = [.step, .step, .tick] := by
  rw [List.prefix_cons_iff] at h
  rcases h with rfl | ⟨t, rfl, h⟩
  · exact Or.inl rfl
  rw [List.prefix_cons_iff] at h
  rcases h with rfl | ⟨t, rfl, h⟩
  · exact Or.inr (Or.inl rfl)
  rw [List.prefix_cons_iff] at h
  rcases h with rfl | ⟨t, rfl, h⟩
  · exact Or.inr (Or.inr (Or.inl rfl))
  · rw [List.prefix_nil.mp h]
    exact Or.inr (Or.inr (Or.inr rfl))

/-- The inner return is not the one that belongs to the outer call. -/
theorem call_discipline_nested :
    (∀ past, past <+: nested.step.2.unroll [.run 2, .tick] →
      nested.step.2.calls.depth ≤ (nested.step.2.behind past).calls.depth) ∧
    (nested.step.2.behind [.run 2, .tick]).calls.slots.get 0 = nested.step.2.calls.slots.get 0 ∧
    nested.nextInstruction = .call 0x206 ∧
    nested.step.2.calls.depth = nested.calls.depth + 1 ∧
    nested.step.2.ReturnsTo nested.calls.depth [.run 2, .tick] ∧
    (nested.step.2.behind [.run 2, .tick]).step.2.counter = 0x202 := by
  obtain ⟨hcall, hdepth, hunroll, hinner, htwo, hone, hticked, hback, hret, hzero⟩ := nested_states
  have habove : ∀ past, past <+: nested.step.2.unroll [.run 2, .tick] →
      nested.step.2.calls.depth ≤ (nested.step.2.behind past).calls.depth := by
    intro past hp
    rw [hunroll] at hp
    rw [hdepth]
    rcases prefix_nested hp with rfl | rfl | rfl | rfl
    · rw [behind_nil]
      exact Nat.le_of_eq hdepth.symm
    · omega
    · omega
    · omega
  have hreturns : nested.step.2.ReturnsTo nested.calls.depth [.run 2, .tick] := by
    refine ⟨?_, ?_, ?_⟩
    · rw [← behind_unroll, hunroll]
      exact hret
    · rw [← behind_unroll, hunroll]
      exact hzero
    · intro past hp hnext
      rw [hunroll] at hp
      rcases prefix_nested ((List.prefix_append past [.step]).trans hp) with rfl | rfl | rfl | rfl
      · rw [behind_nil, hinner] at hnext
        cases hnext
      · rw [hback]
        exact Nat.one_ne_zero
      · exact absurd hp (by decide)
      · exact absurd hp (by decide)
  have hplace : (0 : Fin 16).val < nested.step.2.calls.depth := by
    rw [hdepth]
    decide
  exact ⟨habove, (call_discipline nested.step.2).1 _ habove 0 hplace, hcall, hdepth, hreturns,
    (call_discipline nested).2 _ _ hcall hdepth hreturns⟩

end Machine

end ChipEight
