import ChipEight.Proofs.Machine.Effect
import ChipEight.Proofs.Machine.History
import Mathlib.Logic.Function.Iterate

/-!
# Instructions among the acts of their host

Between instructions the host sets keys and counts the timers down. Few instructions look at
either; every other instruction can change places with an act of the host. So a run of
other instructions gives the same flows, the same faults, the same ends of the sound and
the same machine, however ticks and changes of keys are spread over it.
-/

namespace ChipEight

/-- Whether an instruction reads or sets a timer. -/
def Instruction.usesTimers : Instruction → Bool
  | .readDelay _ | .setDelay _ | .setSound _ => true
  | _ => false

/-- Whether an instruction looks at the keys. -/
def Instruction.usesKeys : Instruction → Bool
  | .skipIfDown _ | .skipIfUp _ | .awaitKey _ => true
  | _ => false

/-- Whether an instruction looks at anything that the host changes between instructions. -/
def Instruction.usesHost (i : Instruction) : Bool := i.usesTimers || i.usesKeys

/-- Whether an operation changes keys and does nothing else. -/
def Operation.changesKeys : Operation → Bool
  | .setKey .. | .clearKeys => true
  | _ => false

/-- The keypad after an operation of the host. -/
def Keypad.after (p : Keypad) : Operation → Keypad
  | .setKey k down => p.set k down
  | .clearKeys => .released
  | _ => p

/-- Whether a reply tells the flow or the fault of a step. -/
def Reply.isOutcome : Reply → Bool
  | .flow _ | .fault _ => true
  | _ => false

/-- Whether a reply tells of a tick. -/
def Reply.isTicked : Reply → Bool
  | .ticked _ => true
  | _ => false

theorem Reply.isOutcome_ofFlow (o : Except StackFault Flow) :
    (Reply.ofFlow o).isOutcome = true ∧ (Reply.ofFlow o).isTicked = false := by
  cases o <;> exact ⟨rfl, rfl⟩

namespace Machine

/-- A timer one tick later. -/
def countDown (timer : UInt8) : UInt8 := if timer = 0 then 0 else timer - 1

/-- The machine with other keys. -/
def withKeys (m : Machine) (keypad : Keypad) : Machine := { m with keypad := keypad }

/-- The machine with other timers. -/
def withTimers (m : Machine) (delay sound : UInt8) : Machine :=
  { m with delayTimer := delay, soundTimer := sound }

theorem tick_eq (m : Machine) :
    m.tick =
      (m.soundTimer == 1, m.withTimers (countDown m.delayTimer) (countDown m.soundTimer)) := rfl

theorem apply_of_changesKeys (m : Machine) {operation : Operation}
    (h : operation.changesKeys = true) :
    m.apply operation = (.done, m.withKeys (m.keypad.after operation)) := by
  cases operation with
  | setKey k down => rfl
  | clearKeys => rfl
  | _ => cases h

/-- Other keys make no difference to an instruction that does not look at them. -/
theorem step_withKeys (m : Machine) (keypad : Keypad) (h : m.nextInstruction.usesKeys = false) :
    (m.withKeys keypad).step = (m.step.1, m.step.2.withKeys keypad) := by
  have hnext : (m.withKeys keypad).nextInstruction = m.nextInstruction := rfl
  rw [step_eq, step_eq, hnext]
  generalize m.nextInstruction = i at h ⊢
  cases i with
  | skipIfDown x | skipIfUp x | awaitKey x => cases h
  | _ => rfl

/-- Other timers make no difference to an instruction that does not look at them. -/
theorem step_withTimers (m : Machine) (delay sound : UInt8)
    (h : m.nextInstruction.usesTimers = false) :
    (m.withTimers delay sound).step = (m.step.1, m.step.2.withTimers delay sound) := by
  have hnext : (m.withTimers delay sound).nextInstruction = m.nextInstruction := rfl
  rw [step_eq, step_eq, hnext]
  generalize m.nextInstruction = i at h ⊢
  cases i with
  | readDelay x | setDelay x | setSound x => cases h
  | _ => rfl

/-- An instruction that does not look at the timers leaves them as they were. -/
theorem timers_step (m : Machine) (h : m.nextInstruction.usesTimers = false) :
    m.step.2.delayTimer = m.delayTimer ∧ m.step.2.soundTimer = m.soundTimer := by
  have hstep := m.step_withTimers m.delayTimer m.soundTimer h
  have hown : m.step.2 = m.step.2.withTimers m.delayTimer m.soundTimer :=
    congrArg Prod.snd hstep
  rw [hown]
  exact ⟨rfl, rfl⟩

theorem keypad_step (m : Machine) : m.step.2.keypad = m.keypad := by
  rw [step_eq]
  rfl

/-- Only a change of keys changes the keypad. -/
theorem keypad_apply (m : Machine) {operation : Operation} (hr : operation.isRun = false)
    (hk : operation.changesKeys = false) : (m.apply operation).2.keypad = m.keypad := by
  by_cases hl : operation.isLoad = true
  · obtain ⟨memory, hm⟩ := m.apply_of_isLoad hl
    rw [hm]
  cases operation with
  | step => exact m.keypad_step
  | run count => cases hr
  | setKey k down => cases hk
  | clearKeys => cases hk
  | loadProgram program => exact absurd rfl hl
  | loadFont glyphs => exact absurd rfl hl
  | takeFrame => cases hd : m.dirty <;> simp only [apply, takeFrame, hd] <;> rfl
  | tick | clearDirty => rfl

/-- A history without changes of keys leaves the keypad as it was. -/
theorem keypad_behind (m : Machine) {history : List Operation}
    (h : ∀ operation ∈ history, operation.isRun = false ∧ operation.changesKeys = false) :
    (m.behind history).keypad = m.keypad := by
  induction history generalizing m with
  | nil => rfl
  | cons operation rest ih =>
    obtain ⟨hr, hk⟩ := h operation List.mem_cons_self
    rw [behind_cons, ih _ fun o hmem => h o (List.mem_cons_of_mem _ hmem), keypad_apply m hr hk]

/-- A tick and an instruction that does not look at the timers can change places. -/
theorem step_tick (m : Machine) (h : m.nextInstruction.usesTimers = false) :
    m.tick.2.step = (m.step.1, m.step.2.tick.2) ∧ m.step.2.tick.1 = m.tick.1 := by
  obtain ⟨hdelay, hsound⟩ := m.timers_step h
  rw [tick_eq, tick_eq, hdelay, hsound]
  exact ⟨m.step_withTimers _ _ h, rfl⟩

/-- A change of keys and an instruction that does not look at them can change places. -/
theorem step_changesKeys (m : Machine) {operation : Operation}
    (ho : operation.changesKeys = true) (h : m.nextInstruction.usesKeys = false) :
    (m.apply operation).2.step = (m.step.1, (m.step.2.apply operation).2) := by
  rw [apply_of_changesKeys _ ho, apply_of_changesKeys _ ho, keypad_step]
  exact m.step_withKeys _ h

end Machine

/-- The history is made of so many steps, so many ticks and the given changes of keys, in any order
that keeps the changes of keys in theirs. -/
structure Interleaves (steps ticks : Nat) (keys history : List Operation) : Prop where
  /-- There are so many steps. -/
  steps : history.count .step = steps
  /-- There are so many ticks. -/
  ticks : history.count .tick = ticks
  /-- The changes of keys are the given ones in their order. -/
  keys : history.filter Operation.changesKeys = keys
  /-- There is nothing else. -/
  only : ∀ operation ∈ history,
    operation = .step ∨ operation = .tick ∨ operation.changesKeys = true

/-- What an interleaving begins with, and what it goes on with. -/
theorem Interleaves.uncons {steps ticks : Nat} {keys rest : List Operation} {first : Operation}
    (h : Interleaves steps ticks keys (first :: rest)) :
    (first = .step ∧ ∃ left, steps = left + 1 ∧ Interleaves left ticks keys rest) ∨
      (first = .tick ∧ ∃ left, ticks = left + 1 ∧ Interleaves steps left keys rest) ∨
      (first.changesKeys = true ∧ ∃ left, keys = first :: left ∧
        Interleaves steps ticks left rest) := by
  obtain ⟨hsteps, hticks, hkeys, honly⟩ := h
  have hrest : ∀ operation ∈ rest,
      operation = .step ∨ operation = .tick ∨ operation.changesKeys = true :=
    fun operation hmem => honly operation (List.mem_cons_of_mem _ hmem)
  rcases honly first List.mem_cons_self with rfl | rfl | hk
  · refine Or.inl ⟨rfl, _, ?_, ⟨rfl, hticks, hkeys, hrest⟩⟩
    rw [← hsteps, List.count_cons_self]
  · refine Or.inr (Or.inl ⟨rfl, _, ?_, ⟨hsteps, rfl, hkeys, hrest⟩⟩)
    rw [← hticks, List.count_cons_self]
  · have hstep : first ≠ .step := by
      rintro rfl
      cases hk
    have htick : first ≠ .tick := by
      rintro rfl
      cases hk
    rw [List.count_cons_of_ne hstep] at hsteps
    rw [List.count_cons_of_ne htick] at hticks
    rw [List.filter_cons_of_pos hk] at hkeys
    exact Or.inr (Or.inr ⟨hk, _, hkeys.symm, ⟨hsteps, hticks, rfl, hrest⟩⟩)

namespace Machine

/-- The first steps execute no instruction that looks at what the host changes. -/
def StepsAlone (m : Machine) (steps : Nat) : Prop :=
  ∀ done < steps, (m.behind (List.replicate done .step)).nextInstruction.usesHost = false

instance (m : Machine) (steps : Nat) : Decidable (m.StepsAlone steps) :=
  inferInstanceAs (Decidable (∀ done < steps, _ = false))

theorem StepsAlone.first {m : Machine} {left : Nat} (h : m.StepsAlone (left + 1)) :
    m.nextInstruction.usesTimers = false ∧ m.nextInstruction.usesKeys = false :=
  Bool.or_eq_false_iff.mp (h 0 (Nat.succ_pos left))

theorem StepsAlone.rest {m : Machine} {left : Nat} (h : m.StepsAlone (left + 1)) :
    m.step.2.StepsAlone left :=
  fun done hlt => h (done + 1) (Nat.succ_lt_succ hlt)

/-- The machine with other keys and timers. -/
def withHost (m : Machine) (keypad : Keypad) (delay sound : UInt8) : Machine :=
  (m.withTimers delay sound).withKeys keypad

theorem step_withHost {m : Machine} {left : Nat} (h : m.StepsAlone (left + 1)) (keypad : Keypad)
    (delay sound : UInt8) :
    (m.withHost keypad delay sound).step = (m.step.1, m.step.2.withHost keypad delay sound) := by
  obtain ⟨htimers, hkeys⟩ := h.first
  rw [withHost, step_withKeys (m.withTimers delay sound) keypad hkeys,
    step_withTimers m delay sound htimers]
  rfl

/-- What ticks tell of a sound timer. -/
def tickReplies (sound : UInt8) : Nat → List Reply
  | 0 => []
  | ticks + 1 => .ticked (sound == 1) :: tickReplies (countDown sound) ticks

/-- An interleaving is as good as its steps without the host; keys and timers go their own way. -/
theorem replay_interleaved {m : Machine} {steps ticks : Nat} {keys history : List Operation}
    (hm : m.StepsAlone steps) (h : Interleaves steps ticks keys history) (keypad : Keypad)
    (delay sound : UInt8) :
    (m.withHost keypad delay sound).behind history =
        (m.behind (List.replicate steps .step)).withHost (keys.foldl Keypad.after keypad)
          (countDown^[ticks] delay) (countDown^[ticks] sound) ∧
      ((m.withHost keypad delay sound).replay history).1.filter Reply.isOutcome =
        (m.replay (List.replicate steps .step)).1 ∧
      ((m.withHost keypad delay sound).replay history).1.filter Reply.isTicked =
        tickReplies sound ticks := by
  induction history generalizing m keypad delay sound steps ticks keys with
  | nil =>
    obtain ⟨rfl, rfl, rfl, -⟩ := h
    exact ⟨rfl, rfl, rfl⟩
  | cons first rest ih =>
    rcases h.uncons with
      ⟨rfl, left, rfl, hrest⟩ | ⟨rfl, left, rfl, hrest⟩ | ⟨hk, left, rfl, hrest⟩
    · -- The step is the first one that the machine makes alone.
      have hstep : (m.withHost keypad delay sound).apply .step =
          (.ofFlow m.step.1, m.step.2.withHost keypad delay sound) := by
        simp only [apply, step_withHost hm]
      obtain ⟨hbehind, houtcomes, hticked⟩ := ih hm.rest hrest keypad delay sound
      obtain ⟨hout, hnot⟩ := Reply.isOutcome_ofFlow m.step.1
      rw [behind_cons, replay_cons, hstep, List.replicate_succ, behind_cons, replay_cons,
        List.filter_cons_of_pos hout, List.filter_cons_of_neg (Bool.not_eq_true _ ▸ hnot)]
      exact ⟨hbehind, congrArg _ houtcomes, hticked⟩
    · obtain ⟨hbehind, houtcomes, hticked⟩ :=
        ih hm hrest keypad (countDown delay) (countDown sound)
      exact ⟨hbehind, houtcomes, congrArg _ hticked⟩
    · have hkeys : (m.withHost keypad delay sound).apply first =
          (.done, m.withHost (keypad.after first) delay sound) :=
        apply_of_changesKeys _ hk
      obtain ⟨hbehind, houtcomes, hticked⟩ := ih hm hrest (keypad.after first) delay sound
      rw [behind_cons, replay_cons, hkeys]
      exact ⟨hbehind, houtcomes, hticked⟩

/-- An instruction that does not look at the timers changes places with a tick, and one that does
not look at the keys with a change of keys. So a run of instructions that look at neither leads to
the same machine, with the same flows, faults and ends of the sound, however the ticks and the
changes of keys are spread over it. -/
theorem host_commutes :
    (∀ m : Machine, m.nextInstruction.usesTimers = false →
      m.tick.2.step = (m.step.1, m.step.2.tick.2) ∧ m.step.2.tick.1 = m.tick.1) ∧
    (∀ (m : Machine) (operation : Operation), operation.changesKeys = true →
      m.nextInstruction.usesKeys = false →
        (m.apply operation).2.step = (m.step.1, (m.step.2.apply operation).2)) ∧
    ∀ (m : Machine) (steps ticks : Nat) (keys first second : List Operation),
      m.StepsAlone steps → Interleaves steps ticks keys first →
      Interleaves steps ticks keys second →
        m.behind first = m.behind second ∧
        (m.replay first).1.filter Reply.isOutcome = (m.replay second).1.filter Reply.isOutcome ∧
        (m.replay first).1.filter Reply.isTicked = (m.replay second).1.filter Reply.isTicked := by
  refine ⟨step_tick, fun m operation => m.step_changesKeys, ?_⟩
  intro m steps ticks keys first second hm hfirst hsecond
  have hown : m.withHost m.keypad m.delayTimer m.soundTimer = m := rfl
  have hone := replay_interleaved hm hfirst m.keypad m.delayTimer m.soundTimer
  have htwo := replay_interleaved hm hsecond m.keypad m.delayTimer m.soundTimer
  rw [hown] at hone htwo
  exact ⟨hone.1.trans htwo.1.symm, hone.2.1.trans htwo.2.1.symm, hone.2.2.trans htwo.2.2.symm⟩

/-- A machine whose return faults, and which then writes over its third instruction. -/
def overwriting : Machine :=
  { new .unset (Vector.replicate 8 0) with
    memory := Memory.zero.writeBlock 0x200 [0x00, 0xEE, 0xF1, 0x55, 0x7A, 0x05]
    index := 0x204
    soundTimer := 2 }

/-- The ticks and the key may come before the three steps or between them. -/
theorem host_commutes_overwriting :
    overwriting.nextInstruction.usesTimers = false ∧
      overwriting.tick.2.step = (overwriting.step.1, overwriting.step.2.tick.2) ∧
      Operation.changesKeys (.setKey 7 true) = true ∧
      overwriting.nextInstruction.usesKeys = false ∧
      (overwriting.apply (.setKey 7 true)).2.step =
        (overwriting.step.1, (overwriting.step.2.apply (.setKey 7 true)).2) ∧
      overwriting.StepsAlone 3 ∧
      Interleaves 3 2 [.setKey 7 true] [.step, .tick, .setKey 7 true, .step, .tick, .step] ∧
      Interleaves 3 2 [.setKey 7 true] [.tick, .tick, .setKey 7 true, .step, .step, .step] ∧
      overwriting.behind [.step, .tick, .setKey 7 true, .step, .tick, .step] =
        overwriting.behind [.tick, .tick, .setKey 7 true, .step, .step, .step] ∧
      (overwriting.replay [.step, .tick, .setKey 7 true, .step, .tick, .step]).1.filter
          Reply.isOutcome =
        [.fault (.stack .underflow), .flow .ok, .flow (.unsupported 0)] ∧
      (overwriting.replay [.step, .tick, .setKey 7 true, .step, .tick, .step]).1.filter
          Reply.isTicked =
        [.ticked false, .ticked true] := by
  have htimers : overwriting.nextInstruction.usesTimers = false := by decide +kernel
  have hkeys : overwriting.nextInstruction.usesKeys = false := by decide +kernel
  have halone : overwriting.StepsAlone 3 := by decide +kernel
  have hmixed : Interleaves 3 2 [.setKey 7 true]
      [.step, .tick, .setKey 7 true, .step, .tick, .step] := ⟨rfl, rfl, rfl, by decide⟩
  have hsorted : Interleaves 3 2 [.setKey 7 true]
      [.tick, .tick, .setKey 7 true, .step, .step, .step] := ⟨rfl, rfl, rfl, by decide⟩
  obtain ⟨hone, hkey, hrun⟩ := host_commutes
  obtain ⟨hbehind, houtcomes, hticked⟩ := hrun overwriting 3 2 _ _ _ halone hmixed hsorted
  refine ⟨htimers, (hone _ htimers).1, rfl, hkeys, hkey _ _ rfl hkeys, halone, hmixed, hsorted,
    hbehind, houtcomes.trans ?_, hticked.trans ?_⟩
  · decide +kernel
  · decide +kernel

end Machine

end ChipEight
