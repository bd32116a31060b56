import ChipEight.Proofs.Machine.Interleaving

/-!
# Timers over histories

The two timers work alike. An instruction of its own sets each of them to a register, every tick
counts both down, and nothing else reaches them. So a timer that no instruction sets is known from
the number of ticks alone, and the sound that it makes ends with the one tick that counts it
down to zero. The end of a sound has to be paid for: every end that a tick tells of needs an
instruction before it that started the sound.
-/

namespace ChipEight

/-- The timers of a machine. -/
inductive Timer
  | delay
  | sound
  deriving DecidableEq, Repr

/-- What a reply tells of the end of the sound, if it is the reply to a tick. -/
def Reply.expired? : Reply → Option Bool
  | .ticked expired => some expired
  | _ => none

theorem Reply.expired?_ofFlow (o : Except StackFault Flow) : (Reply.ofFlow o).expired? = none := by
  cases o <;> rfl

namespace Machine

/-- What a timer is at. -/
def timer (m : Machine) : Timer → UInt8
  | .delay => m.delayTimer
  | .sound => m.soundTimer

/-- The value that the next instruction sets a timer to, if it sets it. -/
def sets? (m : Machine) (t : Timer) : Option UInt8 :=
  match t, m.nextInstruction with
  | .delay, .setDelay x => some (m.registers.get x)
  | .sound, .setSound x => some (m.registers.get x)
  | _, _ => none

/-- Whether the next instruction starts a sound. -/
def startsSound (m : Machine) : Bool := (m.sets? .sound).any (· != 0)

/-- What the ticks of a history tell of the end of the sound, in order. -/
def tickAnswers (m : Machine) (history : List Operation) : List Bool :=
  (m.replies history).filterMap Reply.expired?

/-- A timer one tick later is one less, down to zero. -/
theorem toNat_countDown (timer : UInt8) : (countDown timer).toNat = timer.toNat - 1 := by
  unfold countDown
  split
  · next h =>
    rw [h]
    rfl
  · next h =>
    have hpos : 1 ≤ timer.toNat := by
      refine Nat.pos_of_ne_zero fun hzero => h ?_
      exact UInt8.toNat_inj.mp hzero
    exact UInt8.toNat_sub_of_le _ _ (UInt8.le_iff_toNat_le.mpr hpos)

/-- The end of a sound comes with the tick that counts it down to zero. -/
theorem ends_countDown (timer : UInt8) :
    (timer == 1).toNat + (if countDown timer = 0 then 0 else 1) =
      if timer = 0 then 0 else 1 := by
  have hnone : timer = 0 ↔ timer.toNat = 0 := UInt8.toNat_inj.symm
  have hone : timer = 1 ↔ timer.toNat = 1 := UInt8.toNat_inj.symm
  have hless : countDown timer = 0 ↔ timer.toNat - 1 = 0 := by
    rw [← toNat_countDown]
    exact UInt8.toNat_inj.symm
  by_cases h : timer = 1
  · subst h
    rfl
  · rw [beq_false_of_ne h, Bool.toNat_false, Nat.zero_add]
    refine if_congr ?_ rfl rfl
    rw [hone] at h
    rw [hnone, hless]
    omega

theorem timer_step (m : Machine) (t : Timer) :
    m.step.2.timer t = (m.sets? t).getD (m.timer t) := by
  rw [step_eq]
  unfold sets?
  cases t with
  | delay =>
    change m.nextInstruction.delayAfter m = _
    cases m.nextInstruction <;> rfl
  | sound =>
    change m.nextInstruction.soundAfter m = _
    cases m.nextInstruction <;> rfl

theorem timer_tick (m : Machine) (t : Timer) : m.tick.2.timer t = countDown (m.timer t) := by
  cases t <;> rfl

/-- Nothing but a step or a tick reaches a timer. -/
theorem timer_apply_of_ne (m : Machine) {operation : Operation} (hr : operation.isRun = false)
    (hs : operation ≠ .step) (ht : operation ≠ .tick) (t : Timer) :
    (m.apply operation).2.timer t = m.timer t := by
  by_cases hl : operation.isLoad = true
  · obtain ⟨memory, hm⟩ := m.apply_of_isLoad hl
    rw [hm]
    rfl
  cases operation with
  | step => exact absurd rfl hs
  | tick => exact absurd rfl ht
  | run count => cases hr
  | loadProgram program => exact absurd rfl hl
  | loadFont glyphs => exact absurd rfl hl
  | takeFrame => cases hd : m.dirty <;> simp only [apply, takeFrame, hd] <;> rfl
  | setKey k down | clearKeys | clearDirty => rfl

/-- A step may set a timer, a tick counts it down, and nothing else reaches it. -/
theorem timer_cases (m : Machine) {operation : Operation} (hr : operation.isRun = false)
    (t : Timer) :
    operation = .step ∧ (m.apply operation).2.timer t = (m.sets? t).getD (m.timer t) ∨
      operation = .tick ∧ (m.apply operation).2.timer t = countDown (m.timer t) ∨
      operation ≠ .step ∧ operation ≠ .tick ∧ (m.apply operation).2.timer t = m.timer t := by
  by_cases hs : operation = .step
  · subst hs
    exact Or.inl ⟨rfl, m.timer_step t⟩
  · by_cases ht : operation = .tick
    · subst ht
      exact Or.inr (Or.inl ⟨rfl, m.timer_tick t⟩)
    · exact Or.inr (Or.inr ⟨hs, ht, m.timer_apply_of_ne hr hs ht t⟩)

theorem tickAnswers_cons (m : Machine) (operation : Operation) (rest : List Operation) :
    m.tickAnswers (operation :: rest) =
      (m.apply operation).1.expired?.toList ++ (m.apply operation).2.tickAnswers rest := by
  rw [tickAnswers, replies_cons]
  cases h : (m.apply operation).1.expired? with
  | none => rw [List.filterMap_cons_none h]; rfl
  | some expired => rw [List.filterMap_cons_some h]; rfl

theorem tickAnswers_append (m : Machine) (first second : List Operation) :
    m.tickAnswers (first ++ second) =
      m.tickAnswers first ++ (m.behind first).tickAnswers second := by
  rw [tickAnswers, replies_append, List.filterMap_append]
  rfl

theorem tickAnswers_tick (m : Machine) (rest : List Operation) :
    m.tickAnswers (.tick :: rest) = m.tick.1 :: m.tick.2.tickAnswers rest := rfl

/-- Only ticks tell of the sound. -/
theorem expired?_apply {m : Machine} {operation : Operation} (h : operation ≠ .tick) :
    (m.apply operation).1.expired? = none := by
  cases operation with
  | tick => exact absurd rfl h
  | step => exact Reply.expired?_ofFlow m.step.1
  | run count => exact Reply.expired?_ofFlow (m.run count).1
  | loadProgram program => cases hm : m.loadProgram program <;> simp only [apply, hm] <;> rfl
  | loadFont glyphs => cases hm : m.loadFont glyphs <;> simp only [apply, hm] <;> rfl
  | takeFrame | setKey k down | clearKeys | clearDirty => rfl

theorem tickAnswers_of_ne {m : Machine} {operation : Operation} (h : operation ≠ .tick)
    (rest : List Operation) :
    m.tickAnswers (operation :: rest) = (m.apply operation).2.tickAnswers rest := by
  rw [tickAnswers_cons, expired?_apply h]
  rfl

/-- There are as many answers as ticks. -/
theorem length_tickAnswers (m : Machine) (history : List Operation) :
    (m.tickAnswers history).length = history.count .tick := by
  induction history generalizing m with
  | nil => rfl
  | cons operation rest ih =>
    by_cases ht : operation = .tick
    · subst ht
      rw [tickAnswers_tick, List.length_cons, ih, List.count_cons_self]
    · rw [tickAnswers_of_ne ht, ih, List.count_cons_of_ne ht]

theorem count_tickAnswers (m : Machine) (history : List Operation) :
    (m.tickAnswers history).count true = (m.replies history).count (.ticked true) := by
  rw [tickAnswers, List.count_filterMap]
  refine List.countP_congr fun reply _ => ?_
  cases reply <;> simp [Reply.expired?]

/-- A run has no ticks. -/
theorem tickAnswers_stepsOfRun (count : Nat) (m : Machine) :
    m.tickAnswers (stepsOfRun count m) = [] := by
  rw [List.eq_nil_iff_length_eq_zero, length_tickAnswers, List.count_eq_zero]
  intro hmem
  cases eq_step_of_mem_stepsOfRun hmem

/-- Writing runs out changes nothing about the ticks. -/
theorem tickAnswers_unroll (m : Machine) (history : List Operation) :
    m.tickAnswers (m.unroll history) = m.tickAnswers history := by
  induction history generalizing m with
  | nil => rfl
  | cons operation rest ih =>
    by_cases hr : operation.isRun = false
    · rw [m.unroll_cons hr, tickAnswers_cons, tickAnswers_cons, ih]
    · cases operation with
      | run count =>
        have hsteps : m.behind (stepsOfRun count m) = (m.apply (.run count)).2 :=
          behind_stepsOfRun count m
        rw [unroll, tickAnswers_append, tickAnswers_stepsOfRun, hsteps, ih, List.nil_append,
          tickAnswers_of_ne (by rintro h; cases h)]
      | _ => exact absurd rfl hr

/-- Writing runs out adds no tick. -/
theorem count_tick_unroll (m : Machine) (history : List Operation) :
    (m.unroll history).count .tick = history.count .tick := by
  rw [← m.length_tickAnswers, tickAnswers_unroll, length_tickAnswers]

/-- An operation that sets a timer nowhere counts it down or leaves it alone. -/
theorem timer_uncons {m : Machine} {t : Timer} {operation : Operation} {rest : List Operation}
    (hr : operation.isRun = false)
    (h : ∀ n ∈ m.stepsFrom (operation :: rest), n.sets? t = none) :
    (m.apply operation).2.timer t =
        (if operation = .tick then countDown (m.timer t) else m.timer t) ∧
      ∀ n ∈ (m.apply operation).2.stepsFrom rest, n.sets? t = none := by
  obtain ⟨rfl, hset⟩ | ⟨rfl, hcounted⟩ | ⟨hs, ht, hkept⟩ := m.timer_cases hr t
  · rw [stepsFrom_step, List.forall_mem_cons] at h
    rw [hset, h.1]
    exact ⟨rfl, h.2⟩
  · exact ⟨hcounted, h⟩
  · rw [stepsFrom_of_ne m hs] at h
    rw [hkept, if_neg ht]
    exact ⟨rfl, h⟩

/-- Over single operations, a timer that no instruction sets is counted down by the ticks. -/
theorem timer_behind_of_unset {t : Timer} {operations : List Operation}
    (hr : ∀ operation ∈ operations, operation.isRun = false) {m : Machine}
    (h : ∀ n ∈ m.stepsFrom operations, n.sets? t = none) :
    ((m.behind operations).timer t).toNat = (m.timer t).toNat - operations.count .tick := by
  induction operations generalizing m with
  | nil => rfl
  | cons operation rest ih =>
    obtain ⟨hfirst, hunset⟩ := timer_uncons (hr operation List.mem_cons_self) h
    rw [behind_cons, ih (fun o ho => hr o (List.mem_cons_of_mem _ ho)) hunset, hfirst]
    by_cases ht : operation = .tick
    · rw [if_pos ht, ht, toNat_countDown, List.count_cons_self]
      omega
    · rw [if_neg ht, List.count_cons_of_ne ht]

/-- Over single operations, the sound that no instruction sets ends with the tick whose number it
is at. -/
theorem tickAnswers_of_unset {operations : List Operation}
    (hr : ∀ operation ∈ operations, operation.isRun = false) {m : Machine}
    (h : ∀ n ∈ m.stepsFrom operations, n.sets? .sound = none) :
    m.tickAnswers operations =
      (List.range (operations.count .tick)).map fun i => i + 1 == m.soundTimer.toNat := by
  induction operations generalizing m with
  | nil => rfl
  | cons operation rest ih =>
    obtain ⟨hfirst, hunset⟩ := timer_uncons (hr operation List.mem_cons_self) h
    have hrest := ih (fun o ho => hr o (List.mem_cons_of_mem _ ho)) hunset
    change (m.apply operation).2.soundTimer = _ at hfirst
    by_cases ht : operation = .tick
    · subst ht
      have hnow : m.tick.1 = (0 + 1 == m.soundTimer.toNat) := by
        rw [Bool.eq_iff_iff, tick_eq, beq_iff_eq, beq_iff_eq, ← UInt8.toNat_inj, eq_comm]
        rfl
      have hlater : (fun i => i + 1 == (m.apply .tick).2.soundTimer.toNat) =
          (fun i => i + 1 == m.soundTimer.toNat) ∘ Nat.succ := by
        rw [hfirst, if_pos rfl, timer, toNat_countDown]
        funext i
        simp
        omega
      rw [hlater] at hrest
      rw [tickAnswers_tick, List.count_cons_self, List.range_succ_eq_map, List.map_cons,
        List.map_map, hnow]
      exact congrArg _ hrest
    · rw [if_neg ht] at hfirst
      rw [tickAnswers_of_ne ht, hrest, List.count_cons_of_ne ht, hfirst]
      rfl

/-- The ends of the sound that are still to come: one while it lasts. -/
def pendingEnds (m : Machine) : Nat := if m.soundTimer = 0 then 0 else 1

/-- An end of the sound was still to come, or was paid for by a start. -/
theorem pendingEnds_apply (m : Machine) {operation : Operation} (hr : operation.isRun = false) :
    (m.tickAnswers [operation]).count true + (m.apply operation).2.pendingEnds ≤
      (m.stepsFrom [operation]).countP startsSound + m.pendingEnds := by
  obtain ⟨rfl, hset⟩ | ⟨rfl, hcounted⟩ | ⟨hs, ht, hkept⟩ := m.timer_cases hr .sound
  · change (m.apply .step).2.soundTimer = (m.sets? .sound).getD m.soundTimer at hset
    rw [tickAnswers_of_ne (by rintro h; cases h), stepsFrom_step, pendingEnds, hset,
      List.countP_cons, startsSound]
    cases m.sets? .sound with
    | none => simp [tickAnswers, stepsFrom, pendingEnds]
    | some v => by_cases hv : v = 0 <;> simp [tickAnswers, stepsFrom, hv]
  · change (m.apply .tick).2.soundTimer = countDown m.soundTimer at hcounted
    rw [tickAnswers_tick, stepsFrom_of_ne m (by rintro h; cases h), pendingEnds, hcounted, tick_eq,
      pendingEnds, ← ends_countDown m.soundTimer]
    cases m.soundTimer == 1 <;> simp [tickAnswers]
  · change (m.apply operation).2.soundTimer = m.soundTimer at hkept
    rw [tickAnswers_of_ne ht, stepsFrom_of_ne m hs, pendingEnds, hkept]
    simp [tickAnswers, stepsFrom, pendingEnds]

/-- Over single operations, no more sounds end than were started. -/
theorem count_tickAnswers_le {operations : List Operation}
    (hr : ∀ operation ∈ operations, operation.isRun = false) (m : Machine) :
    (m.tickAnswers operations).count true + (m.behind operations).pendingEnds ≤
      (m.stepsFrom operations).countP startsSound + m.pendingEnds := by
  induction operations generalizing m with
  | nil => simp [tickAnswers, stepsFrom]
  | cons operation rest ih =>
    have hfirst := m.pendingEnds_apply (hr operation List.mem_cons_self)
    have hrest := ih (fun o ho => hr o (List.mem_cons_of_mem _ ho)) (m.apply operation).2
    have hanswers : m.tickAnswers (operation :: rest) =
        m.tickAnswers [operation] ++ (m.apply operation).2.tickAnswers rest :=
      m.tickAnswers_append [operation] rest
    have hsteps : m.stepsFrom (operation :: rest) =
        m.stepsFrom [operation] ++ (m.apply operation).2.stepsFrom rest := by
      simp [stepsFrom]
    rw [hanswers, hsteps, List.count_append, List.countP_append, behind_cons]
    omega

/-- A timer that no instruction of a history sets is counted down by its ticks. -/
theorem timer_behind {m : Machine} {t : Timer} {history : List Operation}
    (h : ∀ n ∈ m.executions history, n.sets? t = none) :
    ((m.behind history).timer t).toNat = (m.timer t).toNat - history.count .tick := by
  rw [← behind_unroll, ← m.count_tick_unroll]
  exact timer_behind_of_unset (fun _ => isRun_of_mem_unroll) h

/-- The sound that no instruction of a history sets ends with the tick whose number it is at. -/
theorem tickAnswers_eq {m : Machine} {history : List Operation}
    (h : ∀ n ∈ m.executions history, n.sets? .sound = none) :
    m.tickAnswers history =
      (List.range (history.count .tick)).map fun i => i + 1 == m.soundTimer.toNat := by
  rw [← tickAnswers_unroll, ← m.count_tick_unroll]
  exact tickAnswers_of_unset (fun _ => isRun_of_mem_unroll) h

/-- No more sounds end over a history than were started. -/
theorem ends_le_starts (m : Machine) (history : List Operation) :
    (m.tickAnswers history).count true + (m.behind history).pendingEnds ≤
      (m.executions history).countP startsSound + m.pendingEnds := by
  rw [← tickAnswers_unroll, ← behind_unroll]
  exact count_tickAnswers_le (fun _ => isRun_of_mem_unroll) m

/-- A tick ends a sound that was still to end, and no sound is left. -/
theorem pendingEnds_of_expired {m : Machine} (h : m.tick.1 = true) :
    m.pendingEnds = 1 ∧ m.tick.2.pendingEnds = 0 := by
  have hlast : m.soundTimer = 1 := beq_iff_eq.mp h
  rw [tick_eq, pendingEnds, pendingEnds, hlast]
  exact ⟨rfl, rfl⟩

/-- Where no sound is left, a tick ends one only after an instruction that started it. -/
theorem starts_of_expired {m : Machine} (hsilent : m.pendingEnds = 0) {between : List Operation}
    (h : (m.behind between).tick.1 = true) :
    ∃ n ∈ m.executions between, n.startsSound = true := by
  have hle := m.ends_le_starts between
  rw [(pendingEnds_of_expired h).1, hsilent] at hle
  exact List.countP_pos_iff.mp (by omega)

end Machine

end ChipEight
