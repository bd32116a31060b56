import ChipEight.Proofs.Machine.Footprint
import ChipEight.Proofs.Runner.Loop

/-!
# Frames reach the host

A running machine hands out its screen after every update that drew on it, and its host may
take the waiting frame at any moment, or never. Whatever their order, between updates the
frame that waits, or else the one that was taken last, shows the screen as it is: no final
state is lost. Every frame that is taken comes from an update of its own, and later
frames come from later updates.
-/

namespace ChipEight

namespace Machine

/-- Drawing is marked: where no mark is left behind a step or a tick, there was none before and the
screen is as it was. -/
theorem screen_apply_of_clean {m : Machine} {operation : Operation}
    (ho : operation = .step ∨ operation = .tick) (hclean : (m.apply operation).2.dirty = false) :
    m.dirty = false ∧ (m.apply operation).2.screen = m.screen := by
  rcases ho with rfl | rfl
  · change m.step.2.dirty = false at hclean
    change _ ∧ m.step.2.screen = m.screen
    rw [step_eq] at hclean ⊢
    obtain ⟨hdraws, hbefore⟩ := Bool.or_eq_false_iff.mp hclean
    rw [Instruction.draws_eq] at hdraws
    exact ⟨hbefore, Instruction.same_after hdraws⟩
  · exact ⟨hclean, rfl⟩

/-- The same holds behind any number of steps and ticks. -/
theorem screen_behind_of_clean {m : Machine} {history : List Operation}
    (ho : ∀ operation ∈ history, operation = .step ∨ operation = .tick)
    (hclean : (m.behind history).dirty = false) :
    m.dirty = false ∧ (m.behind history).screen = m.screen := by
  induction history generalizing m with
  | nil => exact ⟨hclean, rfl⟩
  | cons operation rest ih =>
    obtain ⟨hmiddle, hscreen⟩ := ih (fun o hmem => ho o (List.mem_cons_of_mem _ hmem)) hclean
    obtain ⟨hbefore, hfirst⟩ := screen_apply_of_clean (ho operation List.mem_cons_self) hmiddle
    exact ⟨hbefore, hscreen.trans hfirst⟩

/-- Taking the screen clears the mark; nothing is taken only where there was no mark. -/
theorem takeFrame_cases (m : Machine) :
    m.takeFrame.2.dirty = false ∧ m.takeFrame.2.screen = m.screen ∧
      (m.takeFrame.1 = some m.screen ∨ m.takeFrame.1 = none ∧ m.dirty = false) := by
  by_cases hd : m.dirty = true
  · rw [takeFrame, if_pos hd]
    exact ⟨rfl, rfl, Or.inl rfl⟩
  · have hclean : m.dirty = false := Bool.not_eq_true _ ▸ hd
    rw [takeFrame, if_neg hd]
    exact ⟨hclean, rfl, Or.inr ⟨rfl, hclean⟩⟩

end Machine

namespace Runner

variable {r : Runner} {cpuNow timerNow : Nat → Nat}

/-- An update without a fault makes steps and ticks and takes the screen behind them. -/
theorem update_takes (hok : (r.update cpuNow timerNow).1.fault = none) :
    ∃ history : List Operation,
      (∀ operation ∈ history, operation = .step ∨ operation = .tick) ∧
      (r.update cpuNow timerNow).1.frame = (r.machine.behind history).takeFrame.1 ∧
      (r.update cpuNow timerNow).2.machine = (r.machine.behind history).takeFrame.2 := by
  rcases hs : stepDue cpuNow maxCycles 0 r with ⟨steps, fault, next⟩
  cases fault with
  | some cause =>
    rw [update_of_fault timerNow hs] at hok
    cases hok
  | none =>
    obtain ⟨stepCount, -, -, hstepped, -⟩ := stepDue_machine cpuNow maxCycles 0 r
    obtain ⟨tickCount, -, -, hticked, -⟩ := tickDue_machine timerNow maxCycles 0 0 next
    rw [hs] at hstepped
    refine ⟨List.replicate stepCount .step ++ List.replicate tickCount .tick, ?_, ?_⟩
    · intro operation hmem
      exact (List.mem_append.mp hmem).imp List.eq_of_mem_replicate List.eq_of_mem_replicate
    · rw [update_of_ok timerNow hs, Machine.behind_append, ← hstepped, ← hticked]
      exact ⟨rfl, rfl⟩

/-- An update without a fault leaves no mark, and it hands the screen out unless it is as before. -/
theorem frame_update (hok : (r.update cpuNow timerNow).1.fault = none) :
    (r.update cpuNow timerNow).2.machine.dirty = false ∧
      ((r.update cpuNow timerNow).1.frame = some (r.update cpuNow timerNow).2.machine.screen ∨
        (r.update cpuNow timerNow).1.frame = none ∧
          (r.update cpuNow timerNow).2.machine.screen = r.machine.screen) := by
  obtain ⟨history, hkinds, hframe, hmachine⟩ := update_takes hok
  obtain ⟨hclean, hscreen, htaken⟩ := (r.machine.behind history).takeFrame_cases
  rw [hframe, hmachine, hscreen]
  refine ⟨hclean, htaken.imp id ?_⟩
  rintro ⟨hnone, hbefore⟩
  exact ⟨hnone, (Machine.screen_behind_of_clean hkinds hbefore).2⟩

/-- Nothing is handed out where a fault ends the update. -/
theorem frame_of_fault {cause : StackFault}
    (hfault : (r.update cpuNow timerNow).1.fault = some cause) :
    (r.update cpuNow timerNow).1.frame = none := by
  rcases hs : stepDue cpuNow maxCycles 0 r with ⟨steps, fault, next⟩
  cases fault with
  | some cause => rw [update_of_fault timerNow hs]
  | none =>
    rw [update_of_ok timerNow hs] at hfault
    cases hfault

end Runner

/-- What a running machine has shown to its host. -/
structure Shown where
  /-- The screen at the end of each update that met no fault, in their order. -/
  screens : List Screen
  /-- The number of the update that last handed out a frame. -/
  source : Nat
  /-- The frames that the host took, in their order, each with the number of the update that handed
  it out. -/
  taken : List (Nat × Screen)
  deriving DecidableEq

namespace Shown

/-- Nothing was shown yet. -/
def nothing : Shown := ⟨[], 0, []⟩

/-- The end of an update is noted with its screen, and a frame that is taken with its update. -/
def note (s : Shown) (l : Loop) : Move → Shown
  | .work cpuNow timerNow =>
    let (report, r) := l.runner.update cpuNow timerNow
    match report.fault with
    | some _ => s
    | none =>
      { s with
        screens := s.screens ++ [r.machine.screen]
        source := if report.frame.isSome then s.screens.length else s.source }
  | .takeFrame =>
    match l.slot.take.1 with
    | some frame => { s with taken := s.taken ++ [(s.source, frame)] }
    | none => s
  | .send _ | .leave | .look | .rest => s

/-- The frame that waits, otherwise the one that was taken last, otherwise the blank screen. -/
def latest (s : Shown) (slot : FrameSlot) : Screen :=
  (slot.pending.or (s.taken.getLast?.map Prod.snd)).getD .blank

end Shown

namespace Loop

/-- What was shown to the host after a list of moves. -/
def shown (first : Loop) (moves : List Move) : Shown := watch Shown.note .nothing first moves

/-- What was shown is true to the machine. -/
structure Delivers (s : Shown) (l : Loop) : Prop where
  /-- Between updates the host has, or can take, the screen as it is. -/
  current : (∀ cause, l.phase ≠ .faulted cause) →
    s.latest l.slot = l.runner.machine.screen ∧ l.runner.machine.dirty = false
  /-- The frame that waits is the screen of the update that handed it out, which is later than those
  of the frames that were taken. -/
  waiting : ∀ frame, l.slot.pending = some frame →
    s.screens[s.source]? = some frame ∧ ∀ entry ∈ s.taken, entry.1 < s.source
  /-- A frame that was taken is the screen of its update. -/
  taken : ∀ entry ∈ s.taken, s.screens[entry.1]? = some entry.2
  /-- Frames are taken in the order of their updates, and no update gives two. -/
  later : s.taken.Pairwise fun earlier later => earlier.1 < later.1

namespace Delivers

variable {s : Shown} {l last : Loop} {cpuNow timerNow : Nat → Nat}

/-- A move that reaches neither the screen nor the slot makes no difference to the host. -/
theorem of_same (h : Delivers s l)
    (hphase : ∀ cause, l.phase = .faulted cause → last.phase = .faulted cause)
    (hslot : last.slot = l.slot) (hscreen : last.runner.machine.screen = l.runner.machine.screen)
    (hdirty : last.runner.machine.dirty = l.runner.machine.dirty) : Delivers s last := by
  refine ⟨fun hok => ?_, fun frame hf => ?_, h.taken, h.later⟩
  · rw [hslot, hscreen, hdirty]
    exact h.current fun cause hf => hok cause (hphase cause hf)
  · rw [hslot] at hf
    exact h.waiting frame hf

/-- A look into the inbox reaches keys only. -/
theorem look (h : Delivers s l) (hp : l.phase = .looking) : Delivers s l.look := by
  have hphase (cause : StackFault) (hf : l.phase = .faulted cause) :
      l.look.phase = .faulted cause := by
    cases hp.symm.trans hf
  obtain ⟨k, down, rest, -, -, hl⟩ | ⟨rest, -, -, hl⟩ | ⟨-, -, hl⟩ | ⟨-, -, hl⟩ := l.look_cases
  all_goals
    refine h.of_same hphase ?_ ?_ ?_ <;> rw [hl] <;> rfl

/-- The host takes the frame that waits, if one does. -/
theorem takeFrame (h : Delivers s l) : Delivers (s.note l .takeFrame) (l.next .takeFrame) := by
  cases hf : l.slot.pending with
  | none =>
    have hnote : s.note l .takeFrame = s := by
      simp only [Shown.note, FrameSlot.take, hf]
    rw [hnote]
    exact h.of_same (fun _ hp => hp) (congrArg FrameSlot.mk hf.symm) rfl rfl
  | some frame =>
    have hnote : s.note l .takeFrame = { s with taken := s.taken ++ [(s.source, frame)] } := by
      simp only [Shown.note, FrameSlot.take, hf]
    obtain ⟨hfrom, hlater⟩ := h.waiting frame hf
    rw [hnote]
    refine ⟨fun hok => ?_, fun _ hnone => (by cases hnone), ?_, ?_⟩
    · have hcurrent := h.current hok
      simp only [Shown.latest, hf] at hcurrent
      simpa [Shown.latest, Loop.next, FrameSlot.take, FrameSlot.empty] using hcurrent
    · intro entry hmem
      rcases List.mem_append.mp hmem with hmem | hmem
      · exact h.taken entry hmem
      · rw [List.mem_singleton.mp hmem]
        exact hfrom
    · rw [List.pairwise_append]
      refine ⟨h.later, List.pairwise_singleton _ _, ?_⟩
      intro entry hmem last hlast
      rw [List.mem_singleton.mp hlast]
      exact hlater entry hmem

/-- The update that a taken frame comes from has ended. -/
theorem number_lt (h : Delivers s l) {entry : Nat × Screen} (hmem : entry ∈ s.taken) :
    entry.1 < s.screens.length :=
  (List.getElem?_eq_some_iff.mp (h.taken entry hmem)).1

/-- A frame that is taken stays the screen of its update. -/
theorem taken_append (h : Delivers s l) (screen : Screen) {entry : Nat × Screen}
    (hmem : entry ∈ s.taken) : (s.screens ++ [screen])[entry.1]? = some entry.2 := by
  rw [List.getElem?_append_left (h.number_lt hmem), h.taken entry hmem]

/-- An update that meets a fault hands nothing out. -/
theorem work_of_fault (h : Delivers s l) {cause : StackFault}
    (hfault : (l.runner.update cpuNow timerNow).1.fault = some cause) :
    Delivers (s.note l (.work cpuNow timerNow)) (l.work cpuNow timerNow) := by
  have hnote : s.note l (.work cpuNow timerNow) = s := by simp only [Shown.note, hfault]
  rw [hnote]
  refine ⟨fun hok => absurd (Report.phase_of_fault hfault) (hok cause), ?_, h.taken, h.later⟩
  simp only [Loop.work, Runner.frame_of_fault hfault, FrameSlot.publish?]
  exact h.waiting

/-- A frame that is handed out is the screen of its update and takes the place of any other. -/
theorem work_of_frame (h : Delivers s l)
    (hok : (l.runner.update cpuNow timerNow).1.fault = none)
    (hclean : (l.runner.update cpuNow timerNow).2.machine.dirty = false)
    (hframe : (l.runner.update cpuNow timerNow).1.frame =
      some (l.runner.update cpuNow timerNow).2.machine.screen) :
    Delivers (s.note l (.work cpuNow timerNow)) (l.work cpuNow timerNow) := by
  have hnote : s.note l (.work cpuNow timerNow) =
      ⟨s.screens ++ [(l.runner.update cpuNow timerNow).2.machine.screen], s.screens.length,
        s.taken⟩ := by
    simp only [Shown.note, hok, hframe, Option.isSome_some, if_true]
  rw [hnote]
  refine ⟨fun _ => ⟨?_, hclean⟩, ?_, fun _ hmem => h.taken_append _ hmem, h.later⟩
  · simp only [Loop.work, hframe, FrameSlot.publish?, FrameSlot.publish, Shown.latest,
      Option.some_or, Option.getD_some]
  · simp only [Loop.work, hframe, FrameSlot.publish?, FrameSlot.publish, Option.some.injEq]
    rintro frame rfl
    exact ⟨List.getElem?_concat_length, fun _ hmem => h.number_lt hmem⟩

/-- Where nothing is handed out, the host has the screen already or can take it. -/
theorem work_of_none (h : Delivers s l) (hp : l.phase = .working)
    (hok : (l.runner.update cpuNow timerNow).1.fault = none)
    (hclean : (l.runner.update cpuNow timerNow).2.machine.dirty = false)
    (hnone : (l.runner.update cpuNow timerNow).1.frame = none)
    (hsame : (l.runner.update cpuNow timerNow).2.machine.screen = l.runner.machine.screen) :
    Delivers (s.note l (.work cpuNow timerNow)) (l.work cpuNow timerNow) := by
  have hbefore := h.current fun cause hf => by cases hp.symm.trans hf
  have hnote : s.note l (.work cpuNow timerNow) =
      { s with
        screens := s.screens ++ [(l.runner.update cpuNow timerNow).2.machine.screen] } := by
    simp only [Shown.note, hok, hnone, Option.isSome_none, Bool.false_eq_true, if_false]
  rw [hnote]
  refine ⟨fun _ => ⟨?_, hclean⟩, ?_, fun _ hmem => h.taken_append _ hmem, h.later⟩
  · simp only [Loop.work, hnone, FrameSlot.publish?, hsame]
    exact hbefore.1
  · simp only [Loop.work, hnone, FrameSlot.publish?]
    intro frame hf
    obtain ⟨hfrom, hlater⟩ := h.waiting frame hf
    refine ⟨?_, hlater⟩
    rw [List.getElem?_append_left (List.getElem?_eq_some_iff.mp hfrom).1, hfrom]

/-- An update without a fault ends with a screen of its own number, and hands it out unless the
host has it already. -/
theorem work (h : Delivers s l) (hp : l.phase = .working) (cpuNow timerNow : Nat → Nat) :
    Delivers (s.note l (.work cpuNow timerNow)) (l.work cpuNow timerNow) := by
  cases hfault : (l.runner.update cpuNow timerNow).1.fault with
  | some cause => exact h.work_of_fault hfault
  | none =>
    obtain ⟨hclean, hframe | ⟨hnone, hsame⟩⟩ := Runner.frame_update hfault
    · exact h.work_of_frame hfault hclean hframe
    · exact h.work_of_none hp hfault hclean hnone hsame

/-- Every move keeps what was shown true to the machine. -/
theorem next (h : Delivers s l) {move : Move} (hallows : l.Allows move) :
    Delivers (s.note l move) (l.next move) := by
  cases move with
  | send c => exact h.of_same (fun _ hf => hf) rfl rfl rfl
  | leave => exact h.of_same (fun _ hf => hf) rfl rfl rfl
  | takeFrame => exact h.takeFrame
  | look => exact h.look hallows
  | work cpuNow timerNow => exact h.work hallows cpuNow timerNow
  | rest =>
    refine h.of_same (fun cause hf => ?_) rfl rfl rfl
    cases hf.symm.trans hallows

end Delivers

/-- A run from a blank screen without a mark keeps what is shown true to the machine. -/
theorem Run.delivers {r : Runner} {moves : List Move} {l : Loop}
    (hblank : r.machine.screen = .blank) (hclean : r.machine.dirty = false)
    (h : Run (start r) moves l) : Delivers (shown (start r) moves) l := by
  induction h with
  | nil =>
    refine ⟨fun _ => ⟨hblank.symm, hclean⟩, fun _ hf => ?_, fun _ hmem => ?_, List.Pairwise.nil⟩
    · cases hf
    · cases hmem
  | snoc hrun hallows ih =>
    rw [shown, watch_snoc, ← hrun.eq_after]
    exact ih.next hallows

end Loop

/-- Loading one thing after another reaches memory only. -/
theorem Machine.behind_of_isLoad (m : Machine) {loads : List Operation}
    (h : ∀ operation ∈ loads, operation.isLoad = true) :
    ∃ memory, m.behind loads = { m with memory := memory } := by
  induction loads generalizing m with
  | nil => exact ⟨m.memory, rfl⟩
  | cons operation rest ih =>
    obtain ⟨memory, hm⟩ := m.apply_of_isLoad (h operation List.mem_cons_self)
    obtain ⟨memory', hrest⟩ := ih (m.apply operation).2 fun o hmem =>
      h o (List.mem_cons_of_mem _ hmem)
    refine ⟨memory', ?_⟩
    rw [behind_cons, hrest, hm]

namespace Loop

/-- A machine that was only loaded loses no final state: between updates the frame that waits,
otherwise the one that was taken last, otherwise the blank screen, is the screen as it is. The
frames that are taken are screens at the end of updates, each of a later update than the one
before. -/
theorem frames_delivered (config : Config) (key : Vector UInt32 8) (loads : List Operation)
    (hloads : ∀ operation ∈ loads, operation.isLoad = true) (now : Nat) (moves : List Move)
    (l : Loop) (h : Run (start (.start ((Machine.new config key).behind loads) now)) moves l) :
    let seen := shown (start (.start ((Machine.new config key).behind loads) now)) moves
    ((∀ cause, l.phase ≠ .faulted cause) →
      seen.latest l.slot = l.runner.machine.screen ∧ l.runner.machine.dirty = false) ∧
    (∀ entry ∈ seen.taken, seen.screens[entry.1]? = some entry.2) ∧
    seen.taken.Pairwise (fun earlier later => earlier.1 < later.1) := by
  obtain ⟨memory, hm⟩ := (Machine.new config key).behind_of_isLoad hloads
  have hblank : ((Machine.new config key).behind loads).screen = .blank := by
    rw [hm]
    rfl
  have hclean : ((Machine.new config key).behind loads).dirty = false := by
    rw [hm]
    rfl
  have hseen := Run.delivers (r := .start _ now) hblank hclean h
  exact ⟨hseen.current, hseen.taken, hseen.later⟩

/-- A glyph, and a program that draws it again and again. -/
def blinkingLoads : List Operation :=
  [.loadFont [0xF0, 0x90, 0x90, 0x90, 0xF0], .loadProgram [0xA0, 0x50, 0xD0, 0x05, 0x12, 0x02]]

/-- The first update draws the glyph, the second one erases it, and the third one does neither. -/
def blinkingMoves : List Move :=
  [.look, .work (fun _ => 2 * 1428571) (fun _ => 0), .rest, .takeFrame,
    .look, .work (fun _ => 4 * 1428571) (fun _ => 0), .rest,
    .look, .work (fun _ => 5 * 1428571) (fun _ => 0), .takeFrame, .takeFrame]

/-- The host takes the glyph of the first update and the blank screen of the second one, though
another update comes before. -/
theorem frames_delivered_blinking :
    let first := start (.start ((Machine.new .unset (Vector.replicate 8 0)).behind blinkingLoads) 0)
    let last := first.after blinkingMoves
    let seen := shown first blinkingMoves
    (∀ operation ∈ blinkingLoads, operation.isLoad = true) ∧ Run first blinkingMoves last ∧
      (∀ cause, last.phase ≠ .faulted cause) ∧
      seen.latest last.slot = last.runner.machine.screen ∧
      seen.taken = [(0, .overlay [0xF0, 0x90, 0x90, 0x90, 0xF0] 0 0), (1, .blank)] ∧
      seen.screens = [.overlay [0xF0, 0x90, 0x90, 0x90, 0xF0] 0 0, .blank, .blank] ∧
      seen.taken.Pairwise fun earlier later => earlier.1 < later.1 := by
  intro first last seen
  have hloads : ∀ operation ∈ blinkingLoads, operation.isLoad = true := by decide
  have hevaluated : first.AllowsAll blinkingMoves ∧ last.phase = .resting ∧
      seen.taken = [(0, .overlay [0xF0, 0x90, 0x90, 0x90, 0xF0] 0 0), (1, .blank)] ∧
      seen.screens = [.overlay [0xF0, 0x90, 0x90, 0x90, 0xF0] 0 0, .blank, .blank] := by
    decide +kernel
  obtain ⟨hallows, hresting, htaken, hscreens⟩ := hevaluated
  have hrun : Run first blinkingMoves last := Run.nil.append hallows
  have hok (cause : StackFault) : last.phase ≠ .faulted cause := by
    rw [hresting]
    exact Phase.noConfusion
  obtain ⟨hcurrent, -, hlater⟩ :=
    frames_delivered .unset (Vector.replicate 8 0) blinkingLoads hloads 0 blinkingMoves last hrun
  exact ⟨hloads, hrun, hok, (hcurrent hok).1, htaken, hscreens, hlater⟩

end Loop

end ChipEight
