import ChipEight.Proofs.Machine.Interleaving
import ChipEight.Proofs.Machine.Waiting

/-!
# Waiting for a key

An instruction that asks for a key is executed again and again while none is down. Such a step
sets the mark of a waiting machine and does nothing else, so behind any history of steps and
acts of the host the machine is what the host alone made of it. The first step that finds keys
down takes the least of them and goes on.
-/

namespace ChipEight

/-- The key that is found is down, and no lesser key is. -/
theorem Keypad.first?_eq_some_iff {p : Keypad} {k : Key} :
    p.first? = some k ↔ p.isDown k = true ∧ ∀ j, p.isDown j = true → k ≤ j := by
  rw [first?, List.find?_eq_some_iff_append]
  constructor
  · rintro ⟨hdown, before, behind, hall, hup⟩
    refine ⟨hdown, fun j hj => ?_⟩
    have hmem : j ∈ before ++ k :: behind := hall ▸ List.mem_finRange j
    have hsorted : (before ++ k :: behind).Pairwise (· < ·) := hall ▸ List.pairwise_lt_finRange 16
    rcases List.mem_append.mp hmem with hbefore | hrest
    · have hnot := hup j hbefore
      rw [hj] at hnot
      cases hnot
    · rcases List.mem_cons.mp hrest with rfl | hbehind
      · exact Nat.le_refl _
      · have hlater := (List.pairwise_cons.mp (List.pairwise_append.mp hsorted).2.1).1
        exact Nat.le_of_lt (hlater j hbehind)
  · rintro ⟨hdown, hleast⟩
    obtain ⟨before, behind, hall⟩ := List.append_of_mem (List.mem_finRange k)
    refine ⟨hdown, before, behind, hall, fun j hj => ?_⟩
    have hsorted : (before ++ k :: behind).Pairwise (· < ·) := hall ▸ List.pairwise_lt_finRange 16
    have hless : j < k := (List.pairwise_append.mp hsorted).2.2 j hj k List.mem_cons_self
    have hnot : ¬ p.isDown j = true := fun hdown' => Nat.not_le_of_lt hless (hleast j hdown')
    rw [eq_false_of_ne_true hnot]
    rfl

/-- Whether an operation takes the screen or counts it as taken. -/
def Operation.takesScreen : Operation → Bool
  | .takeFrame | .clearDirty => true
  | _ => false

namespace Machine

/-- A step that finds a key takes it and goes on. -/
theorem step_of_first? {m : Machine} {x : Register} (h : m.nextInstruction = .awaitKey x) {k : Key}
    (hk : m.keypad.first? = some k) :
    m.step = (.ok .ok, { m with
      registers := m.registers.put x (UInt8.ofNat k)
      counter := m.counter + 2
      waiting := false }) := by
  simp only [step, h, execute, goTo, hk]

/-- The screen counts as taken, whether it was drawn on or not. -/
theorem snd_takeFrame (m : Machine) : m.takeFrame.2 = m.clearDirty := by
  cases hd : m.dirty with
  | true => simp only [takeFrame, hd, if_true]
  | false =>
    simp only [takeFrame, hd, Bool.false_eq_true, if_false, clearDirty]
    rw [← hd]

/-- What the host makes of a machine that stays in front of its instruction: keys are set, the
timers are counted down by the ticks, the screen is taken. All that a step leaves is the mark. -/
def idled (m : Machine) (history : List Operation) : Machine :=
  { m with
    keypad := history.foldl Keypad.after m.keypad
    delayTimer := countDown^[history.count .tick] m.delayTimer
    soundTimer := countDown^[history.count .tick] m.soundTimer
    dirty := m.dirty && !history.any Operation.takesScreen
    waiting := m.waiting || history.contains .step }

theorem idled_cons (m : Machine) (operation : Operation) (rest : List Operation) :
    m.idled (operation :: rest) = (m.idled [operation]).idled rest := by
  have hcount : (operation :: rest).count .tick = rest.count .tick + [operation].count .tick := by
    rw [← List.singleton_append, List.count_append, Nat.add_comm]
  simp only [idled, hcount, Function.iterate_add_apply, List.foldl_cons, List.foldl_nil,
    List.any_cons, List.any_nil, List.contains_cons, List.contains_nil, Bool.or_false, Bool.not_or,
    Bool.and_assoc, Bool.or_assoc]

/-- An operation idles a machine, if a step finds no key down. -/
theorem apply_of_idle {m : Machine} {x : Register} (h : m.nextInstruction = .awaitKey x)
    {operation : Operation} (hr : operation.isRun = false) (hl : operation.isLoad = false)
    (hup : operation = .step → m.Untouched) : (m.apply operation).2 = m.idled [operation] := by
  cases operation with
  | run count => cases hr
  | loadProgram program => cases hl
  | loadFont glyphs => cases hl
  | step =>
    have hstep := step_of_untouched h (hup rfl)
    simp [apply, hstep, idled, Keypad.after, Operation.takesScreen]
  | takeFrame =>
    simp [apply, snd_takeFrame, clearDirty, idled, Keypad.after, Operation.takesScreen]
  | tick | setKey k down | clearKeys | clearDirty =>
    simp [apply, tick, setKey, clearKeys, clearDirty, idled, Keypad.after, Operation.takesScreen,
      countDown]

/-- Behind steps that find no key down, the machine is what the host made of it, and each of these
steps set the mark and did nothing else. -/
theorem behind_of_idle {m : Machine} {x : Register} (h : m.nextInstruction = .awaitKey x)
    {history : List Operation}
    (hsingle : ∀ operation ∈ history, operation.isRun = false ∧ operation.isLoad = false)
    (hup : ∀ n ∈ m.stepsFrom history, n.Untouched) :
    m.behind history = m.idled history ∧
      ∀ n ∈ m.stepsFrom history, n.step = (.ok .keyWait, { n with waiting := true }) := by
  induction history generalizing m with
  | nil =>
    refine ⟨?_, fun n hn => absurd hn List.not_mem_nil⟩
    simp [idled]
  | cons operation rest ih =>
    obtain ⟨hr, hl⟩ := hsingle operation List.mem_cons_self
    rw [stepsFrom] at hup ⊢
    have hfirst : operation = .step → m.Untouched := by
      rintro rfl
      exact hup m (List.mem_append_left _ List.mem_cons_self)
    have hidle := apply_of_idle h hr hl hfirst
    -- the instruction is still there, since idling reaches neither memory nor the counter
    have hnext : (m.apply operation).2.nextInstruction = .awaitKey x := by
      rw [hidle]
      exact h
    obtain ⟨hbehind, hsteps⟩ := ih hnext (fun o ho => hsingle o (List.mem_cons_of_mem _ ho))
      (fun n hn => hup n (List.mem_append_right _ hn))
    constructor
    · rw [behind_cons, hbehind, hidle, ← idled_cons]
    · intro n hn
      rcases List.mem_append.mp hn with hn | hn
      · by_cases hs : operation = .step
        · rw [if_pos hs, List.mem_singleton] at hn
          subst hn
          exact step_of_untouched h (hfirst hs)
        · rw [if_neg hs] at hn
          cases hn
      · exact hsteps n hn

/-- A machine in front of an instruction that asks for a key stays there over every history of steps
and acts of the host, loads aside, as long as no key is down at a step: each step answers that the
machine waits and changes nothing but the mark, so behind the history keys, timers and the mark for
a drawn screen are as the host left them, and the rest is as it was. The first step while keys are
down takes the least of them, ends the waiting, goes on, and changes nothing else. -/
theorem stalls_until_key {m : Machine} {x : Register} (h : m.nextInstruction = .awaitKey x)
    {history : List Operation}
    (hsingle : ∀ operation ∈ history, operation.isRun = false ∧ operation.isLoad = false)
    (hup : ∀ n ∈ m.stepsFrom history, n.Untouched) :
    let n := m.behind history
    (∀ s ∈ m.stepsFrom history, s.step = (.ok .keyWait, { s with waiting := true })) ∧
    n = { m with
      keypad := history.foldl Keypad.after m.keypad
      delayTimer := countDown^[history.count .tick] m.delayTimer
      soundTimer := countDown^[history.count .tick] m.soundTimer
      dirty := m.dirty && !history.any Operation.takesScreen
      waiting := m.waiting || history.contains .step } ∧
    ((∃ k, n.keypad.isDown k = true) →
      ∃ k, n.keypad.isDown k = true ∧ (∀ j, n.keypad.isDown j = true → k ≤ j) ∧
        n.step = (.ok .ok, { n with
          registers := n.registers.put x (UInt8.ofNat k)
          counter := n.counter + 2
          waiting := false })) := by
  intro n
  obtain ⟨hbehind, hsteps⟩ := behind_of_idle h hsingle hup
  refine ⟨hsteps, hbehind, ?_⟩
  rintro ⟨j, hj⟩
  have hnext : n.nextInstruction = .awaitKey x := by
    rw [show n = m.idled history from hbehind]
    exact h
  obtain ⟨k, hk⟩ : ∃ k, n.keypad.first? = some k := by
    rw [← Option.ne_none_iff_exists']
    intro hnone
    cases (n.keypad.first?_eq_none_iff.mp hnone j).symm.trans hj
  obtain ⟨hdown, hleast⟩ := Keypad.first?_eq_some_iff.mp hk
  exact ⟨k, hdown, hleast, step_of_first? hnext hk⟩

/-- A machine whose instruction that asks for a key lies around the end of memory. -/
def askingAtEdge : Machine :=
  { new .unset (Vector.replicate 8 0) with
    memory := (Memory.zero.write 0xFFF 0xF4).write 0x000 0x0A
    counter := 0xFFFF
    dirty := true
    delayTimer := 1 }

/-- Keys go down and up between the steps, and in the end two of them are down. -/
def hesitating : List Operation :=
  [.step, .setKey 7 true, .tick, .setKey 7 false, .step, .takeFrame, .tick, .setKey 0xC true,
    .setKey 3 true]

/-- Both steps wait; the one behind them takes the lesser key and goes around the end. -/
theorem stalls_until_key_hesitating :
    askingAtEdge.nextInstruction = .awaitKey 4 ∧
      (∀ operation ∈ hesitating, operation.isRun = false ∧ operation.isLoad = false) ∧
      (∀ n ∈ askingAtEdge.stepsFrom hesitating, n.Untouched) ∧
      (askingAtEdge.behind hesitating).counter = 0xFFFF ∧
      (askingAtEdge.behind hesitating).delayTimer = 0 ∧
      ∃ n, (askingAtEdge.behind hesitating).step = (.ok .ok, n) ∧ n.counter = 1 ∧
        n.registers.get 4 = 3 := by
  have hnext : askingAtEdge.nextInstruction = .awaitKey 4 := by decide +kernel
  have hsingle : ∀ operation ∈ hesitating,
      operation.isRun = false ∧ operation.isLoad = false := by
    simp [hesitating, Operation.isRun, Operation.isLoad]
  have hup : ∀ n ∈ askingAtEdge.stepsFrom hesitating, n.Untouched := by
    have hall : (askingAtEdge.stepsFrom hesitating).all (decide ·.Untouched) = true := by
      decide +kernel
    exact fun n hn => of_decide_eq_true (List.all_eq_true.mp hall n hn)
  obtain ⟨-, hbehind, hfound⟩ := stalls_until_key hnext hsingle hup
  have hthree : (askingAtEdge.behind hesitating).keypad.isDown 3 = true := by decide +kernel
  obtain ⟨k, hdown, hleast, hstep⟩ := hfound ⟨3, hthree⟩
  have hk : k = 3 := by
    have hle : k ≤ 3 := hleast 3 hthree
    have hups : ∀ j : Key, j < 3 → (askingAtEdge.behind hesitating).keypad.isDown j = false := by
      decide +kernel
    rcases Nat.lt_or_eq_of_le hle with hlt | heq
    · cases (hups k hlt).symm.trans hdown
    · exact Fin.ext heq
  subst hk
  refine ⟨hnext, hsingle, hup, ?_, ?_, _, hstep, ?_, Vector.get_put_self _ _ _⟩
  · rw [hbehind]
    rfl
  · rw [hbehind]
    rfl
  · rw [hbehind]
    rfl

end Machine

end ChipEight
