import ChipEight.Proofs.Machine.Drawing
import ChipEight.Proofs.Machine.History
import Mathlib.Data.List.Perm.Basic

/-!
# Drawing again

Which sprite goes where is told by the index, two registers and a number of rows; this is a
`Stamp`. With the memory fixed, a machine draws a stamp as the exclusive or with one overlay,
whatever else its state is. So the order of the stamps does not matter, and a stamp that is
drawn twice leaves nothing behind. Programs erase a sprite by drawing it again; what the flag
tells them then is whether a part of the sprite had covered a clear cell.
-/

namespace ChipEight

namespace Screen

theorem xor_right_comm (s t u : Screen) : (s.xor t).xor u = (s.xor u).xor t := by
  apply ext_pixel
  intro x y
  simp only [pixel_xor, Bool.xor_assoc, Bool.xor_comm (t.pixel x y)]

@[simp] theorem xor_xor_cancel (s t : Screen) : (s.xor t).xor t = s := by
  apply ext_pixel
  intro x y
  simp

end Screen

/-- A sprite and its place on the screen. -/
structure Stamp where
  /-- Where the sprite lies in memory. -/
  index : UInt16
  /-- The column of the first cell, before it is taken around the edge. -/
  column : UInt8
  /-- The row of the first cell, before it is taken around the edge. -/
  row : UInt8
  /-- The number of rows. -/
  rows : Fin 16
  deriving DecidableEq

namespace Stamp

/-- The cells of a stamp. -/
def overlay (memory : Memory) (d : Stamp) : Screen :=
  .overlay (memory.readBlock d.index.toNat d.rows) d.column.toNat d.row.toNat

/-- The screen after a stamp. -/
def put (memory : Memory) (s : Screen) (d : Stamp) : Screen := s.xor (d.overlay memory)

instance (memory : Memory) : RightCommutative (put memory) where
  right_comm s d e := s.xor_right_comm (d.overlay memory) (e.overlay memory)

/-- Two stamps of the same kind leave nothing behind, whatever is drawn between them. -/
theorem foldl_put_pair (memory : Memory) (s : Screen) (d : Stamp)
    (before middle after : List Stamp) :
    (before ++ d :: (middle ++ d :: after)).foldl (put memory) s =
      (before ++ (middle ++ after)).foldl (put memory) s := by
  have hperm : (before ++ d :: (middle ++ d :: after)).Perm
      (d :: d :: (before ++ (middle ++ after))) :=
    List.perm_middle.trans (((List.perm_middle.append_left before).trans List.perm_middle).cons d)
  rw [hperm.foldl_eq, List.foldl_cons, List.foldl_cons, put, put, Screen.xor_xor_cancel]

end Stamp

namespace Machine

/-- The index and two registers are those of a stamp. -/
structure Holds (m : Machine) (x y : Register) (d : Stamp) : Prop where
  /-- The index points to the sprite. -/
  index : m.index = d.index
  /-- The first register holds the column. -/
  column : m.registers.get x = d.column
  /-- The second register holds the row. -/
  row : m.registers.get y = d.row

/-- The stamp that the next instruction draws, if it draws one. -/
def stamps (m : Machine) : List Stamp :=
  match m.nextInstruction with
  | .draw x y rows => [⟨m.index, m.registers.get x, m.registers.get y, rows⟩]
  | _ => []

end Machine

/-- With the same memory all the time, machines draw stamps one after the other, each machine on the
screen that the one before it left. -/
inductive Stamped (memory : Memory) : Screen → List Stamp → Screen → Prop
  | nil (s : Screen) : Stamped memory s [] s
  | cons {m : Machine} {x y : Register} {d : Stamp} {rest : List Stamp} {t : Screen}
      (hmemory : m.memory = memory) (held : m.Holds x y d)
      (later : Stamped memory (m.execute (.draw x y d.rows)).2.screen rest t) :
      Stamped memory m.screen (d :: rest) t

namespace Machine

/-- Drawing what is held is putting the stamp. -/
theorem screen_execute_draw {m : Machine} {x y : Register} {d : Stamp} (h : m.Holds x y d) :
    (m.execute (.draw x y d.rows)).2.screen = d.put m.memory m.screen := by
  change m.screen.xor (m.spriteOverlay x y d.rows) = m.screen.xor (d.overlay m.memory)
  rw [spriteOverlay, Stamp.overlay, h.index, h.column, h.row]

/-- A machine that is about to draw a stamp on a screen. -/
def holder (memory : Memory) (s : Screen) (d : Stamp) : Machine :=
  { new .unset (Vector.replicate 8 0) with
    memory := memory
    registers := ((Vector.replicate 16 0).put 0 d.column).put 1 d.row
    index := d.index
    screen := s }

theorem holds_holder (memory : Memory) (s : Screen) (d : Stamp) :
    (holder memory s d).Holds 0 1 d := by
  constructor
  · rfl
  · exact (Vector.get_put_of_ne _ (by decide) _).trans (Vector.get_put_self _ _ _)
  · exact Vector.get_put_self _ _ _

end Machine

/-- Any stamps can be drawn on any screen, and lead to one screen only. -/
theorem stamped_iff {memory : Memory} {s t : Screen} {draws : List Stamp} :
    Stamped memory s draws t ↔ t = draws.foldl (Stamp.put memory) s := by
  constructor
  · intro h
    induction h with
    | nil s => rfl
    | @cons m x y d rest t hmemory held later ih =>
      rw [ih, List.foldl_cons, Machine.screen_execute_draw held, hmemory]
  · rintro rfl
    induction draws generalizing s with
    | nil => exact .nil s
    | cons d rest ih =>
      have held := Machine.holds_holder memory s d
      refine Stamped.cons (m := Machine.holder memory s d) rfl held ?_
      rw [Machine.screen_execute_draw held]
      exact ih

namespace Machine

/-- A step that does not clear the screen puts the stamp of its instruction, if there is one. -/
theorem screen_step {m : Machine} (h : m.nextInstruction ≠ .clear) :
    m.step.2.screen = m.stamps.foldl (Stamp.put m.memory) m.screen := by
  rw [step_eq]
  change m.nextInstruction.screenAfter m = _
  unfold stamps
  cases hi : m.nextInstruction with
  | clear => exact absurd hi h
  | _ => rfl

/-- Over single operations, the screen takes the stamps of the executed instructions. -/
theorem screen_behind {memory : Memory} {operations : List Operation}
    (hr : ∀ operation ∈ operations, operation.isRun = false) {m : Machine}
    (h : ∀ n ∈ m.stepsFrom operations, n.memory = memory ∧ n.nextInstruction ≠ .clear) :
    (m.behind operations).screen =
      ((m.stepsFrom operations).flatMap stamps).foldl (Stamp.put memory) m.screen := by
  induction operations generalizing m with
  | nil => rfl
  | cons operation rest ih =>
    have hlater := fun o ho => hr o (List.mem_cons_of_mem operation ho)
    rw [behind_cons]
    by_cases hs : operation = .step
    · subst hs
      rw [stepsFrom_step] at h ⊢
      obtain ⟨hmemory, hclear⟩ := h m List.mem_cons_self
      rw [List.flatMap_cons, List.foldl_append, ← hmemory, ← screen_step hclear, hmemory]
      exact ih hlater fun n hn => h n (List.mem_cons_of_mem _ hn)
    · rw [stepsFrom_of_ne m hs] at h ⊢
      obtain ⟨_, _, _, _, _, hm⟩ := m.apply_of_host hs (hr operation List.mem_cons_self)
      have hscreen : (m.apply operation).2.screen = m.screen := by
        rw [hm]
      rw [ih hlater h, hscreen]

/-- The sprite covers a clear cell. -/
def Fills (m : Machine) (x y : Register) (rows : Nat) : Prop :=
  ∃ a < 64, ∃ b < 32, m.Covers x y rows a b ∧ m.screen.pixel a b = false

instance (m : Machine) (x y : Register) (rows : Nat) : Decidable (m.Fills x y rows) :=
  inferInstanceAs (Decidable (∃ a < 64, ∃ b < 32, _ ∧ _))

/-- Unless the flag is one of its registers, a drawn sprite is where it was. -/
theorem spriteOverlay_drawOverlay (m : Machine) (s : Screen) {x y : Register}
    (hx : x ≠ flagRegister) (hy : y ≠ flagRegister) (place : UInt16) (rows : Nat) :
    ((m.drawOverlay s).goTo place).spriteOverlay x y rows = m.spriteOverlay x y rows := by
  have hother {r : Register} (h : r ≠ flagRegister) :
      ((m.drawOverlay s).goTo place).registers.get r = m.registers.get r :=
    Vector.get_put_of_ne _ h _
  rw [spriteOverlay, hother hx, hother hy]
  rfl

/-- A screen meets what was just turned over where a cell of that was clear before. -/
theorem meets_xor_spriteOverlay (m : Machine) (x y : Register) {rows : Nat} (hrows : rows ≤ 32) :
    (m.screen.xor (m.spriteOverlay x y rows)).meets (m.spriteOverlay x y rows) = true ↔
      m.Fills x y rows := by
  rw [meets_spriteOverlay m _ x y hrows]
  refine exists_congr fun a => and_congr_right fun ha => exists_congr fun b =>
    and_congr_right fun hb => and_congr_right fun hcovers => ?_
  rw [Screen.pixel_xor, m.pixel_spriteOverlay x y hrows ha hb, decide_eq_true hcovers,
    Bool.xor_true, Bool.not_eq_true']

/-- The same drawing instruction a second time, wherever it is found, restores the screen, and the
flag tells whether the first one covered a clear cell. -/
theorem draw_again {m : Machine} {x y : Register} {rows : Fin 16}
    (h : m.nextInstruction = .draw x y rows) (hx : x ≠ flagRegister) (hy : y ≠ flagRegister)
    {place : UInt16} (hagain : (m.step.2.goTo place).nextInstruction = .draw x y rows) :
    (m.step.2.goTo place).step.2.screen = m.screen ∧
      (m.step.2.goTo place).step.2.registers.get flagRegister =
        if m.Fills x y rows then 1 else 0 := by
  have hrows : (rows : Nat) ≤ 32 := by omega
  have hfirst : m.step.2 = (m.goTo (m.counter + 2)).drawOverlay (m.spriteOverlay x y rows) :=
    congrArg Prod.snd (step_of_draw h)
  have hsprite : (m.step.2.goTo place).spriteOverlay x y rows = m.spriteOverlay x y rows := by
    rw [hfirst]
    exact spriteOverlay_drawOverlay (m.goTo (m.counter + 2)) _ hx hy place rows
  have hscreen : (m.step.2.goTo place).screen = m.screen.xor (m.spriteOverlay x y rows) := by
    rw [hfirst]
    rfl
  rw [step_of_draw hagain, hsprite]
  constructor
  · change (m.step.2.goTo place).screen.xor (m.spriteOverlay x y rows) = m.screen
    rw [hscreen, Screen.xor_xor_cancel]
  · refine (Vector.get_put_self _ _ _).trans ?_
    change (if (m.step.2.goTo place).screen.meets (m.spriteOverlay x y rows) then (1 : UInt8)
      else 0) = _
    simp only [hscreen, m.meets_xor_spriteOverlay x y hrows]

/-- With the memory fixed, any stamps lead from a screen to exactly one screen, in whatever order
they are drawn, and two of the same kind may as well be left out. Every history draws the stamps
of the instructions it executes. In particular the same drawing instruction, executed twice,
restores the screen, and its second flag tells whether the first one covered a clear cell. -/
theorem drawing_commutes_and_cancels (memory : Memory) :
    (∀ s draws, ∃! t, Stamped memory s draws t) ∧
    (∀ s t draws draws', draws.Perm draws' →
      (Stamped memory s draws t ↔ Stamped memory s draws' t)) ∧
    (∀ s t d before middle after,
      Stamped memory s (before ++ d :: (middle ++ d :: after)) t ↔
        Stamped memory s (before ++ (middle ++ after)) t) ∧
    (∀ (m : Machine) (history : List Operation),
      (∀ n ∈ m.executions history, n.memory = memory ∧ n.nextInstruction ≠ .clear) →
        Stamped memory m.screen ((m.executions history).flatMap stamps)
          (m.behind history).screen) ∧
    ∀ (m : Machine) (x y : Register) (rows : Fin 16), m.nextInstruction = .draw x y rows →
      x ≠ flagRegister → y ≠ flagRegister → ∀ place,
        (m.step.2.goTo place).nextInstruction = .draw x y rows →
          (m.step.2.goTo place).step.2.screen = m.screen ∧
            (m.step.2.goTo place).step.2.registers.get flagRegister =
              if m.Fills x y rows then 1 else 0 := by
  refine ⟨fun s draws => ?_, fun s t draws draws' hperm => ?_,
    fun s t d before middle after => ?_, fun m history h => ?_, ?_⟩
  · refine ⟨draws.foldl (Stamp.put memory) s, stamped_iff.mpr rfl, ?_⟩
    intro t ht
    exact stamped_iff.mp ht
  · rw [stamped_iff, stamped_iff, hperm.foldl_eq]
  · rw [stamped_iff, stamped_iff, Stamp.foldl_put_pair]
  · have hscreen := screen_behind (fun _ => isRun_of_mem_unroll) h
    rw [behind_unroll] at hscreen
    exact stamped_iff.mpr hscreen
  · intro m x y rows h hx hy place hagain
    exact draw_again h hx hy hagain

/-- Drawing leaves memory alone. -/
theorem memory_step_of_draw {m : Machine} {x y : Register} {rows : Fin 16}
    (h : m.nextInstruction = .draw x y rows) : m.step.2.memory = m.memory := by
  rw [step_of_draw h]
  rfl

/-- A machine whose program draws a square, another one that overlaps it, and the first again. -/
def passing : Machine :=
  { new .unset (Vector.replicate 8 0) with
    memory := Memory.zero.writeBlock 0x200 [0xD0, 0x23, 0xD1, 0x23, 0xD0, 0x23, 0xE0, 0xA0, 0xE0]
    registers := (((Vector.replicate 16 0).put 0 62).put 1 63).put 2 31
    index := 0x206 }

/-- The second square remains. Executed twice, the first instruction leaves a blank screen. -/
theorem drawing_commutes_and_cancels_passing :
    (passing.executions [.step, .step, .step]).flatMap stamps =
        [⟨0x206, 62, 31, 3⟩, ⟨0x206, 63, 31, 3⟩, ⟨0x206, 62, 31, 3⟩] ∧
      Stamped passing.memory .blank [⟨0x206, 63, 31, 3⟩]
        (passing.behind [.step, .step, .step]).screen ∧
      (passing.step.2.goTo passing.counter).step.2.screen = .blank ∧
      (passing.step.2.goTo passing.counter).step.2.registers.get flagRegister = 1 := by
  obtain ⟨-, -, hpairs, hruns, htwice⟩ := drawing_commutes_and_cancels passing.memory
  have hfirst : passing.nextInstruction = .draw 0 2 3 := by decide +kernel
  have hsecond : passing.step.2.nextInstruction = .draw 1 2 3 := by decide +kernel
  have hthird : passing.step.2.step.2.nextInstruction = .draw 0 2 3 := by decide +kernel
  have hagain : (passing.step.2.goTo passing.counter).nextInstruction = .draw 0 2 3 := by
    decide +kernel
  have hstamps : (passing.executions [.step, .step, .step]).flatMap stamps =
      [⟨0x206, 62, 31, 3⟩, ⟨0x206, 63, 31, 3⟩, ⟨0x206, 62, 31, 3⟩] := by decide +kernel
  have hmemory := memory_step_of_draw hfirst
  have hmemory' := (memory_step_of_draw hsecond).trans hmemory
  have hsteps (m : Machine) :
      m.executions [.step, .step, .step] = [m, m.step.2, m.step.2.step.2] := rfl
  have hfixed : ∀ n ∈ passing.executions [.step, .step, .step],
      n.memory = passing.memory ∧ n.nextInstruction ≠ .clear := by
    simp [hsteps, hfirst, hsecond, hthird, hmemory, hmemory']
  have hdrawn := hruns passing _ hfixed
  rw [hstamps] at hdrawn
  have hfills : passing.Fills 0 2 3 := ⟨62, by decide, 31, by decide, by decide +kernel⟩
  obtain ⟨hscreen, hflag⟩ := htwice passing 0 2 3 hfirst (by decide) (by decide) _ hagain
  refine ⟨hstamps, ?_, hscreen, hflag.trans (if_pos hfills)⟩
  exact (hpairs _ _ _ [] [_] []).mp hdrawn

end Machine

end ChipEight
