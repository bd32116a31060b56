import ChipEight.Proofs.Machine.Effect
import ChipEight.Proofs.Machine.Footprint
import ChipEight.Proofs.Machine.History

/-!
# Addresses and places

Counter, index and return addresses are kept with sixteen bits, and memory looks at twelve
of them. Two machines are alike when they agree in everything but the four upper bits of
these addresses. Alike machines cannot be told apart: every step gives the same outcome
and leads to alike machines, and so does every history. In particular a machine behaves as
the one whose addresses are cut to twelve bits.
-/

namespace ChipEight

/-- Two addresses name the same place in memory. -/
def SamePlace (a b : UInt16) : Prop := a.toNat % 4096 = b.toNat % 4096

instance (a b : UInt16) : Decidable (SamePlace a b) :=
  inferInstanceAs (Decidable (a.toNat % 4096 = b.toNat % 4096))

theorem SamePlace.refl (a : UInt16) : SamePlace a a := rfl

theorem SamePlace.trans {a b c : UInt16} (h : SamePlace a b) (h' : SamePlace b c) :
    SamePlace a c :=
  Eq.trans h h'

/-- Cutting an address to twelve bits keeps its place. -/
theorem SamePlace.and_mask (a : UInt16) : SamePlace a (a &&& 0xFFF) := by
  unfold SamePlace
  rw [UInt16.toNat_and, show (0xFFF : UInt16).toNat = 2 ^ 12 - 1 from rfl,
    Nat.and_two_pow_sub_one_eq_mod]
  omega

/-- Places stay the same when both addresses move by as much, around the end of either range. -/
theorem SamePlace.add {a b : UInt16} (h : SamePlace a b) (c : UInt16) :
    SamePlace (a + c) (b + c) := by
  unfold SamePlace at h ⊢
  rw [UInt16.toNat_add, UInt16.toNat_add]
  omega

namespace Memory

theorem read_congr (m : Memory) {a b : Nat} (h : a % 4096 = b % 4096) : m.read a = m.read b := by
  rw [← read_mod m a, ← read_mod m b, h]

theorem write_congr (m : Memory) {a b : Nat} (h : a % 4096 = b % 4096) (x : UInt8) :
    m.write a x = m.write b x := by
  simp only [write, h]

theorem readWord_congr (m : Memory) {a b : Nat} (h : a % 4096 = b % 4096) :
    m.readWord a = m.readWord b := by
  have hnext : (a + 1) % 4096 = (b + 1) % 4096 := by omega
  rw [readWord, readWord, m.read_congr h, m.read_congr hnext]

theorem readBlock_congr (m : Memory) {a b : Nat} (h : a % 4096 = b % 4096) (count : Nat) :
    m.readBlock a count = m.readBlock b count := by
  refine List.map_congr_left fun i _ => m.read_congr ?_
  omega

theorem writeBlock_congr (m : Memory) {a b : Nat} (h : a % 4096 = b % 4096)
    (block : List UInt8) : m.writeBlock a block = m.writeBlock b block := by
  induction block generalizing m a b with
  | nil => rfl
  | cons x rest ih =>
    have hnext : (a + 1) % 4096 = (b + 1) % 4096 := by omega
    rw [writeBlock, writeBlock, m.write_congr h, ih _ hnext]

end Memory

namespace Machine

/-- The machine with other addresses. -/
def relocate (m : Machine) (counter index : UInt16) (slots : Vector UInt16 16) : Machine :=
  { m with counter := counter, index := index, calls := { m.calls with slots := slots } }

/-- Two machines agree in everything but the upper bits of their addresses. -/
structure Alike (m n : Machine) : Prop where
  /-- The next instructions lie at the same place. -/
  counter : SamePlace m.counter n.counter
  /-- The indices are the same place. -/
  index : SamePlace m.index n.index
  /-- The stacks hold the same places, also where they are not occupied. -/
  slots : ∀ j : Fin 16, SamePlace (m.calls.slots.get j) (n.calls.slots.get j)
  /-- All other parts are equal. -/
  others : n = m.relocate n.counter n.index n.calls.slots

namespace Alike

variable {m n : Machine}

/-- What other addresses do not change is the same for alike machines. -/
theorem eq_of_relocate {α : Type} (h : Alike m n) (f : Machine → α)
    (hf : ∀ counter index slots, f (m.relocate counter index slots) = f m) : f n = f m := by
  rw [h.others]
  exact hf _ _ _

theorem depth (h : Alike m n) : n.calls.depth = m.calls.depth :=
  h.eq_of_relocate (·.calls.depth) fun _ _ _ => rfl

theorem memory (h : Alike m n) : n.memory = m.memory :=
  h.eq_of_relocate (·.memory) fun _ _ _ => rfl

theorem registers (h : Alike m n) : n.registers = m.registers :=
  h.eq_of_relocate (·.registers) fun _ _ _ => rfl

theorem screen (h : Alike m n) : n.screen = m.screen :=
  h.eq_of_relocate (·.screen) fun _ _ _ => rfl

/-- Alike machines are about to execute the same instruction. -/
theorem nextInstruction (h : Alike m n) : n.nextInstruction = m.nextInstruction := by
  unfold Machine.nextInstruction fetch
  rw [h.memory, m.memory.readWord_congr h.counter]

/-- The topmost return addresses name the same place. -/
theorem top (h : Alike m n) : SamePlace m.calls.top n.calls.top := by
  unfold CallStack.top
  rw [h.depth]
  by_cases hd : m.calls.depth - 1 < 16
  · simp only [Vector.getElem?_eq_getElem hd, Option.getD_some]
    exact h.slots ⟨_, hd⟩
  · simp only [Vector.getElem?_eq_none (Nat.le_of_not_lt hd), Option.getD_none]
    exact SamePlace.refl 0

/-- A sprite is read from the same place. -/
theorem spriteOverlay (h : Alike m n) (x y : Register) (rows : Nat) :
    n.spriteOverlay x y rows = m.spriteOverlay x y rows := by
  unfold Machine.spriteOverlay
  rw [h.memory, h.registers, m.memory.readBlock_congr h.index.symm]

/-- Alike machines answer an instruction in the same way. -/
theorem outcome (h : Alike m n) (i : Instruction) : i.outcome n = i.outcome m :=
  h.eq_of_relocate (i.outcome ·) fun _ _ _ => by cases i <;> rfl

theorem landing (h : Alike m n) (i : Instruction) :
    SamePlace (i.landing m) (i.landing n) := by
  have hs : i.skips n = i.skips m := h.eq_of_relocate (i.skips ·) fun _ _ _ => by cases i <;> rfl
  have hk : n.keypad = m.keypad := h.eq_of_relocate (·.keypad) fun _ _ _ => rfl
  have hskip : SamePlace (if i.skips m then m.counter + 4 else m.counter + 2)
      (if i.skips n then n.counter + 4 else n.counter + 2) := by
    rw [hs]
    split
    · exact h.counter.add 4
    · exact h.counter.add 2
  cases i with
  | jump target => exact SamePlace.refl _
  | jumpOffset target =>
    change SamePlace (UInt16.ofNat (target.val + (m.registers.get 0).toNat))
      (UInt16.ofNat (target.val + (n.registers.get 0).toNat))
    rw [h.registers]
    exact SamePlace.refl _
  | call target =>
    change SamePlace (if m.calls.depth < 16 then UInt16.ofNat target else m.counter + 2)
      (if n.calls.depth < 16 then UInt16.ofNat target else n.counter + 2)
    rw [h.depth]
    split
    · exact SamePlace.refl _
    · exact h.counter.add 2
  | ret =>
    change SamePlace (if m.calls.depth = 0 then m.counter + 2 else m.calls.top)
      (if n.calls.depth = 0 then n.counter + 2 else n.calls.top)
    rw [h.depth]
    split
    · exact h.counter.add 2
    · exact h.top
  | awaitKey x =>
    change SamePlace (if ∀ k, m.keypad.isDown k = false then m.counter else m.counter + 2)
      (if ∀ k, n.keypad.isDown k = false then n.counter else n.counter + 2)
    rw [hk]
    split
    · exact h.counter
    · exact h.counter.add 2
  | _ => exact hskip

theorem indexAfter (h : Alike m n) (i : Instruction) :
    SamePlace (i.indexAfter m) (i.indexAfter n) := by
  cases i with
  | setIndex target => exact SamePlace.refl _
  | addIndex x =>
    change SamePlace (m.index + (m.registers.get x).toUInt16)
      (n.index + (n.registers.get x).toUInt16)
    rw [h.registers]
    exact h.index.add _
  | glyph x =>
    change SamePlace (UInt16.ofNat (Font.start + Font.glyphHeight * (m.registers.get x).toNat))
      (UInt16.ofNat (Font.start + Font.glyphHeight * (n.registers.get x).toNat))
    rw [h.registers]
    exact SamePlace.refl _
  | _ => exact h.index

theorem memoryAfter (h : Alike m n) (i : Instruction) : i.memoryAfter n = i.memoryAfter m := by
  have hblock (block : List UInt8) : n.memory.writeBlock n.index.toNat block =
      m.memory.writeBlock m.index.toNat block := by
    rw [h.memory, m.memory.writeBlock_congr h.index.symm]
  cases i with
  | storeDecimal x =>
    refine (hblock _).trans ?_
    rw [h.registers]
    rfl
  | storeRegisters x =>
    refine (hblock _).trans ?_
    rw [h.registers]
    rfl
  | _ => exact h.memory

theorem registersAfter (h : Alike m n) (i : Instruction) :
    i.registersAfter n = i.registersAfter m := by
  cases i with
  | draw x y rows =>
    simp only [Instruction.registersAfter, h.registers, h.spriteOverlay, h.screen]
  | readRegisters x =>
    have hread (v : Fin 16) : m.memory.read (n.index.toNat + v.val) =
        m.memory.read (m.index.toNat + v.val) := by
      have hi := h.index
      unfold SamePlace at hi
      exact m.memory.read_congr (by omega)
    simp only [Instruction.registersAfter, readRegisters, h.registers, h.memory, hread]
  | _ => exact h.eq_of_relocate (Instruction.registersAfter · _) fun _ _ _ => rfl

theorem screenAfter (h : Alike m n) (i : Instruction) : i.screenAfter n = i.screenAfter m := by
  cases i with
  | clear => rfl
  | draw x y rows => simp only [Instruction.screenAfter, h.spriteOverlay, h.screen]
  | _ => exact h.screen

/-- A pushed return address lies in the same slot of both stacks. -/
theorem callsAfter (h : Alike m n) (i : Instruction) :
    (i.callsAfter n).depth = (i.callsAfter m).depth ∧
      ∀ j : Fin 16, SamePlace ((i.callsAfter m).slots.get j) ((i.callsAfter n).slots.get j) := by
  cases i with
  | call target =>
    by_cases hd : m.calls.depth < 16
    · have hd' : n.calls.depth < 16 := h.depth ▸ hd
      rw [Instruction.callsAfter_call_of_lt target hd, Instruction.callsAfter_call_of_lt target hd']
      refine ⟨congrArg (· + 1) h.depth, fun j => ?_⟩
      simp only [Vector.get_eq_entry, Vector.getElem_set, h.depth]
      split
      · exact h.counter.add 2
      · exact h.slots j
    · have hd' : ¬ n.calls.depth < 16 := h.depth ▸ hd
      rw [Instruction.callsAfter_call_of_full target hd,
        Instruction.callsAfter_call_of_full target hd']
      exact ⟨h.depth, h.slots⟩
  | ret => exact ⟨congrArg (· - 1) h.depth, h.slots⟩
  | _ => exact ⟨h.depth, h.slots⟩

/-- What an instruction leaves of alike machines is alike. -/
theorem after (h : Alike m n) (i : Instruction) : Alike (i.after m) (i.after n) := by
  obtain ⟨hdepth, hslots⟩ := h.callsAfter i
  refine ⟨h.landing i, h.indexAfter i, hslots, ?_⟩
  have hw : i.waitingAfter n = i.waitingAfter m :=
    h.eq_of_relocate (i.waitingAfter ·) fun _ _ _ => by cases i <;> rfl
  have hd : i.delayAfter n = i.delayAfter m :=
    h.eq_of_relocate (i.delayAfter ·) fun _ _ _ => by cases i <;> rfl
  have hs : i.soundAfter n = i.soundAfter m :=
    h.eq_of_relocate (i.soundAfter ·) fun _ _ _ => by cases i <;> rfl
  have hr : i.randomAfter n = i.randomAfter m :=
    h.eq_of_relocate (i.randomAfter ·) fun _ _ _ => by cases i <;> rfl
  have hdirty : n.dirty = m.dirty := h.eq_of_relocate (·.dirty) fun _ _ _ => rfl
  have hkeypad : n.keypad = m.keypad := h.eq_of_relocate (·.keypad) fun _ _ _ => rfl
  have hconfig : n.config = m.config := h.eq_of_relocate (·.config) fun _ _ _ => rfl
  simp only [Instruction.after, relocate, h.memoryAfter, h.registersAfter, h.screenAfter, hw, hd,
    hs, hr, hdirty, hkeypad, hconfig, ← hdepth]

/-- A step of alike machines gives the same outcome and leaves alike machines. -/
theorem step (h : Alike m n) : m.step.1 = n.step.1 ∧ Alike m.step.2 n.step.2 := by
  rw [m.step_eq, n.step_eq, h.nextInstruction]
  exact ⟨(h.outcome _).symm, h.after _⟩

end Alike

/-- What the host does between instructions neither sees nor changes an address. -/
theorem apply_relocate (m : Machine) {operation : Operation} (hs : operation ≠ .step)
    (hr : operation.isRun = false) (counter index : UInt16) (slots : Vector UInt16 16) :
    (m.relocate counter index slots).apply operation =
      ((m.apply operation).1, (m.apply operation).2.relocate counter index slots) := by
  cases operation with
  | step => exact absurd rfl hs
  | run count => cases hr
  | loadProgram program =>
    by_cases h : program.length ≤ Memory.programRoom
    · simp only [apply, loadProgram, if_pos h, loaded, relocate]
    · simp only [apply, loadProgram, if_neg h, loaded]
  | loadFont glyphs =>
    by_cases h : glyphs.length ≤ fontRoom
    · simp only [apply, loadFont, if_pos h, loaded, relocate]
    · simp only [apply, loadFont, if_neg h, loaded]
  | takeFrame =>
    by_cases h : m.dirty = true
    · have hr : (m.relocate counter index slots).dirty = true := h
      simp only [apply, takeFrame, if_pos h, if_pos hr]
      rfl
    · have hr : ¬ (m.relocate counter index slots).dirty = true := h
      simp only [apply, takeFrame, if_neg h, if_neg hr]
  | _ => rfl

namespace Alike

variable {m n : Machine}

theorem apply_of_host (h : Alike m n) {operation : Operation} (hs : operation ≠ .step)
    (hr : operation.isRun = false) :
    (m.apply operation).1 = (n.apply operation).1 ∧
      Alike (m.apply operation).2 (n.apply operation).2 := by
  have hn := m.apply_relocate hs hr n.counter n.index n.calls.slots
  rw [← h.others] at hn
  obtain ⟨_, _, _, _, _, hm⟩ := m.apply_of_host hs hr
  rw [hn]
  refine ⟨rfl, ?_, ?_, ?_, rfl⟩
  · rw [hm]
    exact h.counter
  · rw [hm]
    exact h.index
  · rw [hm]
    exact h.slots

theorem run_go (h : Alike m n) (last : Except StackFault Flow) (count : Nat) :
    (run.go last count m).1 = (run.go last count n).1 ∧
      Alike (run.go last count m).2 (run.go last count n).2 := by
  induction count generalizing last m n with
  | zero => exact ⟨rfl, h⟩
  | succ count ih =>
    obtain ⟨hsame, halike⟩ := h.step
    simp only [run.go]
    rcases hm : m.step with ⟨outcome, next⟩
    rcases hn : n.step with ⟨outcome', next'⟩
    rw [hm, hn] at hsame halike
    obtain rfl : outcome = outcome' := hsame
    cases outcome with
    | ok flow => exact ih halike (.ok flow)
    | error fault => exact ⟨rfl, halike⟩

/-- An operation on alike machines gives the same reply and leaves alike machines. -/
theorem apply (h : Alike m n) (operation : Operation) :
    (m.apply operation).1 = (n.apply operation).1 ∧
      Alike (m.apply operation).2 (n.apply operation).2 := by
  cases operation with
  | step => exact ⟨congrArg Reply.ofFlow h.step.1, h.step.2⟩
  | run count =>
    obtain ⟨hsame, halike⟩ := h.run_go (.ok .ok) count
    exact ⟨congrArg Reply.ofFlow hsame, halike⟩
  | _ => exact h.apply_of_host (fun he => by cases he) rfl

end Alike

/-- The machine with its addresses cut to twelve bits. -/
def masked (m : Machine) : Machine :=
  m.relocate (m.counter &&& 0xFFF) (m.index &&& 0xFFF) (m.calls.slots.map (· &&& 0xFFF))

/-- Cutting the addresses to twelve bits cannot be noticed. -/
theorem alike_masked (m : Machine) : Alike m m.masked := by
  refine ⟨SamePlace.and_mask _, SamePlace.and_mask _, fun j => ?_, rfl⟩
  have hj : m.masked.calls.slots.get j = m.calls.slots.get j &&& 0xFFF :=
    Vector.getElem_map _ j.isLt
  rw [hj]
  exact SamePlace.and_mask _

theorem Alike.trans {m n p : Machine} (h : Alike m n) (h' : Alike n p) : Alike m p := by
  refine ⟨h.counter.trans h'.counter, h.index.trans h'.index,
    fun j => (h.slots j).trans (h'.slots j), ?_⟩
  have hp := h'.others
  rw [h.others] at hp
  exact hp

/-- A history on the machine that keeps twelve bits of each address: they are cut before every
operation. -/
def replayMasked (m : Machine) : List Operation → List Reply × Machine
  | [] => ([], m.masked)
  | operation :: rest =>
    let (reply, m) := m.masked.apply operation
    let (replies, m) := m.replayMasked rest
    (reply :: replies, m)

/-- Keeping twelve bits of each address is keeping sixteen and looking at twelve. -/
theorem Alike.replayMasked {m n : Machine} (h : Alike m n) (history : List Operation) :
    (m.replay history).1 = (n.replayMasked history).1 ∧
      Alike (m.replay history).2 (n.replayMasked history).2 := by
  induction history generalizing m n with
  | nil => exact ⟨rfl, h.trans n.alike_masked⟩
  | cons operation rest ih =>
    obtain ⟨hreply, halike⟩ := (h.trans n.alike_masked).apply operation
    obtain ⟨hreplies, hbehind⟩ := ih halike
    refine ⟨?_, hbehind⟩
    simp only [Machine.replayMasked, Machine.replay, hreply, hreplies]

theorem Alike.replay {m n : Machine} (h : Alike m n) (history : List Operation) :
    (m.replay history).1 = (n.replay history).1 ∧
      Alike (m.replay history).2 (n.replay history).2 := by
  induction history generalizing m n with
  | nil => exact ⟨rfl, h⟩
  | cons operation rest ih =>
    obtain ⟨hreply, halike⟩ := h.apply operation
    obtain ⟨hreplies, hbehind⟩ := ih halike
    refine ⟨?_, hbehind⟩
    simp only [Machine.replay, hreply, hreplies]

/-- Alike machines give the same replies and stay alike, over a step and over every history, also
where one of them keeps only twelve bits of each address. -/
theorem alike_replay {m n : Machine} (h : Alike m n) :
    (m.step.1 = n.step.1 ∧ Alike m.step.2 n.step.2) ∧
      ∀ history,
        ((m.replay history).1 = (n.replay history).1 ∧
          Alike (m.replay history).2 (n.replay history).2) ∧
        ((m.replay history).1 = (n.replayMasked history).1 ∧
          Alike (m.replay history).2 (n.replayMasked history).2) :=
  ⟨h.step, fun history => ⟨h.replay history, h.replayMasked history⟩⟩

/-- `atEdge` with all its addresses in higher pages of the sixteen-bit range. -/
def beyondEdge : Machine := atEdge.relocate 0xFFFF 0x1000 (Vector.replicate 16 0xF300)

/-- Fetched around either end, the call is refused on both machines. -/
theorem alike_replay_atEdge :
    Alike atEdge beyondEdge ∧ beyondEdge.step.1 = .error .overflow ∧
      Alike atEdge.step.2 beyondEdge.step.2 ∧
      (atEdge.replay [.tick, .run 3]).1 = (beyondEdge.replay [.tick, .run 3]).1 ∧
      (atEdge.replay [.tick, .run 3]).1 = (beyondEdge.replayMasked [.tick, .run 3]).1 := by
  have halike : Alike atEdge beyondEdge := by
    refine ⟨by decide, by decide, ?_, rfl⟩
    decide
  have hnext : atEdge.nextInstruction = .call 0x234 := by
    rw [nextInstruction, fetch_atEdge]
    decide
  obtain ⟨hstep, hreplay⟩ := alike_replay halike
  obtain ⟨⟨hsame, -⟩, hmasked, -⟩ := hreplay [.tick, .run 3]
  refine ⟨halike, ?_, hstep.2, hsame, hmasked⟩
  rw [← hstep.1, step_eq, hnext]
  rfl

end Machine

end ChipEight
