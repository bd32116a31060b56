import ChipEight.Proofs.Flat.Draw
import ChipEight.Proofs.Flat.Host
import ChipEight.Proofs.Machine.Faulting

/-!
# The flat machine never stops

While no more places of the stack are occupied than there are, everything that can be done
to a machine can be done to it on bytes and words: no access, sum or shift fails, the answer
is the same, and the result is the resulting machine on bytes and words. A new machine has
an empty stack and no operation overfills it, so this holds in every state that some history
leads to.
-/

namespace ChipEight

open Checked

namespace Flat

variable (m : Machine)

theorem skipIf_eq (condition : Bool) : m.flat.skipIf condition = (m.skipIf condition).flat := by
  cases condition <;> rfl

theorem bytes_blank : Screen.blank.bytes = Vector.replicate 2048 0 := by
  refine Vector.ext fun d hd => ?_
  rw [Screen.bytes, Vector.getElem_ofFn, Screen.pixel_blank, Vector.getElem_replicate]
  rfl

/-- Where some place of the stack is occupied, the topmost one is in the table. -/
theorem execute_ret {m : Machine} (h : m.calls.Fits) :
    m.flat.execute .ret = .ok ((m.execute .ret).1, (m.execute .ret).2.flat) := by
  obtain ⟨memory, registers, counter, index, ⟨slots, depth⟩, screen, dirty, keypad, waiting,
    delayTimer, soundTimer, random, config⟩ := m
  cases depth with
  | zero => rfl
  | succ depth =>
    have hlt : depth < 16 := h
    refine bind_of_ok (entry_of_lt slots hlt) ?_
    simp only [Machine.execute, CallStack.pop?, Vector.getElem?_eq_getElem hlt, Option.getD_some]
    rfl

/-- A call that is not refused finds a place in the table. -/
theorem execute_call (target : Address) :
    m.flat.execute (.call target) =
      .ok ((m.execute (.call target)).1, (m.execute (.call target)).2.flat) := by
  by_cases hd : m.calls.depth < 16
  · have hpush : m.calls.push? m.counter =
        some ⟨m.calls.slots.set m.calls.depth m.counter, m.calls.depth + 1⟩ := dif_pos hd
    have hroom : ¬ 16 ≤ m.flat.depth := Nat.not_le.mpr hd
    have hfit : m.calls.depth + 1 < 4294967296 := by omega
    rw [execute, if_neg hroom]
    refine bind_of_ok (replace_of_lt m.calls.slots hd m.counter) (bind_of_ok (fit64_of_lt hfit) ?_)
    simp only [Machine.execute, hpush]
    rfl
  · have hpush : m.calls.push? m.counter = none := dif_neg hd
    have hfull : 16 ≤ m.flat.depth := Nat.not_lt.mp hd
    rw [execute, if_pos hfull]
    simp only [Machine.execute, hpush]
    rfl

theorem execute_awaitKey (x : Register) :
    m.flat.execute (.awaitKey x) =
      .ok ((m.execute (.awaitKey x)).1, (m.execute (.awaitKey x)).2.flat) := by
  refine bind_of_ok (firstKey_eq m) ?_
  cases hk : m.keypad.first? with
  | none | some k =>
    simp only [Machine.execute, hk]
    rfl

/-- An address and a byte have room in a word together. -/
theorem execute_jumpOffset (target : Address) :
    m.flat.execute (.jumpOffset target) =
      .ok ((m.execute (.jumpOffset target)).1, (m.execute (.jumpOffset target)).2.flat) := by
  have htarget := target.isLt
  have hbyte := (m.registers.get 0).toNat_lt
  have hfit : target.val + (m.registers.get 0).toNat < 65536 := by omega
  exact bind_of_ok (fit16_of_lt hfit) rfl

/-- The place of a glyph has room in a word, for any byte. -/
theorem execute_glyph (x : Register) :
    m.flat.execute (.glyph x) =
      .ok ((m.execute (.glyph x)).1, (m.execute (.glyph x)).2.flat) := by
  have hbyte := (m.registers.get x).toNat_lt
  have hoffset : (m.registers.get x).toNat * 5 < 65536 := by omega
  have hplace : 0x50 + (m.registers.get x).toNat * 5 < 65536 := by omega
  have hsum : fit UInt16.size (0x50 + (m.registers.get x).toNat * 5) =
      .ok (Font.start + Font.glyphHeight * (m.registers.get x).toNat) := by
    rw [fit16_of_lt hplace, Nat.mul_comm]
    rfl
  exact bind_of_ok (fit16_of_lt hoffset) (bind_of_ok hsum rfl)

theorem execute_storeDecimal (x : Register) :
    m.flat.execute (.storeDecimal x) =
      .ok ((m.execute (.storeDecimal x)).1, (m.execute (.storeDecimal x)).2.flat) :=
  bind_of_ok (store_eq m m.memory (by decide) _) (bind_of_ok (store_eq m _ (by decide) _)
    (bind_of_ok (store_eq m _ (by decide) _) rfl))

/-- Executing an instruction succeeds while the stack is not overfilled, with the same outcome. -/
theorem execute_eq {m : Machine} (h : m.calls.Fits) (i : Instruction) :
    m.flat.execute i = .ok ((m.execute i).1, (m.execute i).2.flat) := by
  have hskip (condition : Bool) :
      (.ok (.ok .ok, m.flat.skipIf condition) : Checked (Except StackFault Flow × Flat)) =
        .ok (.ok .ok, (m.skipIf condition).flat) := by
    rw [skipIf_eq]
  cases i with
  | clear =>
    rw [execute, ← bytes_blank]
    rfl
  | ret => exact execute_ret h
  | call target => exact execute_call m target
  | skipIfByte x byte | skipUnlessByte x byte => exact hskip _
  | skipIfSame x y | skipUnlessSame x y => exact hskip _
  | skipIfDown x | skipIfUp x => exact bind_of_ok (isDown_eq m _) (hskip _)
  | jumpOffset target => exact execute_jumpOffset m target
  | draw x y rows => exact bind_of_ok (draw_eq m x y rows) rfl
  | awaitKey x => exact execute_awaitKey m x
  | glyph x => exact execute_glyph m x
  | storeDecimal x => exact execute_storeDecimal m x
  | storeRegisters x => exact bind_of_ok (storeRegisters_eq m x) rfl
  | readRegisters x => exact bind_of_ok (readRegisters_eq m x) rfl
  | _ => rfl

theorem step_eq {m : Machine} (h : m.calls.Fits) :
    m.flat.step = .ok (m.step.1, m.step.2.flat) := by
  have hbehind : (m.goTo (m.counter + 2)).calls.Fits := h
  exact bind_of_ok (fetch_eq m) (bind_of_ok (decode_eq m.fetch) (execute_eq hbehind _))

theorem run_go_eq {m : Machine} (h : m.calls.Fits) (last : Except StackFault Flow) (count : Nat) :
    run.go last count m.flat =
      .ok ((Machine.run.go last count m).1, (Machine.run.go last count m).2.flat) := by
  induction count generalizing m last with
  | zero => rfl
  | succ count ih =>
    have hnext := Machine.fits_step h
    rw [run.go, Machine.run.go]
    refine bind_of_ok (step_eq h) ?_
    rcases hs : m.step with ⟨outcome, next⟩
    rw [hs] at hnext
    cases outcome with
    | error fault => rfl
    | ok flow => exact ih hnext _

/-- Everything that can be done succeeds while the stack is not overfilled, with the same answer. -/
theorem apply_eq {m : Machine} (h : m.calls.Fits) (operation : Operation) :
    m.flat.apply operation =
      .ok ((m.apply operation).1.answer, (m.apply operation).2.flat) := by
  cases operation with
  | step => exact bind_of_ok (step_eq h) rfl
  | run count => exact bind_of_ok (run_go_eq h _ count) rfl
  | tick => rfl
  | setKey k down => exact bind_of_ok (setKey_eq m k down) rfl
  | clearKeys => rfl
  | loadProgram program =>
    by_cases hfits : program.length ≤ Memory.programRoom
    · have hroom : 0x200 + program.length ≤ 4096 := by
        unfold Memory.programRoom Memory.programStart at hfits
        omega
      rw [apply, if_neg (by omega), Machine.apply, Machine.loadProgram, if_pos hfits]
      exact bind_of_ok (load_eq m hroom) rfl
    · have hlarge : 4096 - 0x200 < program.length := Nat.not_le.mp hfits
      rw [apply, if_pos hlarge, Machine.apply, Machine.loadProgram, if_neg hfits]
      rfl
  | loadFont glyphs =>
    by_cases hfits : glyphs.length ≤ Machine.fontRoom
    · have hroom : 0x50 + glyphs.length ≤ 0x200 := by
        unfold Machine.fontRoom Memory.programStart Font.start at hfits
        omega
      rw [apply, if_neg (by omega), Machine.apply, Machine.loadFont, if_pos hfits]
      exact bind_of_ok (load_eq m (by omega)) rfl
    · have hlarge : 0x200 < 0x50 + glyphs.length := by
        unfold Machine.fontRoom Memory.programStart Font.start at hfits
        omega
      rw [apply, if_pos hlarge, Machine.apply, Machine.loadFont, if_neg hfits]
      rfl
  | takeFrame =>
    have hdirty : m.flat.dirty = m.dirty := rfl
    cases hd : m.dirty <;> simp only [apply, Machine.apply, Machine.takeFrame, hdirty, hd] <;> rfl
  | clearDirty => rfl

theorem replay_eq {m : Machine} (h : m.calls.Fits) (history : List Operation) :
    m.flat.replay history =
      .ok ((m.replay history).1.map Reply.answer, (m.behind history).flat) := by
  induction history generalizing m with
  | nil => rfl
  | cons operation rest ih =>
    exact bind_of_ok (apply_eq h operation) (bind_of_ok (ih (Machine.fits_apply h operation)) rfl)

theorem new_eq (config : Config) (key : Vector UInt32 8) :
    new config key = (Machine.new config key).flat := by
  have hflat : (Machine.new config key).flat =
      { new config key with cells := Screen.blank.bytes } := rfl
  rw [hflat, bytes_blank]
  rfl

/-- A new machine goes through any history on bytes and words as it does otherwise. -/
theorem replay_new (config : Config) (key : Vector UInt32 8) (history : List Operation) :
    (new config key).replay history =
      .ok (((Machine.new config key).replay history).1.map Reply.answer,
        ((Machine.new config key).behind history).flat) := by
  have hnew : (Machine.new config key).calls.Fits := Nat.zero_le 16
  rw [new_eq]
  exact replay_eq hnew history

/-- Every history of a new machine runs through on bytes and words, with the same answers. In the
state behind it the stack is not overfilled and every cell is zero or one; whatever is done next,
and whatever is looked at, succeeds. -/
theorem never_panics (config : Config) (key : Vector UInt32 8) (history : List Operation) :
    let m := (Machine.new config key).behind history
    (new config key).replay history =
      .ok (((Machine.new config key).replay history).1.map Reply.answer, m.flat) ∧
    m.flat.depth ≤ 16 ∧
    (∀ d, m.flat.cells.get d = 0 ∨ m.flat.cells.get d = 1) ∧
    (∀ operation, m.flat.apply operation =
      .ok ((m.apply operation).1.answer, (m.apply operation).2.flat)) ∧
    (∀ count, m.flat.dumpMemory count = .ok (m.dumpMemory count)) ∧
    m.flat.dumpKeys = .ok m.dumpKeys ∧
    ∀ x y, m.flat.pixel x y = .ok (m.screen.pixel x y) := by
  intro m
  have hnew : (Machine.new config key).calls.Fits := Nat.zero_le 16
  have hm : m.calls.Fits := Machine.fits_behind hnew history
  rw [new_eq]
  refine ⟨replay_eq hnew history, hm, fun d => ?_, apply_eq hm, dumpMemory_eq m, dumpKeys_eq m,
    pixel_eq m⟩
  change m.screen.bytes.get d = 0 ∨ m.screen.bytes.get d = 1
  rw [Screen.get_bytes]
  cases m.screen.pixel (d % 64) (d / 64) with
  | false => exact Or.inl rfl
  | true => exact Or.inr rfl

end Flat

end ChipEight
