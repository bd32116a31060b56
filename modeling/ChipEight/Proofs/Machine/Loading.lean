import ChipEight.Proofs.Machine.History
import ChipEight.Proofs.Memory.Block

/-!
# Loads

A program and glyphs are loaded in the same way, each to its own place with its own room. What
fits is written byte by byte and nothing else changes; what does not fit is refused, and then
nothing has happened at all. The room for glyphs ends where programs start, so that the two
loads do not meet and may come in either order.
-/

namespace ChipEight

namespace Machine

/-- Bytes were written to a machine from a place on: they lie there, and every other byte of memory
and every other part of the machine is as it was. -/
structure Written (m : Machine) (start : Nat) (bytes : List UInt8) (next : Machine) : Prop where
  /-- Nothing but memory is changed. -/
  rest : next = { m with memory := next.memory }
  /-- The bytes lie in memory. -/
  inside : ∀ i, (h : i < bytes.length) → next.memory.read (start + i) = bytes[i]
  /-- Places in front of them and behind them keep their bytes. -/
  outside : ∀ place < 4096, place < start ∨ start + bytes.length ≤ place →
    next.memory.read place = m.memory.read place

/-- A block that ends before the end of memory is written as it is. -/
theorem written_writeBlock (m : Machine) {start : Nat} {bytes : List UInt8}
    (h : start + bytes.length ≤ 4096) :
    m.Written start bytes { m with memory := m.memory.writeBlock start bytes } where
  rest := rfl
  inside i hi := by
    have hplace : start + i < 4096 := by omega
    simp [Memory.read_writeBlock_of_fits m.memory h hplace, hi]
  outside place hplace hout := by
    rw [Memory.read_writeBlock_of_fits m.memory h hplace]
    split
    · have hbehind : bytes.length ≤ place - start := by omega
      rw [List.getElem?_eq_none hbehind]
      rfl
    · rfl

/-- Written over one another, the later bytes lie in front of what remains of the earlier ones. -/
theorem Written.over {m n o : Machine} {start : Nat} {bytes bytes' : List UInt8}
    (hfits : start + bytes.length ≤ 4096) (h : m.Written start bytes n)
    (h' : n.Written start bytes' o) :
    m.Written start (bytes' ++ bytes.drop bytes'.length) o where
  rest := by
    rw [h'.rest, h.rest]
  inside i hi := by
    rw [List.length_append, List.length_drop] at hi
    by_cases hlater : i < bytes'.length
    · rw [List.getElem_append_left hlater, h'.inside i hlater]
    · have hearlier : i < bytes.length := by omega
      have hbehind : bytes'.length + (i - bytes'.length) = i := by omega
      rw [h'.outside _ (by omega) (by omega), h.inside i hearlier,
        List.getElem_append_right (by omega), List.getElem_drop]
      simp only [hbehind]
  outside place hplace hout := by
    rw [List.length_append, List.length_drop] at hout
    rw [h'.outside place hplace (by omega), h.outside place hplace (by omega)]

/-- The machine with bytes loaded to a place, where there is room for them. -/
def load (m : Machine) (start room : Nat) (bytes : List UInt8) (fault : Fault) :
    Except Fault Machine :=
  if bytes.length ≤ room then .ok { m with memory := m.memory.writeBlock start bytes }
  else .error fault

theorem loadProgram_eq (m : Machine) (program : List UInt8) :
    m.loadProgram program = m.load 0x200 3584 program .programTooLarge := rfl

theorem loadFont_eq (m : Machine) (glyphs : List UInt8) :
    m.loadFont glyphs =
      m.load 0x50 432 glyphs (.font (Fault.fontSizeDetail 432 glyphs.length)) := rfl

section Load

variable (m : Machine) {start room : Nat} {bytes : List UInt8} (fault : Fault)

theorem load_of_fits (h : bytes.length ≤ room) :
    m.load start room bytes fault =
      .ok { m with memory := m.memory.writeBlock start bytes } := if_pos h

theorem load_of_not_fits (h : ¬ bytes.length ≤ room) :
    m.load start room bytes fault = .error fault := if_neg h

end Load

/-- How a load ends: where there is room, it succeeds and has written exactly its bytes; where there
is none, it is refused and has left everything as it was. -/
structure AllOrNothing (m : Machine) (operation : Operation) (outcome : Except Fault Machine)
    (start room : Nat) (bytes : List UInt8) (fault : Fault) : Prop where
  /-- It succeeds where there is room. -/
  ok_iff : (∃ next, outcome = .ok next) ↔ bytes.length ≤ room
  /-- Where it succeeds, the machine has the bytes and nothing else is changed. -/
  of_ok : ∀ next, outcome = .ok next →
    m.apply operation = (.done, next) ∧ m.Written start bytes next
  /-- Where it is refused, the host hears why and the machine is as it was. -/
  of_error : ∀ refusal, outcome = .error refusal →
    refusal = fault ∧ m.apply operation = (.fault fault, m)

/-- An operation that answers as a load within memory is all or nothing. -/
theorem allOrNothing_load {m : Machine} {operation : Operation} {start room : Nat}
    {bytes : List UInt8} {fault : Fault} (hroom : start + room ≤ 4096)
    (happly : m.apply operation = m.loaded (m.load start room bytes fault)) :
    m.AllOrNothing operation (m.load start room bytes fault) start room bytes fault := by
  by_cases hfits : bytes.length ≤ room
  · rw [load_of_fits m fault hfits] at happly ⊢
    refine ⟨⟨fun _ => hfits, fun _ => ⟨_, rfl⟩⟩, ?_, ?_⟩
    · rintro next ⟨⟩
      exact ⟨happly, m.written_writeBlock (by omega)⟩
    · rintro refusal ⟨⟩
  · rw [load_of_not_fits m fault hfits] at happly ⊢
    refine ⟨⟨?_, fun h => absurd h hfits⟩, ?_, ?_⟩
    · rintro ⟨next, ⟨⟩⟩
    · rintro next ⟨⟩
    · rintro refusal ⟨⟩
      exact ⟨rfl, happly⟩

/-- Two loads whose rooms lie one behind the other give the same replies and lead to the same
machine in either order. -/
theorem replay_loads_comm {operation operation' : Operation} {start start' room room' : Nat}
    {bytes bytes' : List UInt8} {fault fault' : Fault} (h : start + room ≤ start')
    (h' : start' + room' ≤ 4096)
    (happly : ∀ n : Machine, n.apply operation = n.loaded (n.load start room bytes fault))
    (happly' : ∀ n : Machine, n.apply operation' = n.loaded (n.load start' room' bytes' fault'))
    (m : Machine) :
    ∃ reply reply' last, m.replay [operation, operation'] = ([reply, reply'], last) ∧
      m.replay [operation', operation] = ([reply', reply], last) := by
  refine ⟨(m.apply operation).1, (m.apply operation').1, m.behind [operation, operation'], ?_⟩
  by_cases hboth : bytes.length ≤ room ∧ bytes'.length ≤ room'
  · obtain ⟨hfits, hfits'⟩ := hboth
    have hcomm : (m.memory.writeBlock start bytes).writeBlock start' bytes' =
        (m.memory.writeBlock start' bytes').writeBlock start bytes :=
      Memory.writeBlock_comm m.memory (by omega) (by omega)
    simp [replay, behind, happly, happly', load, hfits, hfits', loaded, hcomm]
  · -- one of the loads leaves the machine to the other
    rcases Decidable.not_and_iff_not_or_not.mp hboth with hlarge | hlarge <;>
      simp [replay, behind, happly, happly', load, hlarge, loaded]

theorem allOrNothing_loadProgram (m : Machine) (program : List UInt8) :
    m.AllOrNothing (.loadProgram program) (m.loadProgram program) 0x200 3584 program
      .programTooLarge := by
  rw [loadProgram_eq]
  exact allOrNothing_load (Nat.le_refl 4096) rfl

theorem allOrNothing_loadFont (m : Machine) (glyphs : List UInt8) :
    m.AllOrNothing (.loadFont glyphs) (m.loadFont glyphs) 0x50 432 glyphs
      (.font (Fault.fontSizeDetail 432 glyphs.length)) := by
  rw [loadFont_eq]
  exact allOrNothing_load (by decide) rfl

end Machine

/-- A program of at most 3584 bytes is written to 0x200 and glyphs of at most 432 bytes are written
to 0x50, byte by byte and with no other effect; anything longer is refused, without any effect. In
either order, the two loads give the same replies and the same machine. A second program lies over
the first, in front of what remains of it. -/
theorem loads_all_or_nothing :
    (∀ (m : Machine) (program : List UInt8),
      m.AllOrNothing (.loadProgram program) (m.loadProgram program) 0x200 3584 program
        .programTooLarge) ∧
    (∀ (m : Machine) (glyphs : List UInt8),
      m.AllOrNothing (.loadFont glyphs) (m.loadFont glyphs) 0x50 432 glyphs
        (.font (Fault.fontSizeDetail 432 glyphs.length))) ∧
    (∀ (m : Machine) (program glyphs : List UInt8), ∃ reply reply' last,
      m.replay [.loadFont glyphs, .loadProgram program] = ([reply, reply'], last) ∧
        m.replay [.loadProgram program, .loadFont glyphs] = ([reply', reply], last)) ∧
    ∀ (m : Machine) (first second : List UInt8), first.length ≤ 3584 → second.length ≤ 3584 →
      ∃ last, m.replay [.loadProgram first, .loadProgram second] = ([.done, .done], last) ∧
        m.Written 0x200 (second ++ first.drop second.length) last := by
  refine ⟨Machine.allOrNothing_loadProgram, Machine.allOrNothing_loadFont,
    fun m program glyphs => ?_, fun m first second hfirst hsecond => ?_⟩
  · exact Machine.replay_loads_comm (Nat.le_refl 512) (Nat.le_refl 4096) (fun _ => rfl)
      (fun _ => rfl) m
  · have hload := m.allOrNothing_loadProgram first
    obtain ⟨middle, hmiddle⟩ := hload.ok_iff.mpr hfirst
    obtain ⟨happly, hwritten⟩ := hload.of_ok middle hmiddle
    have hload' := middle.allOrNothing_loadProgram second
    obtain ⟨last, hlast⟩ := hload'.ok_iff.mpr hsecond
    obtain ⟨happly', hwritten'⟩ := hload'.of_ok last hlast
    refine ⟨last, ?_, hwritten.over (by omega) hwritten'⟩
    simp only [Machine.replay, happly, happly']

/-- Both rooms are filled to the last byte in either order and no byte more is taken; a short
program over the longest leaves the rest of it. -/
theorem loads_all_or_nothing_full :
    let m := Machine.new .unset (Vector.replicate 8 0)
    let program := List.replicate 3584 0xAA
    let glyphs := List.replicate 432 0x55
    (∃ next, m.loadProgram program = .ok next) ∧
      (¬ ∃ next, m.loadProgram (0 :: program) = .ok next) ∧
      (∃ next, m.loadFont glyphs = .ok next) ∧
      (¬ ∃ next, m.loadFont (0 :: glyphs) = .ok next) ∧
      (∃ reply reply' last,
        m.replay [.loadFont glyphs, .loadProgram program] = ([reply, reply'], last) ∧
          m.replay [.loadProgram program, .loadFont glyphs] = ([reply', reply], last)) ∧
      ∃ last, m.replay [.loadProgram program, .loadProgram [0x00, 0xE0]] = ([.done, .done], last) ∧
        m.Written 0x200 ([0x00, 0xE0] ++ program.drop 2) last := by
  intro m program glyphs
  obtain ⟨hprogram, hfont, hcomm, hover⟩ := loads_all_or_nothing
  have hlength : program.length = 3584 := List.length_replicate
  have hlength' : glyphs.length = 432 := List.length_replicate
  refine ⟨(hprogram m program).ok_iff.mpr (by omega), ?_, (hfont m glyphs).ok_iff.mpr (by omega),
    ?_, hcomm m program glyphs, hover m program [0x00, 0xE0] (by omega) (by decide)⟩
  · rw [(hprogram m (0 :: program)).ok_iff, List.length_cons]
    omega
  · rw [(hfont m (0 :: glyphs)).ok_iff, List.length_cons]
    omega

end ChipEight
