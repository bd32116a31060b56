import ChipEight.Proofs.Machine.Effect
import ChipEight.Proofs.Machine.History

/-!
# Random draws

A machine takes one word from its stream for each random instruction that it executes,
whatever the mask, and for nothing else. `draws` writes down what the random instructions
of a history left in their registers; `draws_in_order` says that the draw with the number
`k`, counted from zero, is the low byte of word `k` of the seed's stream under the mask.
Texts and pictures of a machine are made from it and leave it as it is, so they have no
place in a history.
-/

namespace ChipEight

/-- A random instruction that was executed. -/
structure Draw where
  /-- The register that was set. -/
  register : Register
  /-- The mask that the byte was taken under. -/
  mask : UInt8
  /-- The content of the register behind the instruction. -/
  value : UInt8
  deriving DecidableEq, Repr

namespace Machine

/-- The random instruction that a single operation executes, if it executes one. -/
def drawOf? (m : Machine) : Operation → Option Draw
  | .step =>
    match m.nextInstruction with
    | .random x mask => some ⟨x, mask, m.step.2.registers.get x⟩
    | _ => none
  | _ => none

/-- The random instructions that single operations execute, in order. -/
def drawsOf (m : Machine) : List Operation → List Draw
  | [] => []
  | operation :: rest => (m.drawOf? operation).toList ++ (m.apply operation).2.drawsOf rest

/-- The random instructions that a history executes, in order. -/
def draws (m : Machine) (history : List Operation) : List Draw := m.drawsOf (m.unroll history)

theorem random_step (m : Machine) : m.step.2.random = m.nextInstruction.randomAfter m := by
  rw [step_eq]
  rfl

theorem registers_step (m : Machine) :
    m.step.2.registers = m.nextInstruction.registersAfter m := by
  rw [step_eq]
  rfl

/-- An operation either leaves the stream alone, or executes a random instruction that takes the
next word and leaves its low byte under the mask. -/
theorem drawOf?_cases (m : Machine) {operation : Operation} (hr : operation.isRun = false) :
    (m.drawOf? operation = none ∧ (m.apply operation).2.random = m.random) ∨
    ∃ x mask,
      m.drawOf? operation = some ⟨x, mask, m.random.next.1.toUInt8 &&& mask⟩ ∧
      (m.apply operation).2.random = m.random.next.2 := by
  by_cases hs : operation = .step
  · subst hs
    change _ ∧ m.step.2.random = _ ∨ ∃ x mask, _ ∧ m.step.2.random = _
    rw [random_step]
    cases hi : m.nextInstruction with
    | random x mask =>
      refine Or.inr ⟨x, mask, ?_, rfl⟩
      have hvalue : m.step.2.registers.get x = m.random.next.1.toUInt8 &&& mask := by
        rw [registers_step, hi, Instruction.registersAfter, Vector.get_put, if_pos rfl]
      simp only [drawOf?, hi, hvalue]
    | _ =>
      refine Or.inl ⟨?_, rfl⟩
      simp only [drawOf?, hi]
  · obtain ⟨_, _, _, _, _, h⟩ := m.apply_of_host hs hr
    refine Or.inl ⟨?_, ?_⟩
    · cases operation with
      | step => exact absurd rfl hs
      | _ => rfl
    · rw [h]

/-- Over single operations, the stream moves by the number of draws. -/
theorem random_behind {operations : List Operation}
    (hr : ∀ operation ∈ operations, operation.isRun = false) (m : Machine) :
    (m.behind operations).random =
      ⟨m.random.key, m.random.drawn + (m.drawsOf operations).length⟩ := by
  induction operations generalizing m with
  | nil => rfl
  | cons operation rest ih =>
    have hrest := ih (fun o ho => hr o (List.mem_cons_of_mem _ ho)) (m.apply operation).2
    rw [behind_cons, hrest, drawsOf, List.length_append]
    rcases m.drawOf?_cases (hr operation List.mem_cons_self) with
      ⟨hnone, hkept⟩ | ⟨x, mask, hsome, hnext⟩
    · simp only [hnone, hkept, Option.toList_none, List.length_nil, Nat.zero_add]
    · simp only [hsome, hnext, Keystream.next, Option.toList_some, List.length_singleton,
        Nat.add_assoc]

/-- Over single operations, each draw takes the word behind that of the draw before it. -/
theorem value_of_mem_drawsOf {operations : List Operation}
    (hr : ∀ operation ∈ operations, operation.isRun = false) (m : Machine) {k : Nat} {d : Draw}
    (hd : (m.drawsOf operations)[k]? = some d) :
    d.value = (Keystream.word m.random.key (m.random.drawn + k)).toUInt8 &&& d.mask := by
  induction operations generalizing m k with
  | nil => cases hd
  | cons operation rest ih =>
    have hrest := @ih (fun o ho => hr o (List.mem_cons_of_mem _ ho)) (m.apply operation).2
    rw [drawsOf] at hd
    rcases m.drawOf?_cases (hr operation List.mem_cons_self) with
      ⟨hnone, hkept⟩ | ⟨x, mask, hsome, hnext⟩
    · rw [hnone, Option.toList_none, List.nil_append] at hd
      rw [← hkept]
      exact hrest hd
    · rw [hsome, Option.toList_some, List.singleton_append] at hd
      cases k with
      | zero =>
        obtain rfl : _ = d := Option.some.inj hd
        rfl
      | succ k =>
        have hvalue := hrest (k := k) hd
        rw [hnext] at hvalue
        simp only [Keystream.next] at hvalue
        rw [hvalue, Nat.add_assoc, Nat.add_comm 1 k]

/-- From a new machine with a seed on, the draw with the number `k` is the low byte of word `k` of
the seed's stream under the mask, and as many words are taken as there were draws. -/
theorem draws_in_order (config : Config) (key : Vector UInt32 8) {seed : UInt64}
    (hseed : config.seed = some seed) (history : List Operation) :
    ((new config key).behind history).random =
        ⟨Keystream.keyOfSeed seed, ((new config key).draws history).length⟩ ∧
      ∀ (k : Nat) (d : Draw), ((new config key).draws history)[k]? = some d →
        d.value = (Keystream.word (Keystream.keyOfSeed seed) k).toUInt8 &&& d.mask ∧
        Keystream.word (Keystream.keyOfSeed seed) k =
          (Keystream.block (Keystream.keyOfSeed seed) (k / 16)).get (Fin.ofNat 16 k) ∧
        d.value &&& ~~~d.mask = 0 := by
  have hstart : (new config key).random = Keystream.ofSeed seed := by
    simp only [new, hseed]
  have hsingle : ∀ operation ∈ (new config key).unroll history, operation.isRun = false :=
    fun _ => isRun_of_mem_unroll
  constructor
  · rw [← behind_unroll, random_behind hsingle, hstart]
    simp only [Keystream.ofSeed, Keystream.ofKey, Nat.zero_add, draws]
  · intro k d hd
    have hvalue := value_of_mem_drawsOf hsingle _ hd
    simp only [hstart, Keystream.ofSeed, Keystream.ofKey, Nat.zero_add] at hvalue
    refine ⟨hvalue, rfl, ?_⟩
    rw [hvalue, UInt8.and_assoc, UInt8.and_not_self, UInt8.and_zero]

/-- A choice of the seed 7. -/
def sevenSeeded : Config := ⟨some ⟨1000⟩, none, some 7⟩

/-- A machine with the seed 7. -/
def seeded : Machine := new sevenSeeded (Vector.replicate 8 0)

/-- A jump to where glyphs lie, a refused return there, and then eighteen draws, every second one
under the mask zero. -/
def drawing : List Operation :=
  [.loadProgram [0x10, 0x50], .loadFont [0x00, 0xEE, 0xC1, 0x00, 0xC2, 0x0F, 0x10, 0x52], .run 2,
    .tick, .run 26, .takeFrame]

private theorem last_drawing :
    (seeded.draws drawing)[17]?.map (fun d => (d.register, d.mask)) = some (2, 0x0F) := by
  decide +kernel

/-- The last draw takes the second word of the second block. -/
theorem draws_in_order_secondBlock :
    sevenSeeded.seed = some 7 ∧
    ∃ value, (seeded.draws drawing)[17]? = some ⟨2, 0x0F, value⟩ ∧
      value = ((Keystream.block (Keystream.keyOfSeed 7) 1).get 1).toUInt8 &&& 0x0F := by
  obtain ⟨⟨register, mask, value⟩, hd, heq⟩ := Option.map_eq_some_iff.mp last_drawing
  obtain ⟨rfl, rfl⟩ := Prod.mk.inj heq
  obtain ⟨hvalue, hword, -⟩ :=
    (draws_in_order sevenSeeded (Vector.replicate 8 0) rfl drawing).2 17 _ hd
  rw [hword] at hvalue
  exact ⟨rfl, value, hd, hvalue⟩

end Machine

end ChipEight
