import ChipEight.KeyHold
import ChipEight.Machine.Operation
import ChipEight.Proofs.Machine.History
import Mathlib.Data.List.Induction

/-!
# Press and hold

What a source of presses tells over any sequence of calls, at any times. Each key is held
on its own: `Call.onSlot` says what a call makes of one key's time of release and whether
it tells that the key went down or up, and `call_slot` proves that a call does this to
every key at once. Everything about a key over a sequence of calls is then an induction
over what its own slot goes through. A machine whose keys are set as the changes tell has
the same keys down.
-/

namespace ChipEight.KeyHold

/-- One call about held keys, with the time at which it is made. -/
inductive Call
  | press (k : Key) (now : Nat)
  | expire (now : Nat)
  deriving DecidableEq, Repr

namespace Call

/-- Whether a call is about a key; releases are about all keys. -/
def isAbout (k : Key) : Call → Bool
  | press j _ => j == k
  | expire _ => true

/-- The time at which a call presses a key. -/
def pressTime? (k : Key) : Call → Option Nat
  | press j now => if j = k then some now else none
  | expire _ => none

/-- What a call makes of the time of release of one key, and the change of that key it tells: down
when it was up before, or up. -/
def onSlot (hold : Nat) (k : Key) (slot : Option Nat) : Call → List Bool × Option Nat
  | press j now =>
    if j = k then (if slot.isNone then [true] else [], some (now + hold)) else ([], slot)
  | expire now => if slot.any (· ≤ now) then ([false], none) else ([], slot)

end Call

/-- The changes that a call tells, a key with whether it went down, and the held keys behind it. -/
def call (h : KeyHold) : Call → List (Key × Bool) × KeyHold
  | .press k now =>
    let (wasUp, next) := h.press k now
    (if wasUp then [(k, true)] else [], next)
  | .expire now =>
    let (released, next) := h.expire now
    (released.map (·, false), next)

/-- The changes that calls tell, in order. -/
def changes (h : KeyHold) : List Call → List (Key × Bool)
  | [] => []
  | c :: rest => (h.call c).1 ++ (h.call c).2.changes rest

/-- The held keys behind calls. -/
def behind (h : KeyHold) : List Call → KeyHold
  | [] => h
  | c :: rest => (h.call c).2.behind rest

/-- The changes of one key among all changes. -/
def changesOf (k : Key) (all : List (Key × Bool)) : List Bool :=
  (all.filter (·.1 == k)).map (·.2)

/-- The time at which a key was last pressed. -/
def lastPress? (k : Key) (calls : List Call) : Option Nat :=
  (calls.filterMap (Call.pressTime? k)).getLast?

@[simp] theorem changesOf_append (k : Key) (first second : List (Key × Bool)) :
    changesOf k (first ++ second) = changesOf k first ++ changesOf k second := by
  simp only [changesOf, List.filter_append, List.map_append]

/-- Among releases, a key has one change if it is released and none otherwise. -/
theorem changesOf_released (p : Key → Bool) (k : Key) :
    changesOf k ((Key.all.filter p).map (·, false)) = if p k then [false] else [] := by
  have hone : ∀ k : Key, Key.all.filter (· == k) = [k] := by decide
  have hboth : (Key.all.filter p).filter (· == k) = if p k then [k] else [] := by
    have hcomm : (Key.all.filter p).filter (· == k) = (Key.all.filter (· == k)).filter p := by
      simp only [List.filter_filter, Bool.and_comm]
    rw [hcomm, hone, List.filter_cons, List.filter_nil]
  simp only [changesOf, List.filter_map, List.map_map]
  change ((Key.all.filter p).filter (· == k)).map (fun _ => false) = _
  rw [hboth]
  split <;> rfl

theorem isDue_eq (h : KeyHold) (now : Nat) (k : Key) :
    h.isDue now k = (h.releaseAt.get k).any (· ≤ now) := by
  unfold isDue
  cases h.releaseAt.get k <;> rfl

/-- A call does to every key what it does to the key's own slot. -/
theorem call_slot (h : KeyHold) (c : Call) (k : Key) :
    (changesOf k (h.call c).1, (h.call c).2.releaseAt.get k) =
      c.onSlot h.hold k (h.releaseAt.get k) := by
  cases c with
  | press j now =>
    have hslot : (h.call (.press j now)).2.releaseAt.get k =
        if k = j then some (now + h.hold) else h.releaseAt.get k := by
      simp only [call, press, Vector.get_put]
    rw [hslot]
    by_cases hk : j = k
    · subst hk
      cases hs : h.releaseAt.get j <;> simp [call, press, changesOf, Call.onSlot, isDown, hs]
    · have hk' : ¬ k = j := fun e => hk e.symm
      cases hs : h.releaseAt.get j <;>
        simp [call, press, changesOf, Call.onSlot, isDown, hs, hk, hk']
  | expire now =>
    have hslot : (h.call (.expire now)).2.releaseAt.get k =
        if h.isDue now k then none else h.releaseAt.get k := by
      simp only [call, expire, Vector.get_eq_entry, Vector.getElem_ofFn]
    have hchanges : changesOf k (h.call (.expire now)).1 =
        if h.isDue now k then [false] else [] := changesOf_released _ k
    rw [hslot, hchanges, isDue_eq, Call.onSlot]
    split <;> rfl

@[simp] theorem hold_call (h : KeyHold) (c : Call) : (h.call c).2.hold = h.hold := by
  cases c with
  | press k now => simp only [call, press]
  | expire now => simp only [call, expire]

theorem changes_append (h : KeyHold) (first second : List Call) :
    h.changes (first ++ second) = h.changes first ++ (h.behind first).changes second := by
  induction first generalizing h with
  | nil => rfl
  | cons c rest ih => simp only [List.cons_append, changes, behind, ih, List.append_assoc]

theorem behind_append (h : KeyHold) (first second : List Call) :
    h.behind (first ++ second) = (h.behind first).behind second := by
  induction first generalizing h with
  | nil => rfl
  | cons c rest ih => exact ih _

@[simp] theorem hold_behind (h : KeyHold) (calls : List Call) :
    (h.behind calls).hold = h.hold := by
  induction calls generalizing h with
  | nil => rfl
  | cons c rest ih => rw [behind, ih, hold_call]

/-- One more call adds to the changes of a key what it does to the key's slot. -/
theorem slot_concat (h : KeyHold) (calls : List Call) (c : Call) (k : Key) :
    (changesOf k (h.changes (calls ++ [c])), (h.behind (calls ++ [c])).releaseAt.get k) =
      (changesOf k (h.changes calls) ++
          (c.onSlot h.hold k ((h.behind calls).releaseAt.get k)).1,
        (c.onSlot h.hold k ((h.behind calls).releaseAt.get k)).2) := by
  have hlast := (h.behind calls).call_slot c k
  rw [hold_behind] at hlast
  rw [← hlast, changes_append, behind_append, changesOf_append]
  simp only [changes, behind, List.append_nil]

/-- What holds of a key's changes and of its time of release behind any sequence of calls. -/
structure Slot (hold : Nat) (k : Key) (calls : List Call) (changes : List Bool)
    (slot : Option Nat) : Prop where
  /-- The changes at even places are presses, those at odd places are releases. -/
  turns : ∀ (i : Nat) (down : Bool), changes[i]? = some down → down = decide (i % 2 = 0)
  /-- The key is down behind an odd number of changes. -/
  parity : slot.isSome = decide (changes.length % 2 = 1)
  /-- A key that is down is released a hold after its last press. -/
  release : ∀ deadline, slot = some deadline →
    ∃ pressed, lastPress? k calls = some pressed ∧ deadline = pressed + hold

theorem lastPress?_concat (k : Key) (calls : List Call) (c : Call) :
    lastPress? k (calls ++ [c]) = (c.pressTime? k).or (lastPress? k calls) := by
  rw [lastPress?, List.filterMap_append]
  cases hc : c.pressTime? k with
  | none => simp [hc, lastPress?]
  | some now => simp [hc]

namespace Slot

variable {hold : Nat} {k : Key} {calls : List Call} {changes : List Bool} {slot : Option Nat}

/-- One more change, the one whose turn it is, keeps the turns. -/
theorem turns_concat (h : Slot hold k calls changes slot) (i : Nat) (down : Bool)
    (hi : (changes ++ [slot.isNone])[i]? = some down) : down = decide (i % 2 = 0) := by
  rw [List.getElem?_append] at hi
  split at hi
  · exact h.turns i down hi
  · next hge =>
    have hlast : i = changes.length := by
      have hlt := (List.getElem?_eq_some_iff.mp hi).1
      rw [List.length_singleton] at hlt
      omega
    subst hlast
    rw [Nat.sub_self, List.getElem?_cons_zero, Option.some.injEq] at hi
    have hp := h.parity
    rw [← hi, ← Option.not_isSome, hp]
    by_cases he : changes.length % 2 = 0
    · simp [he]
    · have ho : changes.length % 2 = 1 := by omega
      simp [ho]

/-- A call keeps what holds of a slot. -/
theorem call (h : Slot hold k calls changes slot) (c : Call) :
    Slot hold k (calls ++ [c]) (changes ++ (c.onSlot hold k slot).1) (c.onSlot hold k slot).2 := by
  -- a call about another key, or a release that comes too early, keeps the slot
  have hkept (hc : c.pressTime? k = none) : Slot hold k (calls ++ [c]) (changes ++ []) slot := by
    rw [List.append_nil]
    refine ⟨h.turns, h.parity, fun deadline hd => ?_⟩
    rw [lastPress?_concat, hc, Option.none_or]
    exact h.release deadline hd
  cases c with
  | press j now =>
    by_cases hk : j = k
    · have hlast : lastPress? k (calls ++ [.press j now]) = some now := by
        rw [lastPress?_concat, Call.pressTime?, if_pos hk, Option.some_or]
      have hrelease : ∀ deadline, some (now + hold) = some deadline →
          ∃ pressed, lastPress? k (calls ++ [.press j now]) = some pressed ∧
            deadline = pressed + hold :=
        fun deadline hd => ⟨now, hlast, (Option.some.inj hd).symm⟩
      rw [Call.onSlot, if_pos hk]
      cases slot with
      | none =>
        have hp := h.parity
        refine ⟨h.turns_concat, ?_, hrelease⟩
        simp only [Option.isSome_none, Option.isNone_none, if_true, List.length_append,
          List.length_singleton, Option.isSome_some] at hp ⊢
        grind
      | some deadline =>
        refine ⟨?_, ?_, hrelease⟩
        · simpa using h.turns
        · simpa using h.parity
    · rw [Call.onSlot, if_neg hk]
      exact hkept (if_neg hk)
  | expire now =>
    rw [Call.onSlot]
    split
    · next hdue =>
      cases slot with
      | none => cases hdue
      | some deadline =>
        have hp := h.parity
        refine ⟨h.turns_concat, ?_, ?_⟩
        · simp only [Option.isSome_some, List.length_append, List.length_singleton,
            Option.isSome_none] at hp ⊢
          grind
        · intro deadline hd
          cases hd
    · exact hkept rfl

end Slot

/-- Over any sequence of calls, each key's changes and time of release stay in step. -/
theorem slot_behind (hold : Nat) (k : Key) (calls : List Call) :
    Slot hold k calls (changesOf k ((new hold).changes calls))
      (((new hold).behind calls).releaseAt.get k) := by
  induction calls using List.reverseRecOn with
  | nil =>
    have hup : (new hold).releaseAt.get k = none := by
      simp [new, Vector.get_eq_entry]
    simp only [behind, hup]
    refine ⟨?_, rfl, ?_⟩
    · intro i down hi
      simp [changes, changesOf] at hi
    · intro deadline hd
      cases hd
  | append_singleton calls c ih =>
    have hcall := ih.call c
    have hslot := (new hold).slot_concat calls c k
    rw [show (new hold).hold = hold from rfl] at hslot
    rw [(Prod.mk.inj hslot).1, (Prod.mk.inj hslot).2]
    exact hcall

/-- Calls about other keys change nothing for a key. -/
theorem changesOf_filter {g h : KeyHold} {k : Key} (hhold : g.hold = h.hold)
    (hslot : g.releaseAt.get k = h.releaseAt.get k) (calls : List Call) :
    changesOf k (g.changes calls) = changesOf k (h.changes (calls.filter (Call.isAbout k))) ∧
      (g.behind calls).releaseAt.get k =
        (h.behind (calls.filter (Call.isAbout k))).releaseAt.get k := by
  induction calls generalizing g h with
  | nil => exact ⟨rfl, hslot⟩
  | cons c rest ih =>
    have hg := g.call_slot c k
    have hnext : (g.call c).2.hold = g.hold := g.hold_call c
    by_cases hc : c.isAbout k = true
    · have hh := h.call_slot c k
      rw [← hhold, ← hslot, ← hg] at hh
      obtain ⟨hchanges, hbehind⟩ := Prod.mk.inj hh
      obtain ⟨htail, hend⟩ := @ih (g.call c).2 (h.call c).2
        (by rw [hnext, hold_call, hhold]) hbehind.symm
      rw [List.filter_cons_of_pos hc]
      simp only [changes, behind, changesOf_append, htail, hend, hchanges, and_self]
    · have hkept : c.onSlot g.hold k (g.releaseAt.get k) = ([], g.releaseAt.get k) := by
        cases c with
        | press j now =>
          have hj : ¬ j = k := fun e => hc (beq_iff_eq.mpr e)
          rw [Call.onSlot, if_neg hj]
        | expire now => exact absurd rfl hc
      rw [hkept] at hg
      obtain ⟨hchanges, hbehind⟩ := Prod.mk.inj hg
      obtain ⟨htail, hend⟩ := @ih (g.call c).2 h (by rw [hnext, hhold]) (by rw [hbehind, hslot])
      rw [List.filter_cons_of_neg hc]
      simp only [changes, behind, changesOf_append, htail, hend, hchanges, List.nil_append,
        and_self]

/-- The operations that set the keys of a machine as changes tell. -/
def keyOperations (all : List (Key × Bool)) : List Operation := all.map fun c => .setKey c.1 c.2

/-- Behind changes, a key of a machine is as its last change tells, and as before without one. -/
theorem isDown_behind_keyOperations (m : Machine) (all : List (Key × Bool)) (k : Key) :
    (m.behind (keyOperations all)).keypad.isDown k =
      (changesOf k all).getLast?.getD (m.keypad.isDown k) := by
  induction all using List.reverseRecOn with
  | nil => rfl
  | append_singleton all c ih =>
    obtain ⟨j, down⟩ := c
    rw [keyOperations, List.map_append, Machine.behind_append, changesOf_append, ← keyOperations]
    change ((m.behind (keyOperations all)).keypad.set j down).isDown k = _
    rw [Keypad.isDown_set]
    by_cases hk : k = j
    · subst hk
      simp [changesOf]
    · have hj : (j == k) = false := beq_eq_false_iff_ne.mpr fun e => hk e.symm
      rw [if_neg hk, ih]
      simp [changesOf, hj]

/-- A key is down when the last change that was told of it is a press. -/
theorem isDown_iff_getLast? (hold : Nat) (k : Key) (calls : List Call) :
    ((new hold).behind calls).isDown k = true ↔
      (changesOf k ((new hold).changes calls)).getLast? = some true := by
  obtain ⟨hturns, hparity, -⟩ := slot_behind hold k calls
  generalize changesOf k ((new hold).changes calls) = told at hturns hparity
  rw [isDown, hparity, decide_eq_true_iff, List.getLast?_eq_getElem?]
  constructor
  · intro hodd
    have hlt : told.length - 1 < told.length := by omega
    have hlast := hturns _ _ (List.getElem?_eq_getElem hlt)
    rw [List.getElem?_eq_getElem hlt, hlast]
    have heven : (told.length - 1) % 2 = 0 := by omega
    simp [heven]
  · intro hlast
    have hlt := (List.getElem?_eq_some_iff.mp hlast).1
    have heven := of_decide_eq_true (hturns _ _ hlast).symm
    omega

/-- What a source of presses keeps to over a sequence of calls. -/
structure PressAndHold (hold : Nat) (calls : List Call) : Prop where
  /-- The changes told of a key take turns, and the first one is a press. -/
  turns : ∀ (k : Key) (i : Nat) (down : Bool),
    (changesOf k ((new hold).changes calls))[i]? = some down → down = decide (i % 2 = 0)
  /-- A key is down when the last change told of it is a press. -/
  down : ∀ k : Key, ((new hold).behind calls).isDown k = true ↔
    (changesOf k ((new hold).changes calls)).getLast? = some true
  /-- Releases are told in ascending order, each once. -/
  ascending : ∀ now, (((new hold).behind calls).expire now).1.Pairwise (· < ·)
  /-- Those keys are released that are down and whose last press is a hold or more ago. -/
  released : ∀ (now : Nat) (k : Key), k ∈ (((new hold).behind calls).expire now).1 ↔
    ((new hold).behind calls).isDown k = true ∧
      ∃ pressed, lastPress? k calls = some pressed ∧ pressed + hold ≤ now
  /-- Without the calls about other keys, a key has the same changes and is down or up alike. -/
  alone : ∀ k : Key,
    changesOf k ((new hold).changes calls) =
      changesOf k ((new hold).changes (calls.filter (Call.isAbout k))) ∧
    ((new hold).behind calls).isDown k =
      ((new hold).behind (calls.filter (Call.isAbout k))).isDown k
  /-- A machine that had all keys up and gets them set as told has the same keys down. -/
  mirrored : ∀ m : Machine, (∀ k, m.keypad.isDown k = false) → ∀ k,
    (m.behind (keyOperations ((new hold).changes calls))).keypad.isDown k =
      ((new hold).behind calls).isDown k

/-- A source of presses keeps to press and hold, for every hold and at any times. -/
theorem press_and_hold (hold : Nat) (calls : List Call) : PressAndHold hold calls where
  turns k := (slot_behind hold k calls).turns
  down k := isDown_iff_getLast? hold k calls
  ascending now := by
    have hall : Key.all.Pairwise (· < ·) := by decide
    exact hall.filter _
  released now k := by
    have hslot := slot_behind hold k calls
    simp only [expire, List.mem_filter, Key.all, List.mem_finRange, true_and, isDue_eq, isDown]
    cases hs : ((new hold).behind calls).releaseAt.get k with
    | none => simp
    | some deadline =>
      obtain ⟨pressed, hpressed, rfl⟩ := hslot.release deadline hs
      simp [hpressed]
  alone k := by
    obtain ⟨hchanges, hend⟩ := changesOf_filter (g := new hold) (h := new hold) rfl rfl calls
    exact ⟨hchanges, congrArg Option.isSome hend⟩
  mirrored m hm k := by
    rw [isDown_behind_keyOperations, hm, Bool.eq_iff_iff, isDown_iff_getLast?]
    cases (changesOf k ((new hold).changes calls)).getLast? with
    | none => simp
    | some down => simp

/-- A key pressed again while it is down, and another one pressed at an earlier time in between. -/
def repeated : List Call :=
  [.press 0xA 0, .press 0xA 80, .press 0x0 10, .expire 120, .press 0xA 130, .expire 230]

/-- The repeated press extends the hold and tells nothing, and a machine has the same keys down. -/
theorem press_and_hold_repeated :
    (new 100).changes repeated = [(0xA, true), (0x0, true), (0x0, false), (0xA, false)] ∧
    (∀ k, (Machine.new .unset (Vector.replicate 8 0)).keypad.isDown k = false) ∧
    ∀ k, ((Machine.new .unset (Vector.replicate 8 0)).behind
        (keyOperations ((new 100).changes repeated))).keypad.isDown k =
      ((new 100).behind repeated).isDown k :=
  ⟨by decide, Keypad.isDown_released,
    (press_and_hold 100 repeated).mirrored _ Keypad.isDown_released⟩

end ChipEight.KeyHold
