/-!
# Checked access

A program on bytes and words names the entries of its tables by computed numbers, and its
sums must have room in their words. Here each such step says so: it fails where a table has
no entry of the number, where a result does not fit, and where a case was ruled out that
arises after all. Beside each step stands the condition under which it succeeds.
-/

namespace ChipEight

/-- What stops a program that relies on its numbers. -/
inductive Panic
  /-- A table has no entry of the number. -/
  | index
  /-- A result does not fit, or a shift leaves nothing. -/
  | overflow
  /-- A case arose that was ruled out. -/
  | unreachable
  deriving DecidableEq, Repr

/-- A result, unless the program stopped. -/
abbrev Checked := Except Panic

namespace Checked

variable {α β γ : Type} {n : Nat}

@[simp] theorem ok_bind (a : α) (f : α → Checked β) : (Except.ok a : Checked α) >>= f = f a := rfl

/-- What follows on a result goes on from it. -/
theorem bind_of_ok {x : Checked α} {a : α} {f : α → Checked β} {result : Checked β}
    (h : x = .ok a) (h' : f a = result) : x >>= f = result := by
  rw [h, ok_bind, h']

/-- The entry of a number. -/
def entry (table : Vector α n) (place : Nat) : Checked α :=
  if h : place < n then .ok table[place] else .error .index

/-- The table with another entry at a number. -/
def replace (table : Vector α n) (place : Nat) (a : α) : Checked (Vector α n) :=
  if h : place < n then .ok (table.set place a) else .error .index

/-- A number for which a word of the given size has room. -/
def fit (size number : Nat) : Checked Nat :=
  if number < size then .ok number else .error .overflow

/-- A difference, of which nothing lies below zero. -/
def difference (a b : Nat) : Checked Nat := if b ≤ a then .ok (a - b) else .error .overflow

/-- A byte moved to the right, by less than its width. -/
def shiftRight (b : UInt8) (count : Nat) : Checked UInt8 :=
  if count < 8 then .ok (b >>> UInt8.ofNat count) else .error .overflow

/-- The word with only the bit of a number set, which must be less than the width of the word. -/
def bit (number : UInt8) : Checked UInt16 :=
  if number < 16 then .ok (1 <<< number.toUInt16) else .error .overflow

theorem entry_of_lt (table : Vector α n) {place : Nat} (h : place < n) :
    entry table place = .ok table[place] := dif_pos h

theorem replace_of_lt (table : Vector α n) {place : Nat} (h : place < n) (a : α) :
    replace table place a = .ok (table.set place a) := dif_pos h

theorem fit16_of_lt {number : Nat} (h : number < 65536) : fit UInt16.size number = .ok number :=
  if_pos h

/-- What has room in thirty-two bits has room in sixty-four. -/
theorem fit64_of_lt {number : Nat} (h : number < 4294967296) :
    fit UInt64.size number = .ok number :=
  if_pos (Nat.lt_trans h (by decide))

theorem difference_of_le {a b : Nat} (h : b ≤ a) : difference a b = .ok (a - b) := if_pos h

theorem shiftRight_of_lt (b : UInt8) {count : Nat} (h : count < 8) :
    shiftRight b count = .ok (b >>> UInt8.ofNat count) := if_pos h

theorem bit_of_lt {number : UInt8} (h : number < 16) : bit number = .ok (1 <<< number.toUInt16) :=
  if_pos h

/-- A loop whose steps all succeed succeeds; its states stand for those of a plain loop. -/
theorem foldlM_of_ok (stand : γ → β) (next : γ → α → γ) {step : β → α → Checked β}
    {entries : List α} (h : ∀ c, ∀ a ∈ entries, step (stand c) a = .ok (stand (next c a)))
    (c : γ) : entries.foldlM step (stand c) = .ok (stand (entries.foldl next c)) := by
  induction entries generalizing c with
  | nil => rfl
  | cons a rest ih =>
    rw [List.foldlM_cons, h c a List.mem_cons_self, ok_bind, List.foldl_cons]
    exact ih (fun c b hb => h c b (List.mem_cons_of_mem a hb)) (next c a)

/-- A search whose questions all have answers has a result. -/
theorem findM?_of_ok {question : α → Checked Bool} {answer : α → Bool} {entries : List α}
    (h : ∀ a ∈ entries, question a = .ok (answer a)) :
    entries.findM? question = .ok (entries.find? answer) := by
  induction entries with
  | nil => rfl
  | cons a rest ih =>
    rw [List.findM?, h a List.mem_cons_self, ok_bind, List.find?_cons]
    cases answer a with
    | true => rfl
    | false => exact ih fun b hb => h b (List.mem_cons_of_mem a hb)

end Checked

end ChipEight
