import ChipEight.Key.Datum
import ChipEight.Machine
import ChipEight.Yaml.Plain

/-!
# Host settings

What a host may choose: the rates of a machine, how long a press is held, a seed, and
which characters stand for which keys. Settings are read from YAML text, in which every
field may be left out; the rates are checked once the whole text was read. A character
stands for the first key that has it, without regard to the case of ASCII letters.
-/

namespace ChipEight

/-- The characters that stand for a key. -/
structure KeyBinding where
  /-- The key. -/
  key : Key
  /-- The characters, in the order they were written. -/
  characters : List Char
  deriving DecidableEq, Repr

/-- What a host may choose. -/
structure Settings where
  /-- The rate of steps. -/
  instructionsPerSecond : Nat
  /-- The rate of ticks. -/
  timerHertz : Nat
  /-- How long a press is held, in milliseconds. -/
  keyHold : Nat
  /-- The seed of random bytes, where one is chosen. -/
  seed : Option UInt64
  /-- The characters of the keys, first match first. -/
  keymap : List KeyBinding
  deriving DecidableEq, Repr

/-- Why settings are refused. -/
inductive SettingsFault
  /-- The text is no YAML, or its fields are not as they should be. -/
  | malformed
  /-- A rate is none of those that a host can keep. -/
  | rate (field : String) (value : Nat)
  deriving DecidableEq, Repr

namespace Settings

/-- The four left columns of a keyboard stand for the keypad. -/
def defaultKeymap : List KeyBinding :=
  [⟨1, ['1']⟩, ⟨2, ['2']⟩, ⟨3, ['3']⟩, ⟨12, ['4']⟩,
   ⟨4, ['q']⟩, ⟨5, ['w']⟩, ⟨6, ['e']⟩, ⟨13, ['r']⟩,
   ⟨7, ['a']⟩, ⟨8, ['s']⟩, ⟨9, ['d']⟩, ⟨14, ['f']⟩,
   ⟨10, ['z']⟩, ⟨0, ['x']⟩, ⟨11, ['c']⟩, ⟨15, ['v']⟩]

/-- What holds where nothing is chosen. -/
def default : Settings := ⟨700, 60, 150, none, defaultKeymap⟩

/-- The machine that the settings ask for. -/
def config (s : Settings) : Config :=
  ⟨some ⟨s.instructionsPerSecond⟩, some ⟨s.timerHertz⟩, s.seed⟩

/-- How long a press is held, in nanoseconds. -/
def holdTime (s : Settings) : Nat := 1000000 * s.keyHold

/-- Whether a host can keep a rate. -/
def rateFits (hertz : Nat) : Bool := 0 < hertz && hertz ≤ Rate.maxHertz

/-- The settings, unless a rate is none that a host can keep. -/
def check (s : Settings) : Except SettingsFault Settings :=
  if !rateFits s.instructionsPerSecond then
    .error (.rate "instructions_per_second" s.instructionsPerSecond)
  else if !rateFits s.timerHertz then .error (.rate "timer_hz" s.timerHertz)
  else .ok s

open Yaml (Node field?)

/-- A number of 64 bits. -/
def readNumber (n : Node) : Option Nat := do
  let number ← n.toNat?
  if number < UInt64.size then some number else none

/-- A seed, or none. -/
def readSeed (n : Node) : Option (Option UInt64) :=
  if n.isNull then some none else (readNumber n).map fun seed => some (UInt64.ofNat seed)

/-- A key, which is an integer. -/
def readKey (n : Node) : Option Key := do
  let i ← n.toInt?
  (Key.ofDatum (.integer i)).toOption

/-- The value of a field, or what holds where it is left out. -/
def readField {α : Type} (fields : List (List Char × Node)) (name : String)
    (read : Node → Option α) (leftOut : Option α) : Option α := do
  match ← field? fields name with
  | some n => read n
  | none => leftOut

/-- The characters of a key. Both fields must be there. -/
def readBinding (n : Node) : Option KeyBinding := do
  let fields ← n.toFields?
  let key ← readField fields "chip8" readKey none
  let characters ← readField fields "keys" (fun n => do (← n.toItems?).mapM Node.toChar?) none
  return ⟨key, characters⟩

/-- The bindings of all keys. -/
def readKeymap (n : Node) : Option (List KeyBinding) := do
  (← n.toItems?).mapM readBinding

/-- The settings of a document. Fields of other names count for nothing. -/
def ofNode? (n : Node) : Option Settings := do
  let fields ← n.toFields?
  return {
    instructionsPerSecond :=
      ← readField fields "instructions_per_second" readNumber (some default.instructionsPerSecond)
    timerHertz := ← readField fields "timer_hz" readNumber (some default.timerHertz)
    keyHold := ← readField fields "key_hold_ms" readNumber (some default.keyHold)
    seed := ← readField fields "seed" readSeed (some default.seed)
    keymap := ← readField fields "keymap" readKeymap (some default.keymap) }

/-- The settings of a text; a text without a document chooses nothing. -/
def read (text : List Char) : Except SettingsFault Settings :=
  match Node.ofText? text with
  | none => .error .malformed
  | some none => .ok default
  | some (some n) =>
    match ofNode? n with
    | some s => s.check
    | none => .error .malformed

/-- A character and the key it stands for, for every character of every key in order. -/
def bindings (s : Settings) : List (Char × Key) :=
  s.keymap.flatMap fun b => b.characters.map fun c => (c.toLower, b.key)

/-- The key that a character stands for. -/
def keyOf? (bindings : List (Char × Key)) (c : Char) : Option Key :=
  (bindings.find? fun b => b.1 == c.toLower).map (·.2)

end Settings

end ChipEight
