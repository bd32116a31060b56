import ChipEight.Failure
import ChipEight.Listing
import ChipEight.Machine.Load

/-!
# The command line

The program has two commands: `run` makes a machine from a program file and, if asked
for, a settings file; `dis` lists a program file. Everything else is answered with the
usage text. What is read comes from a function from names to contents, so the whole
answer is a value.
-/

namespace ChipEight

/-- What the arguments ask for. -/
inductive Request
  /-- Run a program, perhaps with settings. -/
  | run (program : String) (settings : Option String)
  /-- List a program. -/
  | list (program : String)
  deriving DecidableEq, Repr

/-- The answer to the command line. -/
inductive Response
  /-- Write a text and end well. -/
  | text (content : List Char)
  /-- Write the usage text. -/
  | usage (content : List Char)
  /-- Report a failure. -/
  | failure (cause : Failure)
  /-- Run a machine. -/
  | play (settings : Settings) (machine : Machine)
  deriving DecidableEq

namespace CommandLine

/-- The settings file that options name, the last one if there are several. -/
def readOptions (chosen : Option String) : List String → Option (Option String)
  | [] => some chosen
  | "--config" :: path :: rest => readOptions (some path) rest
  | _ => none

/-- What the arguments ask for, if they have a meaning. -/
def parse? : List String → Option Request
  | "run" :: program :: options => (readOptions none options).map (.run program)
  | ["dis", program] => some (.list program)
  | _ => none

/-- The names of the files that an answer to the arguments may look at. -/
def paths (arguments : List String) : List String :=
  match parse? arguments with
  | some (.run program settings) => program :: settings.toList
  | some (.list program) => [program]
  | none => []

/-- The version of the program. -/
def version : String := "0.5.0"

/-- How to use the program. -/
def usageText : String := "
usage: chip8 CMD FILE [OPTIONS]

commands:
    run     Run the target hex image file
    dis     Disassemble the target hex image into readable assembly

options:
    --config PATH   Host settings in YAML (run only)

keys:
    1 2 3 4
    q w e r     mapped to the keypad by default
    a s d f
    z x c v     Esc or Ctrl-C quits

examples:
    chip8 run breakout.hex
    chip8 run breakout.hex --config chip8.yaml
    chip8 dis breakout.hex
"

/-- The usage text below the name and the version. -/
def usage : List Char := ("chip8 v" ++ version ++ "\n" ++ usageText ++ "\n").toList

/-- The content of a file by its name. -/
abbrev Files := String → Except FileFault ByteArray

/-- The text of a file. -/
def readText (content : Except FileFault ByteArray) : Except FileFault (List Char) := do
  match String.fromUTF8? (← content) with
  | some text => .ok text.toList
  | none => .error .notText

/-- The program in a file. -/
def readProgram (content : Except FileFault ByteArray) : Except Fault (List UInt8) :=
  match readText content with
  | .error cause => .error (.file cause)
  | .ok text =>
    match ProgramImage.read text with
    | .error word => .error (.badWord word)
    | .ok program => .ok program

/-- The settings in a file. A directory can be opened and then holds no settings. -/
def readSettings (content : Except FileFault ByteArray) : Except Failure Settings :=
  match readText content with
  | .error .directory | .error .notText => .error .malformedSettings
  | .error cause => .error (.file cause)
  | .ok text =>
    match Settings.read text with
    | .error cause => .error (.ofSettings cause)
    | .ok settings => .ok settings

/-- The settings of a run: those of the file, or what holds where there is none. -/
def chooseSettings (files : Files) : Option String → Except Failure Settings
  | some path => readSettings (files path)
  | none => .ok .default

/-- The machine of a run. Settings come first, then the program. The key serves machines without a
seed. -/
def prepare (files : Files) (key : Vector UInt32 8) (program : String) (settings : Option String) :
    Except Failure (Settings × Machine) := do
  let settings ← chooseSettings files settings
  let bytes ← (readProgram (files program)).mapError .fault
  let machine ← (Machine.boot settings.config key bytes).mapError .fault
  return (settings, machine)

/-- The answer to the arguments. -/
def respond (files : Files) (key : Vector UInt32 8) (arguments : List String) : Response :=
  match parse? arguments with
  | none => .usage usage
  | some (.list program) =>
    match readProgram (files program) with
    | .ok bytes => .text (Listing.render bytes)
    | .error cause => .failure (.fault cause)
  | some (.run program settings) =>
    match prepare files key program settings with
    | .ok (settings, machine) => .play settings machine
    | .error cause => .failure cause

end CommandLine

end ChipEight
