import ChipEight.CommandLine
import ChipEight.KeyHold
import ChipEight.Runner

/-!
# The program

Files, time, typed lines and output around `CommandLine.respond`. While a machine runs,
every line typed is a series of key presses, an escape character or the end of the input
stops it, and every new screen is written out.
-/

namespace ChipEight.Main

/-- Whether a code stands for an error of the system, with or without a minus sign. -/
def isSystemError (code error : UInt32) : Bool := code = error || code = -error

/-- Why a file could not be read. -/
def fileFault (e : IO.Error) : FileFault :=
  match e with
  | .noFileOrDirectory .. => .missing
  | .inappropriateType _ code _ =>
    if isSystemError code 20 then .notDirectory
    else if isSystemError code 21 then .directory
    else .other (toString e)
  | .invalidArgument _ code _ =>
    if isSystemError code 36 then .nameTooLong else .other (toString e)
  | _ => .other (toString e)

/-- The content of a file. -/
def readContent (name : String) : IO (Except FileFault ByteArray) := do
  try
    return .ok (← IO.FS.readBinFile name)
  catch e =>
    return .error (fileFault e)

/-- The contents of the named files. -/
def readContents (names : List String) : IO CommandLine.Files := do
  let contents ← names.mapM fun name => do return (name, ← readContent name)
  return fun name => (contents.lookup name).getD (.error .missing)

/-- A key of random words. -/
def randomKey : IO (Vector UInt32 8) := do
  let bytes ← IO.getRandomBytes 32
  return Vector.ofFn fun i : Fin 8 =>
    (List.range 4).foldl (fun w k => w <<< 8 ||| (bytes.get! (4 * i.val + k)).toUInt32) 0

/-- What was typed and not looked at yet. -/
structure Typed where
  /-- The characters, oldest first. -/
  characters : List Char
  /-- No more characters come. -/
  ended : Bool

/-- Collect typed lines until the input ends. -/
partial def listen (input : IO.FS.Stream) (typed : IO.Ref Typed) : IO Unit := do
  let line ← input.getLine
  if line.isEmpty then typed.modify fun t => { t with ended := true }
  else
    typed.modify fun t => { t with characters := t.characters ++ line.toList }
    listen input typed

/-- The commands for released and pressed keys, and the keys that are held now. -/
def commandsOf (bindings : List (Char × Key)) (hold : KeyHold) (now : Nat) (t : Typed) :
    List Command × KeyHold :=
  let (released, hold) := hold.expire now
  let press (acc : List Command × KeyHold) (c : Char) : List Command × KeyHold :=
    if c = '\x1b' then (acc.1 ++ [.quit], acc.2)
    else
      match Settings.keyOf? bindings c with
      | some k =>
        let (wasUp, hold) := acc.2.press k now
        (if wasUp then acc.1 ++ [.key k true] else acc.1, hold)
      | none => acc
  let (commands, hold) := t.characters.foldl press (released.map (.key · false), hold)
  (if t.ended then commands ++ [.quit] else commands, hold)

/-- Run a machine until it stops. -/
partial def play (bindings : List (Char × Key)) (typed : IO.Ref Typed) (output : IO.FS.Stream)
    (r : Runner) (hold : KeyHold) : IO (Option StackFault) := do
  let now ← IO.monoNanosNow
  let t ← typed.modifyGet fun t => (t, { t with characters := [] })
  let (commands, hold) := commandsOf bindings hold now t
  let (proceeds, r, _) := r.heedAll ⟨commands, true⟩
  if !proceeds then return none
  let (report, r) := r.update (fun _ => now) (fun _ => now)
  if let some fault := report.fault then return some fault
  for _ in List.range report.beeps do output.putStr "\x07"
  if let some screen := report.frame then output.putStrLn (String.ofList screen.picture)
  output.flush
  IO.sleep (UInt32.ofNat (r.idle (← IO.monoNanosNow) / 1000000))
  play bindings typed output r hold

/-- Report a failure. -/
def fail (cause : Failure) : IO UInt32 := do
  IO.eprintln cause.message
  return 1

/-- Run a machine at the terminal. -/
def start (settings : Settings) (machine : Machine) : IO UInt32 := do
  let typed ← IO.mkRef (⟨[], false⟩ : Typed)
  let input ← IO.getStdin
  let _ ← IO.asTask (listen input typed)
  let now ← IO.monoNanosNow
  let runner := Runner.start machine now
  match ← play settings.bindings typed (← IO.getStdout) runner (.new settings.holdTime) with
  | some fault => fail (.fault (.stack fault))
  | none => return 0

end ChipEight.Main

open ChipEight in
/-- The command line. -/
def main (arguments : List String) : IO UInt32 := do
  let files ← Main.readContents (CommandLine.paths arguments)
  match CommandLine.respond files (← Main.randomKey) arguments with
  | .text content => IO.print (String.ofList content); return 0
  | .usage content => IO.print (String.ofList content); return 64
  | .failure cause => Main.fail cause
  | .play settings machine => Main.start settings machine
