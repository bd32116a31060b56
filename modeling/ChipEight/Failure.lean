import ChipEight.Fault
import ChipEight.Settings

/-!
# Failures of the program

Everything that ends the program before its work is done, as causes; the wording is in
one function.
-/

namespace ChipEight

/-- What ends the program. -/
inductive Failure
  /-- A machine, a load or a program file is at fault. -/
  | fault (cause : Fault)
  /-- A file or the terminal could not be used. -/
  | file (cause : FileFault)
  /-- The settings could not be read. -/
  | malformedSettings
  /-- The settings were read and cannot be kept. -/
  | refusedSettings (detail : String)
  /-- The machine ended without an outcome. -/
  | noOutcome
  /-- The arguments of the command line have no meaning. -/
  | usage
  deriving DecidableEq, Repr

namespace Failure

/-- The detail of a rate that no host can keep. -/
def rateDetail (field : String) (value : Nat) : String :=
  field ++ " must be between 1 and " ++ toString Rate.maxHertz ++ ", got " ++ toString value

/-- The failure of settings that are refused. -/
def ofSettings : SettingsFault → Failure
  | .malformed => malformedSettings
  | .rate field value => refusedSettings (rateDetail field value)

/-- The wording of what happened. -/
def reason : Failure → String
  | fault cause => cause.message
  | file cause => cause.message
  | malformedSettings => "configuration"
  | refusedSettings detail => "configuration: " ++ detail
  | noOutcome => "machine thread panicked"
  | usage => "invalid command line arguments"

/-- The wording of a failure. -/
def message (f : Failure) : String := "application error: " ++ f.reason

/-- The wording of what lies below a failure, where it only passes that on. -/
def source? : Failure → Option String
  | fault cause => some cause.message
  | file cause => some cause.message
  | malformedSettings => some malformedSettings.reason
  | refusedSettings _ | noOutcome | usage => none

end Failure

end ChipEight
