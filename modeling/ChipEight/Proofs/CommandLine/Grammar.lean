import ChipEight.CommandLine

/-!
# The grammar of the command line

Arguments ask for something in two forms: `Asks` says which, as a whole and without reading them
from the left. All other arguments are `Refused`, for a reason that each has. A word is looked
at for what it says only where a command or the name of an option is due; where the name of a
file is due, any word is one.
-/

namespace ChipEight.CommandLine

/-- Options that name settings files, one option for each file. -/
def settingsOptions (paths : List String) : List String :=
  paths.flatMap fun path => ["--config", path]

/-- What arguments ask for. Of several settings files the last one counts. -/
inductive Asks : List String → Request → Prop
  | run (program : String) (paths : List String) :
    Asks ("run" :: program :: settingsOptions paths) (.run program paths.getLast?)
  | list (program : String) : Asks ["dis", program] (.list program)

/-- Behind some complete options, a word that is no option or an option without a file. -/
inductive BreaksOff : List String → Prop
  | noPath : BreaksOff ["--config"]
  | noOption {word : String} (rest : List String) : word ≠ "--config" → BreaksOff (word :: rest)
  | behind (path : String) {rest : List String} :
    BreaksOff rest → BreaksOff ("--config" :: path :: rest)

/-- Arguments that ask for nothing. -/
inductive Refused : List String → Prop
  | noCommand : Refused []
  | noFile (command : String) : Refused [command]
  | unknownCommand {command : String} (program : String) (rest : List String) :
    command ≠ "run" → command ≠ "dis" → Refused (command :: program :: rest)
  | options (program : String) {options : List String} :
    BreaksOff options → Refused ("run" :: program :: options)
  | extra (program argument : String) (rest : List String) :
    Refused ("dis" :: program :: argument :: rest)

variable {chosen : Option String} {options arguments : List String}

/-- The last of the named files is chosen, and what was chosen before counts if none is named. -/
theorem readOptions_settingsOptions (chosen : Option String) (paths : List String) :
    readOptions chosen (settingsOptions paths) = some (paths.getLast?.or chosen) := by
  induction paths generalizing chosen with
  | nil => rfl
  | cons path paths ih =>
    change readOptions (some path) (settingsOptions paths) = _
    rw [ih, Option.or_some, List.getLast?_cons, Option.some_or]

/-- Options that have a meaning name one file after the other. -/
theorem exists_settingsOptions {settings : Option String}
    (h : readOptions chosen options = some settings) :
    ∃ paths, options = settingsOptions paths := by
  fun_induction readOptions chosen options with
  | case1 chosen => exact ⟨[], rfl⟩
  | case2 chosen path rest ih =>
    obtain ⟨paths, rfl⟩ := ih h
    exact ⟨path :: paths, rfl⟩
  | case3 => cases h

theorem readOptions_eq_some_iff {settings : Option String} :
    readOptions chosen options = some settings ↔
      ∃ paths, options = settingsOptions paths ∧ settings = paths.getLast?.or chosen := by
  constructor
  · intro h
    obtain ⟨paths, rfl⟩ := exists_settingsOptions h
    rw [readOptions_settingsOptions, Option.some.injEq] at h
    exact ⟨paths, rfl, h.symm⟩
  · rintro ⟨paths, rfl, rfl⟩
    exact readOptions_settingsOptions chosen paths

theorem readOptions_eq_none_iff : readOptions chosen options = none ↔ BreaksOff options := by
  constructor
  · intro h
    fun_induction readOptions chosen options with
    | case1 chosen => cases h
    | case2 chosen path rest ih => exact .behind path (ih h)
    | case3 options chosen hnil hpair =>
      -- neither the end nor a complete option is in front
      cases options with
      | nil => exact absurd rfl hnil
      | cons word rest =>
        by_cases hword : word = "--config"
        · subst hword
          cases rest with
          | nil => exact .noPath
          | cons path rest => exact absurd rfl (hpair path rest)
        · exact .noOption rest hword
  · intro h
    induction h generalizing chosen with
    | noPath => rfl
    | noOption rest hword =>
      cases rest <;> simp [readOptions, hword]
    | behind path _ ih => exact ih

/-- What arguments ask for is what they are read as. -/
theorem parse?_eq_some_iff {request : Request} :
    parse? arguments = some request ↔ Asks arguments request := by
  constructor
  · intro h
    unfold parse? at h
    split at h
    · next program options =>
      obtain ⟨settings, hread, rfl⟩ := Option.map_eq_some_iff.mp h
      obtain ⟨paths, rfl, rfl⟩ := readOptions_eq_some_iff.mp hread
      rw [Option.or_none]
      exact .run program paths
    · next program =>
      cases h
      exact .list program
    · cases h
  · intro h
    cases h with
    | run program paths =>
      change (readOptions none (settingsOptions paths)).map _ = _
      rw [readOptions_settingsOptions, Option.or_none, Option.map_some]
    | list program => rfl

/-- Every refusal has a reason, and arguments with such a reason are refused. -/
theorem parse?_eq_none_iff : parse? arguments = none ↔ Refused arguments := by
  constructor
  · intro h
    unfold parse? at h
    split at h
    · next program options =>
      rw [Option.map_eq_none_iff, readOptions_eq_none_iff] at h
      exact .options program h
    · cases h
    · next hrun hlist =>
      match arguments with
      | [] => exact .noCommand
      | [command] => exact .noFile command
      | command :: program :: rest =>
        have hcommand : command ≠ "run" := by
          rintro rfl
          exact hrun program rest rfl
        by_cases hdis : command = "dis"
        · subst hdis
          cases rest with
          | nil => exact absurd rfl (hlist program)
          | cons argument rest => exact .extra program argument rest
        · exact .unknownCommand program rest hcommand hdis
  · intro h
    cases h with
    | noCommand => rfl
    | noFile command => simp [parse?]
    | unknownCommand program rest hrun hdis => simp [parse?, hrun, hdis]
    | options program hoptions =>
      change (readOptions none _).map _ = none
      rw [readOptions_eq_none_iff.mpr hoptions, Option.map_none]
    | extra program argument rest => simp [parse?]

/-- The usage text is the answer to refused arguments alone, whatever the files hold. -/
theorem respond_eq_usage_iff (files : Files) (key : Vector UInt32 8) :
    respond files key arguments = .usage usage ↔ Refused arguments := by
  rw [← parse?_eq_none_iff]
  unfold respond
  split
  · next h => simp [h]
  · next program h =>
    cases readProgram (files program) <;> simp [h]
  · next program settings h =>
    cases prepare files key program settings <;> simp [h]

/-- Arguments are read as a run if they are `run`, a file and any number of options with a settings
file each, of which the last counts; as a listing if they are `dis` and a file. All others ask for
nothing and have a reason to be refused. -/
theorem arguments_grammatical (arguments : List String) :
    (∀ program settings, parse? arguments = some (.run program settings) ↔
      ∃ paths : List String,
        arguments = ["run", program] ++ paths.flatMap (fun path => ["--config", path]) ∧
          settings = paths.getLast?) ∧
    (∀ program, parse? arguments = some (.list program) ↔ arguments = ["dis", program]) ∧
    (parse? arguments = none ↔ ¬ ∃ request, Asks arguments request) ∧
    (parse? arguments = none ↔ Refused arguments) := by
  refine ⟨fun program settings => ?_, fun program => ?_, ?_, parse?_eq_none_iff⟩
  · rw [parse?_eq_some_iff]
    constructor
    · rintro ⟨⟩
      exact ⟨_, rfl, rfl⟩
    · rintro ⟨paths, rfl, rfl⟩
      exact .run program paths
  · rw [parse?_eq_some_iff]
    constructor
    · rintro ⟨⟩
      rfl
    · rintro rfl
      exact .list program
  · rw [Option.eq_none_iff_forall_ne_some, not_exists]
    exact forall_congr' fun request => not_congr parse?_eq_some_iff

end ChipEight.CommandLine
