import TaskRunner.Config.Reading
import TaskRunner.Config.Validation

/-!
# Loading settings

Variables override what the settings file says, in a fixed order, each in a field of its own; the result
must be valid.
-/

namespace TaskRunner.Config

/-- The variables of the environment. -/
abbrev Variables := List (String × String)

/-- A variable that overrides a field. -/
structure Override where
  /-- Its name after the name of the program. -/
  name : String
  /-- Sets the field to the value of the variable, or says what is wrong with the value. -/
  set? : String → Settings → Except String Settings

/-- Overrides a switch. -/
def switchOverride (name : String) (set : Bool → Settings → Settings) : Override :=
  ⟨name, fun value s =>
    match switchOfText? value with
    | some on => .ok (set on s)
    | none => .error value⟩

/-- Overrides a text. -/
def textOverride (name : String) (set : String → Settings → Settings) : Override :=
  ⟨name, fun value s => .ok (set value s)⟩

/-- Overrides a choice. -/
def choiceOverride {α : Type} (name : String) (read? : String → Except String α)
    (set : α → Settings → Settings) : Override :=
  ⟨name, fun value s =>
    match read? value with
    | .ok choice => .ok (set choice s)
    | .error _ => .error value⟩

/-- Overrides the time limit of requests. -/
def timeoutOverride : Override :=
  ⟨"HTTP_TIMEOUT", fun value s =>
    match Number.readUnsigned UInt64.size value with
    | .ok seconds => .ok { s with http := { s.http with timeout := seconds } }
    | .error e => .error e.message⟩

/-- All variables that override fields, in the order in which they are looked at. -/
def overrides : List Override :=
  [switchOverride "STOP_ON_FAILURE" fun on s =>
      { s with execution := { s.execution with stopOnFailure := on } },
    switchOverride "IGNORE_FAILURES" fun on s =>
      { s with execution := { s.execution with ignoreFailures := on } },
    switchOverride "TEST_MODE" fun on s =>
      { s with execution := { s.execution with testMode := on } },
    textOverride "SHELL" fun shell s =>
      { s with execution := { s.execution with shell } },
    timeoutOverride,
    textOverride "HTTP_USER_AGENT" fun userAgent s =>
      { s with http := { s.http with userAgent } },
    switchOverride "HTTP_VERIFY_SSL" fun verifySsl s =>
      { s with http := { s.http with verifySsl } },
    choiceOverride "LOG_LEVEL" LogLevel.ofText? fun level s =>
      { s with logging := { s.logging with level := some level } },
    choiceOverride "LOG_FORMAT" LogFormat.ofText? fun format s =>
      { s with logging := { s.logging with format } },
    choiceOverride "OUTPUT" OutputMode.ofText? fun output s => { s with output },
    textOverride "AI_PROVIDER" fun provider s =>
      { s with ai := { s.ai with provider := some provider } },
    textOverride "AI_MODEL" fun model s =>
      { s with ai := { s.ai with model := some model } },
    textOverride "AI_BASE_URL" fun url s =>
      { s with ai := { s.ai with baseUrl := some url } }]

/-- The name of the program in the names of its variables. -/
def programVariable : String := "BUNOSH"

/-- Applies one override when its variable is set. -/
def Override.apply? (o : Override) (program : String) (vars : Variables) (s : Settings) :
    Except ConfigError Settings :=
  match vars.lookup (program ++ "_" ++ o.name) with
  | none => .ok s
  | some value => (o.set? value s).mapError (.badVariable o.name)

/-- Applies all overrides. -/
def Settings.override? (s : Settings) (program : String) (vars : Variables) :
    Except ConfigError Settings :=
  overrides.foldlM (fun s o => o.apply? program vars s) s

/-- Reads a settings file. -/
def readFile? (tree : Files.Tree) (cwd : Files.Location) (path : String) :
    Except ConfigError Settings :=
  match tree.readText cwd path with
  | .error cause => .error (.unreadable path cause)
  | .ok text =>
    match Settings.ofText? text with
    | some s => .ok s
    | none => .error (.malformed path)

/-- Loads the settings from a file, if one is given, and from variables. -/
def load? (tree : Files.Tree) (cwd : Files.Location) (path : Option String) (program : String)
    (vars : Variables) : Except ConfigError Settings := do
  let base ← match path with
    | some path => readFile? tree cwd path
    | none => .ok .default
  let s ← base.override? program vars
  s.validate
  return s

end TaskRunner.Config
