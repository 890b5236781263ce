import TaskRunner.Json.Value
import TaskRunner.Text.Casing
import TaskRunner.Text.Lines

/-!
# Settings

What can be set: how tasks run, how requests are made, what is logged, how output looks, and which model
answers prompts. Where nothing is set there is a default.
-/

namespace TaskRunner.Config

/-- How much is logged. -/
inductive LogLevel where
  | error
  | warn
  | info
  | debug
  | trace
deriving DecidableEq, Repr

/-- The form of log lines. -/
inductive LogFormat where
  | text
  | compact
  | json
deriving DecidableEq, Repr

/-- How task output is shown. -/
inductive OutputMode where
  /-- For a build server when there is one, otherwise for a console. -/
  | auto
  | console
  | ci
  | silent
deriving DecidableEq, Repr

/-! ## Names of choices -/

/-- The names of the log levels. -/
def LogLevel.names : List (String × LogLevel) :=
  [("error", .error), ("warn", .warn), ("info", .info), ("debug", .debug), ("trace", .trace)]

/-- The names of the log formats. -/
def LogFormat.names : List (String × LogFormat) :=
  [("text", .text), ("compact", .compact), ("json", .json)]

/-- The names of the output modes. -/
def OutputMode.names : List (String × OutputMode) :=
  [("auto", .auto), ("console", .console), ("ci", .ci), ("silent", .silent)]

/-- The name of a level. -/
def LogLevel.name : LogLevel → String
  | error => "error"
  | warn => "warn"
  | info => "info"
  | debug => "debug"
  | trace => "trace"

/-- The name of a format. -/
def LogFormat.name : LogFormat → String
  | text => "text"
  | compact => "compact"
  | json => "json"

/-- The name of a mode. -/
def OutputMode.name : OutputMode → String
  | auto => "auto"
  | console => "console"
  | ci => "ci"
  | silent => "silent"

/-- Reads a level in any case, also by its long name. -/
def LogLevel.ofText? (text : String) : Except String LogLevel :=
  match (("warning", LogLevel.warn) :: names).lookup (Text.lower text) with
  | some level => .ok level
  | none => .error ("Invalid log level: " ++ text)

/-- Reads a format in any case, also by its other name. -/
def LogFormat.ofText? (text : String) : Except String LogFormat :=
  match (("pretty", LogFormat.text) :: names).lookup (Text.lower text) with
  | some format => .ok format
  | none => .error ("Invalid log format: " ++ text)

/-- Reads a mode in any case. -/
def OutputMode.ofText? (text : String) : Except String OutputMode :=
  match names.lookup (Text.lower text) with
  | some mode => .ok mode
  | none => .error ("Invalid output mode: " ++ text)

/-- The mode that is used when a variable tells whether there is a build server. -/
def OutputMode.resolve (mode : OutputMode) (ci : Option String) : OutputMode :=
  match mode with
  | auto => if ci.any fun v => v != "" && v != "0" && v != "false" then .ci else .console
  | other => other

/-- Reads a switch: some words mean on or off, in any case, and nothing means off. -/
def switchOfText? (text : String) : Option Bool :=
  let word := String.ofList ((Text.trim text).toList.map Char.toLower)
  if ["1", "true", "yes", "on"].contains word then some true
  else if ["0", "false", "no", "off", ""].contains word then some false
  else none

/-! ## Settings -/

/-- How tasks run. -/
structure Execution where
  stopOnFailure : Bool
  ignoreFailures : Bool
  testMode : Bool
  shell : String
deriving DecidableEq, Repr

/-- How requests are made. -/
structure Http where
  /-- In seconds. -/
  timeout : Nat
  maxRedirects : Nat
  userAgent : String
  verifySsl : Bool
deriving DecidableEq, Repr

/-- What is logged. -/
structure Logging where
  level : Option LogLevel
  format : LogFormat
deriving DecidableEq, Repr

/-- Which model answers prompts. -/
structure Ai where
  provider : Option String
  model : Option String
  baseUrl : Option String
deriving DecidableEq, Repr

/-- All settings. -/
structure Settings where
  execution : Execution
  http : Http
  logging : Logging
  output : OutputMode
  ai : Ai
deriving DecidableEq, Repr

/-- The shell that is used when none is set. -/
def defaultShell : String := "sh"

/-- How the program names itself to servers. -/
def defaultUserAgent : String := "bunosh/0.1.0"

/-- What holds where nothing is set. -/
def Settings.default : Settings :=
  { execution := ⟨false, false, false, defaultShell⟩
    http := ⟨30, 10, defaultUserAgent, true⟩
    logging := ⟨none, .text⟩
    output := .auto
    ai := ⟨none, none, none⟩ }

/-- Fields that are set, of those that may be. -/
def setFields (fields : List (String × Option Json)) : List (String × Json) :=
  fields.filterMap fun field => field.2.map (field.1, ·)

/-- The settings by section and field. -/
def Settings.sections (s : Settings) : List (String × List (String × Json)) :=
  [("execution",
      [("stop_on_failure", .bool s.execution.stopOnFailure),
        ("ignore_failures", .bool s.execution.ignoreFailures),
        ("test_mode", .bool s.execution.testMode),
        ("shell", .text s.execution.shell)]),
    ("http",
      [("timeout", .int s.http.timeout),
        ("max_redirects", .int s.http.maxRedirects),
        ("user_agent", .text s.http.userAgent),
        ("verify_ssl", .bool s.http.verifySsl)]),
    ("logging",
      setFields [("level", s.logging.level.map fun level => .text level.name),
        ("format", some (.text s.logging.format.name))]),
    ("output", [("mode", .text s.output.name)]),
    ("ai",
      setFields [("provider", s.ai.provider.map .text),
        ("model", s.ai.model.map .text),
        ("base_url", s.ai.baseUrl.map .text)])]

/-- The settings as a value. -/
def Settings.toJson (s : Settings) : Json :=
  .ofFields (s.sections.map fun (name, fields) => (name, .ofFields fields))

/-- A line of a settings file. -/
def sampleLine (field : String × Json) : String :=
  let value := match field.2 with
    | .text t => t
    | .bool b => if b then "true" else "false"
    | .int n => toString n
    | _ => ""
  "  " ++ field.1 ++ ": " ++ value ++ "\n"

/-- A settings file that sets everything to its default. -/
def sample : String :=
  String.join (Settings.default.sections.map fun (name, fields) =>
    if fields.isEmpty then name ++ ": \x7b\x7d\n"
    else name ++ ":\n" ++ String.join (fields.map sampleLine))

/-- What the log shows unless told otherwise. -/
def defaultLogDirective : String := "warn"

/-- Which log lines are shown: the command line decides, then the settings, then a variable. -/
def logDirective (fromArgs : Option String) (l : Logging) (fromVariable : Option String) : String :=
  let set := fromArgs <|> l.level.map LogLevel.name <|>
    fromVariable.filter fun v => !Text.isAllBlank v
  set.getD defaultLogDirective

end TaskRunner.Config
