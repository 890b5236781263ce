import TaskRunner.Config.Settings
import TaskRunner.Files.Tree
import TaskRunner.Report.Style
import TaskRunner.Web.Url

/-!
# Valid settings

The rules that settings must keep, and the errors that come of settings.
-/

namespace TaskRunner.Config

/-- Why there are no settings. -/
inductive ConfigError where
  | unreadable (path : String) (cause : Files.FileError)
  | malformed (path : String)
  /-- A variable has a value that cannot be read. -/
  | badVariable (name reason : String)
  /-- A rule is broken in a section. -/
  | invalid (section_ reason : String)
deriving DecidableEq, Repr

/-- The error in words. -/
def ConfigError.message : ConfigError → String
  | unreadable path cause => "Cannot read " ++ path ++ ": " ++ cause.message
  | malformed path => "Cannot parse " ++ path
  | badVariable name reason => "Environment variable error: Invalid " ++ name ++ ": " ++ reason
  | invalid section_ reason => "Invalid " ++ section_ ++ " configuration: " ++ reason

/-- The error as shown to the user. -/
def ConfigError.diagnostic (colors : Bool) (e : ConfigError) : String :=
  (Report.Style.of .red).paint colors "✗" ++ " " ++
    (Report.Style.strong .red).paint colors "Invalid configuration" ++ "\n  " ++ e.message ++
    "\n\n  " ++ (Report.Style.of .blue).paint colors "ℹ" ++
    " Check the file passed with --config and any BUNOSH_* environment variables."

/-- A text must not be blank. -/
def requireText (section_ field value : String) : Except ConfigError Unit :=
  if Text.isAllBlank value then .error (.invalid section_ (field ++ " cannot be empty")) else .ok ()

/-- A number must be positive. -/
def requirePositive (section_ field : String) (value : Int) : Except ConfigError Unit :=
  if value ≤ 0 then
    .error (.invalid section_ (field ++ " must be greater than 0, got " ++ toString value))
  else .ok ()

/-- A text must be an address. -/
def requireUrl (section_ field value : String) : Except ConfigError Unit := do
  requireText section_ field value
  match Web.Url.ofText? value with
  | .ok _ => .ok ()
  | .error e => .error (.invalid section_ (field ++ " has invalid URL format: " ++ e.message))

/-- A rule for a field that need not be set. -/
def requireIfSet (rule : String → Except ConfigError Unit) : Option String → Except ConfigError Unit
  | some value => rule value
  | none => .ok ()

/-- The rules for how tasks run. -/
def Execution.validate (e : Execution) : Except ConfigError Unit := do
  requireText "execution" "shell" e.shell
  if e.stopOnFailure && e.ignoreFailures then
    .error (.invalid "execution" "stop_on_failure and ignore_failures cannot both be enabled")
  else .ok ()

/-- The rules for requests. -/
def Http.validate (h : Http) : Except ConfigError Unit := do
  requirePositive "http" "timeout" h.timeout
  requireText "http" "user_agent" h.userAgent

/-- The rules for models. -/
def Ai.validate (a : Ai) : Except ConfigError Unit := do
  requireIfSet (requireText "ai" "provider") a.provider
  requireIfSet (requireText "ai" "model") a.model
  requireIfSet (requireUrl "ai" "base_url") a.baseUrl

/-- All rules. -/
def Settings.validate (s : Settings) : Except ConfigError Unit := do
  s.execution.validate
  s.http.validate
  s.ai.validate

end TaskRunner.Config
