import Mathlib.Data.List.Nodup
import Mathlib.Tactic.Lemma
import TaskRunner.Config.Loading
import TaskRunner.Proofs.ExceptSteps

/-!
# Layered settings

Settings have two layers: what the file says, or the defaults, and above it the variables of the environment.
Each variable overrides a field of its own, so the layered settings are determined field by field, in whatever
order the variables are looked at. The rules are checked on the layered settings only: what the file says may
be repaired or spoilt by a variable.
-/

namespace TaskRunner.Proofs
open Config

/-! ## Fields -/

/-- The fields of the settings. -/
inductive SettingsField where
  | stopOnFailure
  | ignoreFailures
  | testMode
  | shell
  | timeout
  | maxRedirects
  | userAgent
  | verifySsl
  | level
  | format
  | output
  | provider
  | model
  | baseUrl
deriving DecidableEq

namespace SettingsField

/-- The values of a field. -/
def Value : SettingsField → Type
  | stopOnFailure | ignoreFailures | testMode | verifySsl => Bool
  | shell | userAgent => String
  | timeout | maxRedirects => Nat
  | level => Option LogLevel
  | format => LogFormat
  | output => OutputMode
  | provider | model | baseUrl => Option String

/-- The value that settings have in a field. -/
def get : (f : SettingsField) → Settings → f.Value
  | stopOnFailure, s => s.execution.stopOnFailure
  | ignoreFailures, s => s.execution.ignoreFailures
  | testMode, s => s.execution.testMode
  | shell, s => s.execution.shell
  | timeout, s => s.http.timeout
  | maxRedirects, s => s.http.maxRedirects
  | userAgent, s => s.http.userAgent
  | verifySsl, s => s.http.verifySsl
  | level, s => s.logging.level
  | format, s => s.logging.format
  | output, s => s.output
  | provider, s => s.ai.provider
  | model, s => s.ai.model
  | baseUrl, s => s.ai.baseUrl

/-- The settings with another value in a field. -/
def set : (f : SettingsField) → f.Value → Settings → Settings
  | stopOnFailure, v, s => { s with execution := { s.execution with stopOnFailure := v } }
  | ignoreFailures, v, s => { s with execution := { s.execution with ignoreFailures := v } }
  | testMode, v, s => { s with execution := { s.execution with testMode := v } }
  | shell, v, s => { s with execution := { s.execution with shell := v } }
  | timeout, v, s => { s with http := { s.http with timeout := v } }
  | maxRedirects, v, s => { s with http := { s.http with maxRedirects := v } }
  | userAgent, v, s => { s with http := { s.http with userAgent := v } }
  | verifySsl, v, s => { s with http := { s.http with verifySsl := v } }
  | level, v, s => { s with logging := { s.logging with level := v } }
  | format, v, s => { s with logging := { s.logging with format := v } }
  | output, v, s => { s with output := v }
  | provider, v, s => { s with ai := { s.ai with provider := v } }
  | model, v, s => { s with ai := { s.ai with model := v } }
  | baseUrl, v, s => { s with ai := { s.ai with baseUrl := v } }

/-- The variable of a field, without the name of the program. The limit of redirects has none. -/
def variableName? : SettingsField → Option String
  | stopOnFailure => some "STOP_ON_FAILURE"
  | ignoreFailures => some "IGNORE_FAILURES"
  | testMode => some "TEST_MODE"
  | shell => some "SHELL"
  | timeout => some "HTTP_TIMEOUT"
  | maxRedirects => none
  | userAgent => some "HTTP_USER_AGENT"
  | verifySsl => some "HTTP_VERIFY_SSL"
  | level => some "LOG_LEVEL"
  | format => some "LOG_FORMAT"
  | output => some "OUTPUT"
  | provider => some "AI_PROVIDER"
  | model => some "AI_MODEL"
  | baseUrl => some "AI_BASE_URL"

/-- The value of a field that the text of its variable means. -/
def read? : (f : SettingsField) → String → Option f.Value
  | stopOnFailure, text | ignoreFailures, text | testMode, text | verifySsl, text => switchOfText? text
  | shell, text | userAgent, text => some text
  | timeout, text => (Number.readUnsigned UInt64.size text).toOption
  | maxRedirects, _ => none
  | level, text => (LogLevel.ofText? text).toOption.map some
  | format, text => (LogFormat.ofText? text).toOption
  | output, text => (OutputMode.ofText? text).toOption
  | provider, text | model, text | baseUrl, text => some (some text)

/-- The settings that have given values in their fields. -/
def settingsOf (values : (f : SettingsField) → f.Value) : Settings where
  execution := ⟨values stopOnFailure, values ignoreFailures, values testMode, values shell⟩
  http := ⟨values timeout, values maxRedirects, values userAgent, values verifySsl⟩
  logging := ⟨values level, values format⟩
  output := values output
  ai := ⟨values provider, values model, values baseUrl⟩

variable {f g : SettingsField}

/-- Settings are what they are in their fields. -/
lemma ext_get {s s' : Settings} (h : ∀ f : SettingsField, f.get s = f.get s') : s = s' := by
  have hvalues : ∀ s : Settings, s = settingsOf fun f => f.get s := fun s => rfl
  rw [hvalues s, hvalues s', funext h]

end SettingsField

/-! ## Layers -/

section layers

variable {program : String} {vars : Variables} {base s s' : Settings} {f : SettingsField}
  {o : Override} {overrides : List Override} {fields : List SettingsField}

/-- The text of the variable of a field, if the environment has it. -/
def SettingsField.text? (f : SettingsField) (program : String) (vars : Variables) : Option String :=
  f.variableName?.bind fun name => vars.lookup (program ++ "_" ++ name)

/-- The value of a field in two layers: what its variable means if it is set, otherwise the value below. -/
def SettingsField.layered? (f : SettingsField) (program : String) (vars : Variables) (base : Settings) :
    Option f.Value :=
  match f.text? program vars with
  | some text => f.read? text
  | none => some (f.get base)

/-- Settings that are in every field what the two layers give for it. -/
def Layered (program : String) (vars : Variables) (base s : Settings) : Prop :=
  ∀ f : SettingsField, f.layered? program vars base = some (f.get s)

lemma Layered.unique (hs : Layered program vars base s) (hs' : Layered program vars base s') : s = s' :=
  SettingsField.ext_get fun f => Option.some.inj ((hs f).symm.trans (hs' f))

end layers

/-! ## Rules -/

section rules

variable {s : Settings} {text field section_ : String} {value : Option String}
  {rule : String → Except ConfigError Unit} {chars : List Char}

end rules

/-! ## Loading -/

end TaskRunner.Proofs
