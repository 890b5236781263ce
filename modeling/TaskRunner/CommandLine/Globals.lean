/-!
# Global flags

The flags that are read before the commands are known, since they tell where the commands are. Both
`--flag value` and `--flag=value` are understood, up to a lone `--`.
-/

namespace TaskRunner.CommandLine

/-- The flags that take a value everywhere. -/
inductive GlobalFlag where
  | scriptFile
  | config
  | logLevel
deriving DecidableEq, Repr

/-- The name of a global flag, behind its dashes. -/
def GlobalFlag.name : GlobalFlag → String
  | scriptFile => "bunoshfile"
  | config => "config"
  | logLevel => "log-level"

/-- All global flags. -/
def GlobalFlag.all : List GlobalFlag := [scriptFile, config, logLevel]

/-- The global flag of a name. -/
def GlobalFlag.ofName? (name : String) : Option GlobalFlag :=
  all.find? (·.name == name)

/-- Flags that no option of a command may take over. -/
def reservedFlags : List String :=
  ["help", "version"] ++ GlobalFlag.all.map GlobalFlag.name

/-- The characters before and behind the first equals sign. -/
def splitAtEquals : List Char → Option (List Char × List Char)
  | [] => none
  | c :: rest =>
    if c == '=' then some ([], rest)
    else (splitAtEquals rest).map fun (name, value) => (c :: name, value)

/-- An argument that starts with two dashes: the name behind them and the value behind an equals
sign. -/
def longForm? (arg : String) : Option (String × Option String) :=
  match arg.toList with
  | '-' :: '-' :: body =>
    match splitAtEquals body with
    | some (name, value) => some (String.ofList name, some (String.ofList value))
    | none => some (String.ofList body, none)
  | _ => none

/-- The values of global flags found in an argument list. -/
structure Globals where
  scriptFile : Option String
  config : Option String
  logLevel : Option String
deriving DecidableEq, Repr

namespace Globals

/-- No flag given. -/
def empty : Globals := ⟨none, none, none⟩

/-- The value of a flag. -/
def get? (g : Globals) : GlobalFlag → Option String
  | .scriptFile => g.scriptFile
  | .config => g.config
  | .logLevel => g.logLevel

/-- Records the value of a flag, in place of an earlier one. -/
def set (g : Globals) (flag : GlobalFlag) (value : String) : Globals :=
  match flag with
  | .scriptFile => { g with scriptFile := some value }
  | .config => { g with config := some value }
  | .logLevel => { g with logLevel := some value }

/-- Reads the global flags of an argument list. A flag takes the argument behind it, whatever that
is. -/
def scan (g : Globals) : List String → Globals
  | [] => g
  | arg :: rest =>
    if arg == "--" then g
    else
      match longForm? arg with
      | none => scan g rest
      | some (name, inline) =>
        match GlobalFlag.ofName? name, inline with
        | none, _ => scan g rest
        | some flag, some value => scan (g.set flag value) rest
        | some flag, none =>
          match rest with
          | [] => g
          | value :: rest => scan (g.set flag value) rest

/-- The global flags of an argument list. -/
def ofArgs (args : List String) : Globals :=
  scan empty args

end Globals

/-- The first argument that names a command: no flag, no value of a global flag, and not behind a lone
`--`. -/
def requestedCommand : List String → Option String
  | [] => none
  | arg :: rest =>
    if arg == "--" then none
    else
      match longForm? arg with
      | some (name, inline) =>
        match rest with
        | [] => none
        | value :: more =>
          if inline.isNone && (GlobalFlag.ofName? name).isSome then requestedCommand more
          else requestedCommand (value :: more)
      | none => if arg.startsWith "-" then requestedCommand rest else some arg

end TaskRunner.CommandLine
