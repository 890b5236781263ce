import TaskRunner.Command.Basic
import TaskRunner.CommandLine.Matching
import TaskRunner.Number.Reading

/-!
# The registry

The commands of a run, sorted by their names on the command line, and what an argument list makes of
them: which one is called, and with which values. An omitted argument has its declared default; null
leaves the default to the function itself.
-/

namespace TaskRunner.CommandLine

/-- The built-in command. -/
def initCommand : String := "init"

/-- The commands of a run. -/
structure Registry where
  commands : List Command
deriving Repr

/-- Leaves out commands with the built-in name and those that repeat the name kept before. -/
def keepDistinct : Option String → List Command → List Command
  | _, [] => []
  | last, c :: rest =>
    if c.cliName == initCommand || some c.cliName == last then keepDistinct last rest
    else c :: keepDistinct (some c.cliName) rest

namespace Registry

/-- The registry of commands: sorted by name, and of one name the first. -/
def ofCommands (commands : List Command) : Registry :=
  ⟨keepDistinct none (commands.mergeSort fun a b => a.cliName ≤ b.cliName)⟩

/-- The command of a name on the command line. -/
def find? (r : Registry) (name : String) : Option Command :=
  r.commands.find? (·.cliName == name)

end Registry

/-! ## Levels -/

/-- Whether an option's flag means something else everywhere. -/
def isReserved (o : OptionSpec) : Bool :=
  reservedFlags.contains o.flag

/-- The flags that take a value everywhere. -/
def globalLongFlags : List (String × FlagAction) :=
  GlobalFlag.all.map fun flag => (flag.name, .takesValue (.global flag))

/-- The flag of an option. A default that is a switch makes a switch. -/
def optionLongFlag (o : OptionSpec) : String × FlagAction :=
  (o.flag,
    if o.default.isSwitch then .switch (.option o.flag) else .takesValue (.option o.flag))

/-- The options of a command that have flags of their own. -/
def ownOptions (c : Command) : List OptionSpec :=
  c.optionList.filter fun o => !isReserved o

/-- The level of a command. -/
def commandLevel (c : Command) : Level :=
  { longFlags := (ownOptions c).map optionLongFlag ++ globalLongFlags ++ [("help", .help)]
    shortFlags := [('h', .help)]
    positionals := c.args.map fun a => .argument a.name
    commands := [] }

/-- The level of the built-in command. -/
def initLevel : Level :=
  ⟨globalLongFlags ++ [("help", .help)], [('h', .help)], [], []⟩

/-- The level of the program. -/
def Registry.rootLevel (r : Registry) : Level :=
  { longFlags := globalLongFlags ++ [("help", .help), ("version", .version)]
    shortFlags := [('h', .help), ('V', .version)]
    positionals := []
    commands := initCommand :: r.commands.map Command.cliName }

/-! ## Values -/

/-- A value typed on the command line, read by the type of the default: a text that does not fit stays
a text. -/
def typedValue (raw : String) (default : Option Literal) : Json :=
  match default with
  | some (.number _) =>
    match Number.floatOfText raw with
    | some x => (Literal.number x).toJson
    | none => .text raw
  | some (.bool _) =>
    if raw == "true" then .bool true
    else if raw == "false" then .bool false
    else .text raw
  | _ => .text raw

/-- The text that stands for an omitted value: that of a default other than null. -/
def defaultText (default : Option Literal) : Option String :=
  default.bind Literal.shown?

/-- The first default text declared for a positional argument of a name. -/
def argumentDefault (c : Command) (name : String) : Option String :=
  (c.args.find? (·.name == name)).bind fun a => defaultText a.default

/-- The value of a positional argument. -/
def argumentValue (c : Command) (given : Given) (a : ArgSpec) : Json :=
  match (valueOf? given (.argument a.name)).orElse fun _ => argumentDefault c a.name with
  | some raw => typedValue raw a.default
  | none => (a.default.map Literal.toJson).getD .null

/-- The value of an option. -/
def optionValue (given : Given) (o : OptionSpec) : Json :=
  if isReserved o then o.default.toJson
  else
    match o.default with
    | .bool _ => .bool (isGiven given (.option o.flag))
    | .null => if isGiven given (.option o.flag) then .bool true else .null
    | default =>
      match (valueOf? given (.option o.flag)).orElse fun _ => defaultText (some default) with
      | some raw => typedValue raw (some default)
      | none => default.toJson

/-- The values for a call: the positional arguments, and then the options object if the function takes
one. -/
def callValues (c : Command) (given : Given) : List Json :=
  let values := c.args.map (argumentValue c given)
  if c.takesOptions then
    values ++ [.ofFields (c.optionList.map fun o => (o.key, optionValue given o))]
  else values

/-- Whether every required argument is given. -/
def requiredGiven (c : Command) (given : Given) : Bool :=
  c.args.all fun a => !a.isRequired || isGiven given (.argument a.name)

/-! ## Calls -/

/-- What an argument list asks for. -/
inductive Invocation where
  /-- Nothing. -/
  | none
  /-- The built-in command. -/
  | init
  /-- A command with the values for its call. -/
  | call (command : Command) (values : List Json)
deriving Repr

/-- Matches the arguments of a command to the end. -/
def matchLevel (level : Level) (args : List String) : Except UsageError Given := do
  let (p, _) ← scanLevel level (.atStart level) args
  let p ← p.settle
  .ok p.given

/-- What an argument list asks for. -/
def Registry.invocation (r : Registry) (args : List String) : Except UsageError Invocation := do
  let level := r.rootLevel
  let (p, named) ← scanLevel level (.atStart level) args
  let invocation ← match named with
    | .none => .ok Invocation.none
    | some (name, rest) =>
      match r.find? name with
      | .none => do
        let _ ← matchLevel initLevel rest
        .ok .init
      | some c => do
        let given ← matchLevel (commandLevel c) rest
        if requiredGiven c given then .ok (.call c (callValues c given))
        else .error .missingRequired
  let _ ← p.settle
  .ok invocation

end TaskRunner.CommandLine
