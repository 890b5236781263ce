import TaskRunner.Command.Basic
import TaskRunner.Report.Style

/-!
# Help

The overview of all commands: those without a namespace, then each namespace, then package scripts.
Every entry shows how the command is used, and its summary in one column for all.
-/

namespace TaskRunner.CommandLine

open Report (Style)

/-- How a command is used: its name and its positional arguments. -/
def usage (c : Command) : String :=
  c.cliName ++ String.join (c.args.map fun a =>
    if a.isRequired then " <" ++ a.name ++ ">" else " [" ++ a.name ++ "]")

/-- The widest usage, that of the built-in command included. -/
def usageWidth (commands : List Command) : Nat :=
  (commands.map fun c => (usage c).length).foldl max 4

/-- One line for a usage and a summary. -/
def entryLine (colors : Bool) (width : Nat) (use summary : String) : String :=
  "  " ++ (Style.of .cyan).paint colors use ++
    String.ofList (List.replicate (width - use.length) ' ') ++ "  " ++
    Style.faint.paint colors summary ++ "\n"

/-- The lines for commands. -/
def entryLines (colors : Bool) (width : Nat) (commands : List Command) : String :=
  String.join (commands.map fun c => entryLine colors width (usage c) (c.summary.getD ""))

/-- A header on a line of its own. -/
def header (colors : Bool) (text : String) : String :=
  Style.heavy.paint colors text ++ "\n"

/-- The commands of script files without a namespace. -/
def mainGroup (commands : List Command) : List Command :=
  commands.filter fun c => c.origin == .scriptFile && c.namespace.isEmpty

/-- The commands of script files in a namespace. -/
def namespaceGroup (commands : List Command) (name : String) : List Command :=
  commands.filter fun c => c.origin == .scriptFile && c.namespace == name

/-- The package scripts. -/
def packageGroup (commands : List Command) : List Command :=
  commands.filter fun c => c.origin == .packageFile

/-- The namespaces of script files, ascending. -/
def namespaces (commands : List Command) : List String :=
  ((commands.filter fun c => c.origin == .scriptFile && !c.namespace.isEmpty).map
    Command.namespace).eraseDups.mergeSort fun a b => a ≤ b

/-- The summary of the built-in command. -/
def initSummary : String := "Create a Bunoshfile.js in the current directory"

/-- The help text. -/
def helpText (colors : Bool) (commands : List Command) : String :=
  let width := usageWidth commands
  let packages := packageGroup commands
  Style.heavy.paint colors "Usage:" ++ " bunosh <command> [args] [options]\n\n" ++
    header colors "Commands:" ++
    entryLines colors width (mainGroup commands) ++
    entryLine colors width "init" initSummary ++
    String.join ((namespaces commands).map fun name =>
      "\n" ++ header colors ("Commands (" ++ name ++ "):") ++
        entryLines colors width (namespaceGroup commands name)) ++
    (if packages.isEmpty then ""
      else "\n" ++ header colors "npm scripts:" ++ entryLines colors width packages) ++
    "\n" ++ header colors "Options:" ++
    "  --bunoshfile <PATH>  Path to the Bunoshfile or its directory\n" ++
    "  --config <PATH>      Path to a YAML configuration file\n" ++
    "  --log-level <LEVEL>  Set the log level\n" ++
    "  -h, --help           Print help\n" ++
    "  -V, --version        Print version"

end TaskRunner.CommandLine
