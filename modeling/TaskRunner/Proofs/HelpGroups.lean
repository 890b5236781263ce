import Mathlib.Data.List.Nodup
import Mathlib.Data.String.Basic
import TaskRunner.CommandLine.Help

/-!
# Help in groups

The help text lists all commands in groups: those without a namespace first, then each namespace in ascending
order, and the package scripts last. In all entries the summary starts in one column, two characters behind the
end of the longest usage.
-/

namespace TaskRunner.Proofs
open CommandLine

variable {commands : List Command} {c : Command}

/-! ## Groups -/

/-- The groups of commands. -/
inductive HelpGroup where
  | main
  | inNamespace (name : String)
  | packages
deriving DecidableEq

/-- The group that a command belongs to. -/
def HelpGroup.of (c : Command) : HelpGroup :=
  match c.origin with
  | .packageFile => .packages
  | .scriptFile => if c.namespace.isEmpty then .main else .inNamespace c.namespace

/-- The commands of a group, in their order. -/
def HelpGroup.members (commands : List Command) (g : HelpGroup) : List Command :=
  commands.filter fun c => HelpGroup.of c == g

/-- The line of an entry. -/
def helpEntry (longest : Nat) (use summary : String) : String :=
  "  " ++ use ++ String.ofList (List.replicate (longest - use.length + 2) ' ') ++ summary

/-- The header of a group. -/
def HelpGroup.title : HelpGroup → String
  | .main => "Commands:"
  | .inNamespace name => "Commands (" ++ name ++ "):"
  | .packages => "npm scripts:"

/-- The entry of the built-in command, which follows the commands of the first group. -/
def HelpGroup.builtIn (longest : Nat) : HelpGroup → List String
  | .main => [helpEntry longest "init" initSummary]
  | _ => []

/-- The lines of a group: its header, then an entry for each of its commands. -/
def HelpGroup.lines (longest : Nat) (commands : List Command) (g : HelpGroup) : List String :=
  g.title :: (g.members commands).map (fun c => helpEntry longest (usage c) (c.summary.getD "")) ++
    g.builtIn longest

end TaskRunner.Proofs
