import TaskRunner.Command.Literal
import TaskRunner.Command.Naming
import TaskRunner.Text.Lines

/-!
# Commands

A command makes one function of a script, or one script of a package file, callable from the command
line. It has positional arguments, perhaps an options object, and perhaps a comment.
-/

namespace TaskRunner

/-- A positional argument; without a default it is required. -/
structure ArgSpec where
  name : String
  default : Option Literal
deriving DecidableEq, Repr

/-- Whether the argument must be given. -/
def ArgSpec.isRequired (a : ArgSpec) : Bool :=
  a.default.isNone

/-- A property of a trailing options object, with its flag on the command line. -/
structure OptionSpec where
  key : String
  flag : String
  default : Literal
deriving DecidableEq, Repr

/-- The option of a property; its flag is the property's dash-separated form. -/
def OptionSpec.ofKey (key : String) (default : Literal) : OptionSpec :=
  ⟨key, kebab key, default⟩

/-- Where a command comes from. -/
inductive Origin where
  | scriptFile
  | packageFile
deriving DecidableEq, Repr

/-- A command; `target` is the function or package script that it runs. -/
structure Command where
  name : String
  «namespace» : String
  origin : Origin
  args : List ArgSpec
  options : Option (List OptionSpec)
  comment : Option String
  target : String
deriving DecidableEq, Repr

/-- The first line of a comment that is neither empty nor a tag. -/
def summaryOf (comment : String) : Option String :=
  ((Text.lines comment).map Text.trim).find? fun line => !line.isEmpty && !line.startsWith "@"

namespace Command

/-- The namespace of package scripts. -/
def packageNamespace : String := "npm"

/-- A command for a function. -/
def ofFunction (name : String) : Command :=
  { name, «namespace» := "", origin := .scriptFile, args := [], options := none,
    comment := none, target := name }

/-- A command for a package script. -/
def ofPackageScript (name : String) : Command :=
  { ofFunction name with «namespace» := packageNamespace, origin := .packageFile }

/-- The command with a comment; a blank one is none. -/
def withComment (c : Command) (comment : Option String) : Command :=
  { c with comment := comment.filter fun text => !Text.isAllBlank text }

/-- The declared options; none without an options object. -/
def optionList (c : Command) : List OptionSpec :=
  c.options.getD []

/-- Whether the function takes a trailing options object. -/
def takesOptions (c : Command) : Bool :=
  c.options.isSome

/-- A name under the namespace of the command. -/
def qualified (c : Command) (name : String) : String :=
  if c.namespace.isEmpty then name else c.namespace ++ ":" ++ name

/-- The name in its namespace. -/
def fullName (c : Command) : String :=
  c.qualified c.name

/-- The name on the command line: of a function its dash-separated form. -/
def cliName (c : Command) : String :=
  match c.origin with
  | .packageFile => c.fullName
  | .scriptFile => c.qualified (kebab c.name)

/-- The names of the required arguments. -/
def required (c : Command) : List String :=
  (c.args.filter ArgSpec.isRequired).map ArgSpec.name

/-- One line about the command. -/
def summary (c : Command) : Option String :=
  c.comment.bind summaryOf

end Command

end TaskRunner
