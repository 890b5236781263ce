import TaskRunner.Command.Basic
import TaskRunner.Files.Tree
import TaskRunner.Json.Reader

/-!
# Package scripts

The scripts of a package file as commands. Scripts that call this program are left out, and so is a
package file that cannot be read.
-/

namespace TaskRunner.Project

/-- The name of a package file. -/
def packageFileName : String := "package.json"

/-- The texts of a record whose values are all texts. -/
def textFields : List (String × Json) → Option (List (String × String))
  | [] => some []
  | (key, .text value) :: rest => (textFields rest).map ((key, value) :: ·)
  | _ => none

/-- The scripts in the value of a package file, as written. The file may be a record with at most one
field for them, or a list that holds nothing else. -/
def scriptsIn : Json → Option (List (String × String))
  | .record fields =>
    match fields.filter fun field => field.1 == "scripts" with
    | [] => some []
    | [(_, .record scripts)] => textFields scripts
    | _ => none
  | .list [] => some []
  | .list [.record scripts] => textFields scripts
  | _ => none

/-- Whether a text occurs in another. -/
def occursIn (part whole : String) : Bool :=
  (List.range (whole.length + 1)).any fun n =>
    part.toList.isPrefixOf (whole.toList.drop n)

/-- The scripts of the package file in a directory, sorted by name. -/
def packageScripts (tree : Files.Tree) (cwd : Files.Location) (dir : String) :
    List (String × String) :=
  let scripts := do
    let text ← (tree.readText cwd (Files.join dir packageFileName)).toOption
    let value ← (Json.readAsWritten text).toOption
    scriptsIn value
  let fields := (Json.ofFields ((scripts.getD []).map fun s => (s.1, .text s.2))).fields?.getD []
  fields.filterMap fun field =>
    match field.2 with
    | .text body => if occursIn "bunosh" body then none else some (field.1, body)
    | _ => none

/-- Whether a shell is the one that quotes with double quotes. -/
def isCmdShell (shell : String) : Bool :=
  (Files.stem? shell).any fun stem => stem.toLower == "cmd"

/-- A character inside single quotes of a shell command. -/
def singleQuotedChar (c : Char) : List Char :=
  if c == '\'' then ['\'', '\\', '\'', '\''] else [c]

/-- A character inside double quotes of a command for the other shell. -/
def doubleQuotedChar (c : Char) : List Char :=
  if c == '"' then ['"', '"'] else [c]

/-- A text as one word of a shell command. -/
def shellWord (shell text : String) : String :=
  if isCmdShell shell then String.ofList ('"' :: (text.toList.flatMap doubleQuotedChar ++ ['"']))
  else String.ofList ('\'' :: (text.toList.flatMap singleQuotedChar ++ ['\'']))

/-- The shell command that runs a package script. -/
def scriptCommandLine (script shell : String) : String :=
  "npm run " ++ shellWord shell script

/-- The commands of package scripts. -/
def packageCommands (scripts : List (String × String)) : List Command :=
  scripts.map fun (name, body) => (Command.ofPackageScript name).withComment (some body)

end TaskRunner.Project
