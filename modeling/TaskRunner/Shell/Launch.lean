import TaskRunner.Project.Package
import TaskRunner.Shell.Run
import TaskRunner.Text.LineBuffer

/-!
# Launching programs

Finding the program that carries out a command, and what it leaves behind: the files, what it wrote, and
how it ended.
-/

namespace TaskRunner.Shell

open Files (FileError Location Tree)

/-- How a program ends. -/
inductive Exit where
  | code (n : Nat)
  | signal
deriving DecidableEq, Repr

/-- What a program leaves behind. -/
structure Outcome where
  tree : Tree
  /-- What it wrote, in order, with whether to its second output. -/
  written : List (Bool × List UInt8)
  exit : Exit

/-- What is needed to launch a program. -/
structure Launch where
  /-- The program, which gets the command as an argument. -/
  shell : String
  command : String
  cwd : Option String
  environment : List (String × String)
deriving Repr

/-- The programs that run scripts. -/
def scriptPrograms : List String := ["sh", "dash", "bash"]

/-- The programs that are no part of the shell. -/
def isProgram (name : String) : Bool :=
  scriptPrograms.contains name || ((utilities.lookup name).isSome && name != ":")

/-- The program that a name means when it is launched from a directory. -/
def findProgram? (tree : Tree) (cwd : Location) (name : String) : Except FileError String :=
  let known := programName name
  if isProgram known && !known.contains '/' then .ok known
  else if !name.contains '/' then .error .notFound
  else
    match tree.get cwd name with
    | .ok _ => .error .permissionDenied
    | .error e => .error e

/-- Runs a program that runs no scripts. It takes its arguments as they are. -/
def runPlain (program : String) (args : List String) (s : State) : State × Nat :=
  if program == "echo" then (s.say (Text.utf8 (" ".intercalate args ++ "\n")), 0)
  else
    match utilities.lookup program with
    | some utility => utility args s
    | none => (s, 0)

/-- Why a program does not start. -/
inductive LaunchError where
  | file (cause : FileError)
  | nulInArgument
deriving DecidableEq, Repr

/-- The error in words. -/
def LaunchError.message : LaunchError → String
  | file cause => cause.message
  | nulInArgument => "nul byte found in provided data"

/-- Whether a launch has a text that no program can be given. -/
def Launch.holdsNul (l : Launch) : Bool :=
  [l.shell, l.command, l.cwd.getD ""].any (·.contains '\x00') ||
    l.environment.any fun v => v.1.contains '\x00' || v.2.contains '\x00'

/-- The directory that a launch starts from. -/
def Launch.directory? (l : Launch) (tree : Tree) (base : Location) : Except FileError Location :=
  match l.cwd with
  | none => .ok base
  | some path => do
    match ← tree.get base path with
    | .directory => tree.locate base path
    | .file _ => .error .notDirectory

/-- Launches a program and waits for its end. -/
def Launch.run? (l : Launch) (tree : Tree) (base : Location) : Except LaunchError Outcome := do
  if l.holdsNul then .error .nulInArgument
  let cwd ← (l.directory? tree base).mapError .file
  let program ← (findProgram? tree cwd l.shell).mapError .file
  let script := l.command.toList
  let lineEnds := script.zipIdx.filterMap fun (c, i) =>
    if c == '\n' then some (script.length - i) else none
  let s : State :=
    { name := l.shell, tree, cwd, bindings := l.environment, status := 0, input := [], out := .out,
      err := .err, buffer := [], written := [], isBroken := false, lineEnds }
  if scriptPrograms.contains program then
    let (s, flow) := runScript stepLimit script s
    return ⟨s.tree, s.written, if flow == .killed then .signal else .code s.status⟩
  else
    let flag := if Project.isCmdShell l.shell then "/C" else "-c"
    let (s, status) := runPlain program [flag, l.command] s
    return ⟨s.tree, s.written, .code status⟩

end TaskRunner.Shell
