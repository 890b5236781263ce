import TaskRunner.Files.Tree
import TaskRunner.Shell.Command
import TaskRunner.Text.Lines

/-!
# The state of a shell

What a running shell knows and has written. A descriptor leads to one of the shell's two outputs, to a
file, to a buffer whose content is wanted, or nowhere.
-/

namespace TaskRunner.Shell

open Files (FileError Location Tree)

/-- Where written bytes go. -/
inductive Target where
  | out
  | err
  | buffer
  | file (names : List String)
  | nowhere
deriving DecidableEq, Repr

/-- A running shell. -/
structure State where
  /-- The name under which it reports errors. -/
  name : String
  tree : Tree
  cwd : Location
  bindings : List (String × String)
  /-- The status of the last command. -/
  status : Nat
  input : List UInt8
  out : Target
  err : Target
  buffer : List UInt8
  /-- What was written to the two outputs, in order, with whether it was the second one. -/
  written : List (Bool × List UInt8)
  /-- Whether an expansion has failed, which ends the script. -/
  isBroken : Bool
  /-- Where the lines of the script end, counted from its end. -/
  lineEnds : List Nat

/-- How the shell goes on after a command. -/
inductive Flow where
  | next
  | exit
  | killed
  /-- Leaves so many loops. -/
  | leave (loops : Nat)
  /-- Goes on with the next round of the loop so many levels up. -/
  | again (loops : Nat)
deriving DecidableEq, Repr

namespace State

/-- Writes bytes. -/
def emit (s : State) (target : Target) (bytes : List UInt8) : State :=
  match target with
  | .out => { s with written := s.written ++ [(false, bytes)] }
  | .err => { s with written := s.written ++ [(true, bytes)] }
  | .buffer => { s with buffer := s.buffer ++ bytes }
  | .nowhere => s
  | .file names =>
    match s.tree.node? (.inside names) with
    | some (.file old) => { s with tree := s.tree.put names (.file (old ++ bytes)) }
    | _ => s

/-- Writes to the first output. -/
def say (s : State) (bytes : List UInt8) : State := s.emit s.out bytes

/-- Writes a line to the second output. -/
def complain (s : State) (line : String) : State := s.emit s.err (Text.utf8 (line ++ "\n"))

/-- A variable's value; nothing for one that is not set. -/
def valueOf? (s : State) (name : String) : Option String :=
  match name with
  | "?" => some (toString s.status)
  | "#" => some "0"
  | "0" => some s.name
  | "@" | "*" => some ""
  | name => s.bindings.lookup name

/-- Sets a variable. -/
def assign (s : State) (name value : String) : State :=
  { s with bindings := (name, value) :: s.bindings.filter (·.1 != name) }

/-- The line of the script from which on so many characters remain. -/
def lineOf (s : State) (remaining : Nat) : Nat :=
  1 + s.lineEnds.countP (remaining < ·)

/-- An error of the shell itself. -/
def fault (s : State) (line : Nat) (message : String) : State :=
  s.complain (s.name ++ ": " ++ toString line ++ ": " ++ message)

end State

/-- The short wording of a file error. -/
def reason (e : FileError) : String :=
  match e with
  | .notFound => "No such file or directory"
  | .permissionDenied => "Permission denied"
  | .alreadyExists => "File exists"
  | .notDirectory => "Not a directory"
  | .isDirectory => "Is a directory"
  | .nameTooLong => "File name too long"
  | .notEmpty => "Directory not empty"
  | .nulInName => "Invalid argument"
  | .invalidText => "Invalid or incomplete multibyte or wide character"

/-- The path of a pattern's or an argument's file as the shell sees it. -/
def State.get (s : State) (path : String) : Except FileError Files.Node :=
  s.tree.get s.cwd path

end TaskRunner.Shell
