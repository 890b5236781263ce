import TaskRunner.Files.Tree
import TaskRunner.Task.Session

/-!
# Writing files

A task that writes a text to a file, makes the directories that are missing on the way, and reports how
many bytes it wrote. Its result is the path.
-/

namespace TaskRunner

open Files (FileError Location Tree)

/-- A text to write. -/
structure WriteRequest where
  path : String
  content : String
  /-- Adds to what the file holds. -/
  append : Bool
deriving DecidableEq, Repr

namespace WriteRequest

/-- The name of the task. -/
def taskName (r : WriteRequest) : String :=
  "writeToFile " ++ r.path

/-- Writes the file, and says why that failed. -/
def carryOut (r : WriteRequest) (cwd : Location) (tree : Tree) : Tree × Option FileError :=
  let (tree, failure) := match Files.parent? r.path with
    | some above => tree.makeDirectories cwd above
    | none => (tree, none)
  match failure with
  | some e => (tree, some e)
  | none =>
    match tree.write cwd r.path r.append (Text.utf8 r.content) with
    | .ok tree => (tree, none)
    | .error e => (tree, some e)

/-- Runs the task. -/
def run (r : WriteRequest) (cwd : Location) (tree : Tree) (s : Session) :
    Session × Tree × TaskResult :=
  let (written, failure) := r.carryOut cwd tree
  let (s, result) := s.runWith r.taskName (.ofKind .writeFile) fun id s =>
    match failure with
    | some e => (s, .error ("Failed to write " ++ r.path ++ ": " ++ e.message))
    | none =>
      let line := toString r.content.utf8ByteSize ++ " bytes written"
      (s.output id line false, .ok (.text r.path))
  (s, written, result)

end WriteRequest

end TaskRunner
