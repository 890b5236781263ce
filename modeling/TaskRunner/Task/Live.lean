import TaskRunner.Task.Basic

/-!
# Live tasks

The tasks that are running, in the order in which they were added. While there are two or more, each
is shown with its place among them, which moves down as earlier ones finish.
-/

namespace TaskRunner

/-- The identifiers of the running tasks. -/
structure LiveTasks where
  ids : List TaskId
deriving DecidableEq, Repr

namespace LiveTasks

/-- No task. -/
def empty : LiveTasks := ⟨[]⟩

/-- Adds a task at the end, unless it is there. -/
def insert (l : LiveTasks) (id : TaskId) : LiveTasks :=
  if l.ids.contains id then l else ⟨l.ids ++ [id]⟩

/-- Takes a task out, and tells whether it was there. -/
def take (l : LiveTasks) (id : TaskId) : LiveTasks × Bool :=
  match l.ids.idxOf? id with
  | some n => (⟨l.ids.eraseIdx n⟩, true)
  | none => (l, false)

/-- Takes a task out. -/
def remove (l : LiveTasks) (id : TaskId) : LiveTasks :=
  (l.take id).1

/-- Whether the task is there. -/
def contains (l : LiveTasks) (id : TaskId) : Bool :=
  l.ids.contains id

/-- How many there are. -/
def size (l : LiveTasks) : Nat :=
  l.ids.length

/-- The place of a task, counted from one. -/
def place? (l : LiveTasks) (id : TaskId) : Option Nat :=
  (l.ids.idxOf? id).map (· + 1)

/-- The marker of a place. -/
def marker (place : Nat) : String :=
  "❰" ++ toString place ++ "❱"

/-- The marker of a task's place while two or more tasks are live; otherwise nothing. -/
def tag (l : LiveTasks) (id : TaskId) : String :=
  if l.size < 2 then ""
  else match l.place? id with
    | some place => marker place
    | none => ""

end LiveTasks

end TaskRunner
