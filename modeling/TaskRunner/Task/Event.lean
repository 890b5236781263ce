import TaskRunner.Task.Live

/-!
# Events

What is reported about tasks: that one starts, prints a line, finishes or fails; and what scripts say.
-/

namespace TaskRunner

/-- A snapshot of a task for a report. -/
structure Snapshot where
  id : TaskId
  name : String
  kind : TaskKind
  /-- The marker of its place among the live tasks. -/
  tag : String
  status : Status
  duration : Option Duration
  exitCode : Option Int
  statusCode : Option Nat
deriving DecidableEq, Repr

/-- A report. -/
inductive Event where
  | start (task : Snapshot)
  | finish (task : Snapshot)
  | error (task : Snapshot) (message : String)
  | output (task : Snapshot) (line : String) (isError : Bool)
  | say (message : String) (loud : Bool)
deriving DecidableEq, Repr

/-- The snapshot in a report about a task. -/
def Event.snapshot? : Event → Option Snapshot
  | start t => some t
  | finish t => some t
  | error t _ => some t
  | output t _ _ => some t
  | say _ _ => none

/-- The name of the task that a report is about. -/
def Event.taskName? (e : Event) : Option String :=
  e.snapshot?.map Snapshot.name

end TaskRunner
