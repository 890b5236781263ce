import TaskRunner.Json.Printer
import TaskRunner.Text.Lines

/-!
# Tasks

A task is a tracked piece of work. It runs until it is settled, once, with a result; the result says
how the work ended and holds what it gave or why it failed.
-/

namespace TaskRunner

/-- The number of a task, given in order of creation from one on. -/
structure TaskId where
  number : Nat
deriving DecidableEq, Repr

/-- The identifier as text. -/
def TaskId.label (id : TaskId) : String :=
  "task-" ++ toString id.number

/-- The kinds of work. -/
inductive TaskKind where
  | task
  | exec
  | fetch
  | writeFile
  | ai
  | command
deriving DecidableEq, Repr

/-- How far a task has come. -/
inductive Status where
  | running
  | success
  | fail
  | warning
deriving DecidableEq, Repr

/-- The name of a status. -/
def Status.label : Status → String
  | running => "running"
  | success => "success"
  | fail => "fail"
  | warning => "warning"

/-- Whether the status is final. -/
def Status.isFinal : Status → Bool
  | running => false
  | _ => true

/-- The outcome of a settled task: a value, or what a failed one left. -/
inductive TaskResult where
  | success (output : Json)
  | fail (output : Json)
  | warning (output : Json)
deriving Repr

namespace TaskResult

/-- The status of the outcome. -/
def status : TaskResult → Status
  | success _ => .success
  | fail _ => .fail
  | warning _ => .warning

/-- What the task gave. -/
def output : TaskResult → Json
  | success v => v
  | fail v => v
  | warning v => v

/-- The output as text: a text as it is, nothing for null, anything else as compact JSON. -/
def outputText (r : TaskResult) : String :=
  match r.output with
  | .text s => s
  | .null => ""
  | other => other.compact

/-- Whether the task succeeded. -/
def succeeded (r : TaskResult) : Bool :=
  r.status == .success

/-- Whether the task failed. -/
def failed (r : TaskResult) : Bool :=
  r.status == .fail

/-- Whether the task failed with only a warning. -/
def warned (r : TaskResult) : Bool :=
  r.status == .warning

end TaskResult

/-- A span of time. -/
structure Duration where
  seconds : Nat
  nanos : Nat
deriving DecidableEq, Repr

/-- No time. -/
def Duration.zero : Duration := ⟨0, 0⟩

/-- How a failure counts. -/
inductive FailureMode where
  /-- As a failure. -/
  | fail
  /-- As a warning, which never ends the run. -/
  | warn
deriving DecidableEq, Repr

/-- How a task is started. -/
structure TaskOptions where
  kind : TaskKind
  mode : FailureMode
  silent : Bool
deriving DecidableEq, Repr

/-- The options of ordinary work of a kind. -/
def TaskOptions.ofKind (kind : TaskKind) : TaskOptions :=
  ⟨kind, .fail, false⟩

/-- How a task was settled, and after what time. -/
structure Settlement where
  result : TaskResult
  duration : Duration
deriving Repr

/-- A task. Whether it reports, and whether its failure ends the run, is fixed when it starts. -/
structure Task where
  id : TaskId
  name : String
  kind : TaskKind
  mode : FailureMode
  silent : Bool
  stopsRun : Bool
  exitCode : Option Int
  statusCode : Option Nat
  settlement : Option Settlement
deriving Repr

/-- How far the task has come. -/
def Task.status (t : Task) : Status :=
  match t.settlement with
  | none => .running
  | some s => s.result.status

/-- The result that an outcome of the work amounts to. -/
def FailureMode.resultOf (mode : FailureMode) : Except String Json → TaskResult
  | .ok value => .success value
  | .error message =>
    match mode with
    | .fail => .fail (.text message)
    | .warn => .warning (.text message)

/-- The longest name taken from a function's text. -/
def inferredNameLength : Nat := 50

/-- A task's name taken from the text of its function: words with single spaces, cut off. -/
def inferName (source : String) : String :=
  String.ofList ((" ".intercalate (Text.words source)).toList.take inferredNameLength)

end TaskRunner
