import TaskRunner.Task.Event

/-!
# Sessions

A session is the state of one run of the program: every task ever started, the live ones, the switches
that shape how tasks behave, and a journal of what left it. Work is wrapped into a task by starting it
and settling it; settling records the result, reports it, takes the task out of the live ones and may
then ask for the end of the run, in this order.
-/

namespace TaskRunner

/-- Switches that tasks look at when they start. -/
structure Switches where
  /-- End the run right after the first failed task. -/
  stopOnFailure : Bool
  /-- Never turn failures into a failing exit code. -/
  ignoreFailures : Bool
  /-- Report nothing about tasks. -/
  silent : Bool
  /-- Under a test harness failures do not change the exit code. -/
  testMode : Bool
deriving DecidableEq, Repr

/-- All switches off. -/
def Switches.off : Switches := ⟨false, false, false, false⟩

/-- The two output streams. -/
inductive Channel where
  | out
  | err
deriving DecidableEq, Repr

/-- Something that leaves the session: a report, a request to end with an exit code, or printed text. -/
inductive Trace where
  | event (e : Event)
  /-- A report made while nobody listens. -/
  | unheard (e : Event)
  | exit (code : Int)
  | print (channel : Channel) (text : String)
deriving DecidableEq, Repr

/-- The state of a run. -/
structure Session where
  /-- Every task, in order of creation. -/
  tasks : List Task
  nextId : Nat
  live : LiveTasks
  switches : Switches
  /-- Whether reports reach anybody. -/
  listening : Bool
  /-- What left the session, in order. -/
  journal : List Trace
deriving Repr

/-- How many tasks there are of each status. -/
structure Summary where
  total : Nat
  running : Nat
  succeeded : Nat
  failed : Nat
  warnings : Nat
deriving DecidableEq, Repr

namespace Session

/-- A run before its first task. -/
def empty : Session :=
  ⟨[], 1, .empty, .off, true, []⟩

/-- The task of an identifier. -/
def task? (s : Session) (id : TaskId) : Option Task :=
  s.tasks.find? (·.id == id)

/-- Changes the task of an identifier. -/
def updateTask (s : Session) (id : TaskId) (change : Task → Task) : Session :=
  { s with tasks := s.tasks.map fun t => if t.id == id then change t else t }

/-- The journal with one more entry. -/
def note (s : Session) (t : Trace) : Session :=
  { s with journal := s.journal ++ [t] }

/-- Reports an event to whoever listens. -/
def report (s : Session) (e : Event) : Session :=
  s.note (if s.listening then .event e else .unheard e)

/-- Asks for the end of the run. -/
def exit (s : Session) (code : Int) : Session :=
  s.note (.exit code)

/-- Prints text. -/
def print (s : Session) (channel : Channel) (text : String) : Session :=
  s.note (.print channel text)

/-- A free message of a script. -/
def say (s : Session) (message : String) (loud : Bool) : Session :=
  s.report (.say message loud)

/-- How many tasks have a status. -/
def countOf (s : Session) (status : Status) : Nat :=
  s.tasks.countP (·.status == status)

/-- The counts over all tasks. -/
def summary (s : Session) : Summary :=
  ⟨s.tasks.length, s.countOf .running, s.countOf .success, s.countOf .fail, s.countOf .warning⟩

/-- The exit code that the run deserves. -/
def exitCode (s : Session) : Int :=
  if s.switches.ignoreFailures || s.switches.testMode then 0
  else if 0 < s.summary.failed then 1
  else 0

/-- What a report about a task shows now. -/
def snapshot (s : Session) (t : Task) (status : Status) : Snapshot :=
  { id := t.id, name := t.name, kind := t.kind, tag := s.live.tag t.id, status,
    duration := t.settlement.map Settlement.duration,
    exitCode := t.exitCode, statusCode := t.statusCode }

/-- Starts a task. -/
def startTask (s : Session) (name : String) (options : TaskOptions) : Session × TaskId :=
  let id : TaskId := ⟨s.nextId⟩
  let t : Task :=
    { id, name, kind := options.kind, mode := options.mode,
      silent := options.silent || s.switches.silent,
      stopsRun := options.mode == .fail && s.switches.stopOnFailure,
      exitCode := none, statusCode := none, settlement := none }
  let s := { s with tasks := s.tasks ++ [t], nextId := s.nextId + 1, live := s.live.insert id }
  (if t.silent then s else s.report (.start (s.snapshot t .running)), id)

/-- The report about a settled task. -/
def finalEvent (snapshot : Snapshot) : Except String Json → Event
  | .ok _ => .finish snapshot
  | .error message => .error snapshot message

/-- Settles a running task; `mayExit` tells whether its failure may end the run. -/
def settle (s : Session) (id : TaskId) (outcome : Except String Json) (mayExit : Bool) :
    Session × Option TaskResult :=
  match s.task? id with
  | none => (s, none)
  | some t =>
    if t.settlement.isSome then (s, none)
    else
      let result := t.mode.resultOf outcome
      let settlement : Settlement := ⟨result, .zero⟩
      let t := { t with settlement := some settlement }
      let s := s.updateTask id fun t => { t with settlement := some settlement }
      let s :=
        if t.silent then s
        else s.report (finalEvent (s.snapshot t result.status) outcome)
      let s := { s with live := s.live.remove id }
      let s := if result.failed && t.stopsRun && mayExit then s.exit 1 else s
      (s, some result)

/-- Settles a task with the outcome of its work. -/
def complete (s : Session) (id : TaskId) (outcome : Except String Json) :
    Session × Option TaskResult :=
  s.settle id outcome true

/-- What is recorded for a task that is given up. -/
def droppedMessage : String := "task was dropped before completing"

/-- Gives a task up: it counts as failed, but never ends the run. -/
def drop (s : Session) (id : TaskId) : Session :=
  (s.settle id (.error droppedMessage) false).1

/-- A line that a task prints. -/
def output (s : Session) (id : TaskId) (line : String) (isError : Bool) : Session :=
  match s.task? id with
  | none => s
  | some t => if t.silent then s else s.report (.output (s.snapshot t .running) line isError)

/-- Attaches an exit code to a task. -/
def setExitCode (s : Session) (id : TaskId) (code : Int) : Session :=
  s.updateTask id fun t => { t with exitCode := some code }

/-- Attaches a response status to a task. -/
def setStatusCode (s : Session) (id : TaskId) (code : Nat) : Session :=
  s.updateTask id fun t => { t with statusCode := some code }

/-- Runs work as a task: starts it, does the work, and settles it with the outcome. -/
def runWith (s : Session) (name : String) (options : TaskOptions)
    (work : TaskId → Session → Session × Except String Json) : Session × TaskResult :=
  let (s, id) := s.startTask name options
  let (s, outcome) := work id s
  let (s, result) := s.complete id outcome
  (s, result.getD (options.mode.resultOf outcome))

/-- The reports in the journal that somebody heard. -/
def events (s : Session) : List Event :=
  s.journal.filterMap fun
    | .event e => some e
    | _ => none

/-- All reports in the journal, heard or not. -/
def reports (s : Session) : List Event :=
  s.journal.filterMap fun
    | .event e => some e
    | .unheard e => some e
    | _ => none

/-- The exit codes asked for. -/
def exits (s : Session) : List Int :=
  s.journal.filterMap fun
    | .exit code => some code
    | _ => none

/-- The text printed on a channel. -/
def printed (s : Session) (channel : Channel) : String :=
  String.join (s.journal.filterMap fun
    | .print c text => if c == channel then some text else none
    | _ => none)

end Session

/-- How work can end. -/
inductive Ending where
  /-- With a value. -/
  | value (v : Json)
  /-- With an error. -/
  | error (message : String)
  /-- Abruptly, with a message or with none. -/
  | panic (message : Option String)
  /-- With something that is no data value. -/
  | unserializable (reason : String)
deriving Repr

/-- The outcome that an ending counts as. -/
def Ending.outcome : Ending → Except String Json
  | value v => .ok v
  | error message => .error message
  | panic message => .error (message.getD "task panicked")
  | unserializable reason => .error reason

/-- Why a command could not be carried out. -/
inductive CallError where
  | failed (message : String)
  | invalidArguments (message : String)
  | unavailable (message : String)
deriving DecidableEq, Repr

/-- The error in words. -/
def CallError.message : CallError → String
  | failed m => m
  | invalidArguments m => "Invalid arguments: " ++ m
  | unavailable m => "Function unavailable: " ++ m

end TaskRunner
