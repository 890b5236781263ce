import TaskRunner.Shell.Launch
import TaskRunner.Task.Session

/-!
# Running shell commands

A task that runs a command and reports what it prints, line by line, from both of its outputs.
-/

namespace TaskRunner

open Files (Location Tree)

/-- A command to run. -/
structure ExecRequest where
  command : String
  /-- The name of the task, if it is not taken from the command. -/
  name : Option String
  cwd : Option String
  /-- Variables on top of those that the program has. -/
  env : List (String × String)
  shell : String
deriving DecidableEq, Repr

/-- Line buffers for the two outputs of a command. -/
structure OutputBuffers where
  out : Text.LineBuffer
  err : Text.LineBuffer
deriving Repr

namespace OutputBuffers

/-- Before the first byte. -/
def empty : OutputBuffers := ⟨.empty, .empty⟩

/-- Takes a chunk that arrives on one output, and gives the lines that it completes, each with whether it
is an error line. -/
def push (b : OutputBuffers) (isError : Bool) (chunk : List UInt8) :
    OutputBuffers × List (Bool × String) :=
  if isError then
    let (err, lines) := b.err.push chunk
    ({ b with err }, lines.map (true, ·))
  else
    let (out, lines) := b.out.push chunk
    ({ b with out }, lines.map (false, ·))

/-- The lines that the ends of both outputs complete. -/
def finish (b : OutputBuffers) : List (Bool × String) :=
  (b.out.finish.toList.map (false, ·)) ++ (b.err.finish.toList.map (true, ·))

/-- The lines of both outputs in the order in which chunks of them arrive. -/
def lines (b : OutputBuffers) : List (Bool × List UInt8) → List (Bool × String)
  | [] => b.finish
  | (isError, chunk) :: rest =>
    let (b, found) := b.push isError chunk
    found ++ lines b rest

end OutputBuffers

/-- The exit code that is recorded for a program that a signal ended. -/
def signalExitCode : Int := -1

namespace ExecRequest

/-- The name of the task. -/
def taskName (r : ExecRequest) : String :=
  r.name.getD (inferName r.command)

/-- The message of a failed command: what it printed, or how it ended. -/
def failureMessage (lines : List String) (exit : Shell.Exit) : String :=
  if lines.isEmpty then
    match exit with
    | .code n => "Command exited with code " ++ toString n
    | .signal => "Command was terminated by a signal"
  else "\n".intercalate lines

/-- Reports the lines of a command that ended, and its exit code. -/
def settle (id : TaskId) (s : Session) (o : Shell.Outcome) : Session × Except String Json :=
  let lines := OutputBuffers.empty.lines o.written
  let s := lines.foldl (fun (s : Session) line => s.output id line.2 line.1) s
  let texts := lines.map Prod.snd
  match o.exit with
  | .code n =>
    (s.setExitCode id n,
      if n == 0 then .ok (.text ("\n".intercalate texts)) else .error (failureMessage texts o.exit))
  | .signal => (s.setExitCode id signalExitCode, .error (failureMessage texts o.exit))

/-- Runs the task. -/
def run (r : ExecRequest) (environment : List (String × String)) (base : Location) (tree : Tree)
    (s : Session) : Session × Tree × TaskResult :=
  let own := environment.filter fun v => !r.env.any (·.1 == v.1)
  let launched :=
    Shell.Launch.run? ⟨r.shell, r.command, r.cwd, r.env ++ own⟩ tree base
  let (s, result) := s.runWith r.taskName (.ofKind .exec) fun id s =>
    match launched with
    | .ok outcome => settle id s outcome
    | .error e => (s, .error ("Failed to start \x60" ++ r.command ++ "\x60: " ++ e.message))
  (s, (launched.toOption.map Shell.Outcome.tree).getD tree, result)

end ExecRequest

/-! ## Forwarding both outputs -/

/-- The state of the loop between two turns. -/
structure Forwarding where
  session : Session
  /-- What the first output still gives, or nothing once its end was seen. -/
  out : Option (List UInt8)
  /-- What the second output still gives, or nothing once its end was seen. -/
  err : Option (List UInt8)
  /-- The lines that were forwarded. -/
  captured : List String
deriving Repr

namespace Forwarding

/-- Before the first turn. -/
def start (s : Session) (out err : List UInt8) : Forwarding :=
  ⟨s, some out, some err, []⟩

/-- What one of the outputs still gives. -/
def stream (f : Forwarding) (isError : Bool) : Option (List UInt8) :=
  if isError then f.err else f.out

/-- Changes what one of the outputs still gives. -/
def setStream (f : Forwarding) (isError : Bool) (bytes : Option (List UInt8)) : Forwarding :=
  if isError then { f with err := bytes } else { f with out := bytes }

/-- Takes what comes next on an output that is open: a line, which is reported and kept, or the end. -/
def take (id : TaskId) (f : Forwarding) (isError : Bool) (bytes : List UInt8) : Forwarding :=
  match Text.nextSegment bytes with
  | some (segment, rest) =>
    let line := Text.decodeLine segment
    let f := f.setStream isError (some rest)
    { f with session := f.session.output id line isError, captured := f.captured ++ [line] }
  | none => f.setStream isError none

/-- One turn, in which an output is ready first. An output whose end was seen is not waited for, so the other
one is taken then. There is no turn once both have ended. -/
def turn? (id : TaskId) (f : Forwarding) (ready : Bool) : Option Forwarding :=
  match f.stream ready, f.stream !ready with
  | some bytes, _ => some (f.take id ready bytes)
  | none, some bytes => some (f.take id (!ready) bytes)
  | none, none => none

/-- How much one of the outputs still gives: its bytes and its end. -/
def leftOn (f : Forwarding) (isError : Bool) : Nat :=
  match f.stream isError with
  | some bytes => bytes.length + 1
  | none => 0

/-- How much both outputs still give. -/
def left (f : Forwarding) : Nat :=
  f.leftOn false + f.leftOn true

theorem stream_take (id : TaskId) (f : Forwarding) (isError other : Bool) (bytes : List UInt8) :
    (f.take id isError bytes).stream other =
      if other = isError then (Text.nextSegment bytes).map Prod.snd else f.stream other := by
  unfold take
  split <;> cases isError <;> cases other <;> simp [stream, setStream, *]

theorem take_left {id : TaskId} {f : Forwarding} {isError : Bool} {bytes : List UInt8}
    (h : f.stream isError = some bytes) : (f.take id isError bytes).left < f.left := by
  have hown : (f.take id isError bytes).leftOn isError < f.leftOn isError := by
    unfold leftOn
    rw [stream_take, if_pos rfl, h]
    cases hnext : Text.nextSegment bytes with
    | none => exact Nat.succ_pos _
    | some next => exact Nat.succ_lt_succ (Text.nextSegment_shorter hnext)
  have hother : (f.take id isError bytes).leftOn (!isError) = f.leftOn !isError := by
    unfold leftOn
    rw [stream_take, if_neg (by cases isError <;> decide)]
  cases isError <;> simp only [left, Bool.not_false, Bool.not_true] at * <;> omega

theorem turn?_left {id : TaskId} {f next : Forwarding} {ready : Bool} (h : f.turn? id ready = some next) :
    next.left < f.left := by
  unfold turn? at h
  split at h
  · cases h
    exact take_left ‹_›
  · cases h
    exact take_left ‹_›
  · cases h

/-- Forwards both outputs to their ends, and gives the lines that were forwarded. Turn by turn, `ready` tells
whether the second output is ready before the first one. -/
def run (id : TaskId) (ready : List Bool) (f : Forwarding) : Session × List String :=
  match _ : f.turn? id (ready.headD false) with
  | some next => run id ready.tail next
  | none => (f.session, f.captured)
termination_by f.left
decreasing_by exact turn?_left ‹_›

end Forwarding

end TaskRunner
