import TaskRunner.Script.Bridge
import TaskRunner.Script.Operation

/-!
# The host of a running script

What a run of a script does to the program around it: reports, tasks, switches and operations. A task that
a script begins is settled once: when the script ends it, or when the run is closed.
-/

namespace TaskRunner.Script

/-- A promise that a reply settles, with its latch. -/
structure Resolver where
  promise : Ref
  latch : Ref
deriving DecidableEq, Repr

/-- The host of a running script. -/
structure Host where
  services : Services
  world : World
  bridge : Bridge Operation Reply Resolver

/-- How a task of a script is started. -/
def TaskMode.options : TaskMode → TaskOptions
  | strict => .ofKind .task
  | lenient => { TaskOptions.ofKind .task with mode := .warn }
  | silent => { TaskOptions.ofKind .task with silent := true }

/-- The switches with one turned on. -/
def SwitchName.turnOn (n : SwitchName) (s : Switches) : Switches :=
  match n with
  | stopOnFailures => { s with stopOnFailure := true }
  | ignoreFailures => { s with ignoreFailures := true }
  | silence => { s with silent := true }

namespace Host

/-- Changes the session. -/
def onSession (h : Host) (f : Session → Session) : Host :=
  { h with world := { h.world with session := f h.world.session } }

/-- Begins a task, named after its function when it has no name of its own. -/
def beginTask (h : Host) (name source : String) (mode : TaskMode) : Host × Handle :=
  let name := if Text.isAllBlank name then inferName source else name
  let (session, id) := h.world.session.startTask name mode.options
  let (bridge, handle) := h.bridge.beginTask id
  ({ h with world := { h.world with session }, bridge }, handle)

/-- Ends a task with the outcome of its function; nothing happens when the handle has no task. -/
def endTask? (h : Host) (handle : Handle) (outcome : Except String Json) : Option (Host × TaskResult) :=
  match h.bridge.endTask? handle with
  | none => none
  | some (id, bridge) =>
    let (session, result) := h.world.session.complete id outcome
    result.map fun result => ({ h with world := { h.world with session }, bridge }, result)

/-- Starts an operation. -/
def start (h : Host) (o : Operation) : Host × Handle :=
  let (bridge, handle) := h.bridge.start o
  ({ h with bridge }, handle)

/-- Lets a promise wait for the reply of an operation. -/
def expect (h : Host) (handle : Handle) (r : Resolver) : Host :=
  { h with bridge := h.bridge.expect handle r }

/-- Carries out an operation that was started. -/
def perform (h : Host) (handle : Handle) (o : Operation) : Host :=
  let (world, reply) := o.run h.services h.world
  { h with world, bridge := h.bridge.finish handle reply }

/-- The next reply and the promise that it settles. When none has come, the operation that was started
first is carried out; when there is none, no reply will come. -/
def reply? (h : Host) : Option (Host × Reply × Option Resolver) :=
  let h := match h.bridge.replies, h.bridge.running with
    | [], (handle, o) :: _ => h.perform handle o
    | _, _ => h
  h.bridge.take?.map fun ((handle, reply), bridge) =>
    let (bridge, resolver) := bridge.deliver handle
    ({ h with bridge }, reply, resolver)

/-- Ends the run: tasks that the script left open are given up. -/
def close (h : Host) : World :=
  { h.world with
    session := h.bridge.tasks.foldl (fun (s : Session) task => s.drop task.2) h.world.session }

end Host

end TaskRunner.Script
