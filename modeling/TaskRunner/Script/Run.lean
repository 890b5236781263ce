import TaskRunner.Script.Reading
import TaskRunner.Script.Step

/-!
# Runs

A run loads a script, calls one of its functions with data, and goes on until nothing is left to do: jobs
first, one at a time, and when there are none, the next reply from outside. Whatever way it ends, tasks that
the script left open are given up.
-/

namespace TaskRunner.Script

/-- Why a function gives no value. -/
inductive ScriptError where
  /-- The script is malformed. -/
  | malformed
  /-- Something was thrown outside of the function. -/
  | uncaught (description : String)
  /-- The function threw. -/
  | thrown (message : String)
  /-- What the function promised never came. -/
  | incomplete (name : String)
deriving DecidableEq, Repr

/-- The error in words. -/
def ScriptError.message : ScriptError → String
  | malformed => "Compile error: SyntaxError"
  | uncaught description => "Runtime error: " ++ description
  | thrown m => m
  | incomplete name => "Function '" ++ name ++ "' did not complete"

namespace Machine

/-- Lets the promise that comes after a handler wait for it. -/
def pushReaction (m : Machine) (derived : Option Ref) : Machine :=
  match derived with
  | some d => m.push (.reaction d)
  | none => m

/-- Begins a job. -/
def begin (m : Machine) (j : Job) : Machine :=
  match j with
  | .start r => (m.startOperation r).1
  | .adopt promise thenable f =>
    let (m, latch) := m.remember (·.makeKind (.latch false))
    (m.push (.adoption promise latch)).call f thenable
      [.builtin (.fulfil promise latch), .builtin (.refuse promise latch)]
  | .react (.call f) derived _ v =>
    (m.pushReaction derived).call f .undefined [v]
  | .react .pass (some d) true v => m.resolve d v
  | .react .pass (some d) false v => m.reject d v
  | .react .pass none _ _ => m
  | .react (.endTask task) derived ok v =>
    (m.pushReaction derived).endTask task (outcomeOf m.memory ok v) give
  | .react (.resume frames) _ true v => { m with stack := frames }.give v
  | .react (.resume frames) _ false v => { m with stack := frames }.throw v

/-- Goes on until the script is idle. -/
def settleStack : Nat → Machine → Machine
  | 0, m => m
  | fuel + 1, m =>
    match m.step? with
    | none => m
    | some m => settleStack fuel m

/-- Hands a reply from outside to the promise that waits for it. -/
def accept (m : Machine) (host : Host) (reply : Reply) (resolver : Option Resolver) : Machine :=
  let m := { m with host }
  match resolver with
  | none => m
  | some r =>
    let (m, v) := m.remember (·.load reply.data)
    m.fulfilOnce r.promise r.latch v

/-- What happens next: a step, a job, or a reply; none when nothing is left to do. -/
def advance? (m : Machine) : Option Machine :=
  match m.step? with
  | some m => some m
  | none =>
    match m.jobs with
    | j :: rest => some (({ m with jobs := rest }.give .undefined).begin j)
    | [] => m.host.reply?.map fun (host, reply, resolver) => m.accept host reply resolver

/-- Goes on until nothing is left to do. -/
def settleAll : Nat → Machine → Machine
  | 0, m => m
  | fuel + 1, m =>
    match m.advance? with
    | none => m
    | some m => settleAll fuel m

/-- More steps than any script takes that ends. -/
def stepLimit : Nat := 1000000000000

/-- The machine before it loads statements: the variables of the environment are there, and the names that
the statements declare. -/
def start (host : Host) (program : List Stmt) : Machine :=
  let memory : Memory := ⟨#[⟨.record, host.services.environment.map fun (name, v) => (name, .text v)⟩],
    #[⟨[], none⟩]⟩
  { memory := memory.declare globalScope program
    control := .complete .normal
    stack := [.block program globalScope]
    jobs := []
    host
    outcome := none }

/-- What was thrown and caught by nobody. -/
def uncaught? (m : Machine) : Option Value :=
  match m.control, m.stack with
  | .complete (.thrown v), [] => some v
  | _, _ => none

/-- Asks for a function with arguments; `null` leaves an argument to its default. -/
def ask (m : Machine) (function : Expr) (args : List Json) : Machine :=
  let (m, values) := m.remember (·.loadItems args)
  let values := values.map fun
    | .null => .undefined
    | v => v
  { m with stack := [.invoke values] }.eval function globalScope

/-- Loads statements and lets them come to rest; an error if something is thrown. -/
def load (m : Machine) : Except (Machine × ScriptError) Machine :=
  let m := settleStack stepLimit m
  match m.uncaught? with
  | none => .ok (settleAll stepLimit m)
  | some v =>
    let description := m.memory.uncaughtText v
    .error (m, if description.startsWith "SyntaxError" then .malformed else .uncaught description)

/-- Calls a function and lets everything come to rest. -/
def run (m : Machine) (name : String) (function : Expr) (args : List Json) :
    Machine × Except ScriptError Json :=
  let m := settleStack stepLimit (m.ask function args)
  match m.uncaught? with
  | some v => (m, .error (.uncaught (m.memory.uncaughtText v)))
  | none =>
    let m := settleAll stepLimit m
    (m, match m.outcome with
      | none => .error (.incomplete name)
      | some (.ok v) => .ok v
      | some (.error message) => .error (.thrown message))

end Machine

/-- Calls a function of a script in a run of its own. -/
def invoke (services : Services) (world : World) (script name : String) (args : List Json) :
    World × Except ScriptError Json :=
  match program? script with
  | none => (world, .error .malformed)
  | some program =>
    let m := Machine.start ⟨services, world, .empty⟩ program
    match m.load with
    | .error (m, e) => (m.host.close, .error e)
    | .ok m =>
      match expression? name with
      | none => (m.host.close, .error (.uncaught "SyntaxError"))
      | some function =>
        let (m, outcome) := m.run name function args
        (m.host.close, outcome)

end TaskRunner.Script
