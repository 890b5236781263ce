import TaskRunner.Script.Host
import TaskRunner.Script.Operators

/-!
# The machine

A running script: its memory, what it does next, what is left to do after that, and the jobs for when it is
idle. Promises are settled here: whoever waits for one becomes a job.
-/

namespace TaskRunner.Script

/-- A running script. -/
structure Machine where
  memory : Memory
  control : Control
  stack : List Frame
  /-- In the order in which they will be done. -/
  jobs : List Job
  host : Host
  /-- The outcome of the function that was asked for. -/
  outcome : Option (Except String Json)

namespace Machine

/-- Changes the memory, with a result. -/
def remember {α : Type} (m : Machine) (change : Memory → Memory × α) : Machine × α :=
  let (memory, a) := change m.memory
  ({ m with memory }, a)

/-- Changes the memory. -/
def update (m : Machine) (change : Memory → Memory) : Machine :=
  { m with memory := change m.memory }

/-- Changes the host. -/
def onHost (m : Machine) (change : Host → Host) : Machine :=
  { m with host := change m.host }

/-- Goes on with a value. -/
def give (m : Machine) (v : Value) : Machine :=
  { m with control := .value v }

/-- Goes on with nothing to give. -/
def done (m : Machine) : Machine :=
  { m with control := .complete .normal }

/-- Ends what is being done. -/
def finish (m : Machine) (c : Completion) : Machine :=
  { m with control := .complete c }

/-- Throws a value. -/
def throw (m : Machine) (v : Value) : Machine :=
  m.finish (.thrown v)

/-- Throws an error. -/
def raise (m : Machine) (c : ErrorClass) (message : String) : Machine :=
  let (m, e) := m.remember (·.makeError c message)
  m.throw e

/-- Puts a frame on the stack. -/
def push (m : Machine) (f : Frame) : Machine :=
  { m with stack := f :: m.stack }

/-- Evaluates an expression. -/
def eval (m : Machine) (e : Expr) (scope : ScopeId) : Machine :=
  { m with control := .eval e scope }

/-- Calls a value. -/
def call (m : Machine) (f receiver : Value) (args : List Value) : Machine :=
  { m with control := .call f receiver args }

/-- Adds a job. -/
def later (m : Machine) (j : Job) : Machine :=
  { m with jobs := m.jobs ++ [j] }

/-! ## Promises -/

/-- The job of a reaction to an outcome. -/
def Reaction.job (r : Reaction) (ok : Bool) (v : Value) : Job :=
  .react (if ok then r.fulfilled else r.rejected) r.derived ok v

/-- Settles a promise that is pending. -/
def settle (m : Machine) (promise : Ref) (ok : Bool) (v : Value) : Machine :=
  match m.memory.kind? promise with
  | some (.promise (.pending reactions)) =>
    let state := if ok then PromiseState.fulfilled v else .rejected v
    let m := m.update (·.setKind promise (.promise state))
    reactions.foldl (fun (m : Machine) r => m.later (Reaction.job r ok v)) m
  | _ => m

/-- Rejects a promise. -/
def reject (m : Machine) (promise : Ref) (v : Value) : Machine :=
  m.settle promise false v

/-- Resolves a promise: with a value that has a function `then` it follows that, with any other value it
is fulfilled. -/
def resolve (m : Machine) (promise : Ref) (v : Value) : Machine :=
  match v with
  | .object r =>
    if r == promise then
      let (m, e) := m.remember (·.makeError .type "cannot create a promise that resolves itself")
      m.reject promise e
    else
      match m.memory.member? v "then" with
      | some f => if m.memory.isCallable f then m.later (.adopt promise v f) else m.settle promise true v
      | none => m.settle promise true v
  | _ => m.settle promise true v

/-- Lets a reaction wait for a promise. -/
def react (m : Machine) (promise : Ref) (r : Reaction) : Machine :=
  match m.memory.kind? promise with
  | some (.promise (.pending reactions)) =>
    m.update (·.setKind promise (.promise (.pending (reactions ++ [r]))))
  | some (.promise (.fulfilled v)) => m.later (Reaction.job r true v)
  | some (.promise (.rejected v)) => m.later (Reaction.job r false v)
  | _ => m

/-- A promise of a value: the value itself if it is one. -/
def promiseOf (m : Machine) (v : Value) : Machine × Ref :=
  match v, m.memory.kindOf? v with
  | .object r, some (.promise _) => (m, r)
  | _, _ =>
    let (m, p) := m.remember Memory.makePromise
    (m.resolve p v, p)

/-- A promise that was rejected. -/
def rejectedPromise (m : Machine) (v : Value) : Machine × Ref :=
  let (m, p) := m.remember Memory.makePromise
  (m.reject p v, p)

/-- The handler of a value: a function is called, any other value hands the outcome on. -/
def handlerOf (m : Machine) (v : Value) : Handler :=
  if m.memory.isCallable v then .call v else .pass

/-- The promise of what comes after a promise. -/
def andThen (m : Machine) (promise : Ref) (fulfilled rejected : Value) : Machine × Ref :=
  let (m, derived) := m.remember Memory.makePromise
  (m.react promise ⟨some derived, m.handlerOf fulfilled, m.handlerOf rejected⟩, derived)

/-- Uses up a latch, and tells whether it was there to be used. -/
def trip (m : Machine) (latch : Ref) : Machine × Bool :=
  match m.memory.kind? latch with
  | some (.latch false) => (m.update (·.setKind latch (.latch true)), true)
  | _ => (m, false)

/-- Resolves a promise through its latch. -/
def fulfilOnce (m : Machine) (promise latch : Ref) (v : Value) : Machine :=
  let (m, first) := m.trip latch
  if first then m.resolve promise v else m

/-- Rejects a promise through its latch. -/
def refuseOnce (m : Machine) (promise latch : Ref) (v : Value) : Machine :=
  let (m, first) := m.trip latch
  if first then m.reject promise v else m

/-! ## Operations -/

/-- A new operation. It starts when the script is idle next, unless something starts it before. -/
def makeOperation (m : Machine) (ofShell : Bool) (fields : List (String × Value))
    (result : Builtin) : Machine :=
  let (m, payload) := m.remember (·.makeRecord fields)
  let (m, r) := m.remember (·.make ⟨.operation ofShell,
    [("_payload", payload), ("_finish", .builtin result), ("_promise", .undefined)]⟩)
  (m.later (.start r)).give (.object r)

/-- The operation that the payload of an object asks for. -/
def operationOf (m : Memory) (r : Ref) : Except String Operation :=
  match m.stringify "" ((m.field? r "_payload").getD .undefined) with
  | .error _ => .error "cyclic object value"
  | .ok text =>
    match ((Json.read (text.getD "null")).toOption).bind Operation.ofJson? with
    | none => .error "invalid operation"
    | some o => .ok o

/-- Starts work for an object, which keeps the promise of its result. -/
def launch (m : Machine) (r : Ref) (o : Operation) : Machine × Ref :=
  let (host, handle) := m.host.start o
  let m := { m with host }
  let (m, promise) := m.remember Memory.makePromise
  let (m, latch) := m.remember (·.makeKind (.latch false))
  let m := m.onHost (·.expect handle ⟨promise, latch⟩)
  let (m, result) := m.andThen promise ((m.memory.field? r "_finish").getD .undefined) .undefined
  (m.update (·.writeField r "_promise" (.object result)), result)

/-- Starts an operation unless it was started, and gives the promise of its result. An operation that
holds itself cannot be started. -/
def startOperation (m : Machine) (r : Ref) : Machine × Except String Ref :=
  match m.memory.field? r "_promise" with
  | some (.object p) => (m, .ok p)
  | _ =>
    match operationOf m.memory r with
    | .error message => (m, .error message)
    | .ok o =>
      let (m, p) := m.launch r o
      (m, .ok p)

/-! ## Tasks -/

/-- A result of a task as a value. -/
def makeResult (m : Machine) (r : TaskResult) : Machine × Value :=
  m.remember fun memory =>
    let (memory, output) := memory.load r.output
    memory.makeResult (.text r.status.label) output

/-- The outcome of a task whose function came to a value, or failed with it. A result that failed is a
failure too. -/
def outcomeOf (m : Memory) (ok : Bool) (v : Value) : Except String Json :=
  match ok, m.kindOf? v, m.member? v "hasFailed" with
  | true, some .result, some (.bool true) => .error (m.message v)
  | true, _, _ => .ok (m.data v)
  | false, _, _ => .error (m.message v)

/-- Ends a task of the script; none if there is no such task. -/
def endTask? (m : Machine) (task : Handle) (outcome : Except String Json) :
    Option (Machine × Value) :=
  (m.host.endTask? task outcome).map fun (host, result) => { m with host }.makeResult result

/-- Ends a task of the script, and goes on with its result. -/
def endTask (m : Machine) (task : Handle) (outcome : Except String Json)
    (next : Machine → Value → Machine) : Machine :=
  match m.endTask? task outcome with
  | none => m.raise .plain ("unknown task handle " ++ toString task)
  | some (m, v) => next m v

/-- The promise of a task's result, or under a lenient task of whether there was no failure. -/
def answerTask (m : Machine) (promise : Ref) (mode : TaskMode) : Machine :=
  match mode with
  | .lenient =>
    let (m, p) := m.andThen promise (.builtin .hasSucceeded) .undefined
    m.give (.object p)
  | _ => m.give (.object promise)

end Machine

end TaskRunner.Script
