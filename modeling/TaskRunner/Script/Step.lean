import TaskRunner.Script.Call

/-!
# Steps

One step of the machine: it evaluates an expression down to its first part, does a statement, hands a value
to the frame on top of the stack, or lets a completion run down the stack to the frame that it is for. A
function that waits takes its frames from the stack, and goes on when its promise is settled.
-/

namespace TaskRunner.Script.Machine

/-! ## Names -/

/-- Goes on with the value of a name. -/
def readName (m : Machine) (n : String) (scope : ScopeId) (next : Machine → Value → Machine) :
    Machine :=
  match m.memory.find? scope n with
  | some (_, ⟨some v, _⟩) => next m v
  | some (_, ⟨none, _⟩) => m.raise .reference "access to uninitialized binding"
  | none =>
    match Builtin.global? n with
    | some v => next m v
    | none => m.raise .reference (n ++ " is not defined")

/-- Assigns to a name; one that was never declared becomes a name of the outermost scope. -/
def assignName (m : Machine) (n : String) (v : Value) (scope : ScopeId)
    (next : Machine → Machine) : Machine :=
  match m.memory.find? scope n with
  | none => next (m.update (·.setName globalScope n ⟨some v, false⟩))
  | some (own, b) =>
    if b.constant then m.raise .type ("cannot mutate an immutable binding '" ++ n ++ "'")
    else if b.value.isNone then m.raise .reference "access to uninitialized binding"
    else next (m.update (·.setName own n ⟨some v, false⟩))

/-! ## Parts -/

/-- Evaluates the operands to come, or combines all of them. -/
def operands (m : Machine) (done : List Value) (todo : List Item) (scope : ScopeId)
    (combine : Combine) (all : Machine → Combine → List Value → Machine) : Machine :=
  match todo with
  | [] => all m combine done.reverse
  | .hole :: rest => operands m (.undefined :: done) rest scope combine all
  | .one e :: rest => (m.push (.operands done false rest scope combine)).eval e scope
  | .spread e :: rest => (m.push (.operands done true rest scope combine)).eval e scope

/-- Goes on with a member of a value. -/
def readMember (m : Machine) (v : Value) (key : String) (next : Machine → Value → Machine) : Machine :=
  match m.memory.member? v key with
  | some member => next m member
  | none => m.raise .type noMember

/-- Sets a member of a value. -/
def writeMember (m : Machine) (target : Value) (key : String) (v result : Value) : Machine :=
  if Memory.isPresent target then (m.update (·.setMember target key v)).give result
  else m.raise .type noMember

/-- Goes on with what an operator gives. -/
def applyBinary (m : Machine) (op : BinaryOp) (a b : Value) (next : Machine → Value → Machine) :
    Machine :=
  match m.memory.binary op a b with
  | .ok v => next m v
  | .error message => m.raise .type message

/-- Evaluates operands that are all there. -/
def operandsOf (m : Machine) (es : List Expr) (scope : ScopeId) (combine : Combine) : Machine :=
  match es with
  | [] => m.give .undefined
  | e :: rest => (m.push (.operands [] false (rest.map .one) scope combine)).eval e scope

/-- Changes a number that a member holds. -/
def countMember (m : Machine) (target : Value) (key : String) (step : Float) (old : Bool) : Machine :=
  m.readMember target key fun m v =>
    let before := m.memory.number v
    let after := Value.number (before + step)
    m.writeMember target key after (if old then .number before else after)

/-- The text of a template's chunks with values between them. -/
def joinTemplate (m : Memory) : List String → List Value → String
  | chunk :: chunks, v :: values => chunk ++ m.text v ++ joinTemplate m chunks values
  | chunk :: _, [] => chunk
  | [], _ => ""

/-- What is done with values. -/
def combine (m : Machine) (c : Combine) (values : List Value) : Machine :=
  match c, values with
  | .list, values =>
    let (m, v) := m.remember (·.makeList values)
    m.give v
  | .template chunks, values => m.give (.text (joinTemplate m.memory chunks values))
  | .unary op, [v] => m.give (m.memory.unary op v)
  | .binary op, [a, b] => m.applyBinary op a b give
  | .member key optional, [v] =>
    if optional && !Memory.isPresent v then m.finish .skip else m.readMember v key give
  | .index optional, [v, key] =>
    if optional && !Memory.isPresent v then m.finish .skip
    else m.readMember v (m.memory.text key) give
  | .setMember key, [target, v] => m.writeMember target key v v
  | .setIndex, [target, key, v] => m.writeMember target (m.memory.text key) v v
  | .readMember key op right scope, [target] =>
    m.readMember target key fun m old =>
      (m.push (.operands [old, target] false [] scope (.updateMember key op))).eval right scope
  | .readIndex op right scope, [target, key] =>
    m.readMember target (m.memory.text key) fun m old =>
      (m.push (.operands [old, key, target] false [] scope (.updateIndex op))).eval right scope
  | .updateMember key op, [target, old, right] =>
    m.applyBinary op old right fun m v => m.writeMember target key v v
  | .updateIndex op, [target, key, old, right] =>
    m.applyBinary op old right fun m v => m.writeMember target (m.memory.text key) v v
  | .countMember key step old, [target] => m.countMember target key step old
  | .countIndex step old, [target, key] => m.countMember target (m.memory.text key) step old
  | .call f receiver, args => m.call f receiver args
  | .create f, args => m.construct f args
  | _, _ => m.give .undefined

/-- Evaluates the arguments of a call. -/
def arguments (m : Machine) (f receiver : Value) (first : List Value) (args : List Item)
    (optional : Bool) (scope : ScopeId) : Machine :=
  if optional && !Memory.isPresent f then m.finish .skip
  else m.operands first args scope (.call f receiver) combine

/-- Goes on with the entries of a record. -/
def fillRecord (m : Machine) (record : Ref) (todo : List Entry) (scope : ScopeId) : Machine :=
  match todo with
  | [] => m.give (.object record)
  | .field key e :: rest => (m.push (.field record key rest scope)).eval e scope
  | .computed key e :: rest => (m.push (.key record e rest scope)).eval key scope
  | .spread e :: rest => (m.push (.fields record rest scope)).eval e scope

/-- The list of a tagged template's chunks, with the list of them as they are written. -/
def chunkList (m : Machine) (cooked raw : List String) : Machine × Value :=
  let (m, list) := m.remember (·.makeList (cooked.map .text))
  let (m, written) := m.remember (·.makeList (raw.map .text))
  match list with
  | .object r => (m.update (·.setField r "raw" written), list)
  | _ => (m, list)

/-- Calls the function of a tagged template. -/
def callTag (m : Machine) (f receiver : Value) (cooked raw : List String) (holes : List Expr)
    (scope : ScopeId) : Machine :=
  let (m, chunks) := m.chunkList cooked raw
  m.arguments f receiver [chunks] (holes.map .one) false scope

/-! ## Statements -/

/-- Goes on with statements. -/
def runBlock (m : Machine) (todo : List Stmt) (scope : ScopeId) : Machine :=
  match todo with
  | [] => m.done
  | s :: rest => { m.push (.block rest scope) with control := .exec s scope }

/-- Goes on with the parts of a declaration. -/
def declareNext (m : Machine) (todo : List (Pattern × Option Expr)) (scope : ScopeId) : Machine :=
  match todo with
  | [] => m.done
  | (p, some e) :: rest => (m.push (.declare p rest scope)).eval e scope
  | (p, none) :: rest =>
    { m.push (.declared rest scope) with control := .bind [(p, .undefined)] true scope }

/-- Opens a scope for statements and runs them. -/
def runInside (m : Machine) (body : List Stmt) (scope : ScopeId) : Machine :=
  let (m, inner) := m.remember (·.openScope scope [])
  (m.update (·.declare inner body)).runBlock body inner

/-- Opens a scope for the names of a pattern, binds them, and runs statements. -/
def runBound (m : Machine) (how : Declaration) (p : Pattern) (v : Value) (body : List Stmt)
    (scope : ScopeId) : Machine :=
  let names := p.names.map fun n => (n, (⟨none, how == .constant⟩ : Binding))
  let (m, inner) := m.remember (·.openScope scope names)
  { m.push (.bound body inner) with control := .bind [(p, v)] true inner }

/-- Looks whether a loop goes on. -/
def testLoop (m : Machine) (l : Loop) (scope : ScopeId) : Machine :=
  let m := m.push (.loopTest l scope)
  match l.test with
  | some e => m.eval e scope
  | none => m.give (.bool true)

/-- Goes on with a loop behind its body. Functions of the body keep the names as they were. -/
def updateLoop (m : Machine) (l : Loop) (scope : ScopeId) : Machine :=
  let (m, next) := m.remember (·.copyScope scope)
  let m := m.push (.loopUpdate l next)
  match l.update with
  | some e => m.eval e next
  | none => m.give .undefined

/-- Goes on with the items of a loop. -/
def nextItem (m : Machine) (how : Declaration) (p : Pattern) (body : Stmt) (todo : List Value)
    (scope : ScopeId) : Machine :=
  match todo with
  | [] => m.done
  | v :: rest => (m.push (.item how p body rest scope)).runBound how p v [body] scope

/-- Runs what follows tried statements, and ends as they did. -/
def conclude (m : Machine) (finalizer : Option (List Stmt)) (scope : ScopeId) (c : Completion) :
    Machine :=
  match finalizer with
  | none => m.finish c
  | some body => (m.push (.afterward c)).runInside body scope

/-- Handles the end of tried statements. -/
def handle (m : Machine) (handler : Option (Option Pattern × List Stmt))
    (finalizer : Option (List Stmt)) (scope : ScopeId) (c : Completion) : Machine :=
  match c, handler with
  | .thrown v, some (p, body) =>
    let m := match finalizer with
      | some f => m.push (.ensure f scope)
      | none => m
    match p with
    | some p => m.runBound .changeable p v [.block body] scope
    | none => m.runInside body scope
  | _, _ => m.conclude finalizer scope c

/-- Does a statement. -/
def execute (m : Machine) (s : Stmt) (scope : ScopeId) : Machine :=
  match s with
  | .empty | .function _ => m.done
  | .expr e => (m.push .drop).eval e scope
  | .declare _ parts => m.declareNext parts scope
  | .block body => m.runInside body scope
  | .choose test yes no => (m.push (.branch yes no scope)).eval test scope
  | .loop start test update body =>
    let l : Loop := ⟨test, update, body⟩
    let (m, inner) := m.remember (·.openScope scope [])
    let m := m.push (.loopStart l inner)
    match start with
    | none => m.done
    | some s => { m.update (·.declare inner [s]) with control := .exec s inner }
  | .forOf how p items body => (m.push (.items how p body scope)).eval items scope
  | .give none => m.finish (.returned .undefined)
  | .give (some e) => (m.push .give).eval e scope
  | .throw e => (m.push .throw).eval e scope
  | .attempt body handler finalizer => (m.push (.attempt handler finalizer scope)).runInside body scope
  | .leave => m.finish .leave
  | .next => m.finish .next

/-! ## Expressions -/

/-- Evaluates a call. -/
def evalCall (m : Machine) (callee : Expr) (args : List Item) (optional : Bool) (scope : ScopeId) :
    Machine :=
  match callee with
  | .member e key step => (m.push (.method key args step optional scope)).eval e scope
  | .index e key step => (m.push (.methodKey key args step optional scope)).eval e scope
  | _ => (m.push (.callee args optional scope)).eval callee scope

/-- Evaluates an assignment. -/
def evalAssign (m : Machine) (target : Target) (e : Expr) (scope : ScopeId) : Machine :=
  match target with
  | .pattern p => (m.push (.assign p scope)).eval e scope
  | .member t key => m.operandsOf [t, e] scope (.setMember key)
  | .index t key => m.operandsOf [t, key, e] scope .setIndex

/-- Evaluates an assignment that takes the old value in. -/
def evalUpdate (m : Machine) (target : Target) (op : BinaryOp) (e : Expr) (scope : ScopeId) :
    Machine :=
  match target with
  | .pattern (.name n) => m.readName n scope fun m old => (m.push (.update n op old scope)).eval e scope
  | .member t key => m.operandsOf [t] scope (.readMember key op e scope)
  | .index t key => m.operandsOf [t, key] scope (.readIndex op e scope)
  | .pattern _ => m.give .undefined

/-- Evaluates a step of a number. -/
def evalCount (m : Machine) (target : Target) (step : Float) (old : Bool) (scope : ScopeId) :
    Machine :=
  match target with
  | .pattern (.name n) => m.readName n scope fun m v =>
    let before := m.memory.number v
    let after := Value.number (before + step)
    m.assignName n after scope (·.give (if old then .number before else after))
  | .member t key => m.operandsOf [t] scope (.countMember key step old)
  | .index t key => m.operandsOf [t, key] scope (.countIndex step old)
  | .pattern _ => m.give .undefined

/-- Evaluates an expression. -/
def evaluate (m : Machine) (e : Expr) (scope : ScopeId) : Machine :=
  match e with
  | .null => m.give .null
  | .bool b => m.give (.bool b)
  | .number x => m.give (.number x)
  | .text s => m.give (.text s)
  | .this =>
    match m.memory.find? scope "this" with
    | some (_, ⟨some v, _⟩) => m.give v
    | _ => m.give (.builtin .globals)
  | .name n => m.readName n scope give
  | .template chunks holes => m.operands [] (holes.map .one) scope (.template chunks) combine
  | .tagged tag cooked raw holes =>
    match tag with
    | .member e key false => (m.push (.tagMethod key cooked raw holes scope)).eval e scope
    | _ => (m.push (.tag cooked raw holes scope)).eval tag scope
  | .list items => m.operands [] items scope .list combine
  | .record entries =>
    let (m, r) := m.remember (·.makeKind .record)
    m.fillRecord r entries scope
  | .function f =>
    let (m, v) := m.remember (·.makeFunction f scope)
    m.give v
  | .unary .typeName (.name n) =>
    if (m.memory.find? scope n).isNone && (Builtin.global? n).isNone then m.give (.text "undefined")
    else m.operandsOf [.name n] scope (.unary .typeName)
  | .unary op a => m.operandsOf [a] scope (.unary op)
  | .binary op a b => m.operandsOf [a, b] scope (.binary op)
  | .logic op a b => (m.push (.logic op b scope)).eval a scope
  | .choose test a b => (m.push (.choose a b scope)).eval test scope
  | .assign target e => m.evalAssign target e scope
  | .update target op e => m.evalUpdate target op e scope
  | .count target step old => m.evalCount target step old scope
  | .member e key optional => m.operandsOf [e] scope (.member key optional)
  | .index e key optional => m.operandsOf [e, key] scope (.index optional)
  | .call callee args optional => m.evalCall callee args optional scope
  | .create callee args => (m.push (.newOf args scope)).eval callee scope
  | .await e => (m.push .await).eval e scope
  | .sequence a b => (m.push (.sequence b scope)).eval a scope
  | .chain e => (m.push .chain).eval e scope

/-! ## Patterns -/

/-- Values for the items of a list pattern. -/
def listWork : List (Option Pattern) → List Value → List (Pattern × Value) × List Value
  | [], values => ([], values)
  | p :: more, values =>
    let (work, rest) := listWork more (values.drop 1)
    (p.toList.map (·, (values.head?).getD .undefined) ++ work, rest)

/-- Takes values apart by patterns, and declares their names or assigns to them. -/
def bind (m : Machine) (todo : List (Pattern × Value)) (declares : Bool) (scope : ScopeId) :
    Machine :=
  match todo with
  | [] => m.done
  | (.name n, v) :: rest =>
    let next := fun (m : Machine) => { m with control := .bind rest declares scope }
    if declares then next (m.update (·.setFirst scope n v)) else m.assignName n v scope next
  | (.withDefault p e, v) :: rest =>
    match v with
    | .undefined => (m.push (.fallback p rest declares scope)).eval e scope
    | _ => { m with control := .bind ((p, v) :: rest) declares scope }
  | (.list items last, v) :: rest =>
    match m.memory.itemsOf? v with
    | none => m.raise .type (notIterable m.memory v)
    | some values =>
      let (work, behind) := listWork items values
      let (m, more) : Machine × List (Pattern × Value) := match last with
        | none => (m, [])
        | some p =>
          let (m, list) := m.remember (·.makeList behind)
          (m, [(p, list)])
      { m with control := .bind (work ++ more ++ rest) declares scope }
  | (.record fields last, v) :: rest =>
    match v with
    | .undefined | .null =>
      m.raise .type ("Cannot destructure '" ++ m.memory.text v ++ "' value")
    | _ =>
      let work := fields.map fun (key, p) => (p, (m.memory.member? v key).getD .undefined)
      let (m, more) : Machine × List (Pattern × Value) := match last with
        | none => (m, [])
        | some n =>
          let taken := fields.map Prod.fst
          let others := (entriesOf m.memory v).filter fun entry => !taken.contains entry.1
          let (m, record) := m.remember (·.makeRecord others)
          (m, [(.name n, record)])
      { m with control := .bind (work ++ more ++ rest) declares scope }

/-! ## The stack -/

/-- The frames of the function that waits, its promise, and the frames around it. -/
def cutAtFunction : List Frame → Option (List Frame × Ref × List Frame)
  | [] => none
  | .asyncBody p :: rest => some ([.asyncBody p], p, rest)
  | f :: rest => (cutAtFunction rest).map fun (own, p, outer) => (f :: own, p, outer)

/-- Lets the function wait for a value. -/
def wait (m : Machine) (v : Value) : Machine :=
  match cutAtFunction m.stack with
  | none => m.give v
  | some (own, promise, outer) =>
    let (m, awaited) := m.promiseOf v
    let m := m.react awaited ⟨none, .resume own, .resume own⟩
    { m with stack := outer }.give (.object promise)

/-- Goes on with a call whose function is a member of a value. -/
def callMember (m : Machine) (receiver : Value) (key : String) (args : List Item)
    (optional : Bool) (scope : ScopeId) : Machine :=
  m.readMember receiver key fun m f => m.arguments f receiver [] args optional scope

/-- Goes on with the promise of a task whose function gave a value. -/
def finishTask (m : Machine) (task : Handle) (mode : TaskMode) (v : Value) : Machine :=
  let (m, p) := m.promiseOf v
  let (m, result) := m.remember Memory.makePromise
  (m.react p ⟨some result, .endTask task, .endTask task⟩).answerTask result mode

/-- Goes on with the promise of a task whose function threw a value. -/
def breakTask (m : Machine) (task : Handle) (mode : TaskMode) (v : Value) : Machine :=
  m.endTask task (outcomeOf m.memory false v) fun m result =>
    let (m, p) := m.promiseOf result
    m.answerTask p mode

/-- What a function that visits a list's items makes of the results so far. -/
def visited (v : Visit) (current result : Value) (done : List Value) : List Value :=
  match v with
  | .map => result :: done
  | .filter => if Memory.isTruthy result then current :: done else done
  | .each => done

/-- Hands a value to a frame. -/
def receive (m : Machine) (f : Frame) (v : Value) : Machine :=
  match f with
  | .operands done false todo scope c => m.operands (v :: done) todo scope c combine
  | .operands done true todo scope c =>
    match m.memory.itemsOf? v with
    | some values => m.operands (values.reverse ++ done) todo scope c combine
    | none => m.raise .type (notIterable m.memory v)
  | .choose a b scope => m.eval (if Memory.isTruthy v then a else b) scope
  | .logic op right scope =>
    let goesOn := match op with
      | .and => Memory.isTruthy v
      | .or => !Memory.isTruthy v
      | .otherwise => !Memory.isPresent v
    if goesOn then m.eval right scope else m.give v
  | .sequence e scope => m.eval e scope
  | .await => m.wait v
  | .assign p scope => { m.push (.answer v) with control := .bind [(p, v)] false scope }
  | .update n op old scope =>
    m.applyBinary op old v fun m v => m.assignName n v scope (·.give v)
  | .field record key todo scope => (m.update (·.setField record key v)).fillRecord record todo scope
  | .key record e todo scope => (m.push (.field record (m.memory.text v) todo scope)).eval e scope
  | .fields record todo scope =>
    let entries := entriesOf m.memory v
    (m.update fun memory => entries.foldl (fun (memory : Memory) (key, v) =>
      memory.setField record key v) memory).fillRecord record todo scope
  | .callee args optional scope => m.arguments v .undefined [] args optional scope
  | .method key args step optional scope =>
    if step && !Memory.isPresent v then m.finish .skip else m.callMember v key args optional scope
  | .methodKey key args step optional scope =>
    if step && !Memory.isPresent v then m.finish .skip
    else (m.push (.methodOf v args optional scope)).eval key scope
  | .methodOf receiver args optional scope =>
    m.callMember receiver (m.memory.text v) args optional scope
  | .tag cooked raw holes scope => m.callTag v .undefined cooked raw holes scope
  | .tagMethod key cooked raw holes scope =>
    m.readMember v key fun m f => m.callTag f v cooked raw holes scope
  | .newOf args scope => m.operands [] args scope (.create v) combine
  | .fallback p todo declares scope => { m with control := .bind ((p, v) :: todo) declares scope }
  | .drop => m.done
  | .declare p todo scope =>
    { m.push (.declared todo scope) with control := .bind [(p, v)] true scope }
  | .branch yes no scope => { m with control := .exec (if Memory.isTruthy v then yes else no) scope }
  | .give => m.finish (.returned v)
  | .throw => m.throw v
  | .loopTest l scope =>
    if Memory.isTruthy v then { m.push (.loopBody l scope) with control := .exec l.body scope }
    else m.done
  | .loopUpdate l scope => m.testLoop l scope
  | .items how p body scope =>
    match m.memory.itemsOf? v with
    | some values => m.nextItem how p body values scope
    | none => m.raise .type (notIterable m.memory v)
  | .created record => m.give (if Memory.isObject v then v else .object record)
  | .executor promise _ => m.give (.object promise)
  | .reaction derived => (m.resolve derived v).give .undefined
  | .visit how f list current done todo index =>
    m.visitNext how f list (visited how current v done) todo (index + 1)
  | .taskBody task mode => m.finishTask task mode v
  | .lines path lines =>
    let texts := match m.memory.kind? lines with
      | some (.list items) => items.toList.map m.memory.text
      | _ => []
    m.writeOf path ("\n".intercalate texts ++ "\n")
  | .parallel done todo => m.parallelNext (v :: done) todo
  | .invoke args => (m.push .invoked).call v .undefined args
  | .invoked =>
    let (m, p) := m.promiseOf v
    (m.andThen p (.builtin (.settled true)) (.builtin (.settled false))).1.give .undefined
  | _ => m.give v

/-- Lets a completion reach a frame. -/
def reach (m : Machine) (f : Frame) (c : Completion) : Machine :=
  match f, c with
  | .block todo scope, .normal | .bound todo scope, .normal => m.runBlock todo scope
  | .declared todo scope, .normal => m.declareNext todo scope
  | .answer v, .normal => m.give v
  | .loopStart l scope, .normal => m.testLoop l scope
  | .loopBody l scope, .normal | .loopBody l scope, .next => m.updateLoop l scope
  | .loopBody _ _, .leave => m.done
  | .item how p body todo scope, .normal | .item how p body todo scope, .next =>
    m.nextItem how p body todo scope
  | .item _ _ _ _ _, .leave => m.done
  | .attempt handler finalizer scope, c => m.handle handler finalizer scope c
  | .ensure finalizer scope, c => m.conclude (some finalizer) scope c
  | .afterward before, .normal => m.finish before
  | .body, .normal => m.give .undefined
  | .body, .returned v => m.give v
  | .asyncBody p, .normal => (m.resolve p .undefined).give (.object p)
  | .asyncBody p, .returned v => (m.resolve p v).give (.object p)
  | .asyncBody p, .thrown v => (m.reject p v).give (.object p)
  | .executor p latch, .thrown v => (m.refuseOnce p latch v).give (.object p)
  | .reaction derived, .thrown v => (m.reject derived v).give .undefined
  | .adoption p latch, .thrown v => (m.refuseOnce p latch v).give .undefined
  | .taskBody task mode, .thrown v => m.breakTask task mode v
  | .invoked, .thrown v =>
    { m with outcome := some (.error (m.memory.message v)) }.give .undefined
  | .chain, .skip => m.give .undefined
  | _, c => m.finish c

/-- One step; none when the script is idle. -/
def step? (m : Machine) : Option Machine :=
  match m.control, m.stack with
  | .eval e scope, _ => some (m.evaluate e scope)
  | .exec s scope, _ => some (m.execute s scope)
  | .bind todo declares scope, _ => some (m.bind todo declares scope)
  | .call f receiver args, _ => some (m.enter f receiver args)
  | .value _, [] | .complete _, [] => none
  | .value v, f :: rest => some ({ m with stack := rest }.receive f v)
  | .complete c, f :: rest => some ({ m with stack := rest }.reach f c)

end TaskRunner.Script.Machine
