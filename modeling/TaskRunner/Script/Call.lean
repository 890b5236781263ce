import TaskRunner.Script.Machine

/-!
# Calls

What calling a value does: a function of the script gets a scope for its parameters and its body, and a
built-in one acts at once or puts a frame on the stack for a function that it calls.
-/

namespace TaskRunner.Script.Machine

/-- An argument. -/
def arg (args : List Value) (i : Nat) : Value :=
  (args[i]?).getD .undefined

/-- What is thrown when a member of `null` or `undefined` is wanted. -/
def noMember : String := "cannot convert 'null' or 'undefined' to object"

/-- What is thrown when something else than a function is called. -/
def noFunction : String := "not a callable function"

/-- What is thrown when the items of another value than a list are wanted. -/
def notIterable (m : Memory) (v : Value) : String :=
  if Memory.isPresent v then "value with type \x60" ++ m.typeName v ++ "\x60 is not iterable" else noMember

/-! ## Functions of the script -/

/-- The patterns of parameters with their arguments. -/
def parameterWork (m : Machine) (f : Function) (args : List Value) :
    Machine × List (Pattern × Value) :=
  let named := f.params.mapIdx fun i p => (p, arg args i)
  match f.rest with
  | none => (m, named)
  | some p =>
    let (m, rest) := m.remember (·.makeList (args.drop f.params.length))
    (m, named ++ [(p, rest)])

/-- Calls a function of the script. -/
def callClosure (m : Machine) (c : Closure) (receiver : Value) (args : List Value) : Machine :=
  let f := c.function
  let own := if f.isArrow then [] else [("this", (⟨some receiver, false⟩ : Binding))]
  let (m, scope) := m.remember (·.openScope c.scope own)
  let m := m.update (·.declare scope f.body)
  let (m, work) := m.parameterWork f args
  let m :=
    if f.isAsync then
      let (m, p) := m.remember Memory.makePromise
      m.push (.asyncBody p)
    else m.push .body
  let m := m.push (.bound f.body scope)
  { m with control := .bind work true scope }

/-! ## Values that built-in functions take apart -/

/-- The text of a template's parts with values between them, or of another value. -/
def templateText (m : Memory) (args : List Value) : String :=
  let first := arg args 0
  match m.kindOf? first, (m.member? first "raw").bind m.kindOf? with
  | some (.list chunks), some (.list _) =>
    let values := (args.drop 1).map m.text
    let pieces := chunks.toList.mapIdx fun i chunk => m.text chunk ++ (values[i]?).getD ""
    String.join pieces
  | _, _ => m.text first

/-- The keys and values of an object; a value that does not count as true has none. -/
def entriesOf (m : Memory) (v : Value) : List (String × Value) :=
  if Memory.isTruthy v then
    (m.keysOfValue v).map fun key => (key, (m.member? v key).getD .undefined)
  else []

/-- Values as a line of a message. -/
def messageOf (m : Memory) (args : List Value) : String :=
  " ".intercalate (args.map fun v =>
    match v, m.kindOf? v with
    | .text s, _ => s
    | .undefined, _ => "undefined"
    | _, some (.error _) => m.message v
    | _, _ => m.jsonText v)

/-- The exit code that a number asks for. -/
def exitCodeOf (x : Float) : Int :=
  if x.isNaN then 0 else max (-2147483648) (min 2147483647 (Number.truncate x))

/-- The operations among values. -/
def operationsOf (m : Memory) (values : List Value) : List Ref :=
  values.filterMap fun v =>
    match v, m.kindOf? v with
    | .object r, some (.operation _) => some r
    | _, _ => none

/-- Values with the items of lists among them in their place. -/
def flattened (m : Memory) (values : List Value) : List Value :=
  values.flatMap fun v =>
    match m.kindOf? v with
    | some (.list items) => items.toList
    | _ => [v]

/-- The promise of the values of all promises in a list. -/
def gatherAll (m : Machine) (values : List Value) : Machine × Ref :=
  let (m, promise) := m.remember Memory.makePromise
  let (m, latch) := m.remember (·.makeKind (.latch false))
  let blank := Array.replicate values.length Value.undefined
  let (m, into) := m.remember (·.makeKind (.gathering blank values.length promise))
  if values.isEmpty then
    let (m, list) := m.remember (·.makeList [])
    (m.resolve promise list, promise)
  else
    let m := (values.mapIdx fun i v => (i, v)).foldl (fun (m : Machine) (i, v) =>
      let (m, p) := m.promiseOf v
      (m.andThen p (.builtin (.gather into i)) (.builtin (.refuse promise latch))).1) m
    (m, promise)

/-- Takes in the value of one of several promises. -/
def takeIn (m : Machine) (into : Ref) (index : Nat) (v : Value) : Machine :=
  match m.memory.kind? into with
  | some (.gathering values missing promise) =>
    let values := values.set! index v
    let m := m.update (·.setKind into (.gathering values (missing - 1) promise))
    if missing ≤ 1 then
      let (m, list) := m.remember (·.makeList values.toList)
      m.resolve promise list
    else m
  | _ => m

/-- Makes an error with a message, if it has one. -/
def makeError (m : Machine) (c : ErrorClass) (args : List Value) : Machine :=
  let fields := match arg args 0 with
    | .undefined => []
    | v => [("message", Value.text (m.memory.text v))]
  let (m, r) := m.remember (·.make ⟨.error c, fields⟩)
  m.give (.object r)

/-- Gives the promise that comes after another one. -/
def follow (m : Machine) (promise : Ref) (fulfilled rejected : Value) : Machine :=
  let (m, p) := m.andThen promise fulfilled rejected
  m.give (.object p)

/-- Adds fields to the record that an operation is asked for with. -/
def amend (m : Machine) (operation : Ref) (change : Memory → Ref → Memory) : Machine :=
  match m.memory.field? operation "_payload" with
  | some (.object payload) => m.update (change · payload)
  | _ => m

/-- Sets environment variables of a command. -/
def addVariables (m : Memory) (payload : Ref) (vars : List (String × Value)) : Memory :=
  match m.field? payload "env" with
  | some (.object env) =>
    vars.foldl (fun (memory : Memory) (key, v) => memory.setField env key (.text (m.text v))) m
  | _ => m

/-- The response of a request from its reply; one that was never answered is empty. -/
def makeResponse (m : Machine) (raw : Value) : Machine :=
  let part := fun (v : Value) (key : String) => (m.memory.member? v key).getD .undefined
  let response := part raw "response"
  let answered := Memory.isTruthy response
  let status := if answered then part response "status" else .number 0
  let code := m.memory.number status
  let body := if answered then part response "body"
    else match part raw "output" with
      | .text s => .text s
      | _ => .text ""
  let (m, headers) := if answered then (m, part response "headers")
    else m.remember (·.makeRecord [])
  let (m, result) := m.remember (·.makeResult (part raw "status") (part raw "output"))
  let (m, r) := m.remember (·.make ⟨.response,
    [("url", if answered then part response "url" else .text ""), ("status", status),
      ("statusText", if answered then part response "statusText" else .text ""),
      ("headers", headers), ("ok", .bool (code ≥ 200 && code < 300)), ("result", result),
      ("_body", body)]⟩)
  m.give (.object r)

/-- Asks for a request. -/
def fetchOf (m : Machine) (args : List Value) : Machine :=
  let (m, options) := match arg args 1 with
    | .undefined => m.remember (·.makeRecord [])
    | v => (m, v)
  let memory := m.memory
  match memory.member? options "headers", memory.member? options "method",
      memory.member? options "body" with
  | some headers, some method, some body =>
    let fields := (entriesOf memory headers).map fun (key, v) => (key, Value.text (memory.text v))
    let method := if Memory.isTruthy method then memory.text method else "GET"
    let body := match body with
      | .undefined => .null
      | v => v
    let (m, headers) := m.remember (·.makeRecord fields)
    m.makeOperation false
      [("kind", .text "fetch"), ("url", .text (memory.text (arg args 0))), ("method", .text method),
        ("headers", headers), ("body", body)] .responseOfReply
  | _, _, _ => m.raise .type noMember

/-- Asks for a file with a content. -/
def writeOf (m : Machine) (path : Value) (content : String) : Machine :=
  m.makeOperation false
    [("kind", .text "writeToFile"), ("path", .text (m.memory.text path)), ("content", .text content)]
    .resultOfReply

/-- The indentation that an argument asks for. -/
def gapOf (v : Value) : String :=
  match v with
  | .number x => String.ofList (List.replicate (min 10 (Number.truncate x).toNat) ' ')
  | .text s => String.ofList (s.toList.take 10)
  | _ => ""

/-- Gives the JSON text of a value. -/
def giveJson (m : Machine) (gap : String) (v : Value) : Machine :=
  match m.memory.stringify gap v with
  | .ok (some text) => m.give (.text text)
  | .ok none => m.give .undefined
  | .error _ => m.raise .type "cyclic object value"

/-- Gives the value of a JSON text. -/
def giveParsed (m : Machine) (text : String) : Machine :=
  match Json.readAsWritten text with
  | .ok j =>
    let (m, v) := m.remember (·.load j)
    m.give v
  | .error e => m.raise .malformed e.message

/-- Goes on with a list that functions visit: gives the list of what came of it, or calls the function
with the next item. -/
def visitNext (m : Machine) (v : Visit) (f list : Value) (done todo : List Value) (index : Nat) :
    Machine :=
  match todo with
  | [] =>
    match v with
    | .each => m.give .undefined
    | _ =>
      let (m, result) := m.remember (·.makeList done.reverse)
      m.give result
  | item :: rest =>
    (m.push (.visit v f list item done rest index)).call f .undefined [item, Memory.ofNat index, list]

/-- Goes on with what is started together: functions among it are called. -/
def parallelNext (m : Machine) (done todo : List Value) : Machine :=
  match todo.span fun v => !m.memory.isCallable v with
  | (plain, []) =>
    let (m, p) := m.gatherAll (done.reverse ++ plain)
    m.give (.object p)
  | (plain, f :: rest) => (m.push (.parallel (plain.reverse ++ done) rest)).call f .undefined []

/-- Starts all operations among values; the first that cannot be started stops this. -/
def startAll (m : Machine) : List Ref → Except Machine Machine
  | [] => .ok m
  | r :: rest =>
    match m.startOperation r with
    | (m, .ok _) => startAll m rest
    | (m, .error message) => .error (m.raise .type message)

/-- Calls a built-in function that calls no other one. -/
def callPlain (m : Machine) (b : Builtin) (receiver : Value) (args : List Value) : Machine :=
  let memory := m.memory
  let operation := fun (act : Ref → Machine) =>
    match receiver, memory.kindOf? receiver with
    | .object r, some (.operation _) => act r
    | _, _ => m.raise .type noFunction
  let started := fun (r : Ref) (next : Machine → Ref → Machine) =>
    match m.startOperation r with
    | (m, .ok p) => next m p
    | (m, .error message) => m.raise .type message
  let promise := fun (act : Ref → Machine) =>
    match receiver, memory.kindOf? receiver with
    | .object r, some (.promise _) => act r
    | _, _ => m.raise .type noFunction
  let list := fun (act : Ref → Array Value → Machine) =>
    match receiver, memory.kindOf? receiver with
    | .object r, some (.list items) => act r items
    | _, _ => m.raise .type noFunction
  let present := fun (act : Value → Machine) =>
    if Memory.isPresent (arg args 0) then act (arg args 0) else m.raise .type noMember
  let giveList := fun (values : List Value) =>
    let (m, v) := m.remember (·.makeList values)
    m.give v
  match b with
  | .loader => m.give (.builtin (.module (memory.text (arg args 0))))
  | .missing name key =>
    m.raise .plain ("'" ++ key ++ "' from module '" ++ name ++ "' is not available in bunosh scripts")
  | .exec =>
    let (m, env) := m.remember (·.makeRecord [])
    m.makeOperation true [("kind", .text "exec"), ("command", .text (templateText memory args)),
      ("cwd", .null), ("env", env)] .resultOfReply
  | .fetch => m.fetchOf args
  | .ai =>
    let (m, schema) := match arg args 1 with
      | .undefined => m.remember (·.makeRecord [])
      | v => (m, v)
    m.makeOperation false
      [("kind", .text "ai"), ("prompt", .text (memory.text (arg args 0))), ("schema", schema)]
      .resultOfReply
  | .say loud => (m.onHost (·.onSession (·.say (messageOf memory args) loud))).give .undefined
  | .log channel =>
    (m.onHost (·.onSession (·.print channel (messageOf memory args ++ "\n")))).give .undefined
  | .turnOn switch =>
    (m.onHost (·.onSession fun s => { s with switches := switch.turnOn s.switches })).give .undefined
  | .currentDirectory => m.give (.text m.host.services.baseDir)
  | .exit =>
    let code := match arg args 0 with
      | .undefined => 0
      | v => exitCodeOf (memory.number v)
    (m.onHost (·.onSession (·.exit code))).give .undefined
  | .makeResult status =>
    let (m, v) := m.remember (·.makeResult (.text status.label) (arg args 0))
    m.give v
  | .resultOf | .resultOfReply =>
    match memory.member? (arg args 0) "status", memory.member? (arg args 0) "output" with
    | some status, some output =>
      let (m, v) := m.remember (·.makeResult status output)
      m.give v
    | _, _ => m.raise .type noMember
  | .responseOfReply => m.makeResponse (arg args 0)
  | .startOperation => operation fun r => started r fun m p => m.give (.object p)
  | .operationThen => operation fun r => started r fun m p => m.follow p (arg args 0) (arg args 1)
  | .operationCatch => operation fun r => started r fun m p => m.follow p .undefined (arg args 0)
  | .runIn => operation fun r =>
    (m.amend r fun memory payload =>
      memory.setField payload "cwd" (.text (memory.text (arg args 0)))).give receiver
  | .runWith => operation fun r =>
    (m.amend r fun memory payload =>
      addVariables memory payload (entriesOf memory (arg args 0))).give receiver
  | .responseText =>
    let (m, p) := m.promiseOf ((memory.member? receiver "_body").getD .undefined)
    m.give (.object p)
  | .responseJson =>
    match Json.readAsWritten (memory.text ((memory.member? receiver "_body").getD .undefined)) with
    | .ok j =>
      let (m, v) := m.remember (·.load j)
      let (m, p) := m.promiseOf v
      m.give (.object p)
    | .error e =>
      let (m, v) := m.remember (·.makeError .malformed e.message)
      let (m, p) := m.rejectedPromise v
      m.give (.object p)
  | .addLine lines =>
    match memory.kind? lines with
    | some (.list items) =>
      (m.update (·.setKind lines (.list (items.push (.text (templateText memory args)))))).give .undefined
    | _ => m.give .undefined
  | .resolved =>
    let (m, p) := m.promiseOf (arg args 0)
    m.give (.object p)
  | .rejected =>
    let (m, p) := m.rejectedPromise (arg args 0)
    m.give (.object p)
  | .all =>
    match memory.itemsOf? (arg args 0) with
    | some values =>
      let (m, p) := m.gatherAll values
      m.give (.object p)
    | none =>
      let (m, v) := m.remember (·.makeError .type (notIterable memory (arg args 0)))
      let (m, p) := m.rejectedPromise v
      m.give (.object p)
  | .promiseThen => promise fun p => m.follow p (arg args 0) (arg args 1)
  | .promiseCatch => promise fun p => m.follow p .undefined (arg args 0)
  | .fulfil promise latch => (m.fulfilOnce promise latch (arg args 0)).give .undefined
  | .refuse promise latch => (m.refuseOnce promise latch (arg args 0)).give .undefined
  | .gather into index => (m.takeIn into index (arg args 0)).give .undefined
  | .hasSucceeded => m.give ((memory.member? (arg args 0) "hasSucceeded").getD .undefined)
  | .settled ok =>
    let outcome := if ok then .ok (memory.data (arg args 0)) else .error (memory.message (arg args 0))
    { m with outcome := some outcome }.give .undefined
  | .stringify => m.giveJson (gapOf (arg args 2)) (arg args 0)
  | .parse => m.giveParsed (memory.text (arg args 0))
  | .keys => present fun v => giveList ((memory.keysOfValue v).map .text)
  | .values => present fun v => giveList ((entriesOf memory v).map Prod.snd)
  | .entries => present fun v =>
    let (m, pairs) := (entriesOf memory v).foldl (fun (acc : Machine × List Value) (key, item) =>
      let (m, pair) := acc.1.remember (·.makeList [.text key, item])
      (m, acc.2 ++ [pair])) (m, [])
    let (m, list) := m.remember (·.makeList pairs)
    m.give list
  | .isList => m.give (.bool (match memory.kindOf? (arg args 0) with
    | some (.list _) => true
    | _ => false))
  | .listClass => giveList args
  | .objectClass =>
    if Memory.isPresent (arg args 0) then m.give (arg args 0)
    else
      let (m, v) := m.remember (·.makeRecord [])
      m.give v
  | .textClass => m.give (.text (if args.isEmpty then "" else memory.text (arg args 0)))
  | .numberClass => m.give (.number (if args.isEmpty then 0 else memory.number (arg args 0)))
  | .boolClass => m.give (.bool (Memory.isTruthy (arg args 0)))
  | .errorClass c => m.makeError c args
  | .push => list fun r items =>
    let items := items ++ args.toArray
    (m.update (·.setKind r (.list items))).give (Memory.ofNat items.size)
  | .join => list fun _ items =>
    let mark := match arg args 0 with
      | .undefined => ","
      | v => memory.text v
    m.give (.text (mark.intercalate (items.toList.map fun v =>
      if Memory.isPresent v then memory.text v else "")))
  | .includes => list fun _ items => m.give (.bool (items.toList.any (Memory.isSame (arg args 0))))
  | .concat => list fun _ items => giveList (items.toList ++ flattened memory args)
  | .resultClass | .promiseClass => m.raise .type "class constructor cannot be called without new"
  | _ => m.raise .type noFunction

/-- Starts a task with a function; another value counts as a function that gives it. -/
def callTask (m : Machine) (mode : TaskMode) (name f : Value) : Machine :=
  let label := if Memory.isPresent name then m.memory.text name else ""
  let isCallable := m.memory.isCallable f
  let source := if isCallable then m.memory.text f else functionText "fn"
  let (host, task) := m.host.beginTask label source mode
  let m := { m with host }.push (.taskBody task mode)
  if isCallable then m.call f .undefined [] else m.give f

/-- Asks for a file whose content is a text, the lines that a function adds, or data. -/
def callWrite (m : Machine) (path content : Value) : Machine :=
  if m.memory.isCallable content then
    let (m, lines) := m.remember (·.makeKind (.list #[]))
    (m.push (.lines path lines)).call content .undefined [.builtin (.addLine lines)]
  else if !Memory.isPresent content then m.writeOf path ""
  else if Memory.isObject content then
    match m.memory.stringify "  " content with
    | .ok text => m.writeOf path (text.getD "undefined")
    | .error _ => m.raise .type "cyclic object value"
  else m.writeOf path (m.memory.text content)

/-- Calls a built-in function. -/
def callBuiltin (m : Machine) (b : Builtin) (receiver : Value) (args : List Value) : Machine :=
  match b with
  | .task mode =>
    if m.memory.isCallable (arg args 0) then m.callTask mode .undefined (arg args 0)
    else m.callTask mode (arg args 0) (arg args 1)
  | .parallel =>
    let values := flattened m.memory args
    match m.startAll (operationsOf m.memory values) with
    | .error m => m
    | .ok m => m.parallelNext [] values
  | .writeToFile => m.callWrite (arg args 0) (arg args 1)
  | .visit v =>
    match m.memory.kindOf? receiver with
    | some (.list items) =>
      if m.memory.isCallable (arg args 0) then m.visitNext v (arg args 0) receiver [] items.toList 0
      else m.raise .type noFunction
    | _ => m.raise .type noFunction
  | _ => m.callPlain b receiver args

/-- Does what a call does. -/
def enter (m : Machine) (f receiver : Value) (args : List Value) : Machine :=
  match f, m.memory.kindOf? f with
  | _, some (.function c) => m.callClosure c receiver args
  | .builtin b, _ => m.callBuiltin b receiver args
  | _, _ => m.raise .type noFunction

/-- Makes a new object with a constructor. -/
def construct (m : Machine) (f : Value) (args : List Value) : Machine :=
  match f, m.memory.kindOf? f with
  | .builtin .promiseClass, _ =>
    if m.memory.isCallable (arg args 0) then
      let (m, p) := m.remember Memory.makePromise
      let (m, latch) := m.remember (·.makeKind (.latch false))
      let m := m.push (.executor p latch)
      m.call (arg args 0) .undefined [.builtin (.fulfil p latch), .builtin (.refuse p latch)]
    else m.raise .type "Promise executor is not callable"
  | .builtin .resultClass, _ =>
    let (m, v) := m.remember (·.makeResult (arg args 0) (arg args 1))
    m.give v
  | .builtin (.errorClass c), _ => m.makeError c args
  | .builtin .listClass, _ | .builtin .objectClass, _ => m.call f .undefined args
  | _, some (.function c) =>
    if c.function.isArrow || c.function.isAsync then m.raise .type "not a constructor"
    else
      let (m, v) := m.remember (·.makeRecord [])
      let m := match v with
        | .object r => m.push (.created r)
        | _ => m
      m.callClosure c v args
  | _, _ => m.raise .type "not a constructor"

end TaskRunner.Script.Machine
