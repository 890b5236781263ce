import TaskRunner.Number.Layout
import TaskRunner.Script.Value
import TaskRunner.Text.Units

/-!
# Memory

The objects and scopes of a running script, the names in scopes, and the members of values. The first
object is the record of the environment variables.
-/

namespace TaskRunner.Script

/-- Objects and scopes. -/
structure Memory where
  objects : Array Object
  scopes : Array Scope

/-- The record of the environment variables. -/
def environmentRef : Ref := 0

/-- The outermost scope. -/
def globalScope : ScopeId := 0

namespace Memory

/-! ## Objects -/

/-- A new object. -/
def make (m : Memory) (o : Object) : Memory × Ref :=
  ({ m with objects := m.objects.push o }, m.objects.size)

/-- A new object without fields. -/
def makeKind (m : Memory) (k : Kind) : Memory × Ref :=
  m.make ⟨k, []⟩

/-- A new record. -/
def makeRecord (m : Memory) (fields : List (String × Value)) : Memory × Value :=
  let (m, r) := m.make ⟨.record, fields⟩
  (m, .object r)

/-- A new list. -/
def makeList (m : Memory) (items : List Value) : Memory × Value :=
  let (m, r) := m.makeKind (.list items.toArray)
  (m, .object r)

/-- A new error. -/
def makeError (m : Memory) (c : ErrorClass) (message : String) : Memory × Value :=
  let (m, r) := m.make ⟨.error c, [("message", .text message)]⟩
  (m, .object r)

/-- A new promise. -/
def makePromise (m : Memory) : Memory × Ref :=
  m.makeKind (.promise (.pending []))

/-- A new result of a task. -/
def makeResult (m : Memory) (status output : Value) : Memory × Value :=
  let output := match output with
    | .undefined => .null
    | other => other
  let (m, r) := m.make ⟨.result, [("status", status), ("output", output)]⟩
  (m, .object r)

/-- The object at a place. -/
def object? (m : Memory) (r : Ref) : Option Object :=
  m.objects[r]?

/-- What the object at a place is. -/
def kind? (m : Memory) (r : Ref) : Option Kind :=
  (m.object? r).map Object.kind

/-- What a value is, if it is an object. -/
def kindOf? (m : Memory) : Value → Option Kind
  | .object r => m.kind? r
  | _ => none

/-- Changes the object at a place. -/
def change (m : Memory) (r : Ref) (f : Object → Object) : Memory :=
  { m with objects := m.objects.modify r f }

/-- Makes an object of another kind. -/
def setKind (m : Memory) (r : Ref) (k : Kind) : Memory :=
  m.change r fun o => { o with kind := k }

/-- Fields with one set: in its place if it is there, else at the end. -/
def putField (key : String) (v : Value) : List (String × Value) → List (String × Value)
  | [] => [(key, v)]
  | (k, old) :: rest => if k == key then (k, v) :: rest else (k, old) :: putField key v rest

/-- Writes a field of an object. -/
def writeField (m : Memory) (r : Ref) (key : String) (v : Value) : Memory :=
  m.change r fun o => { o with fields := putField key v o.fields }

/-- Sets a field of an object; results keep theirs. -/
def setField (m : Memory) (r : Ref) (key : String) (v : Value) : Memory :=
  match m.kind? r with
  | some .result => m
  | _ => m.writeField r key v

/-- A field of an object. -/
def field? (m : Memory) (r : Ref) (key : String) : Option Value :=
  (m.object? r).bind fun o => o.fields.lookup key

/-! ## Scopes -/

/-- A new scope inside another one. -/
def openScope (m : Memory) (outer : ScopeId) (names : List (String × Binding)) :
    Memory × ScopeId :=
  ({ m with scopes := m.scopes.push ⟨names, some outer⟩ }, m.scopes.size)

/-- Names with one set. -/
def putName (name : String) (b : Binding) : List (String × Binding) → List (String × Binding)
  | [] => [(name, b)]
  | (n, old) :: rest => if n == name then (n, b) :: rest else (n, old) :: putName name b rest

/-- Sets a name in a scope. -/
def setName (m : Memory) (scope : ScopeId) (name : String) (b : Binding) : Memory :=
  { m with scopes := m.scopes.modify scope fun s => { s with names := putName name b s.names } }

/-- Gives a declared name its first value. -/
def setFirst (m : Memory) (scope : ScopeId) (name : String) (v : Value) : Memory :=
  let constant := ((m.scopes[scope]?).bind fun s => s.names.lookup name).any Binding.constant
  m.setName scope name ⟨some v, constant⟩

/-- The binding of a name, and the scope that holds it, looked for in at most so many scopes. -/
def findFrom (m : Memory) (name : String) : Nat → ScopeId → Option (ScopeId × Binding)
  | 0, _ => none
  | fuel + 1, scope =>
    match m.scopes[scope]? with
    | none => none
    | some s =>
      match s.names.lookup name, s.outer with
      | some b, _ => some (scope, b)
      | none, some outer => findFrom m name fuel outer
      | none, none => none

/-- The binding of a name, and the scope that holds it. -/
def find? (m : Memory) (scope : ScopeId) (name : String) : Option (ScopeId × Binding) :=
  m.findFrom name (m.scopes.size + 1) scope

/-- A copy of a scope. -/
def copyScope (m : Memory) (scope : ScopeId) : Memory × ScopeId :=
  match m.scopes[scope]? with
  | some s => ({ m with scopes := m.scopes.push s }, m.scopes.size)
  | none => (m, scope)

/-- Declares the names of statements in a scope: functions have their values at once. -/
def declare (m : Memory) (scope : ScopeId) (body : List Stmt) : Memory :=
  let m := (body.flatMap Stmt.declared).foldl (fun (m : Memory) (name, constant) =>
    m.setName scope name ⟨none, constant⟩) m
  (Stmt.functionsOf body).foldl (fun (m : Memory) f =>
    let (m, r) := m.makeKind (.function ⟨f, scope⟩)
    m.setName scope f.name ⟨some (.object r), false⟩) m

/-- The value of a function expression. Inside of it, its name stands for it. -/
def makeFunction (m : Memory) (f : Function) (scope : ScopeId) : Memory × Value :=
  if f.name.isEmpty then
    let (m, r) := m.makeKind (.function ⟨f, scope⟩)
    (m, .object r)
  else
    let (m, own) := m.openScope scope []
    let (m, r) := m.makeKind (.function ⟨f, own⟩)
    (m.setName own f.name ⟨some (.object r), false⟩, .object r)

end Memory

/-! ## Built-in values -/

namespace Builtin

/-- The names of the script interface. -/
def interfaceNames : List (String × Builtin) :=
  [("exec", exec), ("shell", exec), ("fetch", fetch), ("writeToFile", writeToFile),
    ("task", task .strict), ("parallel", parallel), ("ai", ai), ("say", say false), ("yell", say true),
    ("TaskResult", resultClass), ("stopOnFailures", turnOn .stopOnFailures),
    ("ignoreFailures", turnOn .ignoreFailures), ("silence", turnOn .silence)]

/-- The names that scripts find in place. -/
def globalNames : List (String × Builtin) :=
  interfaceNames ++
    [("console", console), ("process", program), ("bunosh", interface), ("globalThis", globals),
      ("Promise", promiseClass), ("JSON", json), ("Object", objectClass), ("Array", listClass),
      ("String", textClass), ("Number", numberClass), ("Boolean", boolClass),
      ("Error", errorClass .plain), ("TypeError", errorClass .type), ("RangeError", errorClass .range),
      ("ReferenceError", errorClass .reference), ("SyntaxError", errorClass .malformed)]

/-- The value of a name that scripts find in place. -/
def global? (name : String) : Option Value :=
  match name with
  | "undefined" => some .undefined
  | "NaN" => some (.number (0.0 / 0.0))
  | "Infinity" => some (.number (1.0 / 0.0))
  | _ => (globalNames.lookup name).map .builtin

/-- Namespaces are no functions. -/
def isFunction : Builtin → Bool
  | globals | interface | module _ | console | program | json => false
  | _ => true

/-- The members of a built-in value. -/
def members : Builtin → List (String × Builtin)
  | interface => interfaceNames ++ [("default", interface)]
  | console =>
    [("log", log .out), ("info", log .out), ("debug", log .out), ("warn", log .err),
      ("error", log .err)]
  | program => [("cwd", currentDirectory), ("exit", exit)]
  | task .strict =>
    [("try", task .lenient), ("silent", task .silent), ("stopOnFailures", turnOn .stopOnFailures),
      ("ignoreFailures", turnOn .ignoreFailures), ("silence", turnOn .silence)]
  | resultClass =>
    [("success", makeResult .success), ("fail", makeResult .fail), ("warning", makeResult .warning),
      ("from", resultOf)]
  | promiseClass => [("resolve", resolved), ("reject", rejected), ("all", all)]
  | json => [("stringify", stringify), ("parse", parse)]
  | objectClass => [("keys", keys), ("values", values), ("entries", entries)]
  | listClass => [("isArray", isList)]
  | _ => []

/-- The name that a function shows. -/
def name : Builtin → String
  | exec => "exec"
  | fetch => "fetch"
  | writeToFile => "writeToFile"
  | ai => "ai"
  | task .strict => "task"
  | parallel => "parallel"
  | say false => "say"
  | say true => "yell"
  | turnOn .stopOnFailures => "stopOnFailures"
  | turnOn .ignoreFailures => "ignoreFailures"
  | turnOn .silence => "silence"
  | resultClass => "TaskResult"
  | promiseClass => "Promise"
  | objectClass => "Object"
  | listClass => "Array"
  | textClass => "String"
  | numberClass => "Number"
  | boolClass => "Boolean"
  | errorClass c => c.name
  | currentDirectory => "cwd"
  | exit => "exit"
  | stringify => "stringify"
  | parse => "parse"
  | _ => ""

end Builtin

namespace Memory

/-- Whether a value can be called. -/
def isCallable (m : Memory) : Value → Bool
  | .builtin b => b.isFunction
  | v =>
    match m.kindOf? v with
    | some (.function _) => true
    | _ => false

/-- Whether a value is neither `null` nor `undefined`. -/
def isPresent : Value → Bool
  | .undefined | .null => false
  | _ => true

/-- The index that a key writes. -/
def indexOf? (key : String) : Option Nat :=
  let n := key.toList.foldl (fun n c => 10 * n + (c.toNat - '0'.toNat)) 0
  if key.toList.all Char.isDigit && toString n == key then some n else none

/-- The members that lists share. -/
def listMembers : List (String × Builtin) :=
  [("map", .visit .map), ("filter", .visit .filter), ("forEach", .visit .each), ("push", .push),
    ("join", .join), ("includes", .includes), ("concat", .concat)]

/-- The members that operations share. -/
def operationMembers : List (String × Builtin) :=
  [("start", .startOperation), ("then", .operationThen), ("catch", .operationCatch)]

/-- The double of a natural number. -/
def ofNat (n : Nat) : Value := .number (Number.ofNat n)

/-- A member of an object that is not among its fields. -/
def inherited (o : Object) (key : String) : Value :=
  let among := fun (members : List (String × Builtin)) =>
    ((members.lookup key).map Value.builtin).getD .undefined
  match o.kind with
  | .list items =>
    if key == "length" then ofNat items.size
    else
      match indexOf? key with
      | some i => (items[i]?).getD .undefined
      | none => among listMembers
  | .error c =>
    match key with
    | "name" => .text c.name
    | "message" => .text ""
    | _ => .undefined
  | .promise _ => among [("then", .promiseThen), ("catch", .promiseCatch)]
  | .result =>
    let has := fun (status : Status) =>
      match o.fields.lookup "status" with
      | some (.text s) => Value.bool (s == status.label)
      | _ => .bool false
    match key with
    | "hasSucceeded" => has .success
    | "hasFailed" => has .fail
    | "hasWarning" => has .warning
    | _ => .undefined
  | .operation ofShell =>
    among (if ofShell then operationMembers ++ [("cwd", .runIn), ("env", .runWith)] else operationMembers)
  | .response => among [("text", .responseText), ("json", .responseJson)]
  | .function c => if key == "name" then .text c.function.name else .undefined
  | .record | .latch _ | .gathering _ _ _ => .undefined

/-- A member of a text. -/
def textMember (s key : String) : Value :=
  let units := Text.units s.toList
  if key == "length" then ofNat units.length
  else
    match (indexOf? key).bind fun i => units[i]? with
    | some unit => .text (String.ofList (Text.ofUnits [unit]))
    | none => .undefined

/-- A member of a built-in value. -/
def builtinMember (m : Memory) (b : Builtin) (key : String) : Value :=
  match b, key with
  | .globals, "__bunosh_module" => .builtin .loader
  | .globals, _ =>
    match m.find? globalScope key with
    | some (_, ⟨some v, _⟩) => v
    | _ => (Builtin.global? key).getD .undefined
  | .program, "env" => .object environmentRef
  | .module name, _ =>
    if key == "default" then .builtin b
    else if key == "then" then .undefined
    else .builtin (.missing name key)
  | _, "name" => if b.isFunction then .text b.name else .undefined
  | _, _ => ((b.members.lookup key).map Value.builtin).getD .undefined

/-- A member of a value; `null` and `undefined` have none. -/
def member? (m : Memory) (v : Value) (key : String) : Option Value :=
  match v with
  | .undefined | .null => none
  | .bool _ | .number _ => some .undefined
  | .text s => some (textMember s key)
  | .builtin b => some (m.builtinMember b key)
  | .object r =>
    match m.object? r with
    | none => some .undefined
    | some o => some ((o.fields.lookup key).getD (inherited o key))

/-- Sets a member of an object; values without members forget it. -/
def setMember (m : Memory) (target : Value) (key : String) (v : Value) : Memory :=
  match target with
  | .object r =>
    match m.kind? r with
    | some (.list items) =>
      match indexOf? key with
      | some i =>
        let missing := List.replicate (i + 1 - items.size) Value.undefined
        m.setKind r (.list ((items ++ missing.toArray).set! i v))
      | none => m.setField r key v
    | _ => m.setField r key v
  | .builtin .globals => m.setName globalScope key ⟨some v, false⟩
  | _ => m

/-- The keys of an object that can be listed: indices in order, then the others in order of creation. -/
def keysOf (o : Object) : List String :=
  let own : List String := match o.kind with
    | .error _ => (o.fields.map Prod.fst).filter (· != "message")
    | _ => o.fields.map Prod.fst
  let items : List String := match o.kind with
    | .list items => (List.range items.size).map toString
    | _ => []
  let indices := own.filterMap indexOf?
  items ++ (indices.mergeSort (· ≤ ·)).map toString ++ own.filter fun k => (indexOf? k).isNone

/-- The keys of a value that can be listed. -/
def keysOfValue (m : Memory) : Value → List String
  | .object r => ((m.object? r).map keysOf).getD []
  | .text s => (List.range (Text.unitCount s)).map toString
  | _ => []

/-- The values that a value is a list of, if it is one. -/
def itemsOf? (m : Memory) : Value → Option (List Value)
  | .text s => some (s.toList.map fun c => .text c.toString)
  | v =>
    match m.kindOf? v with
    | some (.list items) => some items.toList
    | _ => none

end Memory

end TaskRunner.Script
