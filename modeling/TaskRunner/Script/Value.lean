import TaskRunner.Script.Expr
import TaskRunner.Task.Session

/-!
# Values of scripts

Values, the built-in functions among them, and the objects on the heap: records, lists, functions, errors,
promises and what the script interface is made of. What is left to do when a value comes back is a stack of
frames, so that a function that waits is its frames.
-/

namespace TaskRunner.Script

/-- The place of an object on the heap. -/
abbrev Ref := Nat

/-- The place of a scope. -/
abbrev ScopeId := Nat

/-- The number of work that goes on outside of the script: an operation or a task. -/
abbrev Handle := Nat

/-- The classes of errors. -/
inductive ErrorClass where
  | plain
  | type
  | range
  | reference
  | malformed
deriving DecidableEq, Repr

/-- The name of a class of errors. -/
def ErrorClass.name : ErrorClass → String
  | plain => "Error"
  | type => "TypeError"
  | range => "RangeError"
  | reference => "ReferenceError"
  | malformed => "SyntaxError"

/-- How a task of a script treats failures and reports. -/
inductive TaskMode where
  | strict
  /-- A failure is a warning, and the answer is whether there was none. -/
  | lenient
  | silent
deriving DecidableEq, Repr

/-- The switches that a script can turn on. -/
inductive SwitchName where
  | stopOnFailures
  | ignoreFailures
  | silence
deriving DecidableEq, Repr

/-- What a list does with a function. -/
inductive Visit where
  | map
  | filter
  | each
deriving DecidableEq, Repr

/-- Functions and namespaces that scripts find in place. Those that a promise, a task or a list of lines
belongs to carry its place. -/
inductive Builtin where
  | globals
  | interface
  /-- Gives the stand-in of another module. -/
  | loader
  | module (name : String)
  | missing (name key : String)
  | exec
  | fetch
  | writeToFile
  | ai
  | task (mode : TaskMode)
  | parallel
  | say (loud : Bool)
  | turnOn (switch : SwitchName)
  | console
  | log (channel : Channel)
  | program
  | currentDirectory
  | exit
  | resultClass
  | makeResult (status : Status)
  | resultOf
  | startOperation
  | operationThen
  | operationCatch
  | runIn
  | runWith
  | resultOfReply
  | responseOfReply
  | responseText
  | responseJson
  | addLine (lines : Ref)
  | promiseClass
  | resolved
  | rejected
  | all
  | promiseThen
  | promiseCatch
  | fulfil (promise latch : Ref)
  | refuse (promise latch : Ref)
  | gather (into : Ref) (index : Nat)
  | hasSucceeded
  | settled (ok : Bool)
  | json
  | stringify
  | parse
  | objectClass
  | keys
  | values
  | entries
  | listClass
  | isList
  | textClass
  | numberClass
  | boolClass
  | errorClass (c : ErrorClass)
  | visit (v : Visit)
  | push
  | join
  | includes
  | concat
deriving DecidableEq, Repr

/-- A value. -/
inductive Value where
  | undefined
  | null
  | bool (b : Bool)
  | number (x : Float)
  | text (s : String)
  | object (r : Ref)
  | builtin (b : Builtin)
deriving Inhabited, Repr

/-- How a statement ends. -/
inductive Completion where
  | normal
  | returned (v : Value)
  | thrown (v : Value)
  | leave
  | next
  /-- An optional step has nothing to step into. -/
  | skip

/-- What is done with values once all of them are there. -/
inductive Combine where
  | list
  | template (chunks : List String)
  | unary (op : UnaryOp)
  | binary (op : BinaryOp)
  | member (key : String) (optional : Bool)
  | index (optional : Bool)
  | setMember (key : String)
  | setIndex
  /-- Reads a member, and then evaluates what comes to it. -/
  | readMember (key : String) (op : BinaryOp) (right : Expr) (scope : ScopeId)
  | readIndex (op : BinaryOp) (right : Expr) (scope : ScopeId)
  | updateMember (key : String) (op : BinaryOp)
  | updateIndex (op : BinaryOp)
  | countMember (key : String) (step : Float) (old : Bool)
  | countIndex (step : Float) (old : Bool)
  | call (callee receiver : Value)
  | create (callee : Value)

/-- What is left of a loop. -/
structure Loop where
  test : Option Expr
  update : Option Expr
  body : Stmt

/-- What is left to do with a value, or at the end of a statement. -/
inductive Frame where
  /-- Evaluates further operands, and combines all of them. -/
  | operands (done : List Value) (spread : Bool) (todo : List Item) (scope : ScopeId)
      (combine : Combine)
  | choose (a b : Expr) (scope : ScopeId)
  | logic (op : LogicOp) (right : Expr) (scope : ScopeId)
  | sequence (e : Expr) (scope : ScopeId)
  | chain
  | await
  | assign (p : Pattern) (scope : ScopeId)
  | update (name : String) (op : BinaryOp) (old : Value) (scope : ScopeId)
  /-- A value that was made before. -/
  | answer (v : Value)
  /-- Fills a record from further entries. -/
  | field (record : Ref) (key : String) (todo : List Entry) (scope : ScopeId)
  | key (record : Ref) (value : Expr) (todo : List Entry) (scope : ScopeId)
  | fields (record : Ref) (todo : List Entry) (scope : ScopeId)
  /-- Calls what comes. -/
  | callee (args : List Item) (optional : Bool) (scope : ScopeId)
  /-- Calls a member of what comes. -/
  | method (key : String) (args : List Item) (steps optional : Bool) (scope : ScopeId)
  /-- Calls a member, by key, of what comes. -/
  | methodOf (receiver : Value) (args : List Item) (optional : Bool) (scope : ScopeId)
  | methodKey (key : Expr) (args : List Item) (steps optional : Bool) (scope : ScopeId)
  | tag (cooked raw : List String) (holes : List Expr) (scope : ScopeId)
  | tagMethod (key : String) (cooked raw : List String) (holes : List Expr) (scope : ScopeId)
  | newOf (args : List Item) (scope : ScopeId)
  /-- Takes values apart after a default value is there. -/
  | fallback (p : Pattern) (todo : List (Pattern × Value)) (declares : Bool) (scope : ScopeId)
  /-- Drops a value at the end of a statement. -/
  | drop
  | declare (p : Pattern) (todo : List (Pattern × Option Expr)) (scope : ScopeId)
  | declared (todo : List (Pattern × Option Expr)) (scope : ScopeId)
  | block (todo : List Stmt) (scope : ScopeId)
  | branch (yes no : Stmt) (scope : ScopeId)
  | give
  | throw
  | loopStart (l : Loop) (scope : ScopeId)
  | loopTest (l : Loop) (scope : ScopeId)
  | loopBody (l : Loop) (scope : ScopeId)
  | loopUpdate (l : Loop) (scope : ScopeId)
  | items (how : Declaration) (p : Pattern) (body : Stmt) (scope : ScopeId)
  | item (how : Declaration) (p : Pattern) (body : Stmt) (todo : List Value) (scope : ScopeId)
  | bound (body : List Stmt) (scope : ScopeId)
  | attempt (handler : Option (Option Pattern × List Stmt)) (finalizer : Option (List Stmt))
      (scope : ScopeId)
  | ensure (finalizer : List Stmt) (scope : ScopeId)
  | afterward (c : Completion)
  /-- The end of a function. -/
  | body
  /-- The end of a function that gives a promise. -/
  | asyncBody (promise : Ref)
  | created (record : Ref)
  /-- The function of a new promise. -/
  | executor (promise latch : Ref)
  /-- A handler whose outcome settles a promise. -/
  | reaction (derived : Ref)
  | adoption (promise latch : Ref)
  | visit (v : Visit) (f list : Value) (current : Value) (done todo : List Value) (index : Nat)
  | taskBody (task : Handle) (mode : TaskMode)
  | lines (path : Value) (lines : Ref)
  | parallel (done todo : List Value)
  /-- The function that was asked for, with its arguments. -/
  | invoke (args : List Value)
  | invoked

/-- What to do once a promise is settled. -/
inductive Handler where
  /-- Calls a function. -/
  | call (f : Value)
  /-- Hands the outcome on. -/
  | pass
  /-- Goes on with a function that waits. -/
  | resume (frames : List Frame)
  /-- Ends a task of the script with the outcome. -/
  | endTask (task : Handle)

/-- The handlers of a promise's two outcomes, and the promise that follows it. -/
structure Reaction where
  derived : Option Ref
  fulfilled : Handler
  rejected : Handler

/-- How far a promise has come. -/
inductive PromiseState where
  | pending (reactions : List Reaction)
  | fulfilled (v : Value)
  | rejected (v : Value)

/-- A function and the scope it was made in. -/
structure Closure where
  function : Function
  scope : ScopeId

/-- What an object is besides its fields. -/
inductive Kind where
  | record
  | list (items : Array Value)
  | function (c : Closure)
  | error (c : ErrorClass)
  | promise (state : PromiseState)
  /-- Whether functions that settle a promise were used. -/
  | latch (used : Bool)
  | result
  | operation (ofShell : Bool)
  | response
  /-- The values of several promises, and how many are missing. -/
  | gathering (values : Array Value) (missing : Nat) (promise : Ref)

/-- An object. -/
structure Object where
  kind : Kind
  /-- In order of creation. -/
  fields : List (String × Value)

/-- A name in a scope; without a value until its declaration was reached. -/
structure Binding where
  value : Option Value
  constant : Bool

/-- Names and the scope around them. -/
structure Scope where
  names : List (String × Binding)
  outer : Option ScopeId

/-- A piece of work for when the script is idle. -/
inductive Job where
  | react (handler : Handler) (derived : Option Ref) (ok : Bool) (v : Value)
  | adopt (promise : Ref) (thenable f : Value)
  | start (operation : Ref)

/-- What the machine does next. -/
inductive Control where
  | eval (e : Expr) (scope : ScopeId)
  | exec (s : Stmt) (scope : ScopeId)
  | bind (todo : List (Pattern × Value)) (declares : Bool) (scope : ScopeId)
  | call (f receiver : Value) (args : List Value)
  | value (v : Value)
  | complete (c : Completion)

end TaskRunner.Script
