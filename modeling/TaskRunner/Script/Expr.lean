/-!
# Scripts as trees

Expressions, patterns, functions and statements of the script language. Arrow functions whose body is an
expression have a body that returns it, and compound forms that differ only in writing are one form.
-/

namespace TaskRunner.Script

/-- Operators on one value. -/
inductive UnaryOp where
  | negate
  | toNumber
  | not
  | invert
  | typeName
  | discard
deriving DecidableEq, Repr

/-- Operators on two values. -/
inductive BinaryOp where
  | add
  | subtract
  | multiply
  | divide
  | remainder
  | power
  | less
  | greater
  | atMost
  | atLeast
  | similar
  | dissimilar
  | same
  | different
  | instanceOf
  | keyIn
  | bitAnd
  | bitOr
  | bitXor
  | shiftLeft
  | shiftRight
  | shiftRightZero
deriving DecidableEq, Repr

/-- Operators that may leave their right side alone. -/
inductive LogicOp where
  | and
  | or
  /-- The right side if the left one is `null` or `undefined`. -/
  | otherwise
deriving DecidableEq, Repr

/-- How a name is declared. -/
inductive Declaration where
  /-- It keeps its first value. -/
  | constant
  | changeable
deriving DecidableEq, Repr

mutual

/-- An expression. -/
inductive Expr where
  | null
  | bool (b : Bool)
  | number (x : Float)
  | text (s : String)
  | this
  | name (n : String)
  | template (chunks : List String) (holes : List Expr)
  | tagged (tag : Expr) (cooked raw : List String) (holes : List Expr)
  | list (items : List Item)
  | record (entries : List Entry)
  | function (f : Function)
  | unary (op : UnaryOp) (e : Expr)
  | binary (op : BinaryOp) (a b : Expr)
  | logic (op : LogicOp) (a b : Expr)
  | choose (test a b : Expr)
  | assign (target : Target) (value : Expr)
  | update (target : Target) (op : BinaryOp) (value : Expr)
  /-- Adds to a number; `old` tells whether the value is that before. -/
  | count (target : Target) (step : Float) (old : Bool)
  | member (e : Expr) (key : String) (optional : Bool)
  | index (e key : Expr) (optional : Bool)
  | call (callee : Expr) (args : List Item) (optional : Bool)
  | create (callee : Expr) (args : List Item)
  | await (e : Expr)
  | sequence (a b : Expr)
  /-- What an optional step in `e` skips when there is nothing to step into. -/
  | chain (e : Expr)

/-- An item of a list or of a call's arguments. -/
inductive Item where
  | one (e : Expr)
  | spread (e : Expr)
  | hole

/-- An entry of a record. -/
inductive Entry where
  | field (key : String) (value : Expr)
  | computed (key value : Expr)
  | spread (e : Expr)

/-- What can be assigned to. -/
inductive Target where
  | pattern (p : Pattern)
  | member (e : Expr) (key : String)
  | index (e key : Expr)

/-- What a value is taken apart by. -/
inductive Pattern where
  | name (n : String)
  | withDefault (p : Pattern) (e : Expr)
  | list (items : List (Option Pattern)) (rest : Option Pattern)
  | record (fields : List (String × Pattern)) (rest : Option String)

/-- A function. -/
inductive Function where
  | mk (name : String) (params : List Pattern) (rest : Option Pattern) (body : List Stmt)
      (isArrow isAsync : Bool)

/-- A statement. -/
inductive Stmt where
  | empty
  | expr (e : Expr)
  | declare (how : Declaration) (parts : List (Pattern × Option Expr))
  | function (f : Function)
  | block (body : List Stmt)
  | choose (test : Expr) (yes no : Stmt)
  | loop (start : Option Stmt) (test update : Option Expr) (body : Stmt)
  | forOf (how : Declaration) (p : Pattern) (items : Expr) (body : Stmt)
  | give (e : Option Expr)
  | throw (e : Expr)
  | attempt (body : List Stmt) (handler : Option (Option Pattern × List Stmt))
      (finalizer : Option (List Stmt))
  | leave
  | next

end

namespace Function

/-- The name that the function has, empty if none. -/
def name : Function → String
  | mk name _ _ _ _ _ => name

/-- The parameters before the rest parameter. -/
def params : Function → List Pattern
  | mk _ params _ _ _ _ => params

/-- The rest parameter. -/
def rest : Function → Option Pattern
  | mk _ _ rest _ _ _ => rest

/-- The statements. -/
def body : Function → List Stmt
  | mk _ _ _ body _ _ => body

/-- Whether it takes `this` from around it. -/
def isArrow : Function → Bool
  | mk _ _ _ _ isArrow _ => isArrow

/-- Whether a call gives a promise. -/
def isAsync : Function → Bool
  | mk _ _ _ _ _ isAsync => isAsync

/-- The function under a name, unless it has one. -/
def named (f : Function) (name : String) : Function :=
  match f with
  | mk own params rest body isArrow isAsync =>
    mk (if own.isEmpty then name else own) params rest body isArrow isAsync

end Function

/-- An expression that gets a name where it stands: a function without a name takes it. -/
def Expr.named (e : Expr) (name : String) : Expr :=
  match e with
  | .function f => .function (f.named name)
  | other => other

namespace Pattern

mutual

/-- The names that a pattern binds. -/
def names : Pattern → List String
  | name n => [n]
  | withDefault p _ => names p
  | list items rest => namesOfItems items ++ namesOfRest rest
  | record fields rest => namesOfFields fields ++ rest.toList

/-- The names that the items of a list pattern bind. -/
def namesOfItems : List (Option Pattern) → List String
  | [] => []
  | none :: more => namesOfItems more
  | some p :: more => names p ++ namesOfItems more

/-- The names that a rest pattern binds. -/
def namesOfRest : Option Pattern → List String
  | none => []
  | some p => names p

/-- The names that the fields of a record pattern bind. -/
def namesOfFields : List (String × Pattern) → List String
  | [] => []
  | (_, p) :: more => names p ++ namesOfFields more

end

end Pattern

namespace Stmt

/-- The names that a statement declares in its block, each with whether it may not be assigned to. -/
def declared : Stmt → List (String × Bool)
  | declare how parts =>
    (parts.flatMap fun part => part.1.names).map fun n => (n, how == .constant)
  | _ => []

/-- The functions declared directly among statements. -/
def functionsOf (body : List Stmt) : List Function :=
  body.filterMap fun
    | function f => some f
    | _ => none

end Stmt

end TaskRunner.Script
