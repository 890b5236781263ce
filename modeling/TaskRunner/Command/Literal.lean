import TaskRunner.Json.Value
import TaskRunner.Number.Layout

/-!
# Literal defaults

The default values of parameters that can be read off a source file: null, Booleans, numbers and
texts.
-/

namespace TaskRunner

/-- A default value written as a literal. -/
inductive Literal where
  | null
  | bool (b : Bool)
  | number (x : Float)
  | text (s : String)
deriving DecidableEq, Repr

namespace Literal

/-- Whether a number is written without a fraction part: it is integral and below `9e15`. -/
def isWhole (x : Float) : Bool :=
  Number.isIntegral x && x.abs < 9.0e15

/-- Whether a script takes the literal for true. -/
def isTruthy : Literal → Bool
  | null => false
  | bool b => b
  | number x => x != 0.0 && !x.isNaN
  | text s => !s.isEmpty

/-- Whether an option of this default is a plain switch. -/
def isSwitch : Literal → Bool
  | null | bool _ => true
  | number _ | text _ => false

/-- The literal as text. -/
def toText : Literal → String
  | null => "null"
  | bool b => if b then "true" else "false"
  | number x => if isWhole x then toString (Number.truncate x) else Number.plain.format x
  | text s => s

/-- The text that help shows; none for null. -/
def shown? : Literal → Option String
  | null => none
  | other => some other.toText

/-- The data value of the literal; a number that is not finite has none but null. -/
def toJson : Literal → Json
  | null => .null
  | bool b => .bool b
  | number x =>
    if isWhole x then .int (Number.truncate x)
    else if x.isFinite then .float x
    else .null
  | text s => .text s

end Literal

end TaskRunner
