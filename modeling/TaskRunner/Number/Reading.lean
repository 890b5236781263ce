import TaskRunner.Number.Binary64

/-!
# Reading numbers

Decimal texts as doubles, and digit strings in a base as natural numbers.
-/

namespace TaskRunner.Number

/-- The value of a digit in bases up to 36. -/
def digitValue (c : Char) : Option Nat :=
  if c.isDigit then some (c.toNat - '0'.toNat)
  else if 'a' ≤ c && c ≤ 'z' then some (c.toNat - 'a'.toNat + 10)
  else if 'A' ≤ c && c ≤ 'Z' then some (c.toNat - 'A'.toNat + 10)
  else none

/-- Whether the character is a digit of the base. -/
def isDigitOf (base : Nat) (c : Char) : Bool :=
  match digitValue c with
  | some v => v < base
  | none => false

/-- The natural number that digits of a base denote; nothing for no digits or a wrong one. -/
def natOfDigits (base : Nat) (digits : List Char) : Option Nat :=
  if digits.isEmpty then none
  else digits.foldlM (fun n c =>
    (digitValue c).bind fun v => if v < base then some (n * base + v) else none) 0

/-- An unsigned number below `limit` with an optional plus sign. -/
def unsignedOfText (base limit : Nat) (text : List Char) : Option Nat :=
  let digits := match text with
    | '+' :: rest => rest
    | other => other
  (natOfDigits base digits).filter (· < limit)

/-- Why a text is no unsigned number. -/
inductive UnsignedError where
  | empty
  | invalidDigit
  | tooLarge
deriving DecidableEq, Repr

/-- The error in words. -/
def UnsignedError.message : UnsignedError → String
  | empty => "cannot parse integer from empty string"
  | invalidDigit => "invalid digit found in string"
  | tooLarge => "number too large to fit in target type"

/-- Reads decimal digits after a value. A value of ten times the limit or more is refused only after its
next character was seen to be a digit. -/
def readDigits (limit : Nat) : Nat → List Char → Except UnsignedError Nat
  | value, [] => .ok value
  | value, c :: rest =>
    if !c.isDigit then .error .invalidDigit
    else
      let value := value * 10 + (c.toNat - '0'.toNat)
      if limit ≤ value then .error .tooLarge else readDigits limit value rest

/-- Reads an unsigned decimal number below a limit with an optional plus sign. -/
def readUnsigned (limit : Nat) (text : String) : Except UnsignedError Nat :=
  match text.toList with
  | [] => .error .empty
  | ['+'] => .error .invalidDigit
  | '+' :: digits => readDigits limit 0 digits
  | digits => readDigits limit 0 digits

/-- Digits at the front, as their value and count, and what follows. -/
def takeDigits : List Char → Nat → Nat → Nat × Nat × List Char
  | [], value, count => (value, count, [])
  | c :: rest, value, count =>
    if c.isDigit then takeDigits rest (value * 10 + (c.toNat - '0'.toNat)) (count + 1)
    else (value, count, c :: rest)

/-- The exponent part of a decimal text; nothing when it is malformed. -/
def exponentOf : List Char → Option Int
  | [] => some 0
  | c :: rest =>
    if c == 'e' || c == 'E' then
      let (negative, digits) := match rest with
        | '-' :: more => (true, more)
        | '+' :: more => (false, more)
        | more => (false, more)
      match takeDigits digits 0 0 with
      | (value, count, []) =>
        if count = 0 then none else some (if negative then -(value : Int) else value)
      | _ => none
    else none

/-- An unsigned decimal text: digits with an optional point and an optional exponent. -/
def unsignedDecimal (text : List Char) : Option Float :=
  let (whole, wholeCount, rest) := takeDigits text 0 0
  let (mantissa, fractionCount, rest) := match rest with
    | '.' :: more => takeDigits more whole 0
    | more => (whole, 0, more)
  if wholeCount + fractionCount = 0 then none
  else (exponentOf rest).map fun e => ofDecimal mantissa (e - fractionCount)

/-- A decimal text with an optional sign; `inf`, `infinity` and `nan` are read in any case. -/
def floatOfText (text : String) : Option Float :=
  let (negative, rest) := match text.toList with
    | '-' :: more => (true, more)
    | '+' :: more => (false, more)
    | more => (false, more)
  let word := String.ofList (rest.map Char.toLower)
  let size :=
    if word == "inf" || word == "infinity" then
      some (Float.ofBits (UInt64.ofNat infinityBits))
    else if word == "nan" then some (Float.ofBits 0x7ff8000000000000)
    else unsignedDecimal rest
  size.map fun x => if negative then -x else x

end TaskRunner.Number
