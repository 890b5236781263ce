import TaskRunner.Number.Reading

/-!
# Shell arithmetic

The values of expressions over integers and variables.
-/

namespace TaskRunner.Shell

/-- Why an expression has no value. -/
inductive ArithmeticError where
  | divisionByZero
  | malformed
deriving DecidableEq, Repr

/-- Truth as a number. -/
def ofBool (b : Bool) : Int := if b then 1 else 0

/-- Brings a number into the range of the machine's integers. -/
def wrap64 (n : Int) : Int := Int.bmod n UInt64.size

/-- The operators between two operands, with how strongly they bind; longer ones come first. -/
def binaryOperators : List (String × Nat) :=
  [("||", 1), ("&&", 2), ("<<", 8), (">>", 8), ("==", 6), ("!=", 6), ("<=", 7), (">=", 7), ("|", 3),
    ("^", 4), ("&", 5), ("<", 7), (">", 7), ("+", 9), ("-", 9), ("*", 10), ("/", 10), ("%", 10)]

/-- The value of an operator between two numbers. -/
def applyOperator (op : String) (a b : Int) : Except ArithmeticError Int :=
  match op with
  | "||" => .ok (ofBool (a != 0 || b != 0))
  | "&&" => .ok (ofBool (a != 0 && b != 0))
  | "==" => .ok (ofBool (a == b))
  | "!=" => .ok (ofBool (a != b))
  | "<=" => .ok (ofBool (a ≤ b))
  | ">=" => .ok (ofBool (b ≤ a))
  | "<" => .ok (ofBool (a < b))
  | ">" => .ok (ofBool (b < a))
  | "+" => .ok (wrap64 (a + b))
  | "-" => .ok (wrap64 (a - b))
  | "*" => .ok (wrap64 (a * b))
  | "/" => if b == 0 then .error .divisionByZero else .ok (wrap64 (a.tdiv b))
  | "%" => if b == 0 then .error .divisionByZero else .ok (a.tmod b)
  | "<<" => .ok (wrap64 (a * (1 <<< (b.toNat % 64) : Nat)))
  | ">>" => .ok (a >>> (b.toNat % 64))
  | "|" => .ok ((BitVec.ofInt 64 a ||| BitVec.ofInt 64 b).toInt)
  | "^" => .ok ((BitVec.ofInt 64 a ^^^ BitVec.ofInt 64 b).toInt)
  | _ => .ok ((BitVec.ofInt 64 a &&& BitVec.ofInt 64 b).toInt)

/-- Leaves out blanks. -/
def skipBlank (cs : List Char) : List Char :=
  cs.dropWhile fun c => c == ' ' || c == '\t' || c == '\n'

/-- The number that a numeral denotes: decimal, octal after a zero, hexadecimal after a zero and an x. -/
def numeral? (cs : List Char) : Option Int :=
  let value := match cs with
    | '0' :: 'x' :: digits | '0' :: 'X' :: digits => Number.natOfDigits 16 digits
    | '0' :: d :: digits => Number.natOfDigits 8 (d :: digits)
    | digits => Number.natOfDigits 10 digits
  value.map fun n => (n : Int)

/-- The number that a variable holds: none for an empty one. -/
def variableValue (text : String) : Except ArithmeticError Int :=
  match text.toList with
  | [] => .ok 0
  | '-' :: digits => ((numeral? digits).map (.ok <| -·)).getD (.error .malformed)
  | digits => ((numeral? digits).map .ok).getD (.error .malformed)

mutual

/-- The value of an operand, in `fuel` steps at most. -/
def operand (value : String → String) : Nat → List Char → Except ArithmeticError (Int × List Char)
  | 0, _ => .error .malformed
  | fuel + 1, cs =>
    match skipBlank cs with
    | '-' :: rest => do
      let (n, rest) ← operand value fuel rest
      return (wrap64 (-n), rest)
    | '+' :: rest => operand value fuel rest
    | '!' :: rest => do
      let (n, rest) ← operand value fuel rest
      return (ofBool (n == 0), rest)
    | '~' :: rest => do
      let (n, rest) ← operand value fuel rest
      return (-n - 1, rest)
    | '(' :: rest => do
      let (n, rest) ← expression value fuel 0 rest
      match skipBlank rest with
      | ')' :: rest => return (n, rest)
      | _ => .error .malformed
    | rest =>
      let word := rest.takeWhile fun c => c.isAlphanum || c == '_'
      match word with
      | [] => .error .malformed
      | c :: _ => do
        let n ← if c.isDigit then ((numeral? word).map .ok).getD (.error .malformed)
          else variableValue (value (String.ofList word))
        return (n, rest.drop word.length)

/-- The value of an expression whose operators bind more strongly than `level`. -/
def expression (value : String → String) : Nat → Nat → List Char →
    Except ArithmeticError (Int × List Char)
  | 0, _, _ => .error .malformed
  | fuel + 1, level, cs => do
    let (n, rest) ← operand value fuel cs
    expressionEnd value fuel level n rest

/-- The value of an expression whose first operand is known. -/
def expressionEnd (value : String → String) : Nat → Nat → Int → List Char →
    Except ArithmeticError (Int × List Char)
  | 0, _, _, _ => .error .malformed
  | fuel + 1, level, n, cs =>
    let cs := skipBlank cs
    match binaryOperators.find? fun op => op.1.toList.isPrefixOf cs with
    | some (op, strength) =>
      if strength ≤ level then .ok (n, cs)
      else do
        let (m, rest) ← expression value fuel strength (cs.drop op.length)
        expressionEnd value fuel level (← applyOperator op n m) rest
    | none =>
      match cs with
      | '?' :: rest =>
        if 0 < level then .ok (n, cs)
        else do
          let (a, rest) ← expression value fuel 0 rest
          match skipBlank rest with
          | ':' :: rest =>
            let (b, rest) ← expression value fuel 0 rest
            return (if n == 0 then b else a, rest)
          | _ => .error .malformed
      | _ => .ok (n, cs)

end

/-- The value of an expression over variables; none for an empty one. -/
def evaluate (value : String → String) (cs : List Char) : Except ArithmeticError Int := do
  if (skipBlank cs).isEmpty then return 0
  let (n, rest) ← expression value (3 * cs.length + 3) 0 cs
  if (skipBlank rest).isEmpty then return n else .error .malformed

end TaskRunner.Shell
