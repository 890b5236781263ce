import TaskRunner.Script.Convert

/-!
# Operators

What operators make of values.
-/

namespace TaskRunner.Script

/-- An integer modulo `2 ^ 32`. -/
def wordOf (x : Float) : Nat :=
  if x.isNaN || x.isInf then 0 else (Number.truncate x % 4294967296).toNat

/-- A word read with a sign. -/
def signedWord (n : Nat) : Int :=
  if n < 2147483648 then n else (n : Int) - 4294967296

/-- The double of an integer. -/
def ofInt (n : Int) : Float :=
  if n < 0 then -(Number.ofNat n.natAbs) else Number.ofNat n.natAbs

/-- The remainder of doubles: exact, with the sign of the left one. -/
def remainderOf (a b : Float) : Float :=
  if a.isNaN || b.isNaN || a.isInf || b == 0 then 0.0 / 0.0
  else if b.isInf || a == 0 then a
  else
    let (x, p) := Number.magnitude a
    let (y, q) := Number.magnitude b
    let e := min p q
    let rest := (x <<< (p - e).toNat) % (y <<< (q - e).toNat)
    let size := if e < 0 then Number.ofRatio rest (1 <<< (-e).toNat)
      else Number.ofRatio (rest <<< e.toNat) 1
    if Number.isNegative a then -size else size

/-- The power of doubles. -/
def powerOf (a b : Float) : Float :=
  if b.isNaN || (b.isInf && (a == 1 || a == -1)) then 0.0 / 0.0
  else if b == 0 then 1
  else Float.pow a b

namespace Memory

/-- Whether two values are the same. -/
def isSame (a b : Value) : Bool :=
  match a, b with
  | .undefined, .undefined | .null, .null => true
  | .bool a, .bool b => a == b
  | .number a, .number b => a == b
  | .text a, .text b => a == b
  | .object a, .object b => a == b
  | .builtin a, .builtin b => a == b
  | _, _ => false

/-- Whether a value is an object or a built-in one. -/
def isObject : Value → Bool
  | .object _ | .builtin _ => true
  | _ => false

/-- Whether two values are alike once they are brought to one type. -/
def isSimilar (m : Memory) (a b : Value) : Bool :=
  match a, b with
  | .undefined, b | .null, b => !isPresent b
  | _, .undefined | _, .null => false
  | .text a, .text b => a == b
  | .bool a, .bool b => a == b
  | a, b =>
    if isObject a && isObject b then isSame a b
    else if isObject a then
      match b with
      | .text b => m.text a == b
      | _ => m.number a == m.number b
    else if isObject b then
      match a with
      | .text a => a == m.text b
      | _ => m.number a == m.number b
    else m.number a == m.number b

/-- Sums of texts are their concatenation; an object counts as its text. -/
def sum (m : Memory) (a b : Value) : Value :=
  let isText : Value → Bool := fun
    | .text _ | .object _ | .builtin _ => true
    | _ => false
  if isText a || isText b then .text (m.text a ++ m.text b)
  else .number (m.number a + m.number b)

/-- Compares two texts by their order and other values by their numbers. -/
def compare (m : Memory) (texts : String → String → Bool) (numbers : Float → Float → Bool)
    (a b : Value) : Value :=
  let plain := fun (v : Value) => if isObject v then Value.text (m.text v) else v
  match plain a, plain b with
  | .text a, .text b => .bool (texts a b)
  | a, b => .bool (numbers (m.number a) (m.number b))

/-- Whether a value belongs to a class. -/
def belongsTo (m : Memory) (v : Value) (c : Builtin) : Bool :=
  match c, m.kindOf? v with
  | .errorClass .plain, some (.error _) => true
  | .errorClass c, some (.error own) => c == own
  | .resultClass, some .result => true
  | .promiseClass, some (.promise _) => true
  | .listClass, some (.list _) => true
  | .objectClass, _ => isObject v
  | _, _ => false

/-- Whether a key is among the members of an object. -/
def hasKey (m : Memory) (v : Value) (key : String) : Bool :=
  match v with
  | .object r =>
    (m.object? r).any fun o => (keysOf o).contains key || (match o.fields.lookup key with
      | some _ => true
      | none => !isSame (inherited o key) .undefined)
  | .builtin b => !isSame (m.builtinMember b key) .undefined
  | _ => false

/-- What an operator on one value gives. -/
def unary (m : Memory) (op : UnaryOp) (v : Value) : Value :=
  match op with
  | .negate => .number (-(m.number v))
  | .toNumber => .number (m.number v)
  | .not => .bool (!isTruthy v)
  | .invert => .number (ofInt (-(signedWord (wordOf (m.number v))) - 1))
  | .typeName => .text (m.typeName v)
  | .discard => .undefined

/-- An operator on words. -/
def onWords (m : Memory) (f : Nat → Nat → Int) (a b : Value) : Value :=
  .number (ofInt (f (wordOf (m.number a)) (wordOf (m.number b))))

/-- What an operator on two values gives, or why it gives nothing. -/
def binary (m : Memory) (op : BinaryOp) (a b : Value) : Except String Value :=
  let numbers := fun (f : Float → Float → Float) => Value.number (f (m.number a) (m.number b))
  match op with
  | .add => .ok (m.sum a b)
  | .subtract => .ok (numbers (· - ·))
  | .multiply => .ok (numbers (· * ·))
  | .divide => .ok (numbers (· / ·))
  | .remainder => .ok (numbers remainderOf)
  | .power => .ok (numbers powerOf)
  | .less => .ok (m.compare Text.comesBefore (· < ·) a b)
  | .greater => .ok (m.compare (fun a b => Text.comesBefore b a) (· > ·) a b)
  | .atMost => .ok (m.compare (fun a b => !Text.comesBefore b a) (· ≤ ·) a b)
  | .atLeast => .ok (m.compare (fun a b => !Text.comesBefore a b) (· ≥ ·) a b)
  | .similar => .ok (.bool (m.isSimilar a b))
  | .dissimilar => .ok (.bool (!m.isSimilar a b))
  | .same => .ok (.bool (isSame a b))
  | .different => .ok (.bool (!isSame a b))
  | .instanceOf =>
    match b with
    | .builtin c => .ok (.bool (m.belongsTo a c))
    | _ =>
      if m.isCallable b then .ok (.bool false)
      else .error ("right-hand side of 'instanceof' should be an object, got \x60" ++ m.typeName b ++
        "\x60")
  | .keyIn =>
    if isObject b then .ok (.bool (m.hasKey b (m.text a)))
    else .error ("right-hand side of 'in' should be an object, got \x60" ++ m.typeName b ++ "\x60")
  | .bitAnd => .ok (m.onWords (fun a b => signedWord (a &&& b)) a b)
  | .bitOr => .ok (m.onWords (fun a b => signedWord (a ||| b)) a b)
  | .bitXor => .ok (m.onWords (fun a b => signedWord (a ^^^ b)) a b)
  | .shiftLeft => .ok (m.onWords (fun a b => signedWord ((a <<< (b % 32)) % 4294967296)) a b)
  | .shiftRight => .ok (m.onWords (fun a b => signedWord a >>> (b % 32)) a b)
  | .shiftRightZero => .ok (m.onWords (fun a b => ((a >>> (b % 32) : Nat) : Int)) a b)

end Memory

end TaskRunner.Script
