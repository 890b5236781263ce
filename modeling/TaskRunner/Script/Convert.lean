import TaskRunner.Json.Reader
import TaskRunner.Json.Printer
import TaskRunner.Script.Memory
import TaskRunner.Text.Lines

/-!
# Conversions

Values as texts, numbers, truth values and JSON texts, and data values as values. Lists may hold
themselves: as a text such a list is empty inside of itself, and as JSON it is an error.
-/

namespace TaskRunner.Script

/-- The text of a number. -/
def numberText (x : Float) : String :=
  Number.scripting.format x

/-- How a function shows itself. -/
def functionText (name : String) : String :=
  "function " ++ name ++ "() \x7b [native code] \x7d"

/-- The number that a text is read as: the empty text is zero, and what is no number is NaN. -/
def numberOfText (s : String) : Float :=
  let nan : Float := 0.0 / 0.0
  let chars := ((s.toList.dropWhile Text.isBlank).reverse.dropWhile Text.isBlank).reverse
  let inBase := fun (base : Nat) (digits : List Char) =>
    ((Number.natOfDigits base digits).map Number.ofNat).getD nan
  let sized := fun (chars : List Char) =>
    if String.ofList chars == "Infinity" then 1.0 / 0.0
    else (Number.unsignedDecimal chars).getD nan
  match chars with
  | [] => 0
  | '0' :: 'x' :: digits | '0' :: 'X' :: digits => inBase 16 digits
  | '0' :: 'o' :: digits | '0' :: 'O' :: digits => inBase 8 digits
  | '0' :: 'b' :: digits | '0' :: 'B' :: digits => inBase 2 digits
  | '-' :: rest => -(sized rest)
  | '+' :: rest => sized rest
  | _ => sized chars

namespace Memory

/-- Whether a value counts as true. -/
def isTruthy : Value → Bool
  | .undefined | .null => false
  | .bool b => b
  | .number x => !(x == 0 || x.isNaN)
  | .text s => !s.isEmpty
  | .object _ | .builtin _ => true

/-- A member of an object that is a text. -/
def textOfMember (m : Memory) (v : Value) (key : String) : String :=
  match m.member? v key with
  | some (.text s) => s
  | _ => ""

/-- The text of an error. -/
def errorText (m : Memory) (v : Value) : String :=
  let name := m.textOfMember v "name"
  let message := m.textOfMember v "message"
  if message.isEmpty then name else if name.isEmpty then message else name ++ ": " ++ message

/-- The text of a value, `seen` being the lists that it is in. -/
def textFrom (m : Memory) : Nat → List Ref → Value → String
  | _, _, .undefined => "undefined"
  | _, _, .null => "null"
  | _, _, .bool b => if b then "true" else "false"
  | _, _, .number x => numberText x
  | _, _, .text s => s
  | _, _, .builtin b => if b.isFunction then functionText b.name else "[object Object]"
  | 0, _, .object _ => ""
  | fuel + 1, seen, .object r =>
    match m.object? r with
    | none => ""
    | some o =>
      match o.kind with
      | .list items =>
        if seen.contains r then ""
        else
          ",".intercalate (items.toList.map fun item =>
            if isPresent item then textFrom m fuel (r :: seen) item else "")
      | .error _ => m.errorText (.object r)
      | .function c => functionText c.function.name
      | .promise _ => "[object Promise]"
      | _ => "[object Object]"

/-- The text of a value. -/
def text (m : Memory) (v : Value) : String :=
  m.textFrom (m.objects.size + 1) [] v

/-- The number that a value is read as. -/
def number (m : Memory) (v : Value) : Float :=
  match v with
  | .undefined => 0.0 / 0.0
  | .null => 0
  | .bool b => if b then 1 else 0
  | .number x => x
  | .text s => numberOfText s
  | .object _ | .builtin _ => numberOfText (m.text v)

/-- The name of a value's type. -/
def typeName (m : Memory) (v : Value) : String :=
  match v with
  | .undefined => "undefined"
  | .null => "object"
  | .bool _ => "boolean"
  | .number _ => "number"
  | .text _ => "string"
  | .object _ | .builtin _ => if m.isCallable v then "function" else "object"

/-! ## JSON texts -/

/-- Parts between brackets: on lines of their own when there is an indentation. -/
def bracketed (opener closer : String) (gap indent : String) (parts : List String) : String :=
  if parts.isEmpty then opener ++ closer
  else if gap.isEmpty then opener ++ ",".intercalate parts ++ closer
  else
    opener ++ "\n" ++ indent ++ gap ++ (",\n" ++ indent ++ gap).intercalate parts ++ "\n" ++ indent ++
      closer

/-- The JSON text of a value; none for what JSON has no text for. Values that hold themselves are
refused. -/
def jsonFrom (m : Memory) (gap : String) :
    Nat → List Ref → String → Value → Except Unit (Option String)
  | _, _, _, .undefined => .ok none
  | _, _, _, .null => .ok (some "null")
  | _, _, _, .bool b => .ok (some (if b then "true" else "false"))
  | _, _, _, .number x => .ok (some (if x.isNaN || x.isInf then "null" else numberText x))
  | _, _, _, .text s => .ok (some (Json.quote s))
  | _, _, _, .builtin b => .ok (if b.isFunction then none else some "\x7b\x7d")
  | 0, _, _, .object _ => .error ()
  | fuel + 1, seen, indent, .object r =>
    match m.object? r with
    | none => .ok none
    | some o =>
      if seen.contains r then .error ()
      else
        match o.kind with
        | .function _ => .ok none
        | .list items => do
          let parts ← items.toList.mapM fun item => jsonFrom m gap fuel (r :: seen) (indent ++ gap) item
          .ok (some (bracketed "[" "]" gap indent (parts.map (·.getD "null"))))
        | _ => do
          let parts ← (keysOf o).mapM fun key => do
            let part ← jsonFrom m gap fuel (r :: seen) (indent ++ gap)
              ((o.fields.lookup key).getD .undefined)
            .ok (part.map fun text => Json.quote key ++ (if gap.isEmpty then ":" else ": ") ++ text)
          .ok (some (bracketed "\x7b" "\x7d" gap indent (parts.filterMap id)))

/-- The JSON text of a value with an indentation. -/
def stringify (m : Memory) (gap : String) (v : Value) : Except Unit (Option String) :=
  m.jsonFrom gap (m.objects.size + 1) [] "" v

/-- The JSON text of a value as data: what has none is null, and what holds itself is its text. -/
def jsonText (m : Memory) (v : Value) : String :=
  match m.stringify "" v with
  | .ok text => text.getD "null"
  | .error _ => Json.quote (m.text v)

/-- A value as data. -/
def data (m : Memory) (v : Value) : Json :=
  let text := m.jsonText v
  match Json.read text with
  | .ok j => j
  | .error _ => .text text

/-! ## Thrown values -/

/-- The message of a thrown value: of a result its output, of an error its name and message, of a text
itself. -/
def message (m : Memory) (v : Value) : String :=
  match v, m.kindOf? v with
  | .text s, _ => s
  | _, some .result =>
    match m.member? v "output" with
    | some (.text s) => s
    | some output => m.jsonText output
    | none => "null"
  | _, some (.error _) =>
    let own := m.textOfMember v "message"
    let text := if own.isEmpty then m.errorText v else own
    let name := m.textOfMember v "name"
    if name.isEmpty || name == "Error" then text else name ++ ": " ++ text
  | _, _ => m.jsonText v

/-- A value thrown outside of any function in words: an error by its class, a text in quotes. -/
def uncaughtText (m : Memory) (v : Value) : String :=
  match v, m.kindOf? v with
  | .text s, _ => "\"" ++ s ++ "\""
  | _, some (.error c) => c.name ++ ": " ++ m.textOfMember v "message"
  | _, some (.list _) => m.jsonText v
  | _, _ => m.text v

/-! ## Data as values -/

mutual

/-- A data value as a value. -/
def load (m : Memory) : Json → Memory × Value
  | .null => (m, .null)
  | .bool b => (m, .bool b)
  | .int n => (m, .number (if n < 0 then -(Number.ofNat n.natAbs) else Number.ofNat n.natAbs))
  | .float x => (m, .number x)
  | .text s => (m, .text s)
  | .list items =>
    let (m, values) := loadItems m items
    m.makeList values
  | .record fields =>
    let (m, values) := loadFields m fields
    m.makeRecord values

/-- Data values as values. -/
def loadItems (m : Memory) : List Json → Memory × List Value
  | [] => (m, [])
  | item :: rest =>
    let (m, v) := load m item
    let (m, vs) := loadItems m rest
    (m, v :: vs)

/-- Fields of data as fields. -/
def loadFields (m : Memory) : List (String × Json) → Memory × List (String × Value)
  | [] => (m, [])
  | (key, item) :: rest =>
    let (m, v) := load m item
    let (m, vs) := loadFields m rest
    (m, (key, v) :: vs)

end

end Memory

end TaskRunner.Script
