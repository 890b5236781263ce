import TaskRunner.Json.Value
import TaskRunner.Number.Reading

/-!
# Reading data values

A strict reader of JSON texts. A text that is refused is refused with a cause and a place; columns
count bytes, and a cause found by looking at the next byte is placed behind that byte.
-/

namespace TaskRunner.Json

/-- Why a text is no data value. -/
inductive ReadFault where
  | eofInList
  | eofInObject
  | eofInString
  | eofInValue
  | expectedColon
  | expectedListEnd
  | expectedObjectEnd
  | expectedIdent
  | expectedValue
  | invalidEscape
  | invalidNumber
  | numberOutOfRange
  | controlCharacter
  | keyNotText
  | loneSurrogate
  | trailingComma
  | trailingCharacters
  | brokenSurrogatePair
  | tooDeep
deriving DecidableEq, Repr

/-- What a fault is called. -/
def ReadFault.phrase : ReadFault → String
  | eofInList => "EOF while parsing a list"
  | eofInObject => "EOF while parsing an object"
  | eofInString => "EOF while parsing a string"
  | eofInValue => "EOF while parsing a value"
  | expectedColon => "expected `:`"
  | expectedListEnd => "expected `,` or `]`"
  | expectedObjectEnd => "expected `,` or `\x7d`"
  | expectedIdent => "expected ident"
  | expectedValue => "expected value"
  | invalidEscape => "invalid escape"
  | invalidNumber => "invalid number"
  | numberOutOfRange => "number out of range"
  | controlCharacter => "control character (\\u0000-\\u001F) found while parsing a string"
  | keyNotText => "key must be a string"
  | loneSurrogate => "lone leading surrogate in hex escape"
  | trailingComma => "trailing comma"
  | trailingCharacters => "trailing characters"
  | brokenSurrogatePair => "unexpected end of hex escape"
  | tooDeep => "recursion limit exceeded"

/-- A refusal. -/
structure ReadError where
  fault : ReadFault
  line : Nat
  column : Nat
deriving DecidableEq, Repr

/-- The wording of a refusal. -/
def ReadError.message (e : ReadError) : String :=
  e.fault.phrase ++ " at line " ++ toString e.line ++ " column " ++ toString e.column

/-- What is left to read, with the line and the bytes of it already read. -/
structure Remaining where
  rest : List Char
  line : Nat
  column : Nat

namespace Remaining

/-- The state behind one more character. -/
def past (r : Remaining) (c : Char) (rest : List Char) : Remaining :=
  if c == '\n' then ⟨rest, r.line + 1, 0⟩ else ⟨rest, r.line, r.column + c.utf8Size⟩

/-- A refusal at this place. -/
def refuse (r : Remaining) (fault : ReadFault) : ReadError :=
  ⟨fault, r.line, r.column⟩

/-- A refusal because of the next byte. -/
def refuseNext (r : Remaining) (fault : ReadFault) : ReadError :=
  match r.rest with
  | [] => ⟨fault, r.line, r.column⟩
  | '\n' :: _ => ⟨fault, r.line + 1, 0⟩
  | _ => ⟨fault, r.line, r.column + 1⟩

/-- Behind the blanks. -/
def skipBlanks (line column : Nat) : List Char → Remaining
  | [] => ⟨[], line, column⟩
  | c :: rest =>
    if c == '\n' then skipBlanks (line + 1) 0 rest
    else if c == ' ' || c == '\t' || c == '\r' then skipBlanks line (column + 1) rest
    else ⟨c :: rest, line, column⟩

/-- Behind the blanks at this place. -/
def pastBlanks (r : Remaining) : Remaining :=
  skipBlanks r.line r.column r.rest

end Remaining

/-- The rest of a word such as `null`. -/
def readWord (value : Json) : List Char → Remaining → Except ReadError (Json × Remaining)
  | [], r => .ok (value, r)
  | expected :: more, r =>
    match r.rest with
    | [] => .error (r.refuse .eofInValue)
    | c :: rest =>
      let next := r.past c rest
      if c == expected then readWord value more next else .error (next.refuse .expectedIdent)

/-- Decimal digits and what follows them. -/
def readDigits : List Char → Nat → List Char × List Char
  | [], _ => ([], [])
  | c :: rest, n =>
    if c.isDigit then
      let (digits, after) := readDigits rest (n + 1)
      (c :: digits, after)
    else ([], c :: rest)

/-- Digits at this place, as characters. -/
def Remaining.digits (r : Remaining) : List Char × Remaining :=
  let (digits, after) := readDigits r.rest 0
  (digits, ⟨after, r.line, r.column + digits.length⟩)

/-- The number for an integer part, a fraction part and an exponent. -/
def finishNumber (negative : Bool) (whole fraction : List Char) (exponent : Option Int)
    (r : Remaining) : Except ReadError (Json × Remaining) :=
  let n := (Number.natOfDigits 10 whole).getD 0
  if fraction.isEmpty && exponent.isNone then
    if negative then
      if n = 0 then .ok (.float (-0.0), r)
      else if n ≤ 1 <<< 63 then .ok (.int (-(n : Int)), r)
      else floatAnswer (-(Number.ofNat n))
    else if n < UInt64.size then .ok (.int n, r)
    else floatAnswer (Number.ofNat n)
  else
    let mantissa := (Number.natOfDigits 10 (whole ++ fraction)).getD 0
    let x := Number.ofDecimal mantissa (exponent.getD 0 - fraction.length)
    floatAnswer (if negative then -x else x)
where
  /-- A double, unless it is too large. -/
  floatAnswer (x : Float) : Except ReadError (Json × Remaining) :=
    if x.isInf then .error (r.refuse .numberOutOfRange) else .ok (.float x, r)

/-- The exponent behind its letter. -/
def readExponent (r : Remaining) : Except ReadError (Int × Remaining) :=
  let (negative, r) := match r.rest with
    | '+' :: rest => (false, r.past '+' rest)
    | '-' :: rest => (true, r.past '-' rest)
    | _ => (false, r)
  match r.rest with
  | [] => .error (r.refuse .eofInValue)
  | c :: rest =>
    if c.isDigit then
      let (digits, after) := r.digits
      let n : Int := (Number.natOfDigits 10 digits).getD 0
      .ok (if negative then -n else n, after)
    else .error ((r.past c rest).refuse .invalidNumber)

/-- Fraction and exponent of a number whose integer part has been read. -/
def readNumberTail (negative : Bool) (whole : List Char) (r : Remaining) : Except ReadError (Json × Remaining) :=
  match r.rest with
  | '.' :: rest =>
    let (fraction, after) := (r.past '.' rest).digits
    if fraction.isEmpty then
      .error (after.refuseNext (if after.rest.isEmpty then .eofInValue else .invalidNumber))
    else
      match after.rest with
      | 'e' :: rest | 'E' :: rest => do
        let (e, after) ← readExponent (after.past 'e' rest)
        finishNumber negative whole fraction (some e) after
      | _ => finishNumber negative whole fraction none after
  | 'e' :: rest | 'E' :: rest => do
    let (e, after) ← readExponent (r.past 'e' rest)
    finishNumber negative whole [] (some e) after
  | _ => finishNumber negative whole [] none r

/-- A number whose sign has been read. -/
def readNumber (negative : Bool) (r : Remaining) : Except ReadError (Json × Remaining) :=
  match r.rest with
  | [] => .error (r.refuse .eofInValue)
  | '0' :: rest =>
    let after := r.past '0' rest
    match rest with
    | c :: _ =>
      if c.isDigit then .error (after.refuseNext .invalidNumber)
      else readNumberTail negative ['0'] after
    | [] => readNumberTail negative ['0'] after
  | c :: rest =>
    if c.isDigit then
      let (whole, after) := r.digits
      readNumberTail negative whole after
    else .error ((r.past c rest).refuse .invalidNumber)

/-- Four hexadecimal digits. -/
def readQuad (r : Remaining) : Except ReadError (Nat × Remaining) :=
  match r.rest with
  | a :: b :: c :: d :: rest =>
    let after : Remaining := ⟨rest, r.line, r.column + 4⟩
    match Number.natOfDigits 16 [a, b, c, d] with
    | some n => .ok (n, after)
    | none => .error (after.refuse .invalidEscape)
  | few =>
    .error ⟨.eofInString, r.line, r.column + (String.ofList few).utf8ByteSize⟩

/-- A character written as one or two hexadecimal escapes. -/
def readUnicodeEscape (r : Remaining) : Except ReadError (Char × Remaining) := do
  let (n, r) ← readQuad r
  if 0xDC00 ≤ n && n ≤ 0xDFFF then .error (r.refuse .loneSurrogate)
  else if n < 0xD800 || 0xDBFF < n then .ok (Char.ofNat n, r)
  else
    match r.rest with
    | [] => .error (r.refuse .eofInString)
    | '\\' :: rest =>
      let r := r.past '\\' rest
      match r.rest with
      | [] => .error (r.refuse .eofInString)
      | 'u' :: rest => do
        let (low, r) ← readQuad (r.past 'u' rest)
        if low < 0xDC00 || 0xDFFF < low then .error (r.refuse .loneSurrogate)
        else .ok (Char.ofNat (0x10000 + (n - 0xD800) * 0x400 + (low - 0xDC00)), r)
      | c :: rest => .error ((r.past c rest).refuse .brokenSurrogatePair)
    | c :: rest => .error ((r.past c rest).refuse .brokenSurrogatePair)

/-- The character that a one-letter escape stands for. -/
def shortEscape : Char → Option Char
  | '"' => some '"'
  | '\\' => some '\\'
  | '/' => some '/'
  | 'b' => some '\x08'
  | 'f' => some '\x0c'
  | 'n' => some '\n'
  | 'r' => some '\r'
  | 't' => some '\t'
  | _ => none

/-- A text behind its opening quote. -/
def readString : Nat → List Char → Remaining → Except ReadError (String × Remaining)
  | 0, _, r => .error (r.refuse .eofInString)
  | fuel + 1, done, r =>
    match r.rest with
    | [] => .error (r.refuse .eofInString)
    | '"' :: rest => .ok (String.ofList done.reverse, r.past '"' rest)
    | '\\' :: rest =>
      let r := r.past '\\' rest
      match r.rest with
      | [] => .error (r.refuse .eofInString)
      | 'u' :: rest => do
        let (c, after) ← readUnicodeEscape (r.past 'u' rest)
        readString fuel (c :: done) after
      | e :: rest =>
        let after := r.past e rest
        match shortEscape e with
        | some c => readString fuel (c :: done) after
        | none => .error (after.refuse .invalidEscape)
    | c :: rest =>
      let after := r.past c rest
      if c.toNat < 32 then .error (after.refuse .controlCharacter)
      else readString fuel (c :: done) after

mutual

/-- A value, with at most `depth` more levels of lists and records around its parts. -/
def readValue : Nat → Nat → Remaining → Except ReadError (Json × Remaining)
  | 0, _, r => .error (r.refuse .eofInValue)
  | fuel + 1, depth, r =>
    let r := r.pastBlanks
    match r.rest with
    | [] => .error (r.refuseNext .eofInValue)
    | 'n' :: rest => readWord .null ['u', 'l', 'l'] (r.past 'n' rest)
    | 't' :: rest => readWord (.bool true) ['r', 'u', 'e'] (r.past 't' rest)
    | 'f' :: rest => readWord (.bool false) ['a', 'l', 's', 'e'] (r.past 'f' rest)
    | '-' :: rest => readNumber true (r.past '-' rest)
    | '"' :: rest => do
      let (s, after) ← readString (rest.length + 1) [] (r.past '"' rest)
      .ok (.text s, after)
    | '[' :: rest =>
      if depth ≤ 1 then .error (r.refuseNext .tooDeep)
      else do
        let (items, after) ← readItems fuel (depth - 1) true (r.past '[' rest)
        .ok (.list items, after)
    | '\x7b' :: rest =>
      if depth ≤ 1 then .error (r.refuseNext .tooDeep)
      else do
        let (fields, after) ← readFields fuel (depth - 1) true (r.past '\x7b' rest)
        .ok (.record fields, after)
    | c :: _ => if c.isDigit then readNumber false r else .error (r.refuseNext .expectedValue)

/-- The items of a list up to its bracket. -/
def readItems : Nat → Nat → Bool → Remaining → Except ReadError (List Json × Remaining)
  | 0, _, _, r => .error (r.refuse .eofInList)
  | fuel + 1, depth, first, r =>
    let r := r.pastBlanks
    match r.rest with
    | [] => .error (r.refuseNext .eofInList)
    | ']' :: rest => .ok ([], r.past ']' rest)
    | c :: rest =>
      if first then readItem fuel depth r
      else if c == ',' then
        let next := (r.past ',' rest).pastBlanks
        match next.rest with
        | [] => .error (next.refuseNext .eofInValue)
        | ']' :: _ => .error (next.refuseNext .trailingComma)
        | _ => readItem fuel depth next
      else .error (r.refuseNext .expectedListEnd)

/-- An item of a list and those behind it. -/
def readItem : Nat → Nat → Remaining → Except ReadError (List Json × Remaining)
  | 0, _, r => .error (r.refuse .eofInList)
  | fuel + 1, depth, r => do
    let (item, after) ← readValue fuel depth r
    let (items, after) ← readItems fuel depth false after
    .ok (item :: items, after)

/-- The fields of a record up to its brace. -/
def readFields : Nat → Nat → Bool → Remaining → Except ReadError (List (String × Json) × Remaining)
  | 0, _, _, r => .error (r.refuse .eofInObject)
  | fuel + 1, depth, first, r =>
    let r := r.pastBlanks
    match r.rest with
    | [] => .error (r.refuseNext .eofInObject)
    | '\x7d' :: rest => .ok ([], r.past '\x7d' rest)
    | c :: rest =>
      if first then
        if c == '"' then readField fuel depth r else .error (r.refuseNext .keyNotText)
      else if c == ',' then
        let next := (r.past ',' rest).pastBlanks
        match next.rest with
        | [] => .error (next.refuseNext .eofInValue)
        | '"' :: _ => readField fuel depth next
        | '\x7d' :: _ => .error (next.refuseNext .trailingComma)
        | _ => .error (next.refuseNext .keyNotText)
      else .error (r.refuseNext .expectedObjectEnd)

/-- A field of a record and those behind it. -/
def readField : Nat → Nat → Remaining → Except ReadError (List (String × Json) × Remaining)
  | 0, _, r => .error (r.refuse .eofInObject)
  | fuel + 1, depth, r => do
    let (key, after) ← readString (r.rest.length + 1) [] ⟨r.rest.drop 1, r.line, r.column + 1⟩
    let after := after.pastBlanks
    match after.rest with
    | [] => .error (after.refuseNext .eofInObject)
    | ':' :: rest => do
      let (value, after) ← readValue fuel depth (after.past ':' rest)
      let (fields, after) ← readFields fuel depth false after
      .ok ((key, value) :: fields, after)
    | _ => .error (after.refuseNext .expectedColon)

end

/-- The value that a whole text denotes, with the fields of records as they are written. -/
def readAsWritten (text : String) : Except ReadError Json := do
  let chars := text.toList
  let (value, after) ← readValue (3 * chars.length + 3) 128 ⟨chars, 1, 0⟩
  let after := after.pastBlanks
  if after.rest.isEmpty then .ok value else .error (after.refuseNext .trailingCharacters)

mutual

/-- The value with the fields of its records sorted, the last of one key kept. -/
def sorted : Json → Json
  | .list items => .list (sortedItems items)
  | .record fields => .ofFields (sortedFields fields)
  | other => other

/-- The items with the fields of their records sorted. -/
def sortedItems : List Json → List Json
  | [] => []
  | item :: rest => sorted item :: sortedItems rest

/-- The fields with the fields of their values sorted. -/
def sortedFields : List (String × Json) → List (String × Json)
  | [] => []
  | (key, value) :: rest => (key, sorted value) :: sortedFields rest

end

/-- The data value that a whole text denotes. -/
def read (text : String) : Except ReadError Json :=
  (readAsWritten text).map sorted

end TaskRunner.Json
