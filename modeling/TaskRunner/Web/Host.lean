import TaskRunner.Text.Casing
import TaskRunner.Web.Percent

/-!
# Hosts

The hosts of addresses: names, and addresses of the two internet protocols. Names outside ASCII are
written in ASCII letters.
-/

namespace TaskRunner.Web

/-- Why a text is no address. -/
inductive UrlError where
  | relativeWithoutBase
  | emptyHost
  | invalidPort
  | invalidIpv4
  | invalidIpv6
  | invalidDomain
  | invalidHostCharacter
deriving DecidableEq, Repr

/-- The error in words. -/
def UrlError.message : UrlError → String
  | relativeWithoutBase => "relative URL without a base"
  | emptyHost => "empty host"
  | invalidPort => "invalid port number"
  | invalidIpv4 => "invalid IPv4 address"
  | invalidIpv6 => "invalid IPv6 address"
  | invalidDomain => "invalid international domain name"
  | invalidHostCharacter => "invalid domain character"

/-- The characters that stand in no host name. -/
def isForbiddenInHost (c : Char) : Bool :=
  "\x00\t\n\r #/:<>?@[\\]^|".contains c

/-- The characters that stand in no domain. -/
def isForbiddenInDomain (c : Char) : Bool :=
  isForbiddenInHost c || c == '%' || c.toNat < 0x20 || c.toNat == 0x7F

/-! ## Labels in ASCII -/

/-- A digit of a label in ASCII: letters, then decimal digits. -/
def labelDigit (n : Nat) : Char :=
  if n < 26 then Char.ofNat (97 + n) else Char.ofNat (22 + n)

/-- The bias after a step, which keeps digits few. -/
def adaptBias (delta points : Nat) (isFirst : Bool) : Nat :=
  let delta := if isFirst then delta / 700 else delta / 2
  let rec shrink : Nat → Nat → Nat → Nat
    | 0, delta, k => k + 36 * delta / (delta + 38)
    | fuel + 1, delta, k =>
      if 455 < delta then shrink fuel (delta / 35) (k + 36) else k + 36 * delta / (delta + 38)
  shrink 64 (delta + delta / points) 0

/-- A number in digits whose weights follow the bias, `fuel` digits at most. -/
def labelDigits (bias : Nat) : Nat → Nat → Nat → List Char
  | 0, _, _ => []
  | fuel + 1, k, q =>
    let t := if k ≤ bias then 1 else min (k - bias) 26
    if q < t then [labelDigit q]
    else labelDigit (t + (q - t) % (36 - t)) :: labelDigits bias fuel (k + 36) ((q - t) / (36 - t))

/-- The state of writing a label: the next code point, the steps to it, the bias, how many characters are
written, and the digits so far. -/
structure LabelState where
  code : Nat
  delta : Nat
  bias : Nat
  handled : Nat
  digits : List Char
deriving Repr

/-- Writes all occurrences of one code point. -/
def LabelState.writeCode (basic : Nat) (code : Nat) (s : LabelState) : List Char → LabelState
  | [] => { s with delta := s.delta + 1, code := code + 1 }
  | c :: rest =>
    if c.toNat < code then writeCode basic code { s with delta := s.delta + 1 } rest
    else if c.toNat == code then
      let digits := labelDigits s.bias 64 36 s.delta
      let bias := adaptBias s.delta (s.handled + 1) (s.handled == basic)
      writeCode basic code
        { s with delta := 0, bias, handled := s.handled + 1, digits := s.digits ++ digits } rest
    else writeCode basic code s rest

/-- A label in ASCII letters: its own ones, then where the others stand. -/
def asciiLabel (label : List Char) : List Char :=
  let basic := label.filter fun c => c.toNat < 128
  if basic.length == label.length then label
  else
    let others := ((label.map Char.toNat).filter (128 ≤ ·)).mergeSort.eraseDups
    let front := if basic.isEmpty then [] else basic ++ ['-']
    let start : LabelState := ⟨128, 0, 72, basic.length, []⟩
    let done := others.foldl (fun (s : LabelState) code =>
      let s := { s with delta := s.delta + (code - s.code) * (s.handled + 1) }
      s.writeCode basic.length code label) start
    "xn--".toList ++ front ++ done.digits

/-- The form of a character in a domain: small letters, and the plain forms of wide ones. -/
def domainChar (c : Char) : List Char :=
  let n := c.toNat
  if c == '\u3002' || c == '\uFF61' then ['.']
  else if 0xFF01 ≤ n && n ≤ 0xFF5E then Text.lowerChar (Char.ofNat (n - 0xFEE0))
  else if n == 0xAD || n == 0x200B || n == 0x2060 || n == 0xFEFF then []
  else Text.lowerChar c

/-- The parts of a text between full stops. -/
def labels (chars : List Char) : List (List Char) :=
  chars.splitOn '.'

/-- A domain in ASCII. -/
def asciiDomain? (bytes : List UInt8) : Option (List Char) := do
  let text ← Text.strict? bytes
  let chars := text.toList.flatMap domainChar
  if chars.any isForbiddenInDomain then none
  else return ['.'].intercalate ((labels chars).map asciiLabel)

/-! ## Numeric addresses -/

/-- What a part of an address in numbers is. -/
inductive Ipv4Part where
  | number (n : Nat)
  | tooLarge
  | word
deriving DecidableEq, Repr

/-- Reads a part: decimal, octal after a zero, hexadecimal after a zero and an `x`. -/
def ipv4Part (chars : List Char) : Ipv4Part :=
  let (base, digits) := match chars with
    | '0' :: 'x' :: rest | '0' :: 'X' :: rest => (16, rest)
    | '0' :: d :: rest => (8, d :: rest)
    | other => (10, other)
  if chars.isEmpty then .word
  else if digits.isEmpty then .number 0
  else
    match Number.natOfDigits base digits with
    | some n => if n < UInt32.size then .number n else .tooLarge
    | none => .word

/-- The parts of a host name without an empty last one. -/
def hostParts (chars : List Char) : List (List Char) :=
  let parts := labels chars
  if 1 < parts.length && parts.getLast? == some [] then parts.dropLast else parts

/-- Whether the last part of a host name is a number. -/
def endsInNumber (chars : List Char) : Bool :=
  match (hostParts chars).getLast? with
  | some part => (!part.isEmpty && part.all Char.isDigit) || ipv4Part part != .word
  | none => false

/-- Reads an address in numbers: up to four parts, of which the last fills what is left. -/
def ipv4? (chars : List Char) : Except UrlError Nat :=
  let parts := (hostParts chars).map ipv4Part
  let numbers := parts.filterMap fun
    | .number n => some n
    | _ => none
  match numbers.getLast? with
  | some last =>
    let front := numbers.dropLast
    if numbers.length < parts.length || 4 < parts.length || front.any (255 < ·) ||
        1 <<< (8 * (4 - front.length)) ≤ last then .error .invalidIpv4
    else .ok (front.zipIdx.foldl (fun acc (n, i) => acc + (n <<< (8 * (3 - i)))) last)
  | none => .error .invalidIpv4

/-- An address in four numbers. -/
def ipv4Text (n : Nat) : String :=
  ".".intercalate ([24, 16, 8, 0].map fun shift => toString ((n >>> shift) % 256))

/-- Reads the last two pieces of an address in eight pieces when they are written as four numbers. -/
def embeddedIpv4? (chars : List Char) : Option (List Nat) :=
  let parts := labels chars
  let numbers := parts.filterMap fun part =>
    if 1 < part.length && part.head? == some '0' then none
    else (Number.natOfDigits 10 part).filter (· < 256)
  match numbers with
  | [a, b, c, d] => if parts.length == 4 then some [a * 256 + b, c * 256 + d] else none
  | _ => none

/-- Reads pieces between colons; the last one may be four numbers. -/
def ipv6Pieces? : List (List Char) → Option (List Nat)
  | [] => some []
  | [last] =>
    if last.contains '.' then embeddedIpv4? last
    else if 4 < last.length then none
    else (Number.natOfDigits 16 last).map ([·])
  | piece :: rest => do
    if 4 < piece.length then none
    else return (← Number.natOfDigits 16 piece) :: (← ipv6Pieces? rest)

/-- Splits at the first empty place between two colons. -/
def splitAtGap : List Char → Option (List Char × List Char)
  | ':' :: ':' :: rest => some ([], rest)
  | c :: rest => (splitAtGap rest).map fun (a, b) => (c :: a, b)
  | [] => none

/-- Pieces of a text between colons; none for no text. -/
def colonPieces (chars : List Char) : List (List Char) :=
  if chars.isEmpty then [] else chars.splitOn ':'

/-- Reads an address in eight pieces, of which a row of zeros may be left out. -/
def ipv6? (chars : List Char) : Except UrlError (List Nat) :=
  let pieces := match splitAtGap chars with
    | some (front, back) => do
      let a ← ipv6Pieces? (colonPieces front)
      let b ← ipv6Pieces? (colonPieces back)
      if front.contains '.' || 7 < a.length + b.length then none
      else return a ++ List.replicate (8 - a.length - b.length) 0 ++ b
    | none => (ipv6Pieces? (colonPieces chars)).filter (·.length == 8)
  match pieces with
  | some pieces => .ok pieces
  | none => .error .invalidIpv6

/-- How many zeros a list starts with. -/
def leadingZeros (pieces : List Nat) : Nat :=
  (pieces.takeWhile (· == 0)).length

/-- An address in eight pieces with the first of its longest rows of zeros left out. -/
def ipv6Text (pieces : List Nat) : String :=
  let hex := fun (ns : List Nat) =>
    ":".intercalate (ns.map fun n => String.ofList (Nat.toDigits 16 n))
  let runs := (List.range pieces.length).map fun i => leadingZeros (pieces.drop i)
  let longest := runs.foldl max 0
  if longest < 2 then hex pieces
  else
    let start := runs.findIdx (· == longest)
    hex (pieces.take start) ++ "::" ++ hex (pieces.drop (start + longest))

/-! ## Hosts -/

/-- A host. -/
inductive Host where
  | domain (name : String)
  | ipv4 (address : Nat)
  | ipv6 (pieces : List Nat)
deriving DecidableEq, Repr

/-- The host as text. -/
def Host.text : Host → String
  | domain name => name
  | ipv4 address => ipv4Text address
  | ipv6 pieces => "[" ++ ipv6Text pieces ++ "]"

/-- Reads a host in square brackets. -/
def bracketedHost? (chars : List Char) : Except UrlError Host :=
  if chars.getLast? == some ']' then (ipv6? ((chars.drop 1).dropLast)).map Host.ipv6
  else .error .invalidIpv6

/-- Reads the host of an address whose scheme is known. -/
def Host.ofText? (chars : List Char) : Except UrlError Host :=
  if chars.head? == some '[' then bracketedHost? chars
  else
    match asciiDomain? (percentDecode (Text.utf8 (String.ofList chars))) with
    | none => .error .invalidDomain
    | some [] => .error .emptyHost
    | some name =>
      if endsInNumber name then (ipv4? name).map Host.ipv4
      else .ok (.domain (String.ofList name))

/-- Reads the host of an address of another scheme. -/
def Host.ofOpaqueText? (chars : List Char) : Except UrlError Host :=
  if chars.head? == some '[' then bracketedHost? chars
  else if chars.any isForbiddenInHost then .error .invalidHostCharacter
  else .ok (.domain (String.ofList (percentEncode isControl chars)))

end TaskRunner.Web
