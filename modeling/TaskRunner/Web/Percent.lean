import TaskRunner.Number.Reading
import TaskRunner.Text.Utf8

/-!
# Percent encoding

Characters that may not stand in a part of an address are written as the bytes of their UTF-8 form, each
as a percent sign and two digits.
-/

namespace TaskRunner.Web

/-- A hexadecimal digit in capitals. -/
def upperHexDigit (n : Nat) : Char :=
  if n < 10 then Char.ofNat (48 + n) else Char.ofNat (55 + n)

/-- A byte as a percent sign and two digits. -/
def percentByte (b : UInt8) : List Char :=
  ['%', upperHexDigit (b.toNat / 16), upperHexDigit (b.toNat % 16)]

/-- Writes the characters that must not stand as they are as bytes; those outside ASCII are among them. -/
def percentEncode (mustEncode : Char → Bool) (chars : List Char) : List Char :=
  chars.flatMap fun c =>
    if mustEncode c || 0x7E < c.toNat then (Text.utf8 c.toString).flatMap percentByte else [c]

/-- Reads bytes written with percent signs; a sign without two digits stands for itself. -/
def percentDecode : List UInt8 → List UInt8
  | b :: x :: y :: rest =>
    let code :=
      if b == 37 then Number.natOfDigits 16 [Char.ofNat x.toNat, Char.ofNat y.toNat] else none
    match code with
    | some n => UInt8.ofNat n :: percentDecode rest
    | none => b :: percentDecode (x :: y :: rest)
  | few => few

/-- Control characters. -/
def isControl (c : Char) : Bool :=
  c.toNat < 0x20 || 0x7E < c.toNat

/-- What may not stand in a fragment. -/
def fragmentSet (c : Char) : Bool :=
  isControl c || " \"<>\x60".contains c

/-- What may not stand in a path. -/
def pathSet (c : Char) : Bool :=
  fragmentSet c || "#?\x7b\x7d".contains c

/-- What may not stand in a name or password. -/
def userSet (c : Char) : Bool :=
  pathSet c || "/:;=@[\\]^|".contains c

/-- What may not stand in a query; in the addresses of known schemes, a single quote neither. -/
def querySet (isSpecial : Bool) (c : Char) : Bool :=
  isControl c || " \"#<>".contains c || (isSpecial && c == '\'')

end TaskRunner.Web
