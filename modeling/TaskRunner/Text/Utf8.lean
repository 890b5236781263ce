/-!
# Text from bytes

Reading bytes as UTF-8. The lossy reading puts one replacement character in place of every longest
beginning of a character that is not carried on; the strict one refuses such bytes.
-/

namespace TaskRunner.Text

/-- The bytes of a text. -/
def utf8 (s : String) : List UInt8 :=
  s.toUTF8.toList

/-- Whether a byte carries a character on. -/
def isContinuation (b : UInt8) : Bool :=
  0x80 ≤ b && b ≤ 0xbf

/-- How many bytes follow a first byte, and between which bounds the second one lies. -/
def sequenceShape (lead : UInt8) : Option (Nat × UInt8 × UInt8) :=
  if 0xc2 ≤ lead && lead ≤ 0xdf then some (1, 0x80, 0xbf)
  else if lead == 0xe0 then some (2, 0xa0, 0xbf)
  else if lead == 0xed then some (2, 0x80, 0x9f)
  else if 0xe1 ≤ lead && lead ≤ 0xef then some (2, 0x80, 0xbf)
  else if lead == 0xf0 then some (3, 0x90, 0xbf)
  else if 0xf1 ≤ lead && lead ≤ 0xf3 then some (3, 0x80, 0xbf)
  else if lead == 0xf4 then some (3, 0x80, 0x8f)
  else none

/-- The bits of the first byte that belong to the character. -/
def leadBits (lead : UInt8) (following : Nat) : Nat :=
  lead.toNat % (1 <<< (6 - following))

/-- Carries a code point on by the given number of bytes. The answer is the code point if all of them
are there, and how many were taken. -/
def continueChar : Nat → Nat → List UInt8 → Option Nat × Nat
  | 0, code, _ => (some code, 0)
  | _ + 1, _, [] => (none, 0)
  | n + 1, code, b :: rest =>
    if isContinuation b then
      let (result, taken) := continueChar n (code * 64 + b.toNat % 64) rest
      (result, taken + 1)
    else (none, 0)

/-- The character that starts with a byte, if there is one, and how many of the bytes behind it belong
to the reading. -/
def decodeChar (lead : UInt8) (rest : List UInt8) : Option Char × Nat :=
  if lead < 0x80 then (some (Char.ofNat lead.toNat), 0)
  else
    match sequenceShape lead with
    | none => (none, 0)
    | some (following, low, high) =>
      match rest with
      | [] => (none, 0)
      | second :: _ =>
        if low ≤ second && second ≤ high then
          let (code, taken) := continueChar following (leadBits lead following) rest
          (code.map Char.ofNat, taken)
        else (none, 0)

/-- The readings of the bytes one after the other; nothing stands for bytes that are no character. -/
def decodeFrom : Nat → List UInt8 → List (Option Char)
  | 0, _ => []
  | _, [] => []
  | fuel + 1, lead :: rest =>
    let (c, taken) := decodeChar lead rest
    c :: decodeFrom fuel (rest.drop taken)

/-- The readings of all bytes. -/
def decode (bytes : List UInt8) : List (Option Char) :=
  decodeFrom bytes.length bytes

/-- The text of bytes, with a replacement character for what is no character. -/
def lossy (bytes : List UInt8) : String :=
  String.ofList ((decode bytes).map fun c => c.getD '\ufffd')

/-- The text of bytes that are UTF-8. -/
def strict? (bytes : List UInt8) : Option String :=
  ((decode bytes).mapM id).map String.ofList

end TaskRunner.Text
