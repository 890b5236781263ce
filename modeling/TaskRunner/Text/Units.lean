/-!
# Text in sixteen-bit units

Scripts count and compare texts by sixteen-bit units: a character beyond the first plane takes two of
them, a pair of surrogates.
-/

namespace TaskRunner.Text

/-- The units of a character. -/
def unitsOfChar (c : Char) : List Nat :=
  let n := c.toNat
  if n < 0x10000 then [n]
  else [0xD800 + (n - 0x10000) / 0x400, 0xDC00 + (n - 0x10000) % 0x400]

/-- The units of characters. -/
def units (chars : List Char) : List Nat :=
  chars.flatMap unitsOfChar

/-- Whether a unit is the first one of a pair. -/
def isLeading (unit : Nat) : Bool :=
  0xD800 ≤ unit && unit < 0xDC00

/-- Whether a unit is the second one of a pair. -/
def isTrailing (unit : Nat) : Bool :=
  0xDC00 ≤ unit && unit < 0xE000

/-- The character of a code point; a lone surrogate becomes the replacement character. -/
def charOfCode (code : Nat) : Char :=
  if code.isValidChar then Char.ofNat code else '\ufffd'

/-- The characters of units. -/
def ofUnits : List Nat → List Char
  | [] => []
  | [unit] => [charOfCode unit]
  | lead :: trail :: rest =>
    if isLeading lead && isTrailing trail then
      charOfCode (0x10000 + (lead - 0xD800) * 0x400 + (trail - 0xDC00)) :: ofUnits rest
    else charOfCode lead :: ofUnits (trail :: rest)

/-- The number of units of a text. -/
def unitCount (s : String) : Nat :=
  (units s.toList).length

/-- Whether one list of units comes before another. -/
def unitsBefore : List Nat → List Nat → Bool
  | _, [] => false
  | [], _ :: _ => true
  | a :: as, b :: bs => a < b || (a == b && unitsBefore as bs)

/-- Whether a text comes before another in the order of their units. -/
def comesBefore (a b : String) : Bool :=
  unitsBefore (units a.toList) (units b.toList)

end TaskRunner.Text
