/-!
# Doubles from exact numbers

The double nearest to a quotient of natural numbers, ties to the even neighbour, by exact arithmetic
on the bit layout: eleven exponent bits, fifty-two fraction bits. Numbers written in decimal or in a
power-of-two base are read through it.
-/

namespace TaskRunner.Number

/-- The bits of positive infinity. -/
def infinityBits : Nat := 0x7ff0000000000000

/-- The quotient rounded to the nearest natural number, ties to even. -/
def roundQuotient (num den : Nat) : Nat :=
  let q := num / den
  let twice := 2 * (num % den)
  if twice < den then q
  else if den < twice then q + 1
  else q + q % 2

/-- `num / den` in units of `2 ^ e`, as a fraction. -/
def inUnits (num den : Nat) (e : Int) : Nat × Nat :=
  if e < 0 then (num <<< (-e).toNat, den) else (num, den <<< e.toNat)

/-- The exponent of the last place of a double near `num / den`: fifty-three significant bits, unless
the number is subnormal. -/
def lastPlace (num den : Nat) : Int :=
  let guess : Int := (num.log2 : Int) - (den.log2 : Int) - 52
  let scaled := inUnits num den guess
  let e := if scaled.1 / scaled.2 < 1 <<< 52 then guess - 1 else guess
  max e (-1074)

/-- The bits of the double nearest to `num / den`, ties to even; infinity beyond the largest one. -/
def bitsOfRatio (num den : Nat) : Nat :=
  if num = 0 then 0
  else
    let e := lastPlace num den
    let scaled := inUnits num den e
    min infinityBits ((e + 1074).toNat <<< 52 + roundQuotient scaled.1 scaled.2)

/-- The double nearest to `num / den`. -/
def ofRatio (num den : Nat) : Float :=
  Float.ofBits (UInt64.ofNat (bitsOfRatio num den))

/-- The double nearest to a natural number. -/
def ofNat (n : Nat) : Float :=
  ofRatio n 1

/-- The number of decimal digits. -/
def decimalLength (n : Nat) : Nat :=
  (Nat.toDigits 10 n).length

/-- The double nearest to `m * 10 ^ e`. -/
def ofDecimal (m : Nat) (e : Int) : Float :=
  let magnitude := e + decimalLength m
  if m = 0 || magnitude < -350 then Float.ofBits 0
  else if 350 < magnitude then Float.ofBits (UInt64.ofNat infinityBits)
  else if e < 0 then ofRatio m (Nat.pow 10 (-e).toNat)
  else ofRatio (m * Nat.pow 10 e.toNat) 1

/-- The exact magnitude of a finite double as `m * 2 ^ q`. -/
def magnitude (x : Float) : Nat × Int :=
  let bits := x.toBits.toNat % (1 <<< 63)
  let fraction := bits % (1 <<< 52)
  let exponent : Nat := bits >>> 52
  if exponent = 0 then (fraction, -1074) else (fraction + (1 <<< 52), Int.ofNat exponent - 1075)

/-- Whether the sign bit is set. -/
def isNegative (x : Float) : Bool :=
  1 <<< 63 ≤ x.toBits.toNat

/-- Whether the double is an integer. -/
def isIntegral (x : Float) : Bool :=
  let parts := magnitude x
  x.isFinite && (0 ≤ parts.2 || parts.1 % (1 <<< (-parts.2).toNat) == 0)

/-- The integer part of a finite double, toward zero. -/
def truncate (x : Float) : Int :=
  let parts := magnitude x
  let size : Nat := if parts.2 < 0 then parts.1 >>> (-parts.2).toNat else parts.1 <<< parts.2.toNat
  if isNegative x then -(size : Int) else size

end TaskRunner.Number
