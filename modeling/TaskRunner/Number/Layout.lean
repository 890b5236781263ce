import TaskRunner.Number.Shortest

/-!
# Number layouts

How the shortest digits of a double are written out. A layout says between which sizes a number is
written positionally, what an integral number ends in, and how an exponent looks.
-/

namespace TaskRunner.Number

/-- The decisions of a number format. A number `0.ddd * 10 ^ point` is written positionally when
`lowest < point ≤ highest`, or always when the bounds are absent. -/
structure Layout where
  positional : Option (Int × Int)
  integralEnd : String
  plusInExponent : Bool
  negativeZero : String
  infinity : String
  notANumber : String

/-- Zeros. -/
def zeros (n : Nat) : String :=
  String.ofList (List.replicate n '0')

/-- Positional notation of digits that start `point` places before the decimal point. -/
def positionalText (digits : List Char) (point : Int) (integralEnd : String) : String :=
  let count : Int := digits.length
  if count ≤ point then
    String.ofList digits ++ zeros (point - count).toNat ++ integralEnd
  else if 0 < point then
    String.ofList (digits.take point.toNat) ++ "." ++ String.ofList (digits.drop point.toNat)
  else "0." ++ zeros (-point).toNat ++ String.ofList digits

/-- Scientific notation of digits that start `point` places before the decimal point. -/
def scientificText (digits : List Char) (point : Int) (plus : Bool) : String :=
  let mantissa := match digits with
    | [] => "0"
    | [d] => String.ofList [d]
    | d :: rest => String.ofList (d :: '.' :: rest)
  let e := point - 1
  let sign := if e < 0 then "-" else if plus then "+" else ""
  mantissa ++ "e" ++ sign ++ toString e.natAbs

/-- A double in a layout. -/
def Layout.format (layout : Layout) (x : Float) : String :=
  if x.isNaN then layout.notANumber
  else
    let sign := if isNegative x then "-" else ""
    if x.isInf then sign ++ layout.infinity
    else
      let d := shortest x
      if d.digits = 0 then
        (if isNegative x then layout.negativeZero else "0") ++ layout.integralEnd
      else
        let digits := Nat.toDigits 10 d.digits
        let point : Int := digits.length + d.exponent
        let positional := match layout.positional with
          | none => true
          | some (lowest, highest) => lowest < point && point ≤ highest
        sign ++ if positional then positionalText digits point layout.integralEnd
          else scientificText digits point layout.plusInExponent

/-- Positional at every size. -/
def plain : Layout := ⟨none, "", false, "-0", "inf", "NaN"⟩

/-- The number format of scripts: positional below `1e21` and from `1e-6` up. -/
def scripting : Layout := ⟨some (-6, 21), "", true, "0", "Infinity", "NaN"⟩

/-- The number format of JSON texts: a fraction part on every positional number. -/
def serial : Layout := ⟨some (-5, 16), ".0", false, "-0", "null", "null"⟩

/-- A non-negative double with a fixed number of places, ties to even. -/
def fixed (places : Nat) (x : Float) : String :=
  let (m, q) := magnitude x
  let (num, den) := onGrid m q (-places)
  let digits := Nat.toDigits 10 (roundQuotient num den)
  let padded := List.replicate (places + 1 - digits.length) '0' ++ digits
  let whole := padded.take (padded.length - places)
  let sign := if isNegative x then "-" else ""
  if places = 0 then sign ++ String.ofList whole
  else sign ++ String.ofList whole ++ "." ++ String.ofList (padded.drop whole.length)

end TaskRunner.Number
