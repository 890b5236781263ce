import TaskRunner.Number.Binary64

/-!
# Shortest digits

The fewest decimal digits that read back as a given double. For one digit, then two, and so on, the
two neighbours of the exact value on that decimal grid are tested against the interval of reals that
round to the double; the first grid with a hit wins, and of two hits the nearer.
-/

namespace TaskRunner.Number

/-- A decimal `digits * 10 ^ exponent`. -/
structure Decimal where
  digits : Nat
  exponent : Int
deriving DecidableEq, Repr

/-- `m * 2 ^ q` in units of `10 ^ e`, as a fraction. -/
def onGrid (m : Nat) (q e : Int) : Nat × Nat :=
  let num := m <<< q.toNat * Nat.pow 10 (-e).toNat
  let den := 1 <<< (-q).toNat * Nat.pow 10 e.toNat
  (num, den)

/-- A grid point that rounds to `m * 2 ^ q`, the nearer of the two beside it. All quantities are
quarters of the last place, so that the half-way points on both sides are whole. -/
def gridHit (m : Nat) (q e : Int) : Option Nat :=
  let (num, den) := onGrid (4 * m) (q - 2) e
  let low := (onGrid (if m = 1 <<< 52 && q != -1074 then 4 * m - 1 else 4 * m - 2) (q - 2) e).1
  let high := (onGrid (4 * m + 2) (q - 2) e).1
  let inside (d : Nat) : Bool :=
    if m % 2 == 0 then low ≤ d * den && d * den ≤ high else low < d * den && d * den < high
  let below := num / den
  let above := below + 1
  let belowHit := 0 < below && inside below
  let aboveHit := inside above
  let gapBelow := num - below * den
  let gapAbove := above * den - num
  if belowHit && aboveHit then
    if gapBelow < gapAbove || (gapBelow == gapAbove && below % 2 == 0) then some below
    else some above
  else if belowHit then some below
  else if aboveHit then some above
  else none

/-- The power of ten just above `m * 2 ^ q`. -/
def decimalTop (m : Nat) (q : Int) : Int :=
  let (num, den) := onGrid m q 0
  if den ≤ num then decimalLength (num / den)
  else 1 - decimalLength ((den - 1) / num)

/-- Drops the zeros at the end of the digits. -/
def Decimal.trim : Nat → Decimal → Decimal
  | 0, d => d
  | fuel + 1, d =>
    if d.digits != 0 && d.digits % 10 == 0 then
      Decimal.trim fuel ⟨d.digits / 10, d.exponent + 1⟩
    else d

/-- The shortest decimal that reads back as the magnitude of a finite double. -/
def shortest (x : Float) : Decimal :=
  let (m, q) := magnitude x
  if m = 0 then ⟨0, 0⟩
  else
    let top := decimalTop m q
    let hit := (List.range 18).findSome? fun (n : Nat) =>
      let e := top - Int.ofNat n
      (gridHit m q e).map fun d => (⟨d, e⟩ : Decimal)
    (hit.getD ⟨m, q⟩).trim 20

end TaskRunner.Number
