import Mathlib.Data.Nat.Cast.Order.Field
import TaskRunner.Proofs.DoubleBits
import TaskRunner.Proofs.NearestDouble

/-!
# Shortest digits

The digits that are found for a magnitude lie in its rounding interval. Some grid of decimals always has a
point there: with eighteen digits the points are closer together than the interval is wide.
-/

namespace TaskRunner.Proofs
open Number

variable {m : Nat} {q e : Int}

/-! ## Grids -/

lemma two_zpow (q : Int) : (2 : ℚ) ^ q.toNat / 2 ^ (-q).toNat = 2 ^ q := by
  by_cases hq : 0 ≤ q
  · obtain ⟨k, rfl⟩ : ∃ k : Nat, q = k := ⟨q.toNat, by omega⟩
    simp
  · obtain ⟨k, rfl⟩ : ∃ k : Nat, q = -k := ⟨(-q).toNat, by omega⟩
    simp

lemma ten_zpow (e : Int) : (10 : ℚ) ^ (-e).toNat / 10 ^ e.toNat = (10 ^ e)⁻¹ := by
  by_cases he : 0 ≤ e
  · obtain ⟨k, rfl⟩ : ∃ k : Nat, e = k := ⟨e.toNat, by omega⟩
    simp
  · obtain ⟨k, rfl⟩ : ∃ k : Nat, e = -k := ⟨(-e).toNat, by omega⟩
    simp

/-- The denominator of a grid. -/
def gridDen (q e : Int) : Nat :=
  1 <<< (-q).toNat * Nat.pow 10 e.toNat

lemma gridDen_eq (q e : Int) : gridDen q e = 2 ^ (-q).toNat * 10 ^ e.toNat := by
  rw [gridDen, Nat.one_shiftLeft, Nat.pow_eq]

lemma gridDen_pos (q e : Int) : 0 < gridDen q e := by
  rw [gridDen_eq]
  exact Nat.mul_pos (Nat.two_pow_pos _) (Nat.pow_pos (by decide))

lemma onGrid_div (n : Nat) (q e : Int) :
    ((onGrid n q e).1 : ℚ) / gridDen q e = n * 2 ^ q / 10 ^ e := by
  have hsplit : ((onGrid n q e).1 : ℚ) / gridDen q e =
      n * ((2 : ℚ) ^ q.toNat / 2 ^ (-q).toNat) * (10 ^ (-e).toNat / 10 ^ e.toNat) := by
    rw [gridDen_eq, onGrid]
    dsimp only
    rw [Nat.shiftLeft_eq, Nat.pow_eq]
    push_cast
    field_simp
  rw [hsplit, two_zpow, ten_zpow]
  rfl

/-- Whether a grid point is inside, as the search tests it. -/
def isInside (m : Nat) (q e : Int) (d : Nat) : Bool :=
  let low := (onGrid (if m = 2 ^ 52 && q != -1074 then 4 * m - 1 else 4 * m - 2) (q - 2) e).1
  let high := (onGrid (4 * m + 2) (q - 2) e).1
  if m % 2 == 0 then low ≤ d * gridDen (q - 2) e && d * gridDen (q - 2) e ≤ high
  else low < d * gridDen (q - 2) e && d * gridDen (q - 2) e < high

lemma onGrid_quarters (n : Nat) (q e : Int) :
    ((onGrid n (q - 2) e).1 : ℚ) / gridDen (q - 2) e = n / 4 * 2 ^ q / 10 ^ e := by
  have hfour : (n : ℚ) * (2 ^ q / 2 ^ (2 : Int)) = n / 4 * 2 ^ q := by
    norm_num
    ring
  rw [onGrid_div, zpow_sub₀ two_ne_zero, hfour]

lemma quarters_le_iff {n d : Nat} :
    (onGrid n (q - 2) e).1 ≤ d * gridDen (q - 2) e ↔ (n : ℚ) / 4 ≤ d * 10 ^ e / 2 ^ q := by
  have hpos : (0 : ℚ) < gridDen (q - 2) e := by exact_mod_cast gridDen_pos _ _
  have hcast : (onGrid n (q - 2) e).1 ≤ d * gridDen (q - 2) e ↔
      ((onGrid n (q - 2) e).1 : ℚ) / gridDen (q - 2) e ≤ d := by
    rw [div_le_iff₀ hpos]
    exact_mod_cast Iff.rfl
  rw [hcast, onGrid_quarters, div_le_iff₀ (by positivity), le_div_iff₀ (by positivity)]

lemma le_quarters_iff {n d : Nat} :
    d * gridDen (q - 2) e ≤ (onGrid n (q - 2) e).1 ↔ (d : ℚ) * 10 ^ e / 2 ^ q ≤ n / 4 := by
  have hpos : (0 : ℚ) < gridDen (q - 2) e := by exact_mod_cast gridDen_pos _ _
  have hcast : d * gridDen (q - 2) e ≤ (onGrid n (q - 2) e).1 ↔
      (d : ℚ) ≤ ((onGrid n (q - 2) e).1 : ℚ) / gridDen (q - 2) e := by
    rw [le_div_iff₀ hpos]
    exact_mod_cast Iff.rfl
  rw [hcast, onGrid_quarters, le_div_iff₀ (by positivity), div_le_iff₀ (by positivity)]

lemma quarters_below (hm : 0 < m) :
    (((if m = 2 ^ 52 && q != -1074 then 4 * m - 1 else 4 * m - 2 : Nat) : ℚ) / 4) =
      m - gapBelow m q := by
  unfold gapBelow
  by_cases h : m = 2 ^ 52 ∧ q ≠ -1074
  · have hb : (decide (m = 2 ^ 52) && q != -1074) = true := by simpa using h
    rw [if_pos hb, if_pos h, Nat.cast_sub (by omega)]
    push_cast
    ring
  · have hb : ¬ (decide (m = 2 ^ 52) && q != -1074) = true := by simpa using h
    rw [if_neg hb, if_neg h, Nat.cast_sub (by omega)]
    push_cast
    ring

lemma isInside_iff (hm : 0 < m) {d : Nat} : isInside m q e d = true ↔ RoundsTo m q (d * 10 ^ e) := by
  have hhigh : ((4 * m + 2 : Nat) : ℚ) / 4 = m + 1 / 2 := by
    push_cast
    ring
  unfold isInside
  dsimp only
  by_cases heven : (m % 2 == 0) = true
  · rw [if_pos heven, Bool.and_eq_true, decide_eq_true_eq, decide_eq_true_eq, quarters_le_iff,
      le_quarters_iff, quarters_below hm, hhigh]
    refine ⟨fun h => ⟨h.1, h.2, fun hodd => ?_⟩, fun h => ⟨h.low, h.high⟩⟩
    rw [beq_iff_eq] at heven
    omega
  · rw [if_neg heven, Bool.and_eq_true, decide_eq_true_eq, decide_eq_true_eq, ← not_le, ← not_le,
      le_quarters_iff, quarters_le_iff, quarters_below hm, hhigh, not_le, not_le]
    rw [beq_iff_eq] at heven
    exact ⟨fun h => ⟨h.1.le, h.2.le, fun _ => h⟩, fun h => h.odd (by omega)⟩

/-! ## Hits -/

lemma gridHit_eq (m : Nat) (q e : Int) : gridHit m q e =
    let num := (onGrid (4 * m) (q - 2) e).1
    let below := num / gridDen (q - 2) e
    let belowHit := decide (0 < below) && isInside m q e below
    let aboveHit := isInside m q e (below + 1)
    if belowHit && aboveHit then
      if num - below * gridDen (q - 2) e < (below + 1) * gridDen (q - 2) e - num ||
          (num - below * gridDen (q - 2) e == (below + 1) * gridDen (q - 2) e - num &&
            below % 2 == 0) then some below
      else some (below + 1)
    else if belowHit then some below
    else if aboveHit then some (below + 1)
    else none := rfl

/-- A hit is a positive grid point of the rounding interval. -/
lemma gridHit_roundsTo (hm : 0 < m) {d : Nat} (h : gridHit m q e = some d) :
    0 < d ∧ RoundsTo m q (d * 10 ^ e) := by
  rw [gridHit_eq] at h
  dsimp only at h
  generalize (onGrid (4 * m) (q - 2) e).1 / gridDen (q - 2) e = below at h
  have hbelow : (decide (0 < below) && isInside m q e below) = true →
      0 < below ∧ RoundsTo m q (below * 10 ^ e) := by
    intro hhit
    rw [Bool.and_eq_true, decide_eq_true_eq] at hhit
    exact ⟨hhit.1, (isInside_iff hm).mp hhit.2⟩
  have habove : isInside m q e (below + 1) = true →
      0 < below + 1 ∧ RoundsTo m q ((below + 1 : Nat) * 10 ^ e) :=
    fun hhit => ⟨Nat.succ_pos _, (isInside_iff hm).mp hhit⟩
  split at h
  · rename_i hboth
    rw [Bool.and_eq_true] at hboth
    split at h
    · cases h
      exact hbelow hboth.1
    · cases h
      exact habove hboth.2
  · split at h
    · rename_i hhit
      cases h
      exact hbelow hhit
    · split at h
      · rename_i hhit
        cases h
        exact habove hhit
      · cases h

/-- A grid that is finer than the rounding interval is wide has a hit. -/
lemma exists_gridHit (hm : 0 < m) (hfine : (10 : ℚ) ^ e < 2 * gapBelow m q * 2 ^ q)
    (hlarge : (10 : ℚ) ^ e ≤ m * 2 ^ q) : (gridHit m q e).isSome = true := by
  have hden : (0 : ℚ) < gridDen (q - 2) e := by exact_mod_cast gridDen_pos _ _
  have hpow : (0 : ℚ) < 2 ^ q := by positivity
  have hten : (0 : ℚ) < 10 ^ e := by positivity
  have hgap := gapBelow_le m q
  rw [gridHit_eq]
  dsimp only
  generalize hbelow : (onGrid (4 * m) (q - 2) e).1 / gridDen (q - 2) e = below
  -- The magnitude in units of the grid, between the points on both sides.
  have hvalue : ((onGrid (4 * m) (q - 2) e).1 : ℚ) / gridDen (q - 2) e = m * 2 ^ q / 10 ^ e := by
    rw [onGrid_div, zpow_sub₀ two_ne_zero]
    push_cast
    ring
  have hlow : (below : ℚ) ≤ m * 2 ^ q / 10 ^ e := by
    rw [← hvalue, le_div_iff₀ hden, ← hbelow]
    exact_mod_cast Nat.div_mul_le_self _ _
  have hhigh : m * 2 ^ q / 10 ^ e < (below : ℚ) + 1 := by
    rw [← hvalue, div_lt_iff₀ hden, ← hbelow]
    exact_mod_cast Nat.lt_mul_of_div_lt (Nat.lt_succ_self _) (gridDen_pos _ _)
  rw [le_div_iff₀ hten] at hlow
  rw [div_lt_iff₀ hten] at hhigh
  have hpos : 0 < below := by
    by_contra hzero
    rw [Nat.eq_zero_of_not_pos hzero] at hhigh
    simp only [Nat.cast_zero, zero_add, one_mul] at hhigh
    linarith
  have hstrict : ∀ d : Nat, (m - gapBelow m q) * 2 ^ q < d * 10 ^ e →
      d * 10 ^ e < ((m : ℚ) + 1 / 2) * 2 ^ q → isInside m q e d = true := by
    intro d hd hd'
    rw [← lt_div_iff₀ hpow] at hd
    rw [← div_lt_iff₀ hpow] at hd'
    exact (isInside_iff hm).mpr ⟨hd.le, hd'.le, fun _ => ⟨hd, hd'⟩⟩
  rcases le_or_gt ((m : ℚ) * 2 ^ q - below * 10 ^ e) (10 ^ e / 2) with hnear | hfar
  · have hhit : isInside m q e below = true := by
      apply hstrict
      · nlinarith
      · nlinarith
    simp only [hpos, hhit, decide_true, Bool.and_self, Bool.true_and, if_true]
    split
    · split <;> rfl
    · rfl
  · have hhit : isInside m q e (below + 1) = true := by
      apply hstrict
      · push_cast
        nlinarith
      · push_cast
        nlinarith
    rw [hhit]
    split
    · split <;> rfl
    · split
      · rfl
      · rfl

lemma decimalTop_le (hm : 0 < m) (q : Int) : (10 : ℚ) ^ (decimalTop m q - 1) ≤ m * 2 ^ q := by
  have hnum : 0 < m * 2 ^ q.toNat := Nat.mul_pos hm (Nat.two_pow_pos _)
  have hden : 0 < 2 ^ (-q).toNat := Nat.two_pow_pos _
  have hvalue : (m : ℚ) * 2 ^ q = (m * 2 ^ q.toNat : Nat) / (2 ^ (-q).toNat : Nat) := by
    rw [← two_zpow]
    push_cast
    ring
  have hdef : decimalTop m q =
      if 2 ^ (-q).toNat ≤ m * 2 ^ q.toNat then
        (decimalLength (m * 2 ^ q.toNat / 2 ^ (-q).toNat) : Int)
      else 1 - decimalLength ((2 ^ (-q).toNat - 1) / (m * 2 ^ q.toNat)) := by
    simp [decimalTop, onGrid, Nat.shiftLeft_eq]
  rw [hvalue, hdef]
  generalize m * 2 ^ q.toNat = num at *
  generalize 2 ^ (-q).toNat = den at *
  have hnum' : (0 : ℚ) < num := by exact_mod_cast hnum
  have hden' : (0 : ℚ) < den := by exact_mod_cast hden
  split
  · rename_i hle
    calc (10 : ℚ) ^ ((decimalLength (num / den) : Int) - 1) ≤ (num / den : Nat) :=
          (decimalLength_bounds (Nat.div_pos hle hden)).1
      _ ≤ num / den := Nat.cast_div_le
  · rename_i hlt
    -- The reciprocal is at most the power of ten above its part before the point.
    have hk : 0 < (den - 1) / num := Nat.div_pos (by omega) hnum
    have hlength := (decimalLength_bounds hk).2
    generalize hkdef : (den - 1) / num = k at *
    have hceil : den ≤ (k + 1) * num := by
      have hmod := Nat.lt_mul_of_div_lt (Nat.lt_add_one ((den - 1) / num)) hnum
      rw [hkdef] at hmod
      omega
    have hceil' : (den : ℚ) ≤ (k + 1) * num := by exact_mod_cast hceil
    have hlength' : (k : ℚ) + 1 ≤ 10 ^ (decimalLength k : Int) := by
      rw [zpow_natCast] at hlength ⊢
      exact_mod_cast hlength
    have hexp : (1 - (decimalLength k : Int) - 1) = -(decimalLength k : Int) := by omega
    rw [hexp, zpow_neg, inv_le_comm₀ (by positivity) (by positivity), inv_div, div_le_iff₀ hnum']
    exact hceil'.trans (mul_le_mul_of_nonneg_right hlength' hnum'.le)

/-! ## The search -/

/-- With eighteen digits the grid is fine enough. -/
lemma exists_finest_hit (hm : IsMagnitude m q) :
    (gridHit m q (decimalTop m q - 17)).isSome = true := by
  have htop := decimalTop_le hm.pos q
  have hpow : (0 : ℚ) < 2 ^ q := by positivity
  have hlt : (m : ℚ) < 2 ^ 53 := by exact_mod_cast hm.lt
  have hexp : decimalTop m q - 1 = decimalTop m q - 17 + 16 := by omega
  rw [hexp, zpow_add₀ (by norm_num)] at htop
  have h16 : (10 : ℚ) ^ (16 : Int) = 10 ^ 16 := rfl
  rw [h16] at htop
  have hten : (0 : ℚ) < 10 ^ (decimalTop m q - 17) := by positivity
  apply exists_gridHit hm.pos
  · unfold gapBelow
    split
    · rename_i h
      have h52 : (m : ℚ) = 2 ^ 52 := by exact_mod_cast h.1
      rw [h52] at htop
      nlinarith
    · nlinarith
  · linarith

/-- The value of a decimal. -/
def valueOf (d : Decimal) : ℚ :=
  d.digits * 10 ^ d.exponent

lemma trim_value (fuel : Nat) (d : Decimal) (h : 0 < d.digits) :
    0 < (Decimal.trim fuel d).digits ∧ valueOf (Decimal.trim fuel d) = valueOf d := by
  induction fuel generalizing d with
  | zero => exact ⟨h, rfl⟩
  | succ fuel ih =>
    rw [Decimal.trim]
    split
    · rename_i hzero
      simp only [Bool.and_eq_true, beq_iff_eq] at hzero
      have hdigits : d.digits = d.digits / 10 * 10 := by omega
      obtain ⟨hpos, hvalue⟩ := ih ⟨d.digits / 10, d.exponent + 1⟩ (by dsimp only; omega)
      refine ⟨hpos, ?_⟩
      rw [hvalue, valueOf, valueOf]
      dsimp only
      rw [hdigits, Nat.mul_div_cancel _ (by decide), zpow_add₀ (by norm_num)]
      push_cast
      ring
    · exact ⟨h, rfl⟩

/-- The shortest digits of a double read back as its magnitude. -/
theorem shortest_roundsTo {x : Float} (hx : magnitude x = (m, q)) (hm : IsMagnitude m q) :
    0 < (shortest x).digits ∧ RoundsTo m q (valueOf (shortest x)) := by
  unfold shortest
  rw [hx]
  dsimp only
  rw [if_neg (Nat.ne_of_gt hm.pos)]
  cases hhit : (List.range 18).findSome? fun (n : Nat) =>
      (gridHit m q (decimalTop m q - Int.ofNat n)).map fun d =>
        (⟨d, decimalTop m q - Int.ofNat n⟩ : Decimal) with
  | none =>
    have hnone := List.findSome?_eq_none_iff.mp hhit 17 (by decide)
    have hsome := exists_finest_hit hm
    rw [Option.map_eq_none_iff] at hnone
    change gridHit m q (decimalTop m q - 17) = none at hnone
    rw [hnone] at hsome
    cases hsome
  | some hit =>
    obtain ⟨n, -, hn⟩ := List.exists_of_findSome?_eq_some hhit
    obtain ⟨d, hd, rfl⟩ := Option.map_eq_some_iff.mp hn
    obtain ⟨hpos, hround⟩ := gridHit_roundsTo hm.pos hd
    obtain ⟨hpos', hvalue⟩ := trim_value 20 ⟨d, decimalTop m q - Int.ofNat n⟩ hpos
    rw [Option.getD_some, hvalue]
    exact ⟨hpos', hround⟩

/-! ## Magnitudes of doubles -/

lemma magnitude_isMagnitude {x : Float} (hx : magnitude x = (m, q)) (hfinite : x.isFinite = true)
    (hne : m ≠ 0) : IsMagnitude m q ∧ bitsOfMagnitude m q = magnitudeBits x := by
  have hbits := magnitudeBits_lt hfinite
  unfold magnitude at hx
  unfold magnitudeBits infinityBits at *
  dsimp only at hx
  rw [Nat.one_shiftLeft, Nat.one_shiftLeft, Nat.shiftRight_eq_div_pow] at hx
  generalize x.toBits.toNat % 2 ^ 63 = bits at *
  unfold bitsOfMagnitude
  split at hx
  · rename_i hzero
    obtain ⟨rfl, rfl⟩ := Prod.mk.inj hx
    exact ⟨⟨Nat.pos_of_ne_zero hne, by omega, by decide, by decide, .inr rfl⟩, by omega⟩
  · rename_i hnormal
    obtain ⟨rfl, rfl⟩ := Prod.mk.inj hx
    refine ⟨⟨by omega, by omega, ?_, ?_, .inl (by omega)⟩, ?_⟩
    · change (-1074 : Int) ≤ (bits / 2 ^ 52 : Nat) - 1075
      omega
    · change ((bits / 2 ^ 52 : Nat) : Int) - 1075 ≤ 971
      omega
    · change (((bits / 2 ^ 52 : Nat) : Int) - 1075 + 1074).toNat * 2 ^ 52 + _ = _
      omega

end TaskRunner.Proofs
