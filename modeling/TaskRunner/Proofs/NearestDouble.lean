import Mathlib.Algebra.Order.Field.Power
import Mathlib.Data.Rat.Cast.Order
import Mathlib.Tactic.FieldSimp
import Mathlib.Tactic.Linarith
import Mathlib.Tactic.Positivity
import Mathlib.Tactic.Ring
import TaskRunner.Number.Shortest

/-!
# The nearest double

A magnitude is the double nearest to every number of its rounding interval, which reaches half-way to the
neighbours on both sides. The neighbour below a power of two is only half as far away.
-/

namespace TaskRunner.Proofs
open Number

/-- A magnitude of a double other than zero: its significand and the exponent of its last place. -/
structure IsMagnitude (m : Nat) (q : Int) : Prop where
  pos : 0 < m
  lt : m < 2 ^ 53
  lowest : -1074 ≤ q
  highest : q ≤ 971
  normal : 2 ^ 52 ≤ m ∨ q = -1074

/-- How far below a magnitude its rounding interval begins, in units of the last place. -/
def gapBelow (m : Nat) (q : Int) : ℚ :=
  if m = 2 ^ 52 ∧ q ≠ -1074 then 1 / 4 else 1 / 2

/-- Whether a number is in the rounding interval of a magnitude; its ends belong to it if the significand
is even. -/
structure RoundsTo (m : Nat) (q : Int) (v : ℚ) : Prop where
  low : m - gapBelow m q ≤ v / 2 ^ q
  high : v / 2 ^ q ≤ m + 1 / 2
  odd : m % 2 = 1 → m - gapBelow m q < v / 2 ^ q ∧ v / 2 ^ q < m + 1 / 2

lemma gapBelow_le (m : Nat) (q : Int) : gapBelow m q ≤ 1 / 2 := by
  unfold gapBelow
  split <;> norm_num

/-! ## Rounding quotients -/

/-- A quotient at most half away from a natural number rounds to it; exactly half away only to an even
one. -/
lemma roundQuotient_eq {n d m : Nat} (hd : 0 < d) (hlow : (m : ℚ) - 1 / 2 ≤ n / d)
    (hhigh : (n : ℚ) / d ≤ m + 1 / 2)
    (hodd : m % 2 = 1 → (m : ℚ) - 1 / 2 < n / d ∧ (n : ℚ) / d < m + 1 / 2) :
    roundQuotient n d = m := by
  have hd' : (0 : ℚ) < d := by exact_mod_cast hd
  rw [le_div_iff₀ hd'] at hlow
  rw [div_le_iff₀ hd'] at hhigh
  rw [lt_div_iff₀ hd', div_lt_iff₀ hd'] at hodd
  have hlow' : 2 * (m * d) ≤ 2 * n + d := by
    have h : (2 * (m * d) : ℚ) ≤ 2 * n + d := by linarith
    exact_mod_cast h
  have hhigh' : 2 * n ≤ 2 * (m * d) + d := by
    have h : (2 * n : ℚ) ≤ 2 * (m * d) + d := by linarith
    exact_mod_cast h
  have hodd' : m % 2 = 1 → 2 * (m * d) < 2 * n + d ∧ 2 * n < 2 * (m * d) + d := by
    intro hm
    obtain ⟨h₁, h₂⟩ := hodd hm
    have h₃ : (2 * (m * d) : ℚ) < 2 * n + d := by linarith
    have h₄ : (2 * n : ℚ) < 2 * (m * d) + d := by linarith
    exact ⟨by exact_mod_cast h₃, by exact_mod_cast h₄⟩
  have hdiv : n / d * d + n % d = n := Nat.div_add_mod' n d
  have hmod : n % d < d := Nat.mod_lt n hd
  unfold roundQuotient
  generalize n / d = a at *
  generalize n % d = r at *
  -- The number is the quotient rounded down or the one behind it.
  have hcases : m = a ∨ m = a + 1 := by
    by_contra hne
    rcases Nat.lt_or_gt_of_ne (fun h => hne (.inl h)) with hlt | hgt
    · have hmul : (m + 1) * d ≤ a * d := Nat.mul_le_mul_right d hlt
      rw [Nat.add_mul] at hmul
      omega
    · have hge : a + 2 ≤ m := by omega
      have hmul : (a + 2) * d ≤ m * d := Nat.mul_le_mul_right d hge
      rw [Nat.add_mul] at hmul
      omega
  rcases hcases with rfl | rfl
  · dsimp only
    split
    · rfl
    · split
      · omega
      · omega
  · rw [Nat.add_mul] at hlow' hhigh' hodd'
    dsimp only
    split
    · omega
    · split
      · rfl
      · omega

/-! ## The last place -/

lemma inUnits_div (num den : Nat) (e : Int) :
    ((inUnits num den e).1 : ℚ) / (inUnits num den e).2 = num / den / 2 ^ e := by
  unfold inUnits
  split
  · rename_i he
    obtain ⟨k, rfl⟩ : ∃ k : Nat, e = -k := ⟨(-e).toNat, by omega⟩
    rw [neg_neg, Int.toNat_natCast, Nat.shiftLeft_eq, zpow_neg, zpow_natCast]
    push_cast
    field_simp
  · rename_i he
    obtain ⟨k, rfl⟩ : ∃ k : Nat, e = k := ⟨e.toNat, by omega⟩
    rw [Int.toNat_natCast, Nat.shiftLeft_eq, zpow_natCast]
    push_cast
    rw [div_div]

lemma inUnits_pos {num den : Nat} (hden : 0 < den) (e : Int) : 0 < (inUnits num den e).2 := by
  unfold inUnits
  split
  · exact hden
  · rw [Nat.shiftLeft_eq]
    exact Nat.mul_pos hden (Nat.two_pow_pos _)

lemma log2_bounds {n : Nat} (h : 0 < n) :
    (2 : ℚ) ^ (n.log2 : Int) ≤ n ∧ (n : ℚ) < 2 ^ (n.log2 + 1 : Int) := by
  refine ⟨?_, ?_⟩
  · rw [zpow_natCast]
    exact_mod_cast Nat.log2_self_le (Nat.ne_of_gt h)
  · have hlt : n < 2 ^ (n.log2 + 1) := Nat.lt_log2_self
    exact_mod_cast hlt

/-- The exponent that a fraction with fifty-three significant bits has in its last place. -/
lemma exists_place {num den : Nat} (hnum : 0 < num) (hden : 0 < den) :
    ∃ e : Int, lastPlace num den = max e (-1074) ∧ (2 : ℚ) ^ (52 + e) ≤ num / den ∧
      (num : ℚ) / den < 2 ^ (53 + e) := by
  obtain ⟨hnumLow, hnumHigh⟩ := log2_bounds hnum
  obtain ⟨hdenLow, hdenHigh⟩ := log2_bounds hden
  have hden' : (0 : ℚ) < den := by exact_mod_cast hden
  unfold lastPlace
  dsimp only
  rw [Nat.one_shiftLeft]
  generalize hguess : (num.log2 : Int) - (den.log2 : Int) - 52 = guess
  have hlow : (2 : ℚ) ^ (51 + guess) < num / den := by
    rw [lt_div_iff₀ hden']
    calc (2 : ℚ) ^ (51 + guess) * den < 2 ^ (51 + guess) * 2 ^ (den.log2 + 1 : Int) := by
          exact mul_lt_mul_of_pos_left hdenHigh (by positivity)
      _ = 2 ^ (num.log2 : Int) := by
          rw [← zpow_add₀ two_ne_zero]
          congr 1
          omega
      _ ≤ num := hnumLow
  have hhigh : (num : ℚ) / den < 2 ^ (53 + guess) := by
    rw [div_lt_iff₀ hden']
    calc (num : ℚ) < 2 ^ (num.log2 + 1 : Int) := hnumHigh
      _ = 2 ^ (53 + guess) * 2 ^ (den.log2 : Int) := by
          rw [← zpow_add₀ two_ne_zero]
          congr 1
          omega
      _ ≤ 2 ^ (53 + guess) * den := by
          exact mul_le_mul_of_nonneg_left hdenLow (by positivity)
  -- The guess is one too high exactly when less than fifty-three bits are left.
  have hscaled : (inUnits num den guess).1 / (inUnits num den guess).2 < 2 ^ 52 ↔
      (num : ℚ) / den < 2 ^ (52 + guess) := by
    have hpos : 0 < (inUnits num den guess).2 := inUnits_pos hden guess
    have hpos' : (0 : ℚ) < (inUnits num den guess).2 := by exact_mod_cast hpos
    rw [Nat.div_lt_iff_lt_mul hpos, zpow_add₀ two_ne_zero, ← div_lt_iff₀ (by positivity),
      ← inUnits_div, div_lt_iff₀ hpos']
    exact_mod_cast Iff.rfl
  by_cases hsmall : (inUnits num den guess).1 / (inUnits num den guess).2 < 2 ^ 52
  · refine ⟨guess - 1, by rw [if_pos hsmall], ?_, ?_⟩
    · have hexp : 52 + (guess - 1) = 51 + guess := by omega
      rw [hexp]
      exact hlow.le
    · have hexp : 53 + (guess - 1) = 52 + guess := by omega
      rw [hexp]
      exact hscaled.mp hsmall
  · refine ⟨guess, by rw [if_neg hsmall], ?_, hhigh⟩
    exact not_lt.mp fun h => hsmall (hscaled.mpr h)

lemma lastPlace_eq {num den : Nat} (hnum : 0 < num) (hden : 0 < den) {q : Int} (hq : -1074 ≤ q)
    (hlow : (2 : ℚ) ^ (52 + q) ≤ num / den ∨ q = -1074) (hhigh : (num : ℚ) / den < 2 ^ (53 + q)) :
    lastPlace num den = q := by
  obtain ⟨e, he, helow, hehigh⟩ := exists_place hnum hden
  have hle : 52 + e < 53 + q := (zpow_lt_zpow_iff_right₀ one_lt_two).mp (helow.trans_lt hhigh)
  rw [he]
  rcases hlow with hlow | rfl
  · have hge : 52 + q < 53 + e := (zpow_lt_zpow_iff_right₀ one_lt_two).mp (hlow.trans_lt hehigh)
    omega
  · omega

/-! ## The nearest double -/

/-- The bits of a magnitude. -/
def bitsOfMagnitude (m : Nat) (q : Int) : Nat :=
  (q + 1074).toNat * 2 ^ 52 + m

lemma bitsOfRatio_eq_place {num den : Nat} (hnum : 0 < num) {q : Int} {n : Nat}
    (hplace : lastPlace num den = q) (hround : roundQuotient (inUnits num den q).1 (inUnits num den q).2 = n)
    (hbound : (q + 1074).toNat * 2 ^ 52 + n < infinityBits) :
    bitsOfRatio num den = (q + 1074).toNat * 2 ^ 52 + n := by
  rw [bitsOfRatio, if_neg (Nat.ne_of_gt hnum)]
  dsimp only
  rw [hplace, hround, Nat.shiftLeft_eq]
  exact Nat.min_eq_right hbound.le

variable {m : Nat} {q : Int}

lemma bitsOfMagnitude_lt (hm : IsMagnitude m q) : bitsOfMagnitude m q < infinityBits := by
  have hlt := hm.lt
  have hhigh := hm.highest
  have hexp : (q + 1074).toNat ≤ 2045 := by omega
  unfold bitsOfMagnitude infinityBits
  omega

lemma roundsTo_pos (hm : IsMagnitude m q) {v : ℚ} (h : RoundsTo m q v) : 0 < v := by
  have hone : (1 : ℚ) ≤ m := by exact_mod_cast hm.pos
  have hgap := gapBelow_le m q
  have hratio : 0 < v / 2 ^ q := by linarith [h.low]
  exact (div_pos_iff_of_pos_right (by positivity)).mp hratio

lemma bitsOfRatio_same_place (hm : IsMagnitude m q) {num den : Nat} (hnum : 0 < num)
    (hden : 0 < den) (h : RoundsTo m q (num / den))
    (hplace : (2 : ℚ) ^ (52 + q) ≤ num / den ∨ q = -1074) :
    bitsOfRatio num den = bitsOfMagnitude m q := by
  have hlt : (m : ℚ) + 1 ≤ 2 ^ 53 := by exact_mod_cast hm.lt
  have hgap := gapBelow_le m q
  have hhigh : (num : ℚ) / den < 2 ^ (53 + q) := by
    rw [zpow_add₀ two_ne_zero, ← div_lt_iff₀ (by positivity)]
    have h53 : ((2 : ℚ) ^ (53 : Int)) = 2 ^ 53 := rfl
    rw [h53]
    linarith [h.high]
  refine bitsOfRatio_eq_place hnum (lastPlace_eq hnum hden hm.lowest hplace hhigh) ?_
    (bitsOfMagnitude_lt hm)
  refine roundQuotient_eq (inUnits_pos hden q) ?_ ?_ ?_
  · rw [inUnits_div]
    linarith [h.low]
  · rw [inUnits_div]
    exact h.high
  · intro hodd
    rw [inUnits_div]
    obtain ⟨hlow, hhigh⟩ := h.odd hodd
    exact ⟨by linarith, hhigh⟩

/-- Below a power of two the last place is finer by one, and the fraction rounds up to the power. -/
lemma bitsOfRatio_finer_place (hm : IsMagnitude m q) {num den : Nat} (hnum : 0 < num)
    (hden : 0 < den) (h : RoundsTo m q (num / den)) (hsmall : (num : ℚ) / den < 2 ^ (52 + q))
    (hq : q ≠ -1074) : bitsOfRatio num den = bitsOfMagnitude m q := by
  have hgap := gapBelow_le m q
  have h52 : ((2 : ℚ) ^ (52 : Int)) = 2 ^ 52 := rfl
  have h53 : ((2 : ℚ) ^ (53 : Int)) = 2 ^ 53 := rfl
  rw [zpow_add₀ two_ne_zero, ← div_lt_iff₀ (by positivity), h52] at hsmall
  have hm52 : m = 2 ^ 52 := by
    have hge : 2 ^ 52 ≤ m := hm.normal.resolve_right hq
    have hle : (m : ℚ) < 2 ^ 52 + 1 := by linarith [h.low]
    have hle' : m < 2 ^ 52 + 1 := by exact_mod_cast hle
    omega
  have hlow := h.low
  have hgap' : gapBelow m q = 1 / 4 := if_pos ⟨hm52, hq⟩
  rw [hgap', hm52] at hlow
  push_cast at hlow
  have hscale : ∀ v : ℚ, v / 2 ^ (q - 1) = 2 * (v / 2 ^ q) := by
    intro v
    rw [zpow_sub₀ two_ne_zero, zpow_one]
    field_simp
  have hqlow : -1074 ≤ q - 1 := by
    have hq' := hm.lowest
    omega
  have hplace : lastPlace num den = q - 1 := by
    refine lastPlace_eq hnum hden hqlow (.inl ?_) ?_
    · rw [zpow_add₀ two_ne_zero, ← le_div_iff₀ (by positivity), hscale, h52]
      linarith
    · rw [zpow_add₀ two_ne_zero, ← div_lt_iff₀ (by positivity), hscale, h53]
      linarith
  have hbits : (q - 1 + 1074).toNat * 2 ^ 52 + 2 ^ 53 = bitsOfMagnitude m q := by
    unfold bitsOfMagnitude
    omega
  rw [← hbits]
  refine bitsOfRatio_eq_place hnum hplace ?_ ?_
  · refine roundQuotient_eq (inUnits_pos hden _) ?_ ?_ ?_
    · rw [inUnits_div, hscale]
      push_cast
      linarith
    · rw [inUnits_div, hscale]
      push_cast
      linarith
    · intro hodd
      exact absurd hodd (by norm_num)
  · rw [hbits]
    exact bitsOfMagnitude_lt hm

/-- Every fraction of the rounding interval has the bits of the magnitude. -/
theorem bitsOfRatio_eq (hm : IsMagnitude m q) {num den : Nat} (hden : 0 < den)
    (h : RoundsTo m q (num / den)) : bitsOfRatio num den = bitsOfMagnitude m q := by
  have hden' : (0 : ℚ) < den := by exact_mod_cast hden
  have hnum : 0 < num := by
    have hpos := (div_pos_iff_of_pos_right hden').mp (roundsTo_pos hm h)
    exact_mod_cast hpos
  by_cases hplace : (2 : ℚ) ^ (52 + q) ≤ num / den ∨ q = -1074
  · exact bitsOfRatio_same_place hm hnum hden h hplace
  · rw [not_or, not_le] at hplace
    exact bitsOfRatio_finer_place hm hnum hden h hplace.1 hplace.2

/-! ## Decimals -/

lemma decimalLength_pos (n : Nat) : 0 < decimalLength n :=
  Nat.length_toDigits_pos

lemma decimalLength_bounds {n : Nat} (h : 0 < n) :
    (10 : ℚ) ^ (decimalLength n - 1 : Int) ≤ n ∧ (n : ℚ) < 10 ^ (decimalLength n : Int) := by
  have hhigh : n < 10 ^ decimalLength n :=
    (Nat.length_toDigits_le_iff (by decide) (decimalLength_pos n)).mp (Nat.le_refl _)
  have hlow : 10 ^ (decimalLength n - 1) ≤ n := by
    by_cases hone : decimalLength n = 1
    · rw [hone]
      exact h
    · have hpos := decimalLength_pos n
      by_contra hlt
      have hle := (Nat.length_toDigits_le_iff (b := 10) (by decide) (by omega)).mpr (not_le.mp hlt)
      change decimalLength n ≤ decimalLength n - 1 at hle
      omega
  refine ⟨?_, ?_⟩
  · obtain ⟨k, hk⟩ : ∃ k, decimalLength n = k + 1 := ⟨decimalLength n - 1, by
      have hpos := decimalLength_pos n
      omega⟩
    rw [hk] at hlow ⊢
    have hexp : ((k + 1 : Nat) : Int) - 1 = k := by omega
    rw [hexp, zpow_natCast]
    exact_mod_cast hlow
  · rw [zpow_natCast]
    exact_mod_cast hhigh

lemma roundsTo_bounds (hm : IsMagnitude m q) {v : ℚ} (h : RoundsTo m q v) :
    (2 : ℚ) ^ (-1075 : Int) ≤ v ∧ v < 2 ^ (1024 : Int) := by
  have hone : (0 : ℚ) < 2 ^ q := by positivity
  have hge : (1 : ℚ) ≤ m := by exact_mod_cast hm.pos
  have hlt : (m : ℚ) + 1 ≤ 2 ^ 53 := by exact_mod_cast hm.lt
  have hgap := gapBelow_le m q
  refine ⟨?_, ?_⟩
  · calc (2 : ℚ) ^ (-1075 : Int) ≤ 2 ^ (q - 1) := by
          apply zpow_le_zpow_right₀ one_le_two
          have hq := hm.lowest
          omega
      _ = 1 / 2 * 2 ^ q := by
          rw [zpow_sub₀ two_ne_zero, zpow_one]
          ring
      _ ≤ v := by
          rw [← le_div_iff₀ hone]
          linarith [h.low]
  · calc v < 2 ^ 53 * 2 ^ q := by
          rw [← div_lt_iff₀ hone]
          linarith [h.high]
      _ = 2 ^ (53 + q) := by
          rw [zpow_add₀ two_ne_zero]
          rfl
      _ ≤ 2 ^ (1024 : Int) := by
          apply zpow_le_zpow_right₀ one_le_two
          have hq := hm.highest
          omega

lemma two_pow_lt_ten_pow : (2 : ℚ) ^ (1075 : Int) < 10 ^ (350 : Int) := by
  have htwo : (2 : ℚ) ^ (1075 : Int) = (2 ^ 43) ^ 25 := by rw [← pow_mul]; rfl
  have hten : (10 : ℚ) ^ (350 : Int) = (10 ^ 14) ^ 25 := by rw [← pow_mul]; rfl
  rw [htwo, hten]
  exact pow_lt_pow_left₀ (by norm_num) (by positivity) (by decide)

/-- The sizes of decimals that are refused at once are far outside the range of doubles. -/
lemma decimal_in_range (hm : IsMagnitude m q) {n : Nat} {e : Int} (hn : 0 < n)
    (h : RoundsTo m q (n * 10 ^ e)) :
    ¬ e + decimalLength n < -350 ∧ ¬ 350 < e + decimalLength n := by
  obtain ⟨hlow, hhigh⟩ := roundsTo_bounds hm h
  obtain ⟨hnlow, hnhigh⟩ := decimalLength_bounds hn
  have hten : (0 : ℚ) < 10 ^ e := by positivity
  refine ⟨?_, ?_⟩
  · intro hsmall
    have hlt : (n : ℚ) * 10 ^ e < 10 ^ (-350 : Int) := by
      calc (n : ℚ) * 10 ^ e < 10 ^ (decimalLength n : Int) * 10 ^ e := by
            exact mul_lt_mul_of_pos_right hnhigh hten
        _ = 10 ^ (decimalLength n + e : Int) := by rw [zpow_add₀ (by norm_num)]
        _ ≤ 10 ^ (-350 : Int) := by
            apply zpow_le_zpow_right₀ (by norm_num)
            omega
    have hcontra : (10 : ℚ) ^ (-350 : Int) < 2 ^ (-1075 : Int) := by
      rw [zpow_neg, zpow_neg]
      exact inv_strictAnti₀ (by positivity) two_pow_lt_ten_pow
    exact absurd (hlt.trans hcontra) (not_lt.mpr hlow)
  · intro hlarge
    have hge : (10 : ℚ) ^ (350 : Int) ≤ n * 10 ^ e := by
      calc (10 : ℚ) ^ (350 : Int) ≤ 10 ^ (decimalLength n - 1 + e : Int) := by
            apply zpow_le_zpow_right₀ (by norm_num)
            omega
        _ = 10 ^ (decimalLength n - 1 : Int) * 10 ^ e := by rw [zpow_add₀ (by norm_num)]
        _ ≤ n * 10 ^ e := by exact mul_le_mul_of_nonneg_right hnlow hten.le
    have hcontra : (2 : ℚ) ^ (1024 : Int) < 10 ^ (350 : Int) :=
      (zpow_lt_zpow_right₀ one_lt_two (by decide)).trans two_pow_lt_ten_pow
    exact absurd (hhigh.trans hcontra) (not_lt.mpr hge)

/-- Every decimal of the rounding interval is read as the magnitude. -/
theorem ofDecimal_eq (hm : IsMagnitude m q) {n : Nat} {e : Int} (h : RoundsTo m q (n * 10 ^ e)) :
    ofDecimal n e = Float.ofBits (UInt64.ofNat (bitsOfMagnitude m q)) := by
  have hn : 0 < n := by
    have hten : (0 : ℚ) < 10 ^ e := by positivity
    have hpos := (mul_pos_iff_of_pos_right hten).mp (roundsTo_pos hm h)
    exact_mod_cast hpos
  obtain ⟨hnotSmall, hnotLarge⟩ := decimal_in_range hm hn h
  have hguard : (decide (n = 0) || decide (e + decimalLength n < -350)) = false := by
    simp [Nat.ne_of_gt hn, hnotSmall]
  unfold ofDecimal
  dsimp only
  rw [hguard, if_neg Bool.false_ne_true, if_neg hnotLarge]
  split
  · rename_i he
    obtain ⟨k, rfl⟩ : ∃ k : Nat, e = -k := ⟨(-e).toNat, by omega⟩
    rw [neg_neg, Int.toNat_natCast, Nat.pow_eq, ofRatio,
      bitsOfRatio_eq hm (Nat.pos_of_ne_zero (by positivity))]
    rw [zpow_neg, zpow_natCast, ← div_eq_mul_inv] at h
    push_cast
    exact h
  · rename_i he
    obtain ⟨k, rfl⟩ : ∃ k : Nat, e = k := ⟨e.toNat, by omega⟩
    rw [Int.toNat_natCast, Nat.pow_eq, ofRatio, bitsOfRatio_eq hm Nat.one_pos]
    rw [zpow_natCast] at h
    push_cast
    rw [div_one]
    exact h

end TaskRunner.Proofs
