import TaskRunner.Proofs.ShortestDigits

/-!
# No double is closer

The values of other doubles lie outside the rounding interval of a magnitude, beyond its ends by as much as the
ends are away from the magnitude. So a magnitude is closest to every number of its rounding interval, and the
double that a natural number is rounded to is closest to it among all doubles.
-/

namespace TaskRunner.Proofs
open Number Float.Model UnpackedFloat

variable {m : Nat} {q : Int} {v : ℚ} {x : Float}

/-- The number that a finite double stands for. -/
def doubleValue (x : Float) : ℚ :=
  (if isNegative x then -1 else 1) * ((magnitude x).1 * 2 ^ (magnitude x).2)

/-- No finite double is closer to the number, and of two that are equally close it is the one with the even
significand. -/
structure IsClosest (x : Float) (v : ℚ) : Prop where
  finite : x.isFinite = true
  nearest : ∀ y : Float, y.isFinite = true → |doubleValue x - v| ≤ |doubleValue y - v|
  even : ∀ y : Float, y.isFinite = true → |doubleValue y - v| = |doubleValue x - v| →
    doubleValue y ≠ doubleValue x → (magnitude x).1 % 2 = 0

/-! ## Neighbours of a magnitude -/

lemma gapBelow_pos (m : Nat) (q : Int) : 0 < gapBelow m q := by
  unfold gapBelow
  split <;> norm_num

/-- A magnitude with a finer last place lies below the neighbour of a coarser one. -/
lemma finer_below (hm : IsMagnitude m q) {m' : Nat} {q' : Int} (hm' : IsMagnitude m' q') (hq : q' < q) :
    (m' : ℚ) * 2 ^ (q' - q) ≤ m - 2 * gapBelow m q := by
  have hnormal : 2 ^ 52 ≤ m := hm.normal.resolve_right fun heq => by
    have hlowest := hm'.lowest
    omega
  have hlt : (m' : ℚ) ≤ 2 ^ 53 - 1 := by
    have hlt' : m' + 1 ≤ 2 ^ 53 := hm'.lt
    have hcast : (m' : ℚ) + 1 ≤ 2 ^ 53 := by exact_mod_cast hlt'
    linarith
  have hhalf : (2 : ℚ) ^ (q' - q) ≤ 2 ^ (-1 : Int) := zpow_le_zpow_right₀ one_le_two (by omega)
  have hratio : (m' : ℚ) * 2 ^ (q' - q) ≤ (2 ^ 53 - 1) * 2 ^ (-1 : Int) :=
    mul_le_mul hlt hhalf (by positivity) (by norm_num)
  have hvalue : ((2 : ℚ) ^ 53 - 1) * 2 ^ (-1 : Int) = 2 ^ 52 - 1 / 2 := by norm_num
  rw [hvalue] at hratio
  unfold gapBelow
  split
  · rename_i hpower
    have hm52 : (m : ℚ) = 2 ^ 52 := by exact_mod_cast hpower.1
    linarith
  · rename_i hpower
    have hne : m ≠ 2 ^ 52 := fun heq => hpower ⟨heq, by
      have hlowest := hm'.lowest
      omega⟩
    have hge : 2 ^ 52 + 1 ≤ m := by omega
    have hge' : (2 : ℚ) ^ 52 + 1 ≤ m := by exact_mod_cast hge
    linarith

/-- The values of other magnitudes begin with the neighbours, each twice as far away as an end of the rounding
interval. -/
lemma magnitude_neighbours (hm : IsMagnitude m q) {m' : Nat} {q' : Int} (hm' : IsMagnitude m' q') :
    (m' : ℚ) * 2 ^ q' = m * 2 ^ q ∨ (m : ℚ) + 1 ≤ m' * 2 ^ q' / 2 ^ q ∨
      (m' : ℚ) * 2 ^ q' / 2 ^ q ≤ m - 2 * gapBelow m q := by
  have hscale : (m' : ℚ) * 2 ^ q' / 2 ^ q = m' * 2 ^ (q' - q) := by
    rw [zpow_sub₀ two_ne_zero, mul_div_assoc]
  rw [hscale]
  by_cases hq : q' < q
  · exact .inr (.inr (finer_below hm hm' hq))
  · -- With a last place that is not finer the values are whole numbers.
    obtain ⟨k, hk⟩ : ∃ k : Nat, q' - q = k := ⟨(q' - q).toNat, by omega⟩
    have hwhole : (m' : ℚ) * 2 ^ (q' - q) = (m' * 2 ^ k : Nat) := by
      rw [hk, zpow_natCast]
      push_cast
      rfl
    rw [hwhole]
    rcases Nat.lt_trichotomy m (m' * 2 ^ k) with hlt | heq | hgt
    · exact .inr (.inl (by exact_mod_cast hlt))
    · refine .inl ?_
      rw [heq, ← hwhole, mul_assoc, ← zpow_add₀ two_ne_zero, sub_add_cancel]
    · have hle : ((m' * 2 ^ k : Nat) : ℚ) + 1 ≤ m := by exact_mod_cast hgt
      have hgap := gapBelow_le m q
      exact .inr (.inr (by linarith))

/-- A number is one of the values that doubles with a positive sign have, or not above zero. -/
def IsOtherValue (w : ℚ) : Prop :=
  w ≤ 0 ∨ ∃ m q, IsMagnitude m q ∧ w = m * 2 ^ q

/-- Nothing that a double stands for is closer to a number of the rounding interval, nor as close if the
significand is odd. -/
lemma RoundsTo.closest (hm : IsMagnitude m q) (h : RoundsTo m q v) {w : ℚ} (hw : IsOtherValue w)
    (hne : w ≠ m * 2 ^ q) :
    |m * 2 ^ q - v| ≤ |w - v| ∧ (m % 2 = 1 → |m * 2 ^ q - v| < |w - v|) := by
  have hunit : (0 : ℚ) < 2 ^ q := by positivity
  have hgap := gapBelow_pos m q
  have hgap' := gapBelow_le m q
  have hone : (1 : ℚ) ≤ m := by exact_mod_cast hm.pos
  -- In units of the last place the magnitude is its significand.
  have hscale : ∀ a : ℚ, |a - v| = |a / 2 ^ q - v / 2 ^ q| * 2 ^ q := by
    intro a
    rw [← sub_div, abs_div, abs_of_pos hunit, div_mul_cancel₀ _ hunit.ne']
  have hself : (m : ℚ) * 2 ^ q / 2 ^ q = m := mul_div_cancel_right₀ _ hunit.ne'
  have houtside : (m : ℚ) + 1 ≤ w / 2 ^ q ∨ w / 2 ^ q ≤ m - 2 * gapBelow m q := by
    rcases hw with hle | ⟨m', q', hm', rfl⟩
    · have hratio : w / 2 ^ q ≤ 0 := div_nonpos_of_nonpos_of_nonneg hle hunit.le
      exact .inr (by linarith)
    · exact (magnitude_neighbours hm hm').resolve_left hne
  rw [hscale w, hscale (m * 2 ^ q), hself]
  obtain ⟨hlow, hhigh, hodd⟩ := h
  generalize v / 2 ^ q = u at *
  generalize w / 2 ^ q = r at *
  refine ⟨mul_le_mul_of_nonneg_right ?_ hunit.le, fun hm2 => mul_lt_mul_of_pos_right ?_ hunit⟩
  · rcases houtside with habove | hbelow
    · rw [abs_of_nonneg (by linarith : 0 ≤ r - u), abs_le]
      exact ⟨by linarith, by linarith⟩
    · rw [abs_of_nonpos (by linarith : r - u ≤ 0), abs_le]
      exact ⟨by linarith, by linarith⟩
  · obtain ⟨hlow', hhigh'⟩ := hodd hm2
    rcases houtside with habove | hbelow
    · rw [abs_of_nonneg (by linarith : 0 ≤ r - u), abs_lt]
      exact ⟨by linarith, by linarith⟩
    · rw [abs_of_nonpos (by linarith : r - u ≤ 0), abs_lt]
      exact ⟨by linarith, by linarith⟩

/-! ## Doubles of a magnitude -/

lemma doubleValue_isOther (hfinite : x.isFinite = true) : IsOtherValue (doubleValue x) := by
  unfold doubleValue
  split
  · refine .inl ?_
    have hnonneg : (0 : ℚ) ≤ (magnitude x).1 * 2 ^ (magnitude x).2 := by positivity
    linarith
  · by_cases hzero : (magnitude x).1 = 0
    · exact .inl (by simp [hzero])
    · exact .inr ⟨_, _, (magnitude_isMagnitude rfl hfinite hzero).1, one_mul _⟩

lemma toNat_ofBits {n : Nat} (h : n < infinityBits) : (Float.ofBits (UInt64.ofNat n)).toBits.toNat = n := by
  let b : BitVec Format.binary64.numBits := (UInt64.ofNat n).toBitVec
  unfold infinityBits at h
  have hb : b.toNat = n := by
    change n % 2 ^ 64 = n
    omega
  have hexponent : unpackExponent b ≠ (-1#11 : BitVec 11) := by
    intro htop
    have htop' := congrArg BitVec.toNat htop
    rw [toNat_unpackExponent, hb] at htop'
    have htop'' : n / 2 ^ 52 % 2 ^ 11 = 2047 := htop'
    omega
  have hpacked := pack_unpack_fields (s := Sign.ofBitVec (unpackSign b)) (m := unpackMantissa b)
    fun htop => absurd htop hexponent
  rw [bits_eq_fields b] at hpacked
  change (Float.ofBits (UInt64.ofNat n)).toBits.toBitVec.toNat = n
  rw [toBits_ofBits]
  change (UnpackedFloat.pack Format.binary64 (UnpackedFloat.unpack Format.binary64 b)).toNat = n
  rw [hpacked, hb]

lemma isFinite_of_bits {x : Float} (h : x.toBits.toNat < infinityBits) : x.isFinite = true := by
  obtain ⟨s, e, m, hfields, -⟩ := exists_fields x
  have htoNat := toNat_of_fields hfields
  have htop : e ≠ -1#11 := by
    intro htop
    have htop' : e.toNat = 2047 := congrArg BitVec.toNat htop
    unfold infinityBits at h
    omega
  change (UnpackedFloat.unpack Format.binary64 x.toBits.toBitVec).isFinite = true
  rw [hfields, unpack_fields, if_neg htop]
  split
  · split <;> rfl
  · rfl

/-- The double with the bits of a magnitude has this magnitude. -/
lemma magnitude_ofBits (hm : IsMagnitude m q) :
    magnitude (Float.ofBits (UInt64.ofNat (bitsOfMagnitude m q))) = (m, q) := by
  have hlt := hm.lt
  have hlowest := hm.lowest
  have hbits := bitsOfMagnitude_lt hm
  rw [magnitude, toNat_ofBits hbits, Nat.one_shiftLeft, Nat.one_shiftLeft, Nat.shiftRight_eq_div_pow]
  have hsmall : bitsOfMagnitude m q % 2 ^ 63 = bitsOfMagnitude m q := by
    unfold infinityBits at hbits
    omega
  rw [hsmall]
  unfold bitsOfMagnitude
  rcases hm.normal with hnormal | rfl
  · rw [if_neg (by omega)]
    refine Prod.ext ?_ ?_
    · dsimp only
      omega
    · change (((q + 1074).toNat * 2 ^ 52 + m) / 2 ^ 52 : Nat) - (1075 : Int) = q
      omega
  · by_cases hsub : m < 2 ^ 52
    · rw [if_pos (by omega)]
      refine Prod.ext ?_ rfl
      dsimp only
      omega
    · rw [if_neg (by omega)]
      refine Prod.ext ?_ ?_
      · dsimp only
        omega
      · change (((-1074 + 1074 : Int).toNat * 2 ^ 52 + m) / 2 ^ 52 : Nat) - (1075 : Int) = -1074
        omega

/-- The double of a magnitude is closest to every number of the rounding interval. -/
lemma RoundsTo.isClosest (hm : IsMagnitude m q) (h : RoundsTo m q v) :
    IsClosest (Float.ofBits (UInt64.ofNat (bitsOfMagnitude m q))) v := by
  have hbits := bitsOfMagnitude_lt hm
  have hmagnitude := magnitude_ofBits hm
  have hpositive : isNegative (Float.ofBits (UInt64.ofNat (bitsOfMagnitude m q))) = false := by
    rw [isNegative, toNat_ofBits hbits, decide_eq_false_iff_not, Nat.one_shiftLeft]
    unfold infinityBits at hbits
    omega
  have hvalue : doubleValue (Float.ofBits (UInt64.ofNat (bitsOfMagnitude m q))) = m * 2 ^ q := by
    rw [doubleValue, hpositive, hmagnitude]
    exact one_mul _
  refine ⟨isFinite_of_bits (by rwa [toNat_ofBits hbits]), fun y hy => ?_, fun y hy htie hne => ?_⟩
  · rw [hvalue]
    by_cases hsame : doubleValue y = m * 2 ^ q
    · rw [hsame]
    · exact (h.closest hm (doubleValue_isOther hy) hsame).1
  · rw [hvalue] at htie hne
    rw [hmagnitude]
    by_contra hodd
    have hstrict := (h.closest hm (doubleValue_isOther hy) hne).2 (by omega)
    exact absurd htie (ne_of_gt hstrict)

/-! ## Natural numbers -/

/-- A rounded quotient is at most half away from the quotient, and less if it is odd. -/
lemma roundQuotient_near {num den : Nat} (hden : 0 < den) :
    (roundQuotient num den : ℚ) - 1 / 2 ≤ num / den ∧ (num : ℚ) / den ≤ roundQuotient num den + 1 / 2 ∧
      (roundQuotient num den % 2 = 1 → (roundQuotient num den : ℚ) - 1 / 2 < num / den ∧
        (num : ℚ) / den < roundQuotient num den + 1 / 2) := by
  have hden' : (0 : ℚ) < den := by exact_mod_cast hden
  have hsplit : (num : ℚ) = den * (num / den : Nat) + (num % den : Nat) := by
    exact_mod_cast (Nat.div_add_mod num den).symm
  have hmod : num % den < den := Nat.mod_lt num hden
  rw [le_div_iff₀ hden', div_le_iff₀ hden', lt_div_iff₀ hden', div_lt_iff₀ hden', hsplit]
  unfold roundQuotient
  generalize num / den = a at *
  generalize num % den = r at *
  dsimp only
  have hmod' : (r : ℚ) < den := by exact_mod_cast hmod
  have hr : (0 : ℚ) ≤ r := Nat.cast_nonneg r
  split
  · rename_i hbelow
    have hbelow' : 2 * (r : ℚ) < den := by exact_mod_cast hbelow
    exact ⟨by linarith, by linarith, fun _ => ⟨by linarith, by linarith⟩⟩
  · split
    · rename_i habove
      have habove' : (den : ℚ) < 2 * r := by exact_mod_cast habove
      push_cast
      exact ⟨by linarith, by linarith, fun _ => ⟨by linarith, by linarith⟩⟩
    · -- Half-way between two numbers the even one is taken.
      have htie : 2 * r = den := by omega
      have htie' : 2 * (r : ℚ) = den := by exact_mod_cast htie
      have heven : (a + a % 2) % 2 ≠ 1 := by omega
      rcases Nat.mod_two_eq_zero_or_one a with hparity | hparity
      · rw [hparity] at heven ⊢
        push_cast
        exact ⟨by linarith, by linarith, fun hodd => absurd hodd heven⟩
      · rw [hparity] at heven ⊢
        push_cast
        exact ⟨by linarith, by linarith, fun hodd => absurd hodd heven⟩

/-- A natural number that is not too large, rounded in units of a last place that doubles have. -/
lemma exists_rounded {n : Nat} (hpos : 0 < n) (hn : n < 2 ^ 1023) :
    ∃ (m : Nat) (e : Int), -53 < e ∧ e < 971 ∧ 2 ^ 52 ≤ m ∧ m ≤ 2 ^ 53 ∧ (2 : ℚ) ^ 52 ≤ n / 2 ^ e ∧
      (m : ℚ) - 1 / 2 ≤ n / 2 ^ e ∧ (n : ℚ) / 2 ^ e ≤ m + 1 / 2 ∧
      (m % 2 = 1 → (m : ℚ) - 1 / 2 < n / 2 ^ e ∧ (n : ℚ) / 2 ^ e < m + 1 / 2) := by
  obtain ⟨e, -, hlow, hhigh⟩ := exists_place hpos Nat.one_pos
  rw [Nat.cast_one, div_one] at hlow hhigh
  have hone : (1 : ℚ) ≤ n := by exact_mod_cast hpos
  have hn' : (n : ℚ) < 2 ^ (1023 : Int) := by exact_mod_cast hn
  have hfine : -53 < e := by
    have hlt : (2 : ℚ) ^ (0 : Int) < 2 ^ (53 + e) := hone.trans_lt hhigh
    have hexp := (zpow_lt_zpow_iff_right₀ one_lt_two).mp hlt
    omega
  have hcoarse : e < 971 := by
    have hexp := (zpow_lt_zpow_iff_right₀ one_lt_two).mp (hlow.trans_lt hn')
    omega
  have hunit : (0 : ℚ) < 2 ^ e := by positivity
  have hunits : 0 < (inUnits n 1 e).2 := inUnits_pos Nat.one_pos e
  obtain ⟨hnear, hnear', hodd⟩ := roundQuotient_near hunits
  rw [inUnits_div, Nat.cast_one, div_one] at hnear hnear' hodd
  rw [zpow_add₀ two_ne_zero, ← le_div_iff₀ hunit] at hlow
  rw [zpow_add₀ two_ne_zero, ← div_lt_iff₀ hunit] at hhigh
  have h52 : ((2 : ℚ) ^ (52 : Int)) = 2 ^ 52 := rfl
  have h53 : ((2 : ℚ) ^ (53 : Int)) = 2 ^ 53 := rfl
  rw [h52] at hlow
  rw [h53] at hhigh
  generalize roundQuotient (inUnits n 1 e).1 (inUnits n 1 e).2 = m at hnear hnear' hodd
  have hge : 2 ^ 52 ≤ m := by
    have hlt : (2 : ℚ) ^ 52 < m + 1 := by linarith
    have hlt' : 2 ^ 52 < m + 1 := by exact_mod_cast hlt
    omega
  have hle : m ≤ 2 ^ 53 := by
    have hlt : (m : ℚ) < 2 ^ 53 + 1 := by linarith
    have hlt' : m < 2 ^ 53 + 1 := by exact_mod_cast hlt
    omega
  exact ⟨m, e, hfine, hcoarse, hge, hle, hlow, hnear, hnear', hodd⟩

/-- A natural number that is not too large lies in a rounding interval. -/
lemma exists_roundsTo {n : Nat} (hpos : 0 < n) (hn : n < 2 ^ 1023) :
    ∃ m q, IsMagnitude m q ∧ RoundsTo m q n := by
  obtain ⟨m, e, hfine, hcoarse, hge, hle, hlow, hnear, hnear', hodd⟩ := exists_rounded hpos hn
  rcases Nat.lt_or_eq_of_le hle with hlt | rfl
  · refine ⟨m, e, ⟨by omega, hlt, by omega, by omega, .inl hge⟩, ?_, hnear', fun hm => ?_⟩
    · by_cases hpower : m = 2 ^ 52 ∧ e ≠ -1074
      · have hm52 : (m : ℚ) = 2 ^ 52 := by exact_mod_cast hpower.1
        rw [gapBelow, if_pos hpower, hm52]
        linarith
      · rw [gapBelow, if_neg hpower]
        exact hnear
    · have hgap : gapBelow m e = 1 / 2 := if_neg fun hpower => by omega
      rw [hgap]
      exact hodd hm
  · -- Rounding up to a power of two takes the next place.
    have hscale : (n : ℚ) / 2 ^ (e + 1) = n / 2 ^ e / 2 := by
      rw [zpow_add₀ two_ne_zero, zpow_one, div_div]
    have hgap : gapBelow (2 ^ 52) (e + 1) = 1 / 4 := if_pos ⟨rfl, by omega⟩
    push_cast at hnear
    refine ⟨2 ^ 52, e + 1, ⟨by norm_num, by norm_num, by omega, by omega, .inl (Nat.le_refl _)⟩, ?_, ?_,
      fun hm => absurd hm (by norm_num)⟩
    · rw [hgap, hscale]
      push_cast
      linarith
    · rw [hscale]
      push_cast
      linarith

lemma isClosest_zero : IsClosest (Number.ofNat 0) (0 : Nat) := by
  have hzero : doubleValue (Number.ofNat 0) = 0 := by
    have hmagnitude : (magnitude (Number.ofNat 0)).1 = 0 := by decide +kernel
    rw [doubleValue, hmagnitude, Nat.cast_zero, zero_mul, mul_zero]
  refine ⟨by decide +kernel, fun y _ => ?_, fun _ _ _ _ => by decide +kernel⟩
  rw [hzero, Nat.cast_zero, sub_zero, abs_zero]
  exact abs_nonneg _

/-- A natural number is rounded to the double that is closest to it. -/
theorem ofNat_isClosest {n : Nat} (hn : n < 2 ^ 1023) : IsClosest (Number.ofNat n) n := by
  rcases Nat.eq_zero_or_pos n with rfl | hpos
  · exact isClosest_zero
  · obtain ⟨m, q, hm, hround⟩ := exists_roundsTo hpos hn
    have hround' : RoundsTo m q ((n : ℚ) / (1 : Nat)) := by rwa [Nat.cast_one, div_one]
    rw [Number.ofNat, ofRatio, bitsOfRatio_eq hm Nat.one_pos hround']
    exact hround.isClosest hm

end TaskRunner.Proofs
