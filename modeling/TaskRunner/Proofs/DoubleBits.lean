import Mathlib
import TaskRunner.Number.Layout

/-!
# The bits of a double

A double is its sign bit, its exponent and its fraction. Taking it apart and putting it together again
gives the same double, so a double is determined by its sign and the bits of its magnitude.
-/

namespace TaskRunner.Proofs
open Float.Model UnpackedFloat Number

variable {s : Sign} {e : BitVec 11} {m : BitVec 52}

/-! ## Fields -/

lemma toNat_packComponents (s : Sign) (e : BitVec 11) (m : BitVec 52) :
    (packComponents Format.binary64 s e m).toNat =
      s.toBitVec.toNat * 2 ^ 63 + (e.toNat * 2 ^ 52 + m.toNat) := by
  have he : e.toNat < 2 ^ 11 := e.isLt
  have hm : m.toNat < 2 ^ 52 := m.isLt
  change (s.toBitVec ++ e ++ m).toNat = _
  rw [BitVec.toNat_append, BitVec.toNat_append, ← Nat.shiftLeft_add_eq_or_of_lt hm,
    ← Nat.shiftLeft_add_eq_or_of_lt he, Nat.shiftLeft_eq, Nat.shiftLeft_eq]
  omega

lemma toNat_unpackSign (b : BitVec Format.binary64.numBits) :
    (unpackSign b).toNat = b.toNat / 2 ^ 63 := by
  have hb : b.toNat < 2 ^ 64 := b.isLt
  simp [unpackSign, Nat.shiftRight_eq_div_pow]
  omega

lemma toNat_unpackExponent (b : BitVec Format.binary64.numBits) :
    (unpackExponent b).toNat = b.toNat / 2 ^ 52 % 2 ^ 11 := by
  simp [unpackExponent, Nat.shiftRight_eq_div_pow]

lemma toNat_unpackMantissa (b : BitVec Format.binary64.numBits) :
    (unpackMantissa b).toNat = b.toNat % 2 ^ 52 := by
  simp [unpackMantissa]

lemma toBitVec_ofBitVec (v : BitVec 1) : (Sign.ofBitVec v).toBitVec = v := by
  have h : ∀ v : BitVec 1, (Sign.ofBitVec v).toBitVec = v := by decide
  exact h v

lemma ofBitVec_toBitVec (s : Sign) : Sign.ofBitVec s.toBitVec = s := by
  cases s <;> rfl

lemma bits_eq_fields (b : BitVec Format.binary64.numBits) :
    packComponents Format.binary64 (Sign.ofBitVec (unpackSign b)) (unpackExponent b)
      (unpackMantissa b) = b := by
  apply BitVec.eq_of_toNat_eq
  rw [toNat_packComponents, toBitVec_ofBitVec, toNat_unpackSign, toNat_unpackExponent,
    toNat_unpackMantissa]
  have hb : b.toNat < 2 ^ 64 := b.isLt
  omega

lemma unpackSign_packComponents : unpackSign (packComponents Format.binary64 s e m) = s.toBitVec := by
  apply BitVec.eq_of_toNat_eq
  have he : e.toNat < 2 ^ 11 := e.isLt
  have hm : m.toNat < 2 ^ 52 := m.isLt
  rw [toNat_unpackSign, toNat_packComponents]
  omega

lemma toNat_one_append (m : BitVec 52) : (1#1 ++ m).toNat = 2 ^ 52 + m.toNat := by
  rw [BitVec.toNat_append, ← Nat.shiftLeft_add_eq_or_of_lt m.isLt]
  rfl

lemma unpack_fields : UnpackedFloat.unpack Format.binary64 (packComponents Format.binary64 s e m) =
    if e = -1#11 then (if m = 0#52 then .infinity s else .notANumber)
    else if e = 0#11 then
      if h : m = 0#52 then .zero s
      else .finite s m.toNat (e.toNat - 1075 + 1) (by simpa [BitVec.toNat_pos, BitVec.pos_iff_ne_zero])
    else .finite s (1#1 ++ m).toNat (e.toNat - 1075)
      (by rw [toNat_one_append]; omega) := by
  simp only [UnpackedFloat.unpack, unpackMantissa_packComponents, unpackExponent_packComponents,
    unpackSign_packComponents, ofBitVec_toBitVec]
  rfl

lemma log2_fraction (hm : m ≠ 0#52) : m.toNat.log2 < 52 := by
  have hne : m.toNat ≠ 0 := by
    intro hzero
    exact hm (BitVec.eq_of_toNat_eq hzero)
  exact (Nat.log2_lt hne).mpr m.isLt

lemma log2_significand (m : BitVec 52) : (2 ^ 52 + m.toNat).log2 = 52 := by
  have hm : m.toNat < 2 ^ 52 := m.isLt
  rw [Nat.log2_eq_iff (by omega)]
  omega

/-- Unless it is another NaN than the canonical one, what fields stand for is packed as them. -/
lemma pack_unpack_fields (h : e = -1#11 → m ≠ 0#52 →
      packComponents Format.binary64 s e m = packedNaN Format.binary64) :
    UnpackedFloat.pack Format.binary64
        (UnpackedFloat.unpack Format.binary64 (packComponents Format.binary64 s e m)) =
      packComponents Format.binary64 s e m := by
  rw [unpack_fields]
  by_cases htop : e = -1#11
  · rw [if_pos htop]
    by_cases hm : m = 0#52
    · rw [if_pos hm, htop, hm]
      rfl
    · rw [if_neg hm, h htop hm]
      rfl
  · rw [if_neg htop]
    have htop' : e.toNat ≠ 2047 := by
      intro heq
      exact htop (BitVec.eq_of_toNat_eq heq)
    have he : e.toNat < 2 ^ 11 := e.isLt
    by_cases hzero : e = 0#11
    · rw [if_pos hzero]
      by_cases hm : m = 0#52
      · rw [dif_pos hm, hzero, hm]
        rfl
      · have hlog := log2_fraction hm
        rw [dif_neg hm, hzero, UnpackedFloat.pack]
        dsimp only
        have hbiased : (((0#11).toNat : Int) - 1075 + 1 + (Format.binary64.exponentBias : Nat) +
            (Format.binary64.mantissaBitsWithoutImplicit : Nat)).toNat = 1 := by decide
        rw [hbiased, if_neg (by decide), if_neg (by change m.toNat.log2 + 1 ≠ 53; omega),
          BitVec.ofNat_toNat, BitVec.setWidth_eq]
    · rw [if_neg hzero, UnpackedFloat.pack]
      dsimp only
      have hbiased : ((e.toNat : Int) - 1075 + (Format.binary64.exponentBias : Nat) +
          (Format.binary64.mantissaBitsWithoutImplicit : Nat)).toNat = e.toNat := by
        change ((e.toNat : Int) - 1075 + 1023 + 52).toNat = e.toNat
        omega
      rw [hbiased, toNat_one_append, log2_significand,
        if_neg (by omega), if_pos (by decide)]
      congr 1
      · rw [BitVec.ofNat_toNat, BitVec.setWidth_eq]
      · apply BitVec.eq_of_toNat_eq
        rw [BitVec.toNat_ofNat]
        have hm : m.toNat < 2 ^ 52 := m.isLt
        omega

lemma neg_unpack_fields :
    (UnpackedFloat.unpack Format.binary64 (packComponents Format.binary64 s e m)).neg =
      UnpackedFloat.unpack Format.binary64 (packComponents Format.binary64 (-s) e m) := by
  rw [unpack_fields, unpack_fields]
  split
  · split <;> rfl
  · split
    · split <;> rfl
    · rfl

/-! ## Doubles -/

/-- The bits of a double other than its sign. -/
def magnitudeBits (x : Float) : Nat :=
  x.toBits.toNat % 2 ^ 63

lemma exists_fields (x : Float) :
    ∃ s e m, x.toBits.toBitVec = packComponents Format.binary64 s e m ∧
      (e = -1#11 → m ≠ 0#52 → packComponents Format.binary64 s e m = packedNaN Format.binary64) := by
  have hsplit := bits_eq_fields x.toBits.toBitVec
  refine ⟨_, _, _, hsplit.symm, ?_⟩
  rw [hsplit]
  exact x.toModel.valid.eq_packedNaN

lemma toNat_of_fields {x : Float} (h : x.toBits.toBitVec = packComponents Format.binary64 s e m) :
    x.toBits.toNat = s.toBitVec.toNat * 2 ^ 63 + (e.toNat * 2 ^ 52 + m.toNat) := by
  rw [← toNat_packComponents, ← h]
  rfl

lemma eq_of_toBits {x y : Float} (h : x.toBits.toBitVec = y.toBits.toBitVec) : x = y := by
  obtain ⟨⟨bits, valid⟩⟩ := x
  obtain ⟨⟨bits', valid'⟩⟩ := y
  have hbits : bits = bits' := UInt64.toBitVec_inj.mp h
  subst hbits
  rfl

lemma toBits_ofBits (b : UInt64) : (Float.ofBits b).toBits.toBitVec =
    UnpackedFloat.pack Format.binary64 (UnpackedFloat.unpack Format.binary64 b.toBitVec) := rfl

lemma ofBits_toBits (x : Float) : Float.ofBits x.toBits = x := by
  apply eq_of_toBits
  obtain ⟨s, e, m, hfields, hvalid⟩ := exists_fields x
  rw [toBits_ofBits, hfields, pack_unpack_fields hvalid]

lemma toBits_neg (x : Float) : (-x).toBits.toBitVec =
    UnpackedFloat.pack Format.binary64
      (UnpackedFloat.unpack Format.binary64 x.toBits.toBitVec).neg := rfl

/-- A double is determined by its sign and the bits of its magnitude. -/
lemma signed_magnitude {x : Float} (h : x.isNaN = false) :
    (if isNegative x then -(Float.ofBits (UInt64.ofNat (magnitudeBits x)))
      else Float.ofBits (UInt64.ofNat (magnitudeBits x))) = x := by
  obtain ⟨s, e, m, hfields, hvalid⟩ := exists_fields x
  have he : e.toNat < 2 ^ 11 := e.isLt
  have hm : m.toNat < 2 ^ 52 := m.isLt
  have htoNat := toNat_of_fields hfields
  cases s with
  | positive =>
    have hsign : x.toBits.toNat = e.toNat * 2 ^ 52 + m.toNat := by
      rw [htoNat]
      change 0 * 2 ^ 63 + _ = _
      omega
    have hpositive : isNegative x = false := by
      simp only [isNegative, decide_eq_false_iff_not]
      omega
    have hbits : magnitudeBits x = x.toBits.toNat := by
      unfold magnitudeBits
      omega
    rw [hpositive, hbits, UInt64.ofNat_toNat, ofBits_toBits]
    rfl
  | negative =>
    have hsign : x.toBits.toNat = 2 ^ 63 + (e.toNat * 2 ^ 52 + m.toNat) := by
      rw [htoNat]
      change 1 * 2 ^ 63 + _ = _
      omega
    have hnegative : isNegative x = true := by
      simp only [isNegative, decide_eq_true_eq]
      omega
    have hbits : (UInt64.ofNat (magnitudeBits x)).toBitVec =
        packComponents Format.binary64 .positive e m := by
      apply BitVec.eq_of_toNat_eq
      rw [toNat_packComponents]
      change magnitudeBits x % 2 ^ 64 = 0 * 2 ^ 63 + _
      unfold magnitudeBits
      omega
    have hnumber : e = -1#11 → m = 0#52 := by
      intro htop
      by_contra hne
      have hnan : x.isNaN = true := by
        change (UnpackedFloat.unpack Format.binary64 x.toBits.toBitVec).isNaN = true
        rw [hfields, unpack_fields, if_pos htop, if_neg hne]
        rfl
      rw [hnan] at h
      cases h
    rw [if_pos hnegative]
    apply eq_of_toBits
    rw [toBits_neg, toBits_ofBits, hbits,
      pack_unpack_fields fun htop hne => absurd (hnumber htop) hne, neg_unpack_fields, hfields]
    exact pack_unpack_fields fun htop hne => absurd (hnumber htop) hne

lemma magnitudeBits_lt {x : Float} (h : x.isFinite = true) : magnitudeBits x < infinityBits := by
  obtain ⟨s, e, m, hfields, -⟩ := exists_fields x
  have he : e.toNat < 2 ^ 11 := e.isLt
  have hm : m.toNat < 2 ^ 52 := m.isLt
  have htop : e ≠ -1#11 := by
    intro htop
    change (UnpackedFloat.unpack Format.binary64 x.toBits.toBitVec).isFinite = true at h
    rw [hfields, unpack_fields, if_pos htop] at h
    split at h <;> cases h
  have htop' : e.toNat ≠ 2047 := by
    intro heq
    exact htop (BitVec.eq_of_toNat_eq heq)
  have htoNat := toNat_of_fields hfields
  unfold magnitudeBits infinityBits
  omega

lemma finite_cases (x : Float) : x.isFinite = true ∨ x.isInf = true ∨ x.isNaN = true := by
  change x.toModel.unpack.isFinite = true ∨ x.toModel.unpack.isInf = true ∨
    x.toModel.unpack.isNaN = true
  cases x.toModel.unpack with
  | infinity s => exact .inr (.inl rfl)
  | notANumber => exact .inr (.inr rfl)
  | zero s => exact .inl rfl
  | finite s m e hm => exact .inl rfl

end TaskRunner.Proofs
