import Mathlib.Data.Nat.Cast.Field
import TaskRunner.Command.Literal
import TaskRunner.Number.Reading
import TaskRunner.Proofs.ShortestDigits

/-!
# Numbers as texts

The text of a number is read back as the same number, and the text of a whole number or of one that is not
finite as one with the same data value.
-/

namespace TaskRunner.Proofs
open Number

/-! ## Digits -/

/-- Digits in front of something else are taken as the number that they denote. -/
lemma takeDigits_append {digits : List Char} (hdigits : ∀ c ∈ digits, c.isDigit = true)
    {rest : List Char} (hrest : ∀ c ∈ rest.head?, c.isDigit = false) (value count : Nat) :
    takeDigits (digits ++ rest) value count =
      (Nat.ofDigitChars 10 digits value, count + digits.length, rest) := by
  induction digits generalizing value count with
  | nil =>
    rw [List.nil_append, Nat.ofDigitChars_nil]
    cases rest with
    | nil => rfl
    | cons c rest =>
      have hc := hrest c rfl
      rw [takeDigits, hc]
      rfl
  | cons c digits ih =>
    have hc := hdigits c List.mem_cons_self
    rw [List.cons_append, takeDigits, if_pos hc,
      ih fun c hmem => hdigits c (List.mem_cons_of_mem _ hmem), Nat.ofDigitChars_cons,
      List.length_cons, Nat.mul_comm value 10]
    simp [Nat.add_assoc, Nat.add_comm 1]

lemma takeDigits_all {digits : List Char} (hdigits : ∀ c ∈ digits, c.isDigit = true)
    (value count : Nat) :
    takeDigits digits value count =
      (Nat.ofDigitChars 10 digits value, count + digits.length, []) := by
  have hrest : ∀ c ∈ ([] : List Char).head?, c.isDigit = false := by simp
  have h := takeDigits_append hdigits hrest value count
  rwa [List.append_nil] at h

lemma isDigit_toDigits {n : Nat} : ∀ c ∈ Nat.toDigits 10 n, c.isDigit = true :=
  fun _ hc => Nat.isDigit_of_mem_toDigits (by decide) (by decide) hc

lemma unsignedDecimal_whole {digits : List Char} (hne : digits ≠ [])
    (hdigits : ∀ c ∈ digits, c.isDigit = true) :
    unsignedDecimal digits = some (ofDecimal (Nat.ofDigitChars 10 digits 0) 0) := by
  have hcount : digits.length ≠ 0 := fun hzero => hne (List.eq_nil_of_length_eq_zero hzero)
  unfold unsignedDecimal
  rw [takeDigits_all hdigits]
  simp [hcount, exponentOf]

/-- A natural number of so many digits that its decimal form is not looked at is beyond all doubles. -/
lemma bitsOfRatio_huge {n : Nat} (h : 10 ^ 350 ≤ n) : bitsOfRatio n 1 = infinityBits := by
  have hn : n ≠ 0 := Nat.ne_of_gt (lt_of_lt_of_le (Nat.pow_pos (by decide)) h)
  have hlog : ∀ k, 10 ^ k ≤ n → 3 * k ≤ n.log2 := by
    intro k hk
    rw [Nat.le_log2 hn, pow_mul]
    exact le_trans (Nat.pow_le_pow_left (by decide) k) hk
  have hlog := hlog 350 h
  have hone : (1 : Nat).log2 = 0 := by decide
  have hplace : (973 : Int) ≤ lastPlace n 1 := by
    unfold lastPlace
    rw [hone]
    dsimp only
    split
    all_goals omega
  have hexponent : 2047 ≤ (lastPlace n 1 + 1074).toNat := by omega
  unfold bitsOfRatio
  rw [if_neg hn]
  refine Nat.min_eq_left ?_
  rw [Nat.shiftLeft_eq]
  exact le_trans (Nat.mul_le_mul_right (2 ^ 52) hexponent) (Nat.le_add_right _ _)

lemma ofDecimal_natural (n : Nat) : ofDecimal n 0 = ofNat n := by
  have hsmall : ¬ ((decimalLength n : Int) < -350) := by omega
  unfold ofDecimal ofNat
  by_cases hn : n = 0
  · subst hn
    rfl
  · by_cases hhuge : 350 < decimalLength n
    · have hlarge : 10 ^ 350 ≤ n := by
        by_contra hlt
        exact absurd ((Nat.length_toDigits_le_iff (by decide) (by decide)).mpr (not_le.mp hlt))
          (not_le.mpr hhuge)
      simp [hn, hsmall, hhuge, ofRatio, bitsOfRatio_huge hlarge]
    · simp [hn, hsmall, hhuge]

lemma unsignedDecimal_point {whole fraction : List Char} (hwhole : whole ≠ [])
    (hdigits : ∀ c ∈ whole ++ fraction, c.isDigit = true) :
    unsignedDecimal (whole ++ '.' :: fraction) =
      some (ofDecimal (Nat.ofDigitChars 10 (whole ++ fraction) 0) (-fraction.length)) := by
  have hcount : whole.length ≠ 0 := fun hzero => hwhole (List.eq_nil_of_length_eq_zero hzero)
  have hpoint : ∀ c ∈ ('.' :: fraction).head?, c.isDigit = false := by simp
  have hfront := takeDigits_append (fun c hc => hdigits c (List.mem_append_left _ hc)) hpoint 0 0
  have hback := takeDigits_all (fun c hc => hdigits c (List.mem_append_right _ hc))
    (Nat.ofDigitChars 10 whole 0) 0
  unfold unsignedDecimal
  simp [hfront, hback, Nat.ofDigitChars_append, hcount, exponentOf]

lemma toList_zeros (n : Nat) : (zeros n).toList = List.replicate n '0' := by
  simp [zeros]

/-- A text that starts with a digit and is read as a decimal of a value. -/
structure ReadsAs (text : List Char) (v : ℚ) : Prop where
  starts : ∃ c more, text = c :: more ∧ c.isDigit = true
  reads : ∃ n e, unsignedDecimal text = some (ofDecimal n e) ∧ (n : ℚ) * 10 ^ e = v

lemma isDigit_zeros (k : Nat) : ∀ c ∈ List.replicate k '0', c.isDigit = true := by
  intro c hc
  rw [List.eq_of_mem_replicate hc]
  rfl

lemma isDigit_append {digits more : List Char} (h : ∀ c ∈ digits, c.isDigit = true)
    (hmore : ∀ c ∈ more, c.isDigit = true) : ∀ c ∈ digits ++ more, c.isDigit = true := by
  intro c hc
  rcases List.mem_append.mp hc with hc | hc
  · exact h c hc
  · exact hmore c hc

lemma readsAs_zeros {digits : List Char} (hne : digits ≠ [])
    (hdigits : ∀ c ∈ digits, c.isDigit = true) (k : Nat) :
    ReadsAs (digits ++ List.replicate k '0') (Nat.ofDigitChars 10 digits 0 * 10 ^ (k : Int)) := by
  refine ⟨?_, _, _, unsignedDecimal_whole (by simp [hne])
    (isDigit_append hdigits (isDigit_zeros k)), ?_⟩
  · obtain ⟨c, more, rfl⟩ := List.exists_cons_of_ne_nil hne
    exact ⟨c, _, rfl, hdigits c List.mem_cons_self⟩
  · rw [Nat.ofDigitChars_append, Nat.ofDigitChars_replicate_zero, zpow_zero, zpow_natCast]
    push_cast
    ring

lemma readsAs_point {whole fraction : List Char} (hwhole : whole ≠ [])
    (hdigits : ∀ c ∈ whole ++ fraction, c.isDigit = true) :
    ReadsAs (whole ++ '.' :: fraction)
      (Nat.ofDigitChars 10 (whole ++ fraction) 0 * 10 ^ (-fraction.length : Int)) := by
  refine ⟨?_, _, _, unsignedDecimal_point hwhole hdigits, rfl⟩
  obtain ⟨c, more, rfl⟩ := List.exists_cons_of_ne_nil hwhole
  exact ⟨c, more ++ '.' :: fraction, rfl, hdigits c List.mem_cons_self⟩

lemma readsAs_fraction {digits : List Char} (hdigits : ∀ c ∈ digits, c.isDigit = true) (k : Nat) :
    ReadsAs (['0'] ++ '.' :: (List.replicate k '0' ++ digits))
      (Nat.ofDigitChars 10 digits 0 * 10 ^ (-(k + digits.length) : Int)) := by
  have hall : ∀ c ∈ ['0'] ++ (List.replicate k '0' ++ digits), c.isDigit = true :=
    isDigit_append (isDigit_zeros 1) (isDigit_append (isDigit_zeros k) hdigits)
  have hzero : Nat.ofDigitChars 10 ['0'] 0 = 0 := rfl
  have hread := readsAs_point (List.cons_ne_nil _ _) hall
  rw [Nat.ofDigitChars_append, hzero, Nat.ofDigitChars_append, Nat.ofDigitChars_replicate_zero,
    Nat.mul_zero, List.length_append, List.length_replicate, Nat.cast_add] at hread
  exact hread

/-- The text of positional digits is read as a decimal of their value. -/
lemma readsAs_positional (n : Nat) (e : Int) :
    ReadsAs (positionalText (Nat.toDigits 10 n) ((Nat.toDigits 10 n).length + e) "").toList
      (n * 10 ^ e) := by
  have hdigits := isDigit_toDigits (n := n)
  have hvalue : Nat.ofDigitChars 10 (Nat.toDigits 10 n) 0 = n := Nat.ofDigitChars_ten_toDigits
  have hne : Nat.toDigits 10 n ≠ [] := Nat.toDigits_ne_nil
  generalize Nat.toDigits 10 n = digits at *
  subst hvalue
  by_cases hwhole : 0 ≤ e
  · -- Zeros up to the point.
    obtain ⟨k, rfl⟩ : ∃ k : Nat, e = k := ⟨e.toNat, by omega⟩
    have htext : (positionalText digits (digits.length + k) "").toList =
        digits ++ List.replicate k '0' := by
      have hle : (digits.length : Int) ≤ digits.length + k := by omega
      simp [positionalText, hle, toList_zeros]
    rw [htext]
    exact readsAs_zeros hne hdigits k
  · obtain ⟨k, rfl⟩ : ∃ k : Nat, e = -(k : Int) := ⟨(-e).toNat, by omega⟩
    have hle : ¬ (digits.length : Int) ≤ digits.length + -k := by omega
    by_cases hpoint : k < digits.length
    · -- The point stands among the digits.
      have htext : (positionalText digits (digits.length + -k) "").toList =
          digits.take (digits.length - k) ++ '.' :: digits.drop (digits.length - k) := by
        have hpos : (0 : Int) < digits.length + -k := by omega
        have htoNat : ((digits.length : Int) + -k).toNat = digits.length - k := by omega
        simp [positionalText, hle, hpos, htoNat]
      have hsplit : digits.take (digits.length - k) ++ digits.drop (digits.length - k) = digits :=
        List.take_append_drop _ _
      have hfront : digits.take (digits.length - k) ≠ [] := by
        rw [ne_eq, List.take_eq_nil_iff, not_or]
        exact ⟨by omega, hne⟩
      have hlength : (digits.drop (digits.length - k)).length = k := by
        rw [List.length_drop]
        omega
      have hread := readsAs_point hfront (by rw [hsplit]; exact hdigits)
      rw [hsplit, hlength] at hread
      rw [htext]
      exact hread
    · -- Zeros behind the point.
      have htext : (positionalText digits (digits.length + -k) "").toList =
          ['0'] ++ '.' :: (List.replicate (k - digits.length) '0' ++ digits) := by
        have hpos : ¬ (0 : Int) < digits.length + -k := by omega
        have htoNat : ((k : Int) + -digits.length).toNat = k - digits.length := by omega
        simp [positionalText, hle, hpos, htoNat, toList_zeros]
      have hlength : ((k - digits.length : Nat) : Int) + digits.length = k := by omega
      have hread := readsAs_fraction hdigits (k - digits.length)
      rw [hlength] at hread
      rw [htext]
      exact hread

/-! ## Signs -/

lemma toLower_digit {c : Char} (h : c.isDigit = true) : c.toLower = c := by
  have hupper : ¬ (c.val ≥ 'A'.val ∧ c.val ≤ 'Z'.val) := by
    intro hupper
    simp only [Char.isDigit, Bool.and_eq_true, decide_eq_true_eq] at h
    have hle : 'A'.val ≤ '9'.val := UInt32.le_trans hupper.1 h.2
    exact absurd hle (by decide)
  exact dif_neg hupper

/-- A text that starts with a digit is no word for a number. -/
lemma word_of_digit {c : Char} {more : List Char} (hc : c.isDigit = true) (word : List Char)
    (hword : ∀ d ∈ word.head?, d.isDigit = false) (hne : word ≠ []) :
    (String.ofList ((c :: more).map Char.toLower) == String.ofList word) = false := by
  rw [beq_eq_false_iff_ne]
  intro h
  have hlist := congrArg String.toList h
  rw [String.toList_ofList, String.toList_ofList, List.map_cons, toLower_digit hc] at hlist
  cases word with
  | nil => exact hne rfl
  | cons d rest =>
    rw [← (List.cons.inj hlist).1] at hword
    have hcontra := hword c rfl
    rw [hc] at hcontra
    cases hcontra

lemma floatOfText_signed {text : String} {c : Char} {more : List Char} (htext : text.toList = c :: more)
    (hc : c.isDigit = true) (negative : Bool) :
    floatOfText ((if negative then "-" else "") ++ text) =
      (unsignedDecimal text.toList).map fun x => if negative then -x else x := by
  have hinf : (String.ofList ((c :: more).map Char.toLower) == "inf") = false :=
    word_of_digit hc ['i', 'n', 'f'] (by rintro d ⟨⟩; rfl) (by simp)
  have hinfinity : (String.ofList ((c :: more).map Char.toLower) == "infinity") = false :=
    word_of_digit hc ['i', 'n', 'f', 'i', 'n', 'i', 't', 'y'] (by rintro d ⟨⟩; rfl) (by simp)
  have hnan : (String.ofList ((c :: more).map Char.toLower) == "nan") = false :=
    word_of_digit hc ['n', 'a', 'n'] (by rintro d ⟨⟩; rfl) (by simp)
  rw [htext]
  cases negative with
  | true =>
    have hall : ((if true then "-" else "") ++ text).toList = '-' :: c :: more := by
      simp [htext]
    unfold floatOfText
    rw [hall]
    split
    rename_i negative rest hmatch
    obtain ⟨rfl, rfl⟩ := Prod.mk.inj hmatch
    dsimp only
    rw [hinf, hinfinity, hnan]
    rfl
  | false =>
    have hall : ((if false then "-" else "") ++ text).toList = c :: more := by
      simp [htext]
    have hminus : c ≠ '-' := by
      rintro rfl
      cases hc
    have hplus : c ≠ '+' := by
      rintro rfl
      cases hc
    unfold floatOfText
    rw [hall]
    split
    rename_i negative rest hmatch
    have hpair : (negative, rest) = (false, c :: more) := by
      rw [← hmatch]
      split
      · rename_i heq
        exact absurd (List.cons.inj heq).1 hminus
      · rename_i heq
        exact absurd (List.cons.inj heq).1 hplus
      · rfl
    obtain ⟨rfl, rfl⟩ := Prod.mk.inj hpair
    dsimp only
    rw [hinf, hinfinity, hnan]
    rfl

/-! ## Reading back -/

variable {x : Float} {m : Nat} {q : Int}

lemma notNaN_of_finite (h : x.isFinite = true) : x.isNaN = false ∧ x.isInf = false := by
  change x.toModel.unpack.isFinite = true at h
  change x.toModel.unpack.isNaN = false ∧ x.toModel.unpack.isInf = false
  cases hx : x.toModel.unpack with
  | infinity s =>
    rw [hx] at h
    cases h
  | notANumber =>
    rw [hx] at h
    cases h
  | zero s => exact ⟨rfl, rfl⟩
  | finite s m e hm => exact ⟨rfl, rfl⟩

/-- The sign of a double and decimal digits of its rounding interval are read back as the double. -/
lemma floatOfText_positional (hfinite : x.isFinite = true) (hx : magnitude x = (m, q)) (hne : m ≠ 0)
    {n : Nat} {e : Int} (h : RoundsTo m q (n * 10 ^ e)) :
    floatOfText ((if isNegative x then "-" else "") ++
      positionalText (Nat.toDigits 10 n) ((Nat.toDigits 10 n).length + e) "") = some x := by
  obtain ⟨hm, hbits⟩ := magnitude_isMagnitude hx hfinite hne
  obtain ⟨⟨c, more, htext, hc⟩, n', e', hread, hvalue⟩ := readsAs_positional n e
  rw [← hvalue] at h
  rw [floatOfText_signed htext hc, hread, ofDecimal_eq hm h, hbits, Option.map_some,
    signed_magnitude (notNaN_of_finite hfinite).1]

/-- The plain text of a double is read back as the double. -/
theorem floatOfText_plain (hfinite : x.isFinite = true) (hx : magnitude x = (m, q)) (hne : m ≠ 0) :
    floatOfText (plain.format x) = some x := by
  obtain ⟨hnan, hinf⟩ := notNaN_of_finite hfinite
  obtain ⟨hpos, hround⟩ := shortest_roundsTo hx (magnitude_isMagnitude hx hfinite hne).1
  have htext : plain.format x = (if isNegative x then "-" else "") ++
      positionalText (Nat.toDigits 10 (shortest x).digits)
        ((Nat.toDigits 10 (shortest x).digits).length + (shortest x).exponent) "" := by
    unfold Layout.format
    rw [hnan, hinf]
    dsimp only
    rw [if_neg Bool.false_ne_true, if_neg Bool.false_ne_true, if_neg (Nat.ne_of_gt hpos)]
    rfl
  rw [htext]
  exact floatOfText_positional hfinite hx hne hround

lemma toString_signed {n : Nat} (hn : 0 < n) (negative : Bool) :
    toString (if negative then -(n : Int) else n) =
      (if negative then "-" else "") ++
        positionalText (Nat.toDigits 10 n) ((Nat.toDigits 10 n).length + 0) "" := by
  have htext : positionalText (Nat.toDigits 10 n) ((Nat.toDigits 10 n).length + 0) "" = n.repr := by
    rw [← String.toList_inj]
    simp [positionalText, toList_zeros]
  rw [htext]
  cases negative with
  | false =>
    change n.repr = "" ++ n.repr
    rw [String.empty_append]
  | true =>
    obtain ⟨k, rfl⟩ : ∃ k, n = k + 1 := ⟨n - 1, by omega⟩
    rfl

/-- The integer part of an integral double is the double itself. -/
lemma truncate_integral (hintegral : isIntegral x = true) (hx : magnitude x = (m, q)) :
    ∃ n : Nat, truncate x = (if isNegative x then -(n : Int) else n) ∧ (n : ℚ) = m * 2 ^ q := by
  unfold isIntegral at hintegral
  unfold truncate
  rw [hx] at hintegral ⊢
  dsimp only at hintegral ⊢
  rw [Bool.and_eq_true, Bool.or_eq_true, decide_eq_true_eq, beq_iff_eq] at hintegral
  refine ⟨_, rfl, ?_⟩
  split
  · rename_i hq
    obtain ⟨k, rfl⟩ : ∃ k : Nat, q = -(k : Int) := ⟨(-q).toNat, by omega⟩
    have hmod : m % 2 ^ k = 0 := by
      have hzero := hintegral.2.resolve_left (by omega)
      simpa [Nat.one_shiftLeft] using hzero
    rw [neg_neg, Int.toNat_natCast, Nat.shiftRight_eq_div_pow, zpow_neg, zpow_natCast,
      Nat.cast_div (Nat.dvd_of_mod_eq_zero hmod) (by positivity)]
    push_cast
    rfl
  · rename_i hq
    obtain ⟨k, rfl⟩ : ∃ k : Nat, q = k := ⟨q.toNat, by omega⟩
    rw [Int.toNat_natCast, Nat.shiftLeft_eq, zpow_natCast]
    push_cast
    rfl

lemma finite_of_integral (h : isIntegral x = true) : x.isFinite = true := by
  unfold isIntegral at h
  exact (Bool.and_eq_true _ _ ▸ h).1

/-- A double is in its own rounding interval. -/
lemma roundsTo_exact {v : ℚ} (hv : v = m * 2 ^ q) : RoundsTo m q v := by
  have hratio : v / 2 ^ q = m := by
    rw [hv, mul_div_assoc, div_self (by positivity), mul_one]
  have hgap : 0 < gapBelow m q := by
    unfold gapBelow
    split <;> norm_num
  refine ⟨?_, ?_, fun _ => ⟨?_, ?_⟩⟩
  · rw [hratio]
    linarith
  · rw [hratio]
    linarith
  · rw [hratio]
    linarith
  · rw [hratio]
    linarith

lemma floatOfText_whole (hintegral : isIntegral x = true) (hx : magnitude x = (m, q)) (hne : m ≠ 0) :
    floatOfText (toString (truncate x)) = some x := by
  have hfinite := finite_of_integral hintegral
  obtain ⟨n, htruncate, hvalue⟩ := truncate_integral hintegral hx
  obtain ⟨hm, -⟩ := magnitude_isMagnitude hx hfinite hne
  have hround := roundsTo_exact hvalue
  have hn : 0 < n := by
    have hpos := roundsTo_pos hm hround
    exact_mod_cast hpos
  rw [htruncate, toString_signed hn]
  exact floatOfText_positional hfinite hx hne (by rwa [zpow_zero, mul_one])

lemma zero_cases (hfinite : x.isFinite = true) (hx : magnitude x = (0, q)) :
    x = -(Float.ofBits 0) ∨ x = Float.ofBits 0 := by
  have hbits : magnitudeBits x = 0 := by
    unfold magnitude at hx
    unfold magnitudeBits
    dsimp only at hx
    rw [Nat.one_shiftLeft, Nat.one_shiftLeft] at hx
    split at hx
    · have hfraction := (Prod.mk.inj hx).1
      omega
    · have hfraction := (Prod.mk.inj hx).1
      omega
  have hsigned := signed_magnitude (notNaN_of_finite hfinite).1
  rw [hbits] at hsigned
  split at hsigned
  · exact .inl hsigned.symm
  · exact .inr hsigned.symm

lemma toJson_of_not_finite (h : x.isFinite = false) : (Literal.number x).toJson = .null := by
  have hwhole : Literal.isWhole x = false := by
    simp [Literal.isWhole, isIntegral, h]
  simp [Literal.toJson, hwhole, h]

lemma toText_of_not_finite (h : x.isFinite = false) :
    (Literal.number x).toText = plain.format x := by
  have hwhole : Literal.isWhole x = false := by
    simp [Literal.isWhole, isIntegral, h]
  simp [Literal.toText, hwhole]

/-- The text of a number that is not finite is read as one that is not finite. -/
lemma floatOfText_not_finite (h : x.isFinite = false) :
    ∃ y, floatOfText (plain.format x) = some y ∧ y.isFinite = false := by
  unfold Layout.format
  by_cases hnan : x.isNaN = true
  · rw [if_pos hnan]
    exact ⟨Float.ofBits 0x7ff8000000000000, by decide +kernel, by decide +kernel⟩
  · have hinf : x.isInf = true := by
      rcases finite_cases x with hfinite | hinf | hcontra
      · rw [hfinite] at h
        cases h
      · exact hinf
      · exact absurd hcontra hnan
    rw [if_neg hnan]
    dsimp only
    rw [if_pos hinf]
    by_cases hnegative : isNegative x = true
    · rw [if_pos hnegative]
      exact ⟨-Float.ofBits (UInt64.ofNat infinityBits), by decide +kernel, by decide +kernel⟩
    · rw [if_neg hnegative]
      exact ⟨Float.ofBits (UInt64.ofNat infinityBits), by decide +kernel, by decide +kernel⟩

/-- The text of a literal number is read back as a number of the same data value. -/
theorem number_reads_back (x : Float) :
    ∃ y, floatOfText (Literal.number x).toText = some y ∧
      (Literal.number y).toJson = (Literal.number x).toJson := by
  cases hfinite : x.isFinite with
  | false =>
    obtain ⟨y, hread, hy⟩ := floatOfText_not_finite hfinite
    exact ⟨y, by rw [toText_of_not_finite hfinite, hread],
      by rw [toJson_of_not_finite hy, toJson_of_not_finite hfinite]⟩
  | true =>
    rcases hx : magnitude x with ⟨m, q⟩
    by_cases hzero : m = 0
    · -- Both zeros are written as the whole number zero.
      subst hzero
      have hjson : ∀ y : Float, Literal.isWhole y = true → truncate y = 0 →
          (Literal.number y).toJson = .int 0 := by
        intro y hwhole htruncate
        simp [Literal.toJson, hwhole, htruncate]
      refine ⟨Float.ofBits 0, ?_, ?_⟩
      · rcases zero_cases hfinite hx with rfl | rfl
        · decide +kernel
        · decide +kernel
      · rw [hjson (Float.ofBits 0) (by decide +kernel) (by decide +kernel)]
        rcases zero_cases hfinite hx with rfl | rfl
        · exact (hjson _ (by decide +kernel) (by decide +kernel)).symm
        · exact (hjson _ (by decide +kernel) (by decide +kernel)).symm
    · refine ⟨x, ?_, rfl⟩
      cases hwhole : Literal.isWhole x with
      | true =>
        have hintegral : isIntegral x = true := by
          unfold Literal.isWhole at hwhole
          exact (Bool.and_eq_true _ _ ▸ hwhole).1
        have htext : (Literal.number x).toText = toString (truncate x) := by
          simp [Literal.toText, hwhole]
        rw [htext, floatOfText_whole hintegral hx hzero]
      | false =>
        have htext : (Literal.number x).toText = plain.format x := by
          simp [Literal.toText, hwhole]
        rw [htext, floatOfText_plain hfinite hx hzero]

end TaskRunner.Proofs
