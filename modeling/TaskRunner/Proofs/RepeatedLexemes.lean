import TaskRunner.Proofs.RepeatedScans

/-!
# Lexemes in front of a change

A blank ends a number, and so does a point behind its fraction or its exponent: the exponent, the base prefix
and the final `n` of a number that is read within a front are found again.

Every lexeme but a template is read by one scanner, which its first two characters choose. So a lexeme that
is read within a front is read again, whichever of two texts with the same stop stands behind it.
-/

namespace TaskRunner.Proofs
open Source

variable {front behind behind' : List Char}

/-! ## Numbers -/

lemma isDigit_stop {c : Char} (h : isStop c = true) : c.isDigit = false := by
  have htable : NoStop Char.isDigit := by decide
  exact htable.fails h

lemma countOptional_again (hstop : SameStop behind behind') (mark : Char) :
    countOptional mark (front ++ behind') = countOptional mark (front ++ behind) := by
  have hcount : ∀ chars, countOptional mark chars = if chars.head? = some mark then 1 else 0 := by
    intro chars
    cases chars with
    | nil => rfl
    | cons c rest => simp [countOptional]
  rw [hcount, hcount, hstop.head_append]

/-- The characters that the sign of an exponent takes. -/
def signLength (chars : List Char) : Nat :=
  match chars with
  | c :: _ => if c == '+' || c == '-' then 1 else 0
  | [] => 0

/-- The digits behind the sign of an exponent. -/
def exponentDigits (chars : List Char) : Nat :=
  countWhile Char.isDigit (chars.drop (signLength chars))

lemma exponentLength_cons (e : Char) (rest : List Char) :
    exponentLength (e :: rest) =
      if e == 'e' || e == 'E' then
        if exponentDigits rest = 0 then 0 else 1 + signLength rest + exponentDigits rest
      else 0 :=
  rfl

lemma exponentDigits_stop (h : ∀ c ∈ behind.head?, isStop c = true) : exponentDigits behind = 0 := by
  cases behind with
  | nil => rfl
  | cons c rest =>
    have hc := h c rfl
    have hsign : signLength (c :: rest) = 0 := by
      simp [signLength, noStop_char (by decide : isStop '+' = false) hc,
        noStop_char (by decide : isStop '-' = false) hc]
    rw [exponentDigits, hsign]
    simp [countWhile, isDigit_stop hc]

lemma exponentLength_stop (h : ∀ c ∈ behind.head?, isStop c = true) : exponentLength behind = 0 := by
  cases behind with
  | nil => rfl
  | cons c rest =>
    have hc := h c rfl
    simp [exponentLength_cons, noStop_char (by decide : isStop 'e' = false) hc,
      noStop_char (by decide : isStop 'E' = false) hc]

lemma exponentDigits_again (hstop : SameStop behind behind') (hne : front ≠ [])
    (h : exponentDigits (front ++ behind) = 0 ∨
      signLength (front ++ behind) + exponentDigits (front ++ behind) ≤ front.length) :
    exponentDigits (front ++ behind') = exponentDigits (front ++ behind) := by
  obtain ⟨s, front, rfl⟩ := List.exists_cons_of_ne_nil hne
  have hle : signLength [s] ≤ (s :: front).length := by
    unfold signLength
    dsimp only
    split
    · simp
    · exact Nat.zero_le _
  have hdigits : ∀ more, exponentDigits (s :: front ++ more) =
      countWhile Char.isDigit ((s :: front).drop (signLength [s]) ++ more) := by
    intro more
    exact congrArg (countWhile Char.isDigit) (List.drop_append_of_le_length hle)
  have hsign : signLength (s :: front ++ behind) = signLength [s] := rfl
  rw [hdigits, hsign] at h
  rw [hdigits, hdigits]
  refine countWhile_again hstop ?_
  rw [List.length_drop]
  omega

lemma exponentLength_again (hstop : SameStop behind behind')
    (h : exponentLength (front ++ behind) ≤ front.length) :
    exponentLength (front ++ behind') = exponentLength (front ++ behind) := by
  cases front with
  | nil => exact (exponentLength_stop hstop.stop').trans (Nat.le_zero.mp h).symm
  | cons e front =>
    simp only [List.cons_append, exponentLength_cons, List.length_cons] at h ⊢
    by_cases he : (e == 'e' || e == 'E') = true
    · simp only [he, if_true] at h ⊢
      by_cases hdigits : exponentDigits (front ++ behind) = 0
      · have hdigits' : exponentDigits (front ++ behind') = 0 := by
          cases front with
          | nil => exact exponentDigits_stop hstop.stop'
          | cons s front =>
            exact (exponentDigits_again hstop (List.cons_ne_nil _ _) (.inl hdigits)).trans hdigits
        rw [if_pos hdigits, if_pos hdigits']
      · rw [if_neg hdigits] at h
        cases front with
        | nil =>
          simp only [List.length_nil] at h
          omega
        | cons s front =>
          have hagain := exponentDigits_again hstop (List.cons_ne_nil s front) (.inr (by omega))
          rw [hagain]
          rfl
    · simp only [he]
      rfl

/-- The characters of a number before its exponent. -/
def mantissaLength (chars : List Char) : Nat :=
  let whole := countWhile isDigitOrSeparator chars
  let point := countOptional '.' (chars.drop whole)
  whole + point + if point = 0 then 0 else countWhile isDigitOrSeparator (chars.drop (whole + 1))

lemma decimalTextLength_eq (chars : List Char) :
    decimalTextLength chars =
      mantissaLength chars + exponentLength (chars.drop (mantissaLength chars)) :=
  rfl

lemma countOptional_le (mark : Char) (chars : List Char) : countOptional mark chars ≤ 1 := by
  unfold countOptional
  split
  · split
    · exact Nat.le_refl 1
    · exact Nat.zero_le 1
  · exact Nat.zero_le 1

lemma mantissaLength_again (hstop : SameStop behind behind')
    (h : mantissaLength (front ++ behind) ≤ front.length) :
    mantissaLength (front ++ behind') = mantissaLength (front ++ behind) := by
  unfold mantissaLength at h ⊢
  dsimp only at h ⊢
  have hle : countWhile isDigitOrSeparator (front ++ behind) ≤ front.length := by omega
  rw [countWhile_again hstop hle]
  generalize countWhile isDigitOrSeparator (front ++ behind) = whole at h hle ⊢
  rw [List.drop_append_of_le_length hle] at h ⊢
  rw [List.drop_append_of_le_length hle, countOptional_again hstop]
  have hone := countOptional_le '.' (front.drop whole ++ behind)
  generalize countOptional '.' (front.drop whole ++ behind) = point at h hone ⊢
  by_cases hzero : point = 0
  · rw [if_pos hzero, if_pos hzero]
  · rw [if_neg hzero] at h
    have hnext : whole + 1 ≤ front.length := by omega
    rw [if_neg hzero, if_neg hzero]
    rw [List.drop_append_of_le_length hnext] at h ⊢
    rw [List.drop_append_of_le_length hnext]
    rw [countWhile_again hstop]
    rw [List.length_drop]
    omega

lemma decimalTextLength_again (hstop : SameStop behind behind')
    (h : decimalTextLength (front ++ behind) ≤ front.length) :
    decimalTextLength (front ++ behind') = decimalTextLength (front ++ behind) := by
  rw [decimalTextLength_eq] at h
  have hle : mantissaLength (front ++ behind) ≤ front.length := by omega
  rw [decimalTextLength_eq, decimalTextLength_eq, mantissaLength_again hstop hle]
  rw [List.drop_append_of_le_length hle] at h ⊢
  rw [List.drop_append_of_le_length hle, exponentLength_again hstop]
  rw [List.length_drop]
  omega

lemma numberMayEnd_again (hstop : SameStop behind behind') :
    numberMayEnd (front ++ behind') = numberMayEnd (front ++ behind) := by
  have hend : ∀ chars, numberMayEnd chars =
      !chars.head?.any fun c => isNameStart c || c.isDigit := by
    intro chars
    cases chars <;> rfl
  rw [hend, hend, hstop.head_append]

/-- A prefix that names a base is read from two characters. -/
lemma baseOfPrefix_letter {chars : List Char} {base : Nat} (h : baseOfPrefix chars = some base) :
    ∃ c rest, chars = '0' :: c :: rest ∧ c ∈ ['x', 'X', 'o', 'O', 'b', 'B'] ∧
      ∀ more, baseOfPrefix ('0' :: c :: more) = some base := by
  unfold baseOfPrefix at h
  split at h
  all_goals cases h
  all_goals exact ⟨_, _, rfl, by decide, fun _ => rfl⟩

lemma baseOfPrefix_front {base : Nat} (h : baseOfPrefix (front ++ behind) = some base)
    (hlength : 2 ≤ front.length) (more : List Char) : baseOfPrefix (front ++ more) = some base := by
  obtain ⟨c, rest, hchars, -, hbase⟩ := baseOfPrefix_letter h
  match front, hlength with
  | a :: b :: front, _ =>
    simp only [List.cons_append, List.cons.injEq] at hchars
    rw [hchars.1, hchars.2.1]
    exact hbase _

lemma baseOfPrefix_again (hstop : SameStop behind behind')
    (h : baseOfPrefix (front ++ behind) = none) : baseOfPrefix (front ++ behind') = none := by
  cases hbase : baseOfPrefix (front ++ behind') with
  | none => rfl
  | some base =>
    obtain ⟨c, rest, hchars, hletter, -⟩ := baseOfPrefix_letter hbase
    match front with
    | [] =>
      have hstops := hstop.stop' _ (by rw [← List.nil_append behind', hchars]; rfl)
      exact absurd hstops (by decide)
    | [a] =>
      have hbehind : behind' = c :: rest := (List.cons.inj hchars).2
      have hc := hstop.stop' c (by rw [hbehind]; rfl)
      have htable : NoStop fun c => ['x', 'X', 'o', 'O', 'b', 'B'].contains c := by decide
      exact absurd (List.contains_iff_mem.mpr hletter) (Bool.eq_false_iff.mp (htable.fails hc))
    | a :: b :: front =>
      rw [baseOfPrefix_front hbase (by simp)] at h
      cases h

/-- The characters of an integer with a prefix, and those of them that are digits or separators. -/
def prefixedExtent (base : Nat) (chars : List Char) : Nat × Nat :=
  let length := countWhile (fun c => Number.isDigitOf base c || c == '_') (chars.drop 2)
  (2 + length + countOptional 'n' (chars.drop (2 + length)), length)

/-- The characters of a decimal number, and those of them before an `n`. -/
def decimalExtent (chars : List Char) : Nat × Nat :=
  let length := decimalTextLength chars
  (length + countOptional 'n' (chars.drop length), length)

lemma prefixedExtent_again (hstop : SameStop behind behind') {base : Nat} (htwo : 2 ≤ front.length) (h : (prefixedExtent base (front ++ behind)).1 ≤ front.length) :
    prefixedExtent base (front ++ behind') = prefixedExtent base (front ++ behind) ∧
      2 + (prefixedExtent base (front ++ behind)).2 ≤ front.length := by
  unfold prefixedExtent at h ⊢
  dsimp only at h ⊢
  rw [List.drop_append_of_le_length htwo] at h ⊢
  rw [List.drop_append_of_le_length htwo, countWhile_again hstop]
  · generalize countWhile _ (front.drop 2 ++ behind) = length at h ⊢
    have hle : 2 + length ≤ front.length := by omega
    rw [List.drop_append_of_le_length hle] at h ⊢
    rw [List.drop_append_of_le_length hle, countOptional_again hstop]
    exact ⟨rfl, hle⟩
  · rw [List.length_drop]
    omega

lemma decimalExtent_again (hstop : SameStop behind behind')
    (h : (decimalExtent (front ++ behind)).1 ≤ front.length) :
    decimalExtent (front ++ behind') = decimalExtent (front ++ behind) ∧
      (decimalExtent (front ++ behind)).2 ≤ front.length := by
  unfold decimalExtent at h ⊢
  dsimp only at h ⊢
  have hle : decimalTextLength (front ++ behind) ≤ front.length := by omega
  rw [decimalTextLength_again hstop hle]
  generalize decimalTextLength (front ++ behind) = length at h hle ⊢
  rw [List.drop_append_of_le_length hle] at h ⊢
  rw [List.drop_append_of_le_length hle, countOptional_again hstop]
  exact ⟨rfl, hle⟩

lemma numberAt_eq (chars : List Char) :
    numberAt chars =
      match baseOfPrefix chars with
      | some base =>
        match (Number.natOfDigits base
          (((chars.drop 2).take (prefixedExtent base chars).2).filter (· != '_'))).filter
            (· < UInt64.size) with
        | none => .error .invalidNumber
        | some value =>
          if numberMayEnd (chars.drop (prefixedExtent base chars).1) then
            .ok (Number.ofNat value, (prefixedExtent base chars).1)
          else .error .identifierAfterNumber
      | none =>
        if numberMayEnd (chars.drop (decimalExtent chars).1) then
          match Number.unsignedDecimal ((chars.take (decimalExtent chars).2).filter (· != '_')) with
          | some value => .ok (value, (decimalExtent chars).1)
          | none => .error .invalidNumber
        else .error .identifierAfterNumber :=
  rfl

lemma numberAt_again (hstop : SameStop behind behind') {value : Float} {count : Nat}
    (h : numberAt (front ++ behind) = .ok (value, count)) (hcount : count ≤ front.length) :
    numberAt (front ++ behind') = .ok (value, count) := by
  rw [numberAt_eq] at h ⊢
  cases hbase : baseOfPrefix (front ++ behind) with
  | some base =>
    rw [hbase] at h
    dsimp only at h
    have hread : (prefixedExtent base (front ++ behind)).1 = count ∧
        numberMayEnd ((front ++ behind).drop count) = true := by
      split at h
      · cases h
      · split at h
        · rename_i hends
          cases h
          exact ⟨rfl, hends⟩
        · cases h
    obtain ⟨rfl, hend⟩ := hread
    have htwo : 2 ≤ front.length := by
      unfold prefixedExtent at hcount
      dsimp only at hcount
      omega
    obtain ⟨hextent, hdigits⟩ := prefixedExtent_again hstop htwo hcount
    have htake : ∀ more, ((front ++ more).drop 2).take (prefixedExtent base (front ++ behind)).2 =
        (front.drop 2).take (prefixedExtent base (front ++ behind)).2 := by
      intro more
      rw [List.drop_append_of_le_length htwo, List.take_append_of_le_length]
      rw [List.length_drop]
      omega
    rw [List.drop_append_of_le_length hcount] at hend
    have hend' := (numberMayEnd_again hstop).trans hend
    rw [← List.drop_append_of_le_length hcount] at hend hend'
    rw [baseOfPrefix_front hbase htwo]
    dsimp only
    simp only [htake, hend, if_true] at h
    simp only [hextent, htake, hend', if_true]
    exact h
  | none =>
    rw [hbase] at h
    rw [baseOfPrefix_again hstop hbase]
    dsimp only at h ⊢
    have hread : (decimalExtent (front ++ behind)).1 = count ∧
        numberMayEnd ((front ++ behind).drop count) = true := by
      split at h
      · rename_i hends
        split at h
        · cases h
          exact ⟨rfl, hends⟩
        · cases h
      · cases h
    obtain ⟨rfl, hend⟩ := hread
    obtain ⟨hextent, htext⟩ := decimalExtent_again hstop hcount
    have htake : ∀ more, (front ++ more).take (decimalExtent (front ++ behind)).2 =
        front.take (decimalExtent (front ++ behind)).2 :=
      fun more => List.take_append_of_le_length htext
    rw [List.drop_append_of_le_length hcount] at hend
    have hend' := (numberMayEnd_again hstop).trans hend
    rw [← List.drop_append_of_le_length hcount] at hend hend'
    rw [hextent, htake, if_pos hend']
    rw [htake, if_pos hend] at h
    exact h

/-! ## Lexemes -/

lemma lexeme_again (hstop : SameStop behind behind') {regexMayStart : Bool} {kind : Kind}
    {count : Nat} (hne : front ≠ [])
    (h : lexeme regexMayStart (front ++ behind) = .ok (kind, count)) (hcount : count ≤ front.length) :
    lexeme regexMayStart (front ++ behind') = .ok (kind, count) := by
  obtain ⟨c, front, rfl⟩ := List.exists_cons_of_ne_nil hne
  have hsecond : (front ++ behind').head? = (front ++ behind).head? := hstop.head_append front
  rw [List.cons_append, lexeme] at h ⊢
  rw [List.length_cons] at hcount
  dsimp only at h ⊢
  rw [hsecond]
  split at h
  · rename_i hname
    rw [if_pos hname]
    cases h
    rw [← List.cons_append, nameAt_again hstop hcount]
    rfl
  · rename_i hname
    rw [if_neg hname]
    split at h
    · rename_i hprivate
      rw [if_pos hprivate]
      cases h
      rw [nameAt_again hstop (by omega)]
    · rename_i hprivate
      rw [if_neg hprivate]
      split at h
      · rename_i hdigit
        rw [if_pos hdigit]
        obtain ⟨⟨value, width⟩, hnumber, h⟩ := bind_ok h
        cases h
        rw [← List.cons_append] at hnumber ⊢
        rw [numberAt_again hstop hnumber hcount]
        rfl
      · rename_i hdigit
        rw [if_neg hdigit]
        split at h
        · rename_i hquote
          rw [if_pos hquote]
          split at h
          · rename_i value width htext
            cases h
            have hfuel : front.length ≤ (front ++ behind').length + 1 := by
              rw [List.length_append]
              omega
            rw [scanText_again hstop hfuel htext (by omega)]
          · cases h
        · rename_i hquote
          rw [if_neg hquote]
          split at h
          · rename_i hregex
            rw [if_pos hregex]
            split at h
            · rename_i width hwritten
              cases h
              have hwidth : width ≤ front.length := by omega
              rw [List.drop_append_of_le_length hwidth] at hcount ⊢
              rw [scanRegex_again hwritten hwidth]
              dsimp only
              rw [List.drop_append_of_le_length hwidth, countWhile_again hstop]
              rw [List.length_drop]
              omega
            · cases h
          · rename_i hregex
            rw [if_neg hregex]
            rw [← List.cons_append] at h ⊢
            rw [hstop.marks]
            split at h
            · exact h
            · cases h

end TaskRunner.Proofs
