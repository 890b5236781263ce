import Mathlib.Data.List.Find
import TaskRunner.Proofs.WrittenTokens

/-!
# Lexemes in front of a space

An escape may stand for a character of a name. Written in either way a name is read back as one identifier,
as long as what follows does not continue it.

A decimal number, a quoted text or a punctuation mark in front of a space, a closing brace or the end of
the text is read as one lexeme.
-/

namespace TaskRunner.Proofs
open Source Number

/-! ## Spelled names -/

/-- Hexadecimal digits. -/
def IsHex (digits : List Char) : Prop :=
  ∀ d ∈ digits, Number.isDigitOf 16 d = true

/-- The written characters, some of them in escapes, stand for characters of a name. -/
inductive Spells : List Char → List Char → Prop
  | nothing : Spells [] []
  | plain {c : Char} {written name : List Char} (part : isNamePart c = true)
      (more : Spells written name) : Spells (c :: written) (c :: name)
  | fourDigits {c : Char} {digits written name : List Char} (hex : IsHex digits)
      (four : digits.length = 4) (code : charOfHex digits = some c) (part : isNamePart c = true)
      (more : Spells written name) : Spells ('\\' :: 'u' :: (digits ++ written)) (c :: name)
  | inBraces {c : Char} {digits written name : List Char} (hex : IsHex digits)
      (code : charOfHex digits = some c) (part : isNamePart c = true)
      (more : Spells written name) :
      Spells ('\\' :: 'u' :: '\x7b' :: (digits ++ '\x7d' :: written)) (c :: name)

/-- An identifier as it is written, and its name. -/
structure IsSpelled (written name : List Char) : Prop where
  spells : Spells written name
  starts : ∀ c ∈ name.head?, isNameStart c = true
  nonempty : name ≠ []

/-- What comes next does not continue a name. -/
def EndsName (behind : List Char) : Prop :=
  ∀ c ∈ behind.head?, isNamePart c = false ∧ c ≠ '\\'

/-- A name ends here. -/
def StopsName (behind : List Char) : Prop :=
  ∀ fuel, scanName fuel behind = ([], 0)

lemma isNamePart_backslash : isNamePart '\\' = false := by
  decide

lemma EndsName.stops {behind : List Char} (h : EndsName behind) : StopsName behind := by
  intro fuel
  cases fuel with
  | zero => rfl
  | succ fuel =>
    cases behind with
    | nil => rfl
    | cons c behind =>
      obtain ⟨hpart, hescape⟩ := h c rfl
      rw [scanName]
      · simp [hpart]
      · exact fun _ heq _ => hescape heq

lemma IsHex.not_brace {digits : List Char} (h : IsHex digits) : ∀ d ∈ digits, d ≠ '\x7b' ∧ d ≠ '\x7d' := by
  intro d hd
  have hdigit := h d hd
  refine ⟨?_, ?_⟩
  all_goals
    rintro rfl
    revert hdigit
    decide

lemma unicodeEscape_fourDigits {digits : List Char} (hhex : IsHex digits)
    (hfour : digits.length = 4) (behind : List Char) : unicodeEscape (digits ++ behind) = (charOfHex digits, 4) := by
  have htake : (digits ++ behind).take 4 = digits := by rw [← hfour, List.take_left]
  unfold unicodeEscape
  split
  · rename_i rest heq
    cases digits with
    | nil => cases hfour
    | cons d digits =>
      obtain ⟨rfl, -⟩ := List.cons.inj heq
      exact absurd rfl (hhex.not_brace _ List.mem_cons_self).1
  · simp [htake, hfour]

lemma unicodeEscape_inBraces {digits : List Char} (hhex : IsHex digits) (behind : List Char) :
    unicodeEscape ('\x7b' :: (digits ++ '\x7d' :: behind)) = (charOfHex digits, digits.length + 2) := by
  have htake : (digits ++ '\x7d' :: behind).takeWhile (· != '\x7d') = digits := by
    rw [List.takeWhile_append_of_pos fun d hd => by simpa using (hhex.not_brace d hd).2]
    simp
  unfold unicodeEscape
  simp [htake]
  omega

/-- A spelled name is read with its escapes decoded. -/
lemma Spells.scan {written name behind : List Char} (h : Spells written name) (hends : StopsName behind)
    {fuel : Nat} (hfuel : written.length ≤ fuel) :
    scanName fuel (written ++ behind) = (name, written.length) := by
  induction h generalizing fuel with
  | nothing => exact hends fuel
  | plain part more ih =>
    cases fuel with
    | zero => exact absurd hfuel (Nat.not_succ_le_zero _)
    | succ fuel =>
      have hmore := ih (Nat.le_of_succ_le_succ hfuel)
      rw [List.cons_append, scanName]
      · simp [part, hmore, Nat.add_comm]
      · rintro _ rfl -
        rw [isNamePart_backslash] at part
        cases part
  | @fourDigits c digits written name hex four code part more ih =>
    cases fuel with
    | zero => exact absurd hfuel (Nat.not_succ_le_zero _)
    | succ fuel =>
      simp only [List.length_cons, List.length_append] at hfuel
      have hmore := ih (by omega : written.length ≤ fuel)
      have hescape := unicodeEscape_fourDigits hex four (written ++ behind)
      have hdrop : (digits ++ (written ++ behind)).drop 4 = written ++ behind := by
        rw [← four, List.drop_left]
      rw [List.cons_append, List.cons_append, List.append_assoc, scanName, hescape, code]
      simp [hdrop, hmore, four]
      omega
  | @inBraces c digits written name hex code part more ih =>
    cases fuel with
    | zero => exact absurd hfuel (Nat.not_succ_le_zero _)
    | succ fuel =>
      simp only [List.length_cons, List.length_append] at hfuel
      have hmore := ih (by omega : written.length ≤ fuel)
      have hescape := unicodeEscape_inBraces hex (written ++ behind)
      have hdrop : ('\x7b' :: (digits ++ '\x7d' :: (written ++ behind))).drop (digits.length + 2) =
          written ++ behind := by
        rw [List.drop_succ_cons, List.drop_append]
        simp
      have hchars : '\\' :: 'u' :: '\x7b' :: (digits ++ '\x7d' :: written) ++ behind =
          '\\' :: 'u' :: '\x7b' :: (digits ++ '\x7d' :: (written ++ behind)) := by simp
      rw [hchars, scanName, hescape, code]
      simp only [hdrop, hmore, List.length_cons, List.length_append, Prod.mk.injEq, true_and]
      omega

/-- A name without escapes is spelled as it is. -/
lemma spells_self {name : List Char} (h : ∀ c ∈ name, isNamePart c = true) : Spells name name := by
  induction name with
  | nil => exact .nothing
  | cons c name ih =>
    exact .plain (h c List.mem_cons_self) (ih fun d hd => h d (List.mem_cons_of_mem _ hd))

lemma IsIdentifier.isSpelled {name : String} (h : IsIdentifier name) :
    IsSpelled name.toList name.toList := by
  refine ⟨spells_self h.namePart, ?_, ?_⟩
  all_goals obtain ⟨c, rest, hchars, hstart, -⟩ := h
  · rw [hchars]
    exact fun d hd => Option.mem_some.mp hd ▸ hstart
  · rw [hchars]
    exact List.cons_ne_nil c rest

lemma IsSpelled.front {written name : List Char} (h : IsSpelled written name) :
    ∃ c more, written = c :: more ∧ (isNameStart c = true ∨ c = '\\' ∧ more.head? = some 'u') := by
  obtain ⟨hspells, hstarts, hne⟩ := h
  cases hspells with
  | nothing => exact absurd rfl hne
  | @plain c written _ _ _ => exact ⟨c, written, rfl, .inl (hstarts c rfl)⟩
  | fourDigits | inBraces => exact ⟨_, _, rfl, .inr ⟨rfl, rfl⟩⟩

lemma lexeme_spelled {written name behind : List Char} (h : IsSpelled written name)
    (hends : StopsName behind) (regexMayStart : Bool) :
    lexeme regexMayStart (written ++ behind) = .ok (.ident (String.ofList name), written.length) := by
  have hlength : written.length ≤ (written ++ behind).length := by
    rw [List.length_append]
    exact Nat.le_add_right _ _
  have hread : nameAt (written ++ behind) = (String.ofList name, written.length) := by
    rw [nameAt, h.spells.scan hends hlength]
  obtain ⟨c, more, rfl, hfront⟩ := h.front
  rw [List.cons_append] at hread ⊢
  have hstart : (isNameStart c || (c == '\\' && (more ++ behind).head? == some 'u')) = true := by
    rcases hfront with hstart | ⟨rfl, hhead⟩
    · simp [hstart]
    · obtain ⟨more, rfl⟩ := List.head?_eq_some_iff.mp hhead
      simp
  rw [lexeme]
  simp only [hstart, if_true, hread]

lemma IsSpelled.opens {written name : List Char} (h : IsSpelled written name) (behind : List Char) :
    Opens (written ++ behind) := by
  obtain ⟨c, more, rfl, hstart | ⟨rfl, -⟩⟩ := h.front
  · exact opens_cons (startsToken_of_isNameStart hstart) _
  · exact opens_cons ⟨by decide, by decide, by decide, by decide⟩ _

/-! ## Ends of lexemes -/

/-- A space, a closing brace or the end of the text comes next. -/
def Spaced (behind : List Char) : Prop :=
  ∀ c ∈ behind.head?, c = ' ' ∨ c = '\x7d'

lemma Spaced.none {behind : List Char} (h : Spaced behind) {p : Char → Bool} (hspace : p ' ' = false)
    (hbrace : p '\x7d' = false) : ∀ c ∈ behind.head?, p c = false := by
  intro c hc
  rcases h c hc with rfl | rfl
  · exact hspace
  · exact hbrace

lemma spaced_space (behind : List Char) : Spaced (' ' :: behind) :=
  fun _ hc => .inl (Option.mem_some.mp hc).symm

lemma spaced_brace (behind : List Char) : Spaced ('\x7d' :: behind) :=
  fun _ hc => .inr (Option.mem_some.mp hc).symm

lemma Spaced.endsName {behind : List Char} (h : Spaced behind) : EndsName behind := by
  intro c hc
  rcases h c hc with rfl | rfl
  · exact ⟨by decide, by decide⟩
  · exact ⟨by decide, by decide⟩

/-! ## Decimal numbers -/

/-- The exponent of a decimal number, if it has one. -/
inductive IsExponent : List Char → Prop
  | none : IsExponent []
  | some {letter : Char} {sign digits : List Char} (isLetter : letter = 'e' ∨ letter = 'E')
      (isSign : sign = [] ∨ sign = ['+'] ∨ sign = ['-']) (nonempty : digits ≠ [])
      (areDigits : ∀ c ∈ digits, c.isDigit = true) : IsExponent (letter :: (sign ++ digits))

/-- The point of a decimal number and the digits behind it, if it has one. -/
inductive IsFraction : List Char → Prop
  | none : IsFraction []
  | some {digits : List Char} (areDigits : ∀ c ∈ digits, isDigitOrSeparator c = true) :
      IsFraction ('.' :: digits)

/-- The parts of a decimal number. It starts with a digit, or with a point and a digit. Separators may
stand in front of the exponent. -/
structure DecimalParts (whole fraction exponent suffix : List Char) : Prop where
  isWhole : ∀ c ∈ whole, isDigitOrSeparator c = true
  isFraction : IsFraction fraction
  isExponent : IsExponent exponent
  isSuffix : suffix = [] ∨ suffix = ['n']
  starts : (∃ c more, whole = c :: more ∧ c.isDigit = true) ∨
    whole = [] ∧ ∃ c more, fraction = '.' :: c :: more ∧ c.isDigit = true

/-- A decimal number. -/
def IsDecimal (text : List Char) : Prop :=
  ∃ whole fraction exponent suffix, DecimalParts whole fraction exponent suffix ∧
    text = whole ++ (fraction ++ (exponent ++ suffix))

lemma countWhile_append {p : Char → Bool} {chars behind : List Char} (h : ∀ c ∈ chars, p c = true)
    (hbehind : ∀ c ∈ behind.head?, p c = false) : countWhile p (chars ++ behind) = chars.length := by
  rw [countWhile, List.takeWhile_append_of_pos h]
  cases behind with
  | nil => simp
  | cons c behind => simp [hbehind c rfl]

/-! ### How far a number goes -/

/-- A digit is neither a sign nor a letter of an exponent. -/
lemma isDigit_ne {c d : Char} (h : c.isDigit = true) (hd : d.isDigit = false) : c ≠ d := by
  rintro rfl
  rw [hd] at h
  cases h

lemma exponentLength_append {exponent behind : List Char} (h : IsExponent exponent)
    (hbehind : ∀ c ∈ behind.head?, c.isDigit = false ∧ c ≠ 'e' ∧ c ≠ 'E') :
    exponentLength (exponent ++ behind) = exponent.length := by
  cases h with
  | none =>
    cases behind with
    | nil => rfl
    | cons c behind =>
      obtain ⟨-, he, hE⟩ := hbehind c rfl
      simp [exponentLength, he, hE]
  | @some letter sign digits hletter hsign hne hdigits =>
    have hcount := countWhile_append hdigits fun c hc => (hbehind c hc).1
    have hlength : digits.length ≠ 0 := fun hzero => hne (List.eq_nil_of_length_eq_zero hzero)
    have he : (letter == 'e' || letter == 'E') = true := by simpa using hletter
    rcases hsign with rfl | rfl | rfl
    · obtain ⟨d, more, rfl⟩ := List.exists_cons_of_ne_nil hne
      have hd := hdigits d List.mem_cons_self
      have hplus : (d == '+' || d == '-') = false := by
        simp [isDigit_ne hd (by decide : '+'.isDigit = false),
          isDigit_ne hd (by decide : '-'.isDigit = false)]
      simp only [List.cons_append, List.nil_append] at hcount ⊢
      simp [exponentLength, he, hplus, hcount]
      omega
    all_goals
      simp [exponentLength, he, hcount, hlength]
      omega

lemma isSome_exponentOf {exponent : List Char} (h : IsExponent exponent) :
    (exponentOf exponent).isSome = true := by
  cases h with
  | none => rfl
  | @some letter sign digits hletter hsign hne hdigits =>
    have htake := takeDigits_all hdigits 0 0
    have hlength : digits.length ≠ 0 := fun hzero => hne (List.eq_nil_of_length_eq_zero hzero)
    have he : (letter == 'e' || letter == 'E') = true := by simpa using hletter
    rcases hsign with rfl | rfl | rfl
    · obtain ⟨d, more, rfl⟩ := List.exists_cons_of_ne_nil hne
      have hd := hdigits d List.mem_cons_self
      have hplus := isDigit_ne hd (by decide : '+'.isDigit = false)
      have hminus := isDigit_ne hd (by decide : '-'.isDigit = false)
      simp [exponentOf, he, hplus, hminus, htake]
    all_goals simp [exponentOf, he, htake, hlength]

/-- A letter of an exponent, a suffix or what follows a number. -/
def endings : List Char := ['e', 'E', 'n', ' ', '\x7d']

lemma ending_ends {c : Char} (h : c ∈ endings) :
    isDigitOrSeparator c = false ∧ c.isDigit = false ∧ c ≠ '.' := by
  simp only [endings, List.mem_cons, List.not_mem_nil, or_false] at h
  rcases h with rfl | rfl | rfl | rfl | rfl <;> decide

variable {whole fraction exponent suffix behind : List Char}

lemma DecimalParts.suffix_head (h : DecimalParts whole fraction exponent suffix) (hbehind : Spaced behind) :
    ∀ c ∈ (suffix ++ behind).head?, c = 'n' ∨ c = ' ' ∨ c = '\x7d' := by
  intro c hc
  rcases h.isSuffix with rfl | rfl
  · exact .inr (hbehind c hc)
  · exact .inl (Option.mem_some.mp hc).symm

lemma DecimalParts.exponent_head (h : DecimalParts whole fraction exponent suffix)
    (hbehind : Spaced behind) : ∀ c ∈ (exponent ++ (suffix ++ behind)).head?, c ∈ endings := by
  intro c hc
  cases h.isExponent with
  | none =>
    have hcases := h.suffix_head hbehind c hc
    simp only [endings, List.mem_cons]
    tauto
  | some isLetter =>
    obtain rfl := Option.mem_some.mp hc
    simp only [endings, List.mem_cons]
    tauto

lemma DecimalParts.length (h : DecimalParts whole fraction exponent suffix) (hbehind : Spaced behind) :
    decimalTextLength (whole ++ (fraction ++ (exponent ++ (suffix ++ behind)))) =
      whole.length + fraction.length + exponent.length := by
  have hends := fun c hc => ending_ends (h.exponent_head hbehind c hc)
  have hexponent : exponentLength (exponent ++ (suffix ++ behind)) = exponent.length := by
    refine exponentLength_append h.isExponent fun c hc => ?_
    rcases h.suffix_head hbehind c hc with rfl | rfl | rfl <;> decide
  have hwhole : countWhile isDigitOrSeparator (whole ++ (fraction ++ (exponent ++ (suffix ++ behind)))) =
      whole.length := by
    refine countWhile_append h.isWhole fun c hc => ?_
    cases h.isFraction with
    | none => exact (hends c hc).1
    | some =>
      obtain rfl := Option.mem_some.mp hc
      rfl
  unfold decimalTextLength
  rw [hwhole]
  dsimp only
  rw [List.drop_left]
  cases h.isFraction with
  | none =>
    have hpoint : countOptional '.' (exponent ++ (suffix ++ behind)) = 0 := by
      cases hchars : exponent ++ (suffix ++ behind) with
      | nil => rfl
      | cons c rest => simp [countOptional, (hends c (by rw [hchars]; rfl)).2.2]
    rw [List.nil_append, hpoint]
    simp [hexponent]
  | @some digits areDigits =>
    have hpoint : countOptional '.' ('.' :: digits ++ (exponent ++ (suffix ++ behind))) = 1 := rfl
    have hcount := countWhile_append areDigits fun c hc => (hends c hc).1
    have hdrop : (whole ++ ('.' :: digits ++ (exponent ++ (suffix ++ behind)))).drop (whole.length + 1) =
        digits ++ (exponent ++ (suffix ++ behind)) := by
      rw [List.drop_append]
      simp
    have hmore : (whole ++ ('.' :: digits ++ (exponent ++ (suffix ++ behind)))).drop
        (whole.length + 1 + digits.length) = exponent ++ (suffix ++ behind) := by
      rw [← List.drop_drop, hdrop, List.drop_left]
    rw [hpoint, hdrop, hcount]
    simp only [Nat.one_ne_zero, if_false, hmore, hexponent, List.length_cons]
    omega

/-! ### The value of a number -/

lemma isSome_unsignedDecimal {more : List Char} (hwhole : ∀ c ∈ whole, c.isDigit = true)
    (hmore : ∀ c ∈ more, c.isDigit = true) (hfraction : fraction = [] ∧ more = [] ∨ fraction = '.' :: more)
    (hexponent : IsExponent exponent) (hdigits : whole.length + more.length ≠ 0) :
    (unsignedDecimal (whole ++ (fraction ++ exponent))).isSome = true := by
  have hends : ∀ c ∈ exponent.head?, c.isDigit = false ∧ c ≠ '.' := by
    intro c hc
    cases hexponent with
    | none => cases hc
    | some isLetter =>
      obtain rfl := Option.mem_some.mp hc
      rcases isLetter with rfl | rfl <;> decide
  obtain ⟨e, he⟩ := Option.isSome_iff_exists.mp (isSome_exponentOf hexponent)
  unfold unsignedDecimal
  rcases hfraction with ⟨rfl, rfl⟩ | rfl
  · rw [List.nil_append, takeDigits_append hwhole fun c hc => (hends c hc).1]
    dsimp only
    split
    · exact absurd rfl (hends '.' rfl).2
    · simp_all
  · have hpoint : ∀ c ∈ ('.' :: more ++ exponent).head?, c.isDigit = false := by simp
    have hback := takeDigits_append hmore fun c hc => (hends c hc).1
    rw [takeDigits_append hwhole hpoint]
    simp only [List.cons_append, hback]
    simp_all

lemma isDigit_of_separator {c : Char} (h : isDigitOrSeparator c = true) (hc : c ≠ '_') :
    c.isDigit = true := by
  simpa [isDigitOrSeparator, hc] using h

lemma IsExponent.chars (h : IsExponent exponent) :
    ∀ c ∈ exponent, c.isDigit = true ∨ c ∈ ['e', 'E', '+', '-'] := by
  intro c hc
  cases h with
  | none => cases hc
  | some isLetter isSign _ areDigits =>
    rcases List.mem_cons.mp hc with rfl | hc
    · rcases isLetter with rfl | rfl <;> simp
    · rcases List.mem_append.mp hc with hc | hc
      · rcases isSign with rfl | rfl | rfl
        · cases hc
        · simp [List.mem_singleton.mp hc]
        · simp [List.mem_singleton.mp hc]
      · exact .inl (areDigits c hc)

/-- Without its separators a number is read as a value. -/
lemma DecimalParts.isSome_value (h : DecimalParts whole fraction exponent suffix) :
    (unsignedDecimal ((whole ++ (fraction ++ exponent)).filter (· != '_'))).isSome = true := by
  have hdigits : ∀ {chars : List Char}, (∀ c ∈ chars, isDigitOrSeparator c = true) →
      ∀ c ∈ chars.filter (· != '_'), c.isDigit = true := by
    intro chars hchars c hc
    obtain ⟨hmem, hne⟩ := List.mem_filter.mp hc
    exact isDigit_of_separator (hchars c hmem) (by simpa using hne)
  have hkept : ∀ {c : Char} {more : List Char}, c.isDigit = true →
      (c :: more).filter (· != '_') = c :: more.filter (· != '_') := by
    intro c more hc
    exact List.filter_cons_of_pos (by simpa using isDigit_ne hc (by decide : '_'.isDigit = false))
  have hexponent : exponent.filter (· != '_') = exponent := by
    rw [List.filter_eq_self]
    intro c hc
    rw [bne_iff_ne]
    rintro rfl
    have hcases := h.isExponent.chars _ hc
    revert hcases
    decide
  rw [List.filter_append, List.filter_append, hexponent]
  cases hfraction : h.isFraction with
  | none =>
    refine isSome_unsignedDecimal (hdigits h.isWhole) (List.forall_mem_nil _) (.inl ⟨rfl, rfl⟩)
      h.isExponent ?_
    rcases h.starts with ⟨c, more, rfl, hc⟩ | ⟨-, c, more, hpoint, -⟩
    · simp [hkept hc]
    · cases hpoint
  | @some digits areDigits =>
    have hpoint : ('.' :: digits).filter (· != '_') = '.' :: digits.filter (· != '_') := rfl
    refine isSome_unsignedDecimal (hdigits h.isWhole) (hdigits areDigits) (.inr hpoint) h.isExponent ?_
    rcases h.starts with ⟨c, more, rfl, hc⟩ | ⟨-, c, more, heq, hc⟩
    · simp [hkept hc]
    · obtain ⟨-, rfl⟩ := List.cons.inj heq
      simp [hkept hc]

/-- No number has a prefix that names a base. -/
lemma DecimalParts.noBase (h : DecimalParts whole fraction exponent suffix) (hbehind : Spaced behind) :
    baseOfPrefix (whole ++ (fraction ++ (exponent ++ (suffix ++ behind)))) = none := by
  have hseparator : ∀ c, isDigitOrSeparator c = true → c ∉ baseLetters := by
    intro c hc hletter
    simp only [baseLetters, List.mem_cons, List.not_mem_nil, or_false] at hletter
    rcases hletter with rfl | rfl | rfl | rfl | rfl | rfl <;> cases hc
  have hends : ∀ c ∈ (exponent ++ (suffix ++ behind)).head?, c ∉ baseLetters := by
    intro c hc
    have hmem := h.exponent_head hbehind c hc
    simp only [endings, List.mem_cons, List.not_mem_nil, or_false] at hmem
    rcases hmem with rfl | rfl | rfl | rfl | rfl <;> decide
  have hfraction : ∀ c ∈ (fraction ++ (exponent ++ (suffix ++ behind))).head?, c ∉ baseLetters := by
    intro c hc
    cases h.isFraction with
    | none => exact hends c hc
    | some =>
      obtain rfl := Option.mem_some.mp hc
      decide
  rcases h.starts with ⟨c, more, rfl, -⟩ | ⟨rfl, c, more, rfl, hc⟩
  · refine baseOfPrefix_none fun d hd => ?_
    cases more with
    | nil => exact hfraction d hd
    | cons e more =>
      obtain rfl := Option.mem_some.mp hd
      exact hseparator _ (h.isWhole _ (by simp))
  · refine baseOfPrefix_none fun d hd => ?_
    obtain rfl := Option.mem_some.mp hd
    exact hseparator _ (by simp [isDigitOrSeparator, hc])

lemma numberAt_decimal (h : DecimalParts whole fraction exponent suffix) (hbehind : Spaced behind) :
    ∃ value, numberAt (whole ++ (fraction ++ (exponent ++ (suffix ++ behind)))) =
      .ok (value, (whole ++ (fraction ++ (exponent ++ suffix))).length) := by
  have hsplit : whole ++ (fraction ++ (exponent ++ (suffix ++ behind))) =
      (whole ++ (fraction ++ exponent)) ++ (suffix ++ behind) := by simp
  have hlength : whole.length + fraction.length + exponent.length =
      (whole ++ (fraction ++ exponent)).length := by
    simp [Nat.add_assoc]
  have hsuffix : countOptional 'n' (suffix ++ behind) = suffix.length := by
    rcases h.isSuffix with rfl | rfl
    · cases behind with
      | nil => rfl
      | cons c behind => rcases hbehind c rfl with rfl | rfl <;> rfl
    · rfl
  have hend : numberMayEnd behind = true := by
    cases behind with
    | nil => rfl
    | cons c behind => rcases hbehind c rfl with rfl | rfl <;> rfl
  obtain ⟨value, hvalue⟩ := Option.isSome_iff_exists.mp h.isSome_value
  refine ⟨value, ?_⟩
  unfold numberAt
  rw [h.noBase hbehind]
  dsimp only
  rw [h.length hbehind, hlength, hsplit, List.take_left, ← List.drop_drop, List.drop_left, hsuffix,
    List.drop_left, if_pos hend, hvalue]
  simp [Nat.add_assoc]

/-- A decimal number is one token. -/
lemma lexeme_decimal {text : List Char} (h : IsDecimal text) (hbehind : Spaced behind) :
    ∃ value, ∀ regexMayStart,
      lexeme regexMayStart (text ++ behind) = .ok (.number value, text.length) := by
  obtain ⟨whole, fraction, exponent, suffix, hparts, rfl⟩ := h
  obtain ⟨value, hread⟩ := numberAt_decimal hparts hbehind
  have hassoc : whole ++ (fraction ++ (exponent ++ suffix)) ++ behind =
      whole ++ (fraction ++ (exponent ++ (suffix ++ behind))) := by simp
  refine ⟨value, fun regexMayStart => ?_⟩
  rw [hassoc]
  rcases hparts.starts with ⟨c, more, rfl, hc⟩ | ⟨rfl, c, more, rfl, hc⟩
  · have hother : isNameStart c = false ∧ c ≠ '\\' ∧ c ≠ '#' := by
      obtain ⟨k, hk, rfl⟩ := isDigit_cases hc
      obtain ⟨hstart, hmarks, -⟩ := digit_starts k hk
      simp only [List.mem_cons, List.not_mem_nil, or_false, not_or] at hmarks
      exact ⟨hstart, hmarks.1, hmarks.2.1⟩
    rw [List.cons_append] at hread ⊢
    rw [lexeme]
    simp [hc, hother, hread, bind, Except.bind]
  · have hpoint : isNameStart '.' = false := by decide
    simp only [List.nil_append, List.cons_append] at hread ⊢
    rw [lexeme]
    simp [hc, hpoint, hread, bind, Except.bind]

lemma IsDecimal.opens {text : List Char} (h : IsDecimal text) (behind : List Char) :
    Opens (text ++ behind) := by
  obtain ⟨whole, fraction, exponent, suffix, hparts, rfl⟩ := h
  rcases hparts.starts with ⟨c, more, rfl, hc⟩ | ⟨rfl, c, more, rfl, hc⟩
  · exact opens_cons (startsToken_of_isDigit hc) _
  · exact opens_cons ⟨by decide, by decide, by decide, by decide⟩ _

/-! ## Quoted texts -/

/-- The characters of a text that is quoted without escapes, with its quotes. -/
def quotedPlain (quote : Char) (body : List Char) : List Char :=
  quote :: (body ++ [quote])

/-- Characters that stand for themselves between quotes. -/
def IsPlainBody (quote : Char) (body : List Char) : Prop :=
  ∀ c ∈ body, c ≠ quote ∧ c ≠ '\\' ∧ c ≠ '\n' ∧ c ≠ '\r'

lemma scanText_plain {quote : Char} (hquote : quote ≠ '\n' ∧ quote ≠ '\r') {body : List Char}
    (hbody : IsPlainBody quote body) {fuel : Nat} (hfuel : body.length < fuel) :
    scanText quote fuel (body ++ quote :: behind) = some (body, body.length + 1) := by
  induction body generalizing fuel with
  | nil =>
    cases fuel with
    | zero => exact absurd hfuel (Nat.not_lt_zero _)
    | succ fuel => simp [scanText, hquote]
  | cons c body ih =>
    cases fuel with
    | zero => exact absurd hfuel (Nat.not_lt_zero _)
    | succ fuel =>
      obtain ⟨hc, hescape, hfeed, hreturn⟩ := hbody c List.mem_cons_self
      have hmore := ih (fun d hd => hbody d (List.mem_cons_of_mem _ hd)) (Nat.lt_of_succ_lt_succ hfuel)
      rw [List.cons_append, scanText]
      simp [hc, hescape, hfeed, hreturn, hmore]
      omega

lemma lexeme_quotedPlain {quote : Char} (hquote : quote = '"' ∨ quote = '\'') {body : List Char}
    (hbody : IsPlainBody quote body) (behind : List Char) (regexMayStart : Bool) :
    lexeme regexMayStart (quotedPlain quote body ++ behind) =
      .ok (.text (String.ofList body), (quotedPlain quote body).length) := by
  have hends : quote ≠ '\n' ∧ quote ≠ '\r' := by rcases hquote with rfl | rfl <;> decide
  have hscan : scanText quote ((body ++ quote :: behind).length + 1) (body ++ quote :: behind) =
      some (body, body.length + 1) :=
    scanText_plain hends hbody (by rw [List.length_append]; omega)
  have hchars : quotedPlain quote body ++ behind = quote :: (body ++ quote :: behind) := by
    simp [quotedPlain]
  have hstart : isNameStart '"' = false ∧ isNameStart '\'' = false := by decide
  rw [hchars, lexeme]
  rcases hquote with rfl | rfl
  all_goals
    simp only [hstart, hscan]
    simp [quotedPlain]
    omega

/-! ## Marks -/

lemma isPrefixOf_front {front mark : List Char} (h : ∀ c ∈ behind.head?, c ∉ mark) :
    mark.isPrefixOf (front ++ behind) = mark.isPrefixOf front := by
  induction front generalizing mark with
  | nil =>
    cases mark with
    | nil => simp
    | cons m mark =>
      cases behind with
      | nil => rfl
      | cons c rest =>
        have hc : m ≠ c := fun heq => h c rfl (heq ▸ List.mem_cons_self)
        simp [List.isPrefixOf, hc]
  | cons d front ih =>
    cases mark with
    | nil => simp
    | cons m mark =>
      have hmore := ih fun c hc hmem => h c hc (List.mem_cons_of_mem m hmem)
      simp [List.isPrefixOf, hmore]

/-- A mark holds neither a space nor, unless it is one, a closing brace. -/
lemma mark_chars {mark : String} (h : mark ∈ marks) :
    mark = "\x7d" ∨ ∀ c ∈ mark.toList, c ≠ ' ' ∧ c ≠ '\x7d' := by
  have htable : (marks.all fun mark => mark == "\x7d" || mark.toList.all fun c =>
      c != ' ' && c != '\x7d') = true := by
    decide
  simpa using List.all_eq_true.mp htable mark h

lemma mark_first {mark : String} (h : mark ∈ marks) :
    ∃ c more, mark.toList = c :: more ∧ isNameStart c = false ∧ c.isDigit = false ∧
      c ∉ ['\\', '#', '"', '\''] ∧ more.head?.any Char.isDigit = false ∧
      c ≠ '\x60' ∧ isLineTerminator c = false ∧ Text.isBlank c = false := by
  have htable : (marks.all fun mark => mark.toList.head?.any fun c =>
      !isNameStart c && !c.isDigit && ! (['\\', '#', '"', '\''].contains c) &&
        !mark.toList.tail.head?.any Char.isDigit && c != '\x60' && !isLineTerminator c &&
        !Text.isBlank c) = true := by
    decide
  have hmark := List.all_eq_true.mp htable mark h
  cases hchars : mark.toList with
  | nil =>
    rw [hchars] at hmark
    cases hmark
  | cons c more =>
    rw [hchars] at hmark
    exact ⟨c, more, rfl, by simpa [and_assoc] using hmark⟩

lemma markAt_spaced {mark : String} (h : mark ∈ marks) (hbehind : Spaced behind) :
    markAt (mark.toList ++ behind) = some mark := by
  have htable : (marks.all fun mark =>
      marks.find? (fun m => m.toList.isPrefixOf mark.toList) == some mark) = true := by
    decide
  have hfound : marks.find? (fun m => m.toList.isPrefixOf mark.toList) = some mark := by
    simpa using List.all_eq_true.mp htable mark h
  obtain ⟨c, more, hchars, -⟩ := mark_first h
  have hfront : ∀ m ∈ marks, m.toList.isPrefixOf (mark.toList ++ behind) =
      m.toList.isPrefixOf mark.toList := by
    intro m hm
    rcases mark_chars hm with rfl | hnone
    · simp [hchars, List.isPrefixOf]
    · refine isPrefixOf_front fun d hd hmem => ?_
      rcases hbehind d hd with rfl | rfl
      · exact (hnone _ hmem).1 rfl
      · exact (hnone _ hmem).2 rfl
  have hdigit : (mark == "?." && ((mark.toList ++ behind).drop 2).head?.any Char.isDigit) = false := by
    by_cases hquestion : mark = "?."
    · subst hquestion
      cases behind with
      | nil => rfl
      | cons d behind => rcases hbehind d rfl with rfl | rfl <;> rfl
    · simp [hquestion]
  unfold markAt
  rw [List.find?_congr hfront, hfound, Option.map_some, hdigit]
  simp

lemma opens_mark {mark : String} (h : mark ∈ marks) (hslash : mark.toList.head? ≠ some '/')
    (behind : List Char) : Opens (mark.toList ++ behind) := by
  obtain ⟨c, more, hchars, -, -, -, -, hbacktick, hterminator, hblank⟩ := mark_first h
  rw [hchars] at hslash ⊢
  exact opens_cons ⟨by simpa using hslash, hbacktick, hterminator, hblank⟩ _

/-- A mark that does not start with a slash is one token. -/
lemma lexeme_spacedMark {mark : String} (h : mark ∈ marks) (hslash : mark.toList.head? ≠ some '/')
    (hbehind : Spaced behind) (regexMayStart : Bool) :
    lexeme regexMayStart (mark.toList ++ behind) = .ok (.punct mark, mark.toList.length) := by
  have hmark := markAt_spaced h hbehind
  obtain ⟨c, more, hchars, hstart, hdigit, hother, hsecond, -⟩ := mark_first h
  have hlength : mark.length = (c :: more).length := by rw [← hchars, String.length_toList]
  have hnext : (more ++ behind).head?.any Char.isDigit = false := by
    cases more with
    | nil =>
      cases behind with
      | nil => rfl
      | cons d behind => rcases hbehind d rfl with rfl | rfl <;> rfl
    | cons d more => exact hsecond
  rw [hchars] at hslash hmark ⊢
  have hslash : c ≠ '/' := by simpa using hslash
  simp only [List.mem_cons, List.not_mem_nil, or_false, not_or] at hother
  rw [List.cons_append] at hmark ⊢
  rw [lexeme]
  simp only [hnext]
  simp [hstart, hdigit, hother, hslash, hmark, hlength]

end TaskRunner.Proofs
