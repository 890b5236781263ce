import TaskRunner.Proofs.Identifiers
import TaskRunner.Proofs.NumberTexts
import TaskRunner.Proofs.TokenSpans
import TaskRunner.Source.Lowering

/-!
# Written tokens

Identifiers, natural numbers, quoted texts and brackets are read back as the tokens that they were written
for, whatever the text holds. An identifier or a number must not be continued by what follows it, a text
ends at its own closing quote.
-/

namespace TaskRunner.Proofs
open Source Number

/-! ## Spaces -/

lemma advance_append {cur : Cursor} {chars rest : List Char} (h : cur.rest = chars ++ rest) :
    (cur.advance chars.length).rest = rest := by
  have hpassed := (passed_advance cur chars.length).rest
  rw [h, List.take_left] at hpassed
  exact (List.append_cancel_left hpassed).symm

/-- Nothing is skipped before the character, and it opens no template. -/
def StartsToken (c : Char) : Prop :=
  c ≠ '/' ∧ c ≠ '\x60' ∧ isLineTerminator c = false ∧ Text.isBlank c = false

/-- The end of the text or the start of a token comes next. -/
def Opens (chars : List Char) : Prop :=
  ∀ c ∈ chars.head?, StartsToken c

lemma opens_cons {c : Char} (h : StartsToken c) (rest : List Char) : Opens (c :: rest) := by
  intro d hd
  obtain rfl := Option.mem_some.mp hd
  exact h

/-- Nothing is skipped here. -/
def EndsGap (chars : List Char) : Prop :=
  ∀ c ∈ chars.head?, c ≠ '/' ∧ isLineTerminator c = false ∧ Text.isBlank c = false

lemma Opens.endsGap {chars : List Char} (h : Opens chars) : EndsGap chars := by
  intro c hc
  obtain ⟨hslash, -, hterminator, hblank⟩ := h c hc
  exact ⟨hslash, hterminator, hblank⟩

lemma skipGap_ends {cur : Cursor} (h : EndsGap cur.rest) (fuel : Nat) (gap : Gap) :
    skipGap fuel gap cur = .ok (gap, cur) := by
  cases fuel with
  | zero => rfl
  | succ fuel =>
    rw [skipGap]
    split
    · rename_i heq
      exact absurd rfl (h _ (heq ▸ rfl)).1
    · rename_i heq
      exact absurd rfl (h _ (heq ▸ rfl)).1
    · rename_i c rest _ _ heq
      obtain ⟨-, hterminator, hblank⟩ := h c (heq ▸ rfl)
      simp [hterminator, hblank]
    · rfl

lemma skipGap_spaces {spaces rest : List Char} (hspaces : ∀ c ∈ spaces, c = ' ')
    (hends : EndsGap rest) {cur : Cursor} (hcur : cur.rest = spaces ++ rest) {fuel : Nat}
    (hfuel : spaces.length ≤ fuel) (gap : Gap) :
    skipGap fuel gap cur = .ok (gap, cur.advance spaces.length) := by
  induction spaces generalizing fuel cur with
  | nil =>
    rw [List.nil_append] at hcur
    exact skipGap_ends (hcur ▸ hends) fuel gap
  | cons c spaces ih =>
    obtain rfl := hspaces c List.mem_cons_self
    obtain ⟨text, offset, place⟩ := cur
    cases hcur
    cases fuel with
    | zero => exact absurd hfuel (Nat.not_succ_le_zero _)
    | succ fuel =>
      have hstep : skipGap (fuel + 1) gap ⟨' ' :: (spaces ++ rest), offset, place⟩ =
          skipGap fuel gap ⟨spaces ++ rest, offset + ' '.utf8Size, place.past ' '⟩ := rfl
      exact hstep.trans (ih (fun d hd => hspaces d (List.mem_cons_of_mem _ hd)) rfl
        (Nat.le_of_succ_le_succ hfuel))

lemma gapAt_spaces {spaces rest : List Char} (hspaces : ∀ c ∈ spaces, c = ' ') (hends : EndsGap rest)
    {cur : Cursor} (hcur : cur.rest = spaces ++ rest) :
    gapAt cur = .ok (⟨[], false⟩, cur.advance spaces.length) := by
  have hfuel : spaces.length ≤ cur.rest.length + 1 := by
    rw [hcur, List.length_append]
    omega
  exact skipGap_spaces hspaces hends hcur hfuel _

/-- A lexeme behind spaces is read as a token without comments. -/
lemma tokenAt_written {regexMayStart : Bool} {cur : Cursor} {spaces chars rest : List Char}
    {kind : Kind} (hspaces : ∀ c ∈ spaces, c = ' ') (hcur : cur.rest = spaces ++ (chars ++ rest))
    (hopens : Opens (chars ++ rest))
    (hlexeme : lexeme regexMayStart (chars ++ rest) = .ok (kind, chars.length)) :
    ∃ t after, tokenAt regexMayStart cur = .ok (t, after) ∧ t.kind = kind ∧ t.comments = [] ∧
      after.rest = rest := by
  have hgap := gapAt_spaces hspaces hopens.endsGap hcur
  have hmid : (cur.advance spaces.length).rest = chars ++ rest := advance_append hcur
  have hread : lexemeAt regexMayStart (cur.advance spaces.length) =
      .ok (kind, (cur.advance spaces.length).advance chars.length) := by
    rw [lexemeAt, hmid, hlexeme]
  unfold tokenAt
  rw [hgap]
  dsimp only [bind, Except.bind]
  split
  · rename_i heq
    have hhead : '\x60' ∈ (chars ++ rest).head? := by
      rw [← hmid, heq]
      rfl
    exact absurd rfl (hopens _ hhead).2.1
  · rw [hread]
    exact ⟨_, _, rfl, rfl, rfl, advance_append hmid⟩

/-- Behind the last spaces of a text its end is found. -/
lemma tokenAt_ending (regexMayStart : Bool) {cur : Cursor} (hcur : ∀ c ∈ cur.rest, c = ' ') :
    ∃ t after, tokenAt regexMayStart cur = .ok (t, after) ∧ t.kind = .endOfFile := by
  have hrest : cur.rest = cur.rest ++ ([] ++ []) := (List.append_nil _).symm
  have hopens : Opens ([] ++ []) := fun _ hd => absurd hd (Option.not_mem_none _)
  have hlexeme : lexeme regexMayStart ([] ++ []) = .ok (.endOfFile, ([] : List Char).length) := rfl
  obtain ⟨t, after, htoken, hkind, -⟩ := tokenAt_written hcur hrest hopens hlexeme
  exact ⟨t, after, htoken, hkind⟩

/-! ## Identifiers -/

/-- What may follow an identifier or a number. -/
def delimiters : List Char := [' ', ',', ':', '(', ')']

/-- The end of the text or a delimiter comes next. -/
def Delimited (rest : List Char) : Prop :=
  ∀ c ∈ rest.head?, c ∈ delimiters

lemma isNamePart_delimiter {c : Char} (h : c ∈ delimiters) : isNamePart c = false ∧ c ≠ '\\' := by
  have htable : delimiters.all (fun d => !isNamePart d && d != '\\') = true := by
    decide
  simpa using List.all_eq_true.mp htable c h

lemma scanName_delimited {rest : List Char} (h : Delimited rest) (fuel : Nat) :
    scanName fuel rest = ([], 0) := by
  cases fuel with
  | zero => rfl
  | succ fuel =>
    cases rest with
    | nil => rfl
    | cons c rest =>
      obtain ⟨hpart, hescape⟩ := isNamePart_delimiter (h c rfl)
      rw [scanName]
      · simp [hpart]
      · exact fun _ heq _ => hescape heq

lemma scanName_parts {name rest : List Char} (hname : ∀ c ∈ name, isNamePart c = true)
    (hrest : Delimited rest) {fuel : Nat} (hfuel : name.length ≤ fuel) :
    scanName fuel (name ++ rest) = (name, name.length) := by
  have hbackslash : isNamePart '\\' = false := by decide
  induction name generalizing fuel with
  | nil => exact scanName_delimited hrest fuel
  | cons c name ih =>
    have hc := hname c List.mem_cons_self
    cases fuel with
    | zero => exact absurd hfuel (Nat.not_succ_le_zero _)
    | succ fuel =>
      have hmore := ih (fun d hd => hname d (List.mem_cons_of_mem _ hd))
        (Nat.le_of_succ_le_succ hfuel)
      rw [List.cons_append, scanName]
      · simp [hc, hmore, Nat.add_comm]
      · rintro _ rfl -
        rw [hbackslash] at hc
        cases hc

lemma lexeme_identifier {name : String} (hname : IsIdentifier name) {rest : List Char}
    (hrest : Delimited rest) (regexMayStart : Bool) :
    lexeme regexMayStart (name.toList ++ rest) = .ok (.ident name, name.toList.length) := by
  have hlength : name.toList.length ≤ (name.toList ++ rest).length := by
    rw [List.length_append]
    exact Nat.le_add_right _ _
  have hread : nameAt (name.toList ++ rest) = (name, name.toList.length) := by
    rw [nameAt, scanName_parts hname.namePart hrest hlength]
    simp
  obtain ⟨c, more, hchars, hstart, -⟩ := hname
  rw [hchars] at hread ⊢
  rw [List.cons_append] at hread ⊢
  rw [lexeme]
  simp [hstart, hread]

/-- A blank is no letter, in any script. -/
lemma isBlank_of_isNameStart {c : Char} (h : isNameStart c = true) : Text.isBlank c = false := by
  have htable : ∀ range ∈ Text.blankRanges, ∀ i ≤ range.2 - range.1,
      Text.inRanges Text.alphabeticRanges (range.1 + i) = false ∧ 128 ≤ range.1 ∧
        range.1 ≤ range.2 := by
    decide +kernel
  have hsmall : ∀ n < 128, isNameStart (Char.ofNat n) = true → Text.isBlank (Char.ofNat n) = false := by
    decide
  by_cases hcode : c.toNat < 128
  · have hc := hsmall c.toNat hcode
    rw [Char.ofNat_toNat] at hc
    exact hc h
  · rw [Bool.eq_false_iff]
    intro hblank
    simp only [Text.isBlank, hcode, if_false, Text.inRanges, List.any_eq_true, Bool.and_eq_true,
      decide_eq_true_eq] at hblank
    obtain ⟨range, hrange, hlow, hhigh⟩ := hblank
    have hletter := (htable range hrange (c.toNat - range.1) (by omega)).1
    have hsum : range.1 + (c.toNat - range.1) = c.toNat := by omega
    rw [hsum] at hletter
    simp only [isNameStart, Bool.or_eq_true, beq_iff_eq, Text.isAlphabetic, hcode, if_false,
      hletter] at h
    rcases h with (rfl | rfl) | h
    · exact hcode (by decide)
    · exact hcode (by decide)
    · cases h

lemma startsToken_of_isNameStart {c : Char} (h : isNameStart c = true) : StartsToken c := by
  have htable : ['/', '\x60', '\n', '\r', '\u2028', '\u2029'].all (fun d => !isNameStart d) =
      true := by
    decide +kernel
  have hne : ∀ d ∈ ['/', '\x60', '\n', '\r', '\u2028', '\u2029'], c ≠ d := by
    rintro d hd rfl
    have hd := List.all_eq_true.mp htable c hd
    rw [h] at hd
    cases hd
  refine ⟨hne _ (by simp), hne _ (by simp), ?_, isBlank_of_isNameStart h⟩
  simp [isLineTerminator, hne]

/-! ## Natural numbers -/

/-- A number ends before a delimiter. -/
lemma Delimited.ends {rest : List Char} (h : Delimited rest) :
    countWhile isDigitOrSeparator rest = 0 ∧ countOptional '.' rest = 0 ∧
      exponentLength rest = 0 ∧ countOptional 'n' rest = 0 ∧ numberMayEnd rest = true := by
  cases rest with
  | nil => exact ⟨rfl, rfl, rfl, rfl, rfl⟩
  | cons c rest =>
    have hc : c ∈ delimiters := h c rfl
    simp only [delimiters, List.mem_cons, List.not_mem_nil, or_false] at hc
    rcases hc with rfl | rfl | rfl | rfl | rfl
    all_goals exact ⟨rfl, rfl, rfl, rfl, rfl⟩

/-- The letters of base prefixes. -/
def baseLetters : List Char := ['x', 'X', 'o', 'O', 'b', 'B']

lemma baseOfPrefix_none {c : Char} {rest : List Char} (h : ∀ d ∈ rest.head?, d ∉ baseLetters) :
    baseOfPrefix (c :: rest) = none := by
  unfold baseOfPrefix
  split
  all_goals first
    | rfl
    | (rename_i heq
       obtain ⟨-, rfl⟩ := List.cons.inj heq
       exact absurd (by decide) (h _ rfl))

lemma not_mem_baseLetters {digits rest : List Char} (hdigits : ∀ c ∈ digits, c.isDigit = true)
    (hrest : Delimited rest) : ∀ d ∈ (digits ++ rest).head?, d ∉ baseLetters := by
  intro d hd hletter
  cases digits with
  | nil =>
    have hdelimiter : d ∈ delimiters := hrest d hd
    revert hdelimiter
    simp only [baseLetters, List.mem_cons, List.not_mem_nil, or_false] at hletter
    rcases hletter with rfl | rfl | rfl | rfl | rfl | rfl
    all_goals decide
  | cons c digits =>
    obtain rfl := Option.mem_some.mp hd
    have hdigit := hdigits c List.mem_cons_self
    revert hdigit
    simp only [baseLetters, List.mem_cons, List.not_mem_nil, or_false] at hletter
    rcases hletter with rfl | rfl | rfl | rfl | rfl | rfl
    all_goals decide

lemma takeWhile_digits {digits rest : List Char} (hdigits : ∀ c ∈ digits, c.isDigit = true)
    (hrest : Delimited rest) :
    countWhile isDigitOrSeparator (digits ++ rest) = digits.length := by
  have hpos : ∀ c ∈ digits, isDigitOrSeparator c = true := by
    intro c hc
    simp [isDigitOrSeparator, hdigits c hc]
  rw [countWhile, List.takeWhile_append_of_pos hpos, List.length_append]
  exact Nat.add_eq_left.mpr hrest.ends.1

lemma numberAt_digits {digits rest : List Char} (hne : digits ≠ [])
    (hdigits : ∀ c ∈ digits, c.isDigit = true) (hrest : Delimited rest) :
    numberAt (digits ++ rest) =
      .ok (ofDecimal (Nat.ofDigitChars 10 digits 0) 0, digits.length) := by
  have hbase : baseOfPrefix (digits ++ rest) = none := by
    obtain ⟨c, more, rfl⟩ := List.exists_cons_of_ne_nil hne
    exact baseOfPrefix_none (not_mem_baseLetters
      (fun d hd => hdigits d (List.mem_cons_of_mem _ hd)) hrest)
  have hfilter : digits.filter (· != '_') = digits := by
    rw [List.filter_eq_self]
    rintro c hc
    rw [bne_iff_ne]
    rintro rfl
    exact absurd (hdigits '_' hc) (by decide)
  obtain ⟨-, hpoint, hexponent, hsuffix, hend⟩ := hrest.ends
  have hlength : decimalTextLength (digits ++ rest) = digits.length := by
    simp [decimalTextLength, takeWhile_digits hdigits hrest, hpoint, hexponent]
  unfold numberAt
  simp [hbase, hlength, hsuffix, hend, hfilter, unsignedDecimal_whole hne hdigits]

lemma isDigit_cases {c : Char} (h : c.isDigit = true) : ∃ n ≤ 9, c = Char.ofNat (48 + n) := by
  have hrange : 48 ≤ c.toNat ∧ c.toNat ≤ 57 := by
    simpa [Char.isDigit, UInt32.le_iff_toNat_le] using h
  refine ⟨c.toNat - 48, by omega, ?_⟩
  rw [show 48 + (c.toNat - 48) = c.toNat by omega, Char.ofNat_toNat]

lemma digit_starts : ∀ n ≤ 9, isNameStart (Char.ofNat (48 + n)) = false ∧
    Char.ofNat (48 + n) ∉ ['\\', '#', '/', '\x60'] ∧
    isLineTerminator (Char.ofNat (48 + n)) = false ∧ Text.isBlank (Char.ofNat (48 + n)) = false := by
  decide

lemma startsToken_of_isDigit {c : Char} (h : c.isDigit = true) : StartsToken c := by
  obtain ⟨n, hn, rfl⟩ := isDigit_cases h
  obtain ⟨-, hmarks, hterminator, hblank⟩ := digit_starts n hn
  simp only [List.mem_cons, List.not_mem_nil, or_false, not_or] at hmarks
  exact ⟨hmarks.2.2.1, hmarks.2.2.2, hterminator, hblank⟩

lemma lexeme_natural (n : Nat) {rest : List Char} (hrest : Delimited rest) (regexMayStart : Bool) :
    lexeme regexMayStart (Nat.toDigits 10 n ++ rest) =
      .ok (.number (ofNat n), (Nat.toDigits 10 n).length) := by
  have hread := numberAt_digits Nat.toDigits_ne_nil (isDigit_toDigits (n := n)) hrest
  rw [Nat.ofDigitChars_ten_toDigits, ofDecimal_natural] at hread
  obtain ⟨c, more, hchars⟩ := List.exists_cons_of_ne_nil (Nat.toDigits_ne_nil (n := n) (b := 10))
  have hc : c.isDigit = true := isDigit_toDigits c (hchars ▸ List.mem_cons_self)
  rw [hchars] at hread ⊢
  rw [List.cons_append] at hread ⊢
  have hother : isNameStart c = false ∧ c ≠ '\\' ∧ c ≠ '#' := by
    obtain ⟨k, hk, rfl⟩ := isDigit_cases hc
    obtain ⟨hstart, hmarks, -⟩ := digit_starts k hk
    simp only [List.mem_cons, List.not_mem_nil, or_false, not_or] at hmarks
    exact ⟨hstart, hmarks.1, hmarks.2.1⟩
  rw [lexeme]
  simp [hc, hother, hread, bind, Except.bind]

/-! ## Quoted texts -/

lemma quotedChar_cases (c : Char) :
    (∃ e, quotedChar c = ['\\', e] ∧ ∀ rest, textEscape (e :: rest) = ([c], 1)) ∨
      (quotedChar c = [c] ∧ c ≠ '"' ∧ c ≠ '\\' ∧ c ≠ '\n' ∧ c ≠ '\r') := by
  unfold quotedChar
  split
  case h_5 hquote hescape hfeed hreturn => exact .inr ⟨rfl, hquote, hescape, hfeed, hreturn⟩
  all_goals exact .inl ⟨_, rfl, fun _ => rfl⟩

lemma scanText_quoted (chars rest : List Char) {fuel : Nat} (hfuel : chars.length < fuel) :
    scanText '"' fuel (chars.flatMap quotedChar ++ '"' :: rest) =
      some (chars, (chars.flatMap quotedChar).length + 1) := by
  induction chars generalizing fuel with
  | nil =>
    cases fuel with
    | zero => exact absurd hfuel (Nat.not_lt_zero _)
    | succ fuel => rfl
  | cons c chars ih =>
    cases fuel with
    | zero => exact absurd hfuel (Nat.not_lt_zero _)
    | succ fuel =>
      have hmore := ih (Nat.lt_of_succ_lt_succ hfuel)
      rw [List.flatMap_cons]
      rcases quotedChar_cases c with ⟨e, hc, hescape⟩ | ⟨hc, hquote, hescape, hfeed, hreturn⟩
      · rw [hc, List.cons_append, List.singleton_append, List.cons_append, List.cons_append, scanText]
        simp [hescape, hmore]
        omega
      · rw [hc, List.singleton_append, List.cons_append, scanText]
        simp [hquote, hescape, hfeed, hreturn, hmore]
        omega

lemma length_le_flatMap_quotedChar (chars : List Char) :
    chars.length ≤ (chars.flatMap quotedChar).length := by
  induction chars with
  | nil => exact Nat.le_refl _
  | cons c chars ih =>
    rw [List.flatMap_cons, List.length_append, List.length_cons]
    rcases quotedChar_cases c with ⟨e, hc, -⟩ | ⟨hc, -⟩
    all_goals
      simp only [hc, List.length_cons, List.length_nil]
      omega

lemma lexeme_quoted (text : String) (rest : List Char) (regexMayStart : Bool) :
    lexeme regexMayStart ((quoted text).toList ++ rest) =
      .ok (.text text, (quoted text).toList.length) := by
  have hstart : isNameStart '"' = false := by decide
  have hfuel : text.toList.length < (text.toList.flatMap quotedChar ++ '"' :: rest).length + 1 := by
    have hlength := length_le_flatMap_quotedChar text.toList
    rw [List.length_append]
    omega
  have hscan := scanText_quoted text.toList rest hfuel
  rw [quoted, String.toList_ofList, List.cons_append, List.append_assoc, List.singleton_append,
    lexeme]
  simp only [hstart, hscan]
  simp
  omega

/-! ## Marks -/

lemma lexeme_mark {c : Char} {rest : List Char} {mark : String}
    (hother : isNameStart c = false ∧ c.isDigit = false ∧ c ∉ ['\\', '#', '.', '"', '\'', '/'])
    (hmark : markAt (c :: rest) = some mark) (regexMayStart : Bool) :
    lexeme regexMayStart (c :: rest) = .ok (.punct mark, mark.length) := by
  obtain ⟨hstart, hdigit, hmarks⟩ := hother
  simp only [List.mem_cons, List.not_mem_nil, or_false, not_or] at hmarks
  rw [lexeme]
  simp [hstart, hdigit, hmarks, hmark]

/-- The marks that stand alone whatever follows, each with its character. -/
def plainMarks : List (Char × String) :=
  [('(', "("), (')', ")"), ('\x7b', "\x7b"), ('\x7d', "\x7d"), (',', ","), (':', ":")]

lemma lexeme_plainMark {c : Char} {mark : String} (h : (c, mark) ∈ plainMarks) (rest : List Char)
    (regexMayStart : Bool) :
    lexeme regexMayStart (c :: rest) = .ok (.punct mark, 1) := by
  simp only [plainMarks, List.mem_cons, Prod.mk.injEq, List.not_mem_nil, or_false] at h
  rcases h with ⟨rfl, rfl⟩ | ⟨rfl, rfl⟩ | ⟨rfl, rfl⟩ | ⟨rfl, rfl⟩ | ⟨rfl, rfl⟩ | ⟨rfl, rfl⟩
  all_goals exact lexeme_mark ⟨by decide, by decide, by decide⟩ rfl regexMayStart

lemma lexeme_equals (rest : List Char) (regexMayStart : Bool) :
    lexeme regexMayStart ('=' :: ' ' :: rest) = .ok (.punct "=", 1) :=
  lexeme_mark ⟨by decide, by decide, by decide⟩ rfl regexMayStart

lemma lexeme_not {rest : List Char} (h : rest.head? ≠ some '=') (regexMayStart : Bool) :
    lexeme regexMayStart ('!' :: rest) = .ok (.punct "!", 1) := by
  have hmark : markAt ('!' :: rest) = some "!" := by
    cases rest with
    | nil => rfl
    | cons c rest =>
      have hc : ('=' == c) = false := by
        rw [beq_eq_false_iff_ne]
        rintro rfl
        exact h rfl
      simp [markAt, marks, List.isPrefixOf, hc]
  exact lexeme_mark ⟨by decide, by decide, by decide⟩ hmark regexMayStart

end TaskRunner.Proofs
