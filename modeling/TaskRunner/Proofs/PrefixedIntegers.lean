import Mathlib.Data.Nat.Digits.Defs
import TaskRunner.Proofs.ClosestDouble
import TaskRunner.Proofs.DecodedTexts

/-!
# Integers behind the prefix of a base

An integer in base two, eight or sixteen is written with single separators between its digits and may end with an
`n`. It is one token, and its value is the double closest to the integer, if the integer fits sixty-four bits. A
larger one is refused, and with it the whole file, though decimal digits may be as many as they like.
-/

namespace TaskRunner.Proofs
open Source

/-- The letters that name a base behind a zero. -/
def baseNames : List (Char × Nat) :=
  [('b', 2), ('B', 2), ('o', 8), ('O', 8), ('x', 16), ('X', 16)]

/-- Groups of characters, none of them empty, that spell digits of a base in any case. -/
structure SpellDigits (base : Nat) (groups : List (List Char)) (digits : List Nat) : Prop where
  some : groups ≠ []
  nonempty : ∀ group ∈ groups, group ≠ []
  below : ∀ d ∈ digits, d < base
  spelled : groups.flatten.map Char.toLower = digits.map Nat.digitChar

/-- An integer in a base as a literal: a zero and a letter of the base, digits with single separators between
groups of them, and at the end an `n` or nothing. -/
def WritesInteger (base : Nat) (digits : List Nat) (literal : List Char) : Prop :=
  ∃ letter groups ending, (letter, base) ∈ baseNames ∧ SpellDigits base groups digits ∧
    (ending = [] ∨ ending = ['n']) ∧ literal = '0' :: letter :: (['_'].intercalate groups ++ ending)

/-- The integer that digits denote, the first one being the highest. -/
def integerOf (base : Nat) (digits : List Nat) : Nat :=
  Nat.ofDigits base digits.reverse

/-- Behind some tokens of a text, and what is skipped behind them, a literal stands at the cursor, with a space or
the end of the text behind it. -/
structure StandsAt (text : String) (earlier : List Token) (cur : Cursor) (literal behind : List Char) : Prop where
  reached : ∃ regex last gap, Scans true (firstCursor text.toList) earlier regex last ∧
    gapAt last = .ok (gap, cur)
  here : cur.rest = literal ++ behind
  apart : SpaceNext behind

/-- Wherever the literal stands it is one token, a number with this value, and tokens are looked for behind it; and
alone or in front of spaces it is the only token of its file. -/
structure IsNumberToken (literal : List Char) (x : Float) : Prop where
  inside : ∀ text earlier cur behind, StandsAt text earlier cur literal behind →
    ∃ t after, t.kind = .number x ∧ t.span = ⟨cur.offset, cur.offset + byteCount literal⟩ ∧
      Scans true (firstCursor text.toList) (earlier ++ [t]) false after ∧ after.rest = behind ∧
      ∀ later, ReadsAll false after later → tokenize text = .ok (earlier ++ t :: later)
  alone : ∀ spaces, (∀ c ∈ spaces, c = ' ') →
    ∃ t ending, tokenize (String.ofList (literal ++ spaces)) = .ok [t, ending] ∧ t.kind = .number x ∧
      t.span = ⟨0, byteCount literal⟩ ∧ ending.kind = .endOfFile

/-! ## Digits -/

variable {base : Nat} {groups : List (List Char)} {digits : List Nat} {literal behind : List Char}

lemma base_le {letter : Char} (h : (letter, base) ∈ baseNames) : base ≤ 16 := by
  have htable : ∀ named ∈ baseNames, named.2 ≤ 16 := by decide
  exact htable _ h

lemma digitValue_of_lower {c : Char} {d : Nat} (hd : d < 16) (h : c.toLower = Nat.digitChar d) :
    Number.digitValue c = some d := by
  have hvalue : ∀ d < 16, Number.digitValue (Nat.digitChar d) = some d := by decide
  rw [← digitValue_toLower, h, hvalue d hd]

lemma foldlM_spelled {chars : List Char} (hbase : base ≤ 16) (hbelow : ∀ d ∈ digits, d < base)
    (h : chars.map Char.toLower = digits.map Nat.digitChar) (n : Nat) :
    chars.foldlM (fun n c => (Number.digitValue c).bind fun v =>
      if v < base then some (n * base + v) else none) n =
      some (digits.foldl (fun n d => n * base + d) n) := by
  induction chars generalizing digits n with
  | nil =>
    obtain rfl := List.map_eq_nil_iff.mp h.symm
    rfl
  | cons c chars ih =>
    cases digits with
    | nil => cases h
    | cons d digits =>
      obtain ⟨hc, hmore⟩ := List.cons.inj h
      have hd := hbelow d List.mem_cons_self
      have hvalue := digitValue_of_lower (Nat.lt_of_lt_of_le hd hbase) hc
      rw [List.foldlM_cons, hvalue, Option.bind_some, if_pos hd]
      exact ih (fun e he => hbelow e (List.mem_cons_of_mem d he)) hmore _

lemma integerOf_eq (base : Nat) (digits : List Nat) :
    integerOf base digits = digits.foldl (fun n d => n * base + d) 0 := by
  rw [integerOf, Nat.ofDigits_eq_foldr, List.foldr_reverse]
  congr 1
  funext n d
  rw [Nat.cast_id, Nat.mul_comm, Nat.add_comm]

lemma SpellDigits.natOfDigits (h : SpellDigits base groups digits) (hbase : base ≤ 16) :
    Number.natOfDigits base groups.flatten = .some (integerOf base digits) := by
  obtain ⟨group, more, rfl⟩ := List.exists_cons_of_ne_nil h.some
  obtain ⟨c, rest, rfl⟩ := List.exists_cons_of_ne_nil (h.nonempty group List.mem_cons_self)
  rw [Number.natOfDigits, integerOf_eq]
  exact foldlM_spelled hbase h.below h.spelled 0

lemma SpellDigits.isDigit (h : SpellDigits base groups digits) (hbase : base ≤ 16) :
    ∀ c ∈ groups.flatten, Number.isDigitOf base c = true := by
  intro c hc
  have hlower : c.toLower ∈ digits.map Nat.digitChar := h.spelled ▸ List.mem_map_of_mem hc
  obtain ⟨d, hd, hchar⟩ := List.mem_map.mp hlower
  have hbelow := h.below d hd
  have hvalue := digitValue_of_lower (Nat.lt_of_lt_of_le hbelow hbase) hchar.symm
  rw [Number.isDigitOf, hvalue]
  exact decide_eq_true hbelow

/-! ## Separators -/

lemma mem_intercalate {c : Char} (h : c ∈ ['_'].intercalate groups) : c ∈ groups.flatten ∨ c = '_' := by
  induction groups with
  | nil => exact absurd h List.not_mem_nil
  | cons group more ih =>
    cases more with
    | nil => exact .inl (by simpa using h)
    | cons next more =>
      rw [List.intercalate_cons_cons, List.append_assoc, List.mem_append, List.mem_append] at h
      rw [List.flatten_cons, List.mem_append]
      rcases h with h | h | h
      · exact .inl (.inl h)
      · exact .inr (List.mem_singleton.mp h)
      · exact (ih h).imp_left .inr

/-- Without the separators the digits are left. -/
lemma filter_intercalate (h : ∀ c ∈ groups.flatten, c ≠ '_') :
    (['_'].intercalate groups).filter (· != '_') = groups.flatten := by
  have hself : ∀ chars : List Char, (∀ c ∈ chars, c ≠ '_') → chars.filter (· != '_') = chars := by
    intro chars hchars
    exact List.filter_eq_self.mpr fun c hc => bne_iff_ne.mpr (hchars c hc)
  induction groups with
  | nil => rfl
  | cons group more ih =>
    rw [List.flatten_cons] at h
    have hgroup := hself group fun c hc => h c (List.mem_append_left _ hc)
    cases more with
    | nil => simpa using hgroup
    | cons next more =>
      rw [List.intercalate_cons_cons, List.filter_append, List.filter_append, hgroup,
        ih fun c hc => h c (List.mem_append_right _ hc)]
      simp

/-! ## One literal -/

lemma baseOfPrefix_named {letter : Char} (h : (letter, base) ∈ baseNames) (rest : List Char) :
    baseOfPrefix ('0' :: letter :: rest) = some base := by
  simp only [baseNames, List.mem_cons, Prod.mk.injEq, List.not_mem_nil, or_false] at h
  rcases h with ⟨rfl, rfl⟩ | ⟨rfl, rfl⟩ | ⟨rfl, rfl⟩ | ⟨rfl, rfl⟩ | ⟨rfl, rfl⟩ | ⟨rfl, rfl⟩ <;> rfl

lemma not_digit_of_ending (hbase : base ≤ 16) {ending : List Char} (hending : ending = [] ∨ ending = ['n'])
    (hbehind : SpaceNext behind) : ∀ c ∈ (ending ++ behind).head?,
      (Number.isDigitOf base c || c == '_') = false := by
  have hletter : Number.isDigitOf base 'n' = false := by
    have hvalue : Number.digitValue 'n' = some 23 := by decide
    rw [Number.isDigitOf, hvalue]
    exact decide_eq_false (by omega)
  intro c hc
  rcases hending with rfl | rfl
  · rw [hbehind c hc]
    rfl
  · obtain rfl := Option.mem_some.mp hc
    rw [hletter]
    rfl

/-- The digits and their separators are taken together. -/
lemma SpellDigits.countWhile (h : SpellDigits base groups digits) (hbase : base ≤ 16) {rest : List Char}
    (hstop : ∀ c ∈ rest.head?, (Number.isDigitOf base c || c == '_') = false) :
    countWhile (fun c => Number.isDigitOf base c || c == '_') (['_'].intercalate groups ++ rest) =
      (['_'].intercalate groups).length := by
  have hbody : ∀ c ∈ ['_'].intercalate groups, (Number.isDigitOf base c || c == '_') = true := by
    intro c hc
    rcases mem_intercalate hc with hdigit | rfl
    · rw [h.isDigit hbase c hdigit, Bool.true_or]
    · simp
  rw [Source.countWhile, List.takeWhile_append_of_pos hbody, List.length_append, Nat.add_eq_left,
    List.length_eq_zero_iff]
  cases rest with
  | nil => rfl
  | cons c rest => exact List.takeWhile_cons_of_neg (by simp [hstop c rfl])

/-- The end of a literal: an `n` is dropped, and a number may end there. -/
lemma ending_counts {ending : List Char} (hending : ending = [] ∨ ending = ['n']) (hbehind : SpaceNext behind) :
    countOptional 'n' (ending ++ behind) = ending.length ∧ numberMayEnd behind = true := by
  cases behind with
  | nil => rcases hending with rfl | rfl <;> exact ⟨rfl, rfl⟩
  | cons c more =>
    obtain rfl : c = ' ' := hbehind c rfl
    rcases hending with rfl | rfl <;> exact ⟨rfl, rfl⟩

/-- A literal whose integer fits sixty-four bits is a number, any other one is refused. -/
lemma numberAt_prefixed (h : WritesInteger base digits literal) (hbehind : SpaceNext behind) :
    numberAt (literal ++ behind) =
      if integerOf base digits < 2 ^ 64 then
        .ok (Number.ofNat (integerOf base digits), literal.length)
      else .error .invalidNumber := by
  obtain ⟨letter, groups, ending, hletter, hspell, hending, rfl⟩ := h
  have hbase := base_le hletter
  have hdigits := hspell.isDigit hbase
  have hseparator : ∀ c ∈ groups.flatten, c ≠ '_' := by
    rintro c hc rfl
    have hdigit := hdigits '_' hc
    rw [Number.isDigitOf, show Number.digitValue '_' = none by decide] at hdigit
    cases hdigit
  have hlength := hspell.countWhile hbase (not_digit_of_ending hbase hending hbehind)
  obtain ⟨hcount, hend⟩ := ending_counts hending hbehind
  have hchars : '0' :: letter :: (['_'].intercalate groups ++ ending) ++ behind =
      '0' :: letter :: (['_'].intercalate groups ++ (ending ++ behind)) := by simp
  have hdrop : ∀ front rest : List Char, ('0' :: letter :: (front ++ rest)).drop (2 + front.length) = rest := by
    intro front rest
    rw [Nat.add_comm, ← List.drop_drop]
    simp
  rw [hchars, numberAt, baseOfPrefix_named hletter]
  dsimp only
  rw [List.drop_succ_cons, List.drop_succ_cons, List.drop_zero, hlength, List.take_left,
    filter_intercalate hseparator, hspell.natOfDigits hbase, hdrop, hcount]
  have hbehindAll : ('0' :: letter :: (['_'].intercalate groups ++ (ending ++ behind))).drop
      (2 + (['_'].intercalate groups).length + ending.length) = behind := by
    rw [← List.drop_drop, hdrop, List.drop_left]
  rw [hbehindAll, hend]
  have hsize : UInt64.size = 2 ^ 64 := rfl
  rw [hsize, Option.filter_some]
  by_cases hfits : integerOf base digits < 2 ^ 64
  · rw [if_pos hfits, if_pos (decide_eq_true hfits)]
    simp
    omega
  · rw [if_neg hfits, if_neg (by simpa using Nat.not_lt.mp hfits)]

lemma WritesInteger.starts (h : WritesInteger base digits literal) : ∃ rest, literal = '0' :: rest := by
  obtain ⟨letter, groups, ending, -, -, -, rfl⟩ := h
  exact ⟨_, rfl⟩

lemma lexeme_prefixed (h : WritesInteger base digits literal) (hbehind : SpaceNext behind) (regex : Bool) :
    lexeme regex (literal ++ behind) =
      if integerOf base digits < 2 ^ 64 then
        .ok (.number (Number.ofNat (integerOf base digits)), literal.length)
      else .error .invalidNumber := by
  have hread := numberAt_prefixed h hbehind
  obtain ⟨rest, rfl⟩ := h.starts
  have hstart : isNameStart '0' = false := by decide
  rw [List.cons_append] at hread ⊢
  by_cases hfits : integerOf base digits < 2 ^ 64
  · rw [if_pos hfits] at hread ⊢
    simp [lexeme, hstart, hread, bind, Except.bind]
  · rw [if_neg hfits] at hread ⊢
    simp [lexeme, hstart, hread, bind, Except.bind]

/-! ## Files -/

lemma kindAt_prefixed (h : WritesInteger base digits literal) {cur : Cursor} (hcur : cur.rest = literal ++ behind)
    (hbehind : SpaceNext behind) (regex : Bool) :
    kindAt regex cur =
      if integerOf base digits < 2 ^ 64 then
        .ok (.number (Number.ofNat (integerOf base digits)), cur.advance literal.length)
      else .error ⟨.invalidNumber, cur.place⟩ := by
  have hplain : ∀ rest, cur.rest ≠ '\x60' :: rest := by
    intro rest heq
    obtain ⟨more, rfl⟩ := h.starts
    rw [hcur, List.cons_append] at heq
    exact absurd (List.cons.inj heq).1 (by decide)
  rw [kindAt_lexeme hplain, lexemeAt, hcur, lexeme_prefixed h hbehind]
  by_cases hfits : integerOf base digits < 2 ^ 64
  · rw [if_pos hfits, if_pos hfits]
  · rw [if_neg hfits, if_neg hfits]
    rfl

/-- Where a token cannot be read the file is refused. -/
lemma Scans.refused {text : String} {tokens : List Token} {regex : Bool} {last : Cursor} {e : SyntaxError}
    (h : Scans true (firstCursor text.toList) tokens regex last) (herror : tokenAt regex last = .error e) :
    tokenize text = .error e := by
  suffices hall : ∀ {regex cur tokens regex' last}, Scans regex cur tokens regex' last →
      tokenAt regex' last = .error e → ∀ fuel, cur.rest.length < fuel → tokensFrom fuel regex cur = .error e from
    hall h herror _ (Nat.lt_succ_self _)
  intro regex cur tokens regex' last hscans herror
  induction hscans with
  | done =>
    intro fuel hfuel
    obtain ⟨fuel, rfl⟩ := Nat.exists_eq_add_of_lt hfuel
    rw [tokensFrom, herror]
    rfl
  | next token kind _ ih =>
    intro fuel hfuel
    obtain ⟨fuel, rfl⟩ := Nat.exists_eq_add_of_lt hfuel
    have hshorter := tokenAt_shorter token kind
    have hmore := ih herror _ (Nat.lt_add_right fuel hshorter)
    rw [tokensFrom, token]
    simp [kind, hmore, bind, Except.bind]

/-- At the start of a file nothing is in front of the literal. -/
lemma WritesInteger.standsAt_start (h : WritesInteger base digits literal) (hbehind : SpaceNext behind) :
    StandsAt (String.ofList (literal ++ behind)) [] (Cursor.start (literal ++ behind)) literal behind := by
  obtain ⟨rest, rfl⟩ := h.starts
  have hopens : Opens ('0' :: (rest ++ behind)) := opens_cons (startsToken_of_isDigit (by decide)) _
  have hfirst : firstCursor ('0' :: rest ++ behind) = Cursor.start ('0' :: rest ++ behind) :=
    firstCursor_start fun c hc => by
      obtain rfl := Option.mem_some.mp hc
      decide
  refine ⟨⟨true, Cursor.start ('0' :: rest ++ behind), ⟨[], false⟩, ?_, ?_⟩, rfl, hbehind⟩
  · rw [String.toList_ofList, hfirst]
    exact .done
  · exact gapAt_spaces (List.forall_mem_nil _) hopens.endsGap rfl

/-- An integer that fits sixty-four bits is a number wherever its literal stands. -/
lemma WritesInteger.read (h : WritesInteger base digits literal) (hfits : integerOf base digits < 2 ^ 64)
    {text : String} {earlier : List Token} {cur : Cursor} (hstands : StandsAt text earlier cur literal behind) :
    ∃ t after, t.kind = .number (Number.ofNat (integerOf base digits)) ∧
      t.span = ⟨cur.offset, cur.offset + byteCount literal⟩ ∧
      Scans true (firstCursor text.toList) (earlier ++ [t]) false after ∧ after.rest = behind ∧
      ∀ later, ReadsAll false after later → tokenize text = .ok (earlier ++ t :: later) := by
  obtain ⟨⟨regex, last, gap, hscans, hgap⟩, hcur, hbehind⟩ := hstands
  have hkind := kindAt_prefixed h hcur hbehind regex
  rw [if_pos hfits] at hkind
  have htoken := tokenAt_of_kindAt hgap hkind
  obtain ⟨hafter, hoffset⟩ := offset_advance hcur
  have hmore := hscans.trans (.next htoken Kind.noConfusion .done)
  refine ⟨_, _, rfl, by rw [hoffset], hmore, hafter, fun later hlater => ?_⟩
  rw [tokenize_iff, List.append_cons]
  exact hmore.readsAll hlater

lemma WritesInteger.isNumberToken (h : WritesInteger base digits literal)
    (hfits : integerOf base digits < 2 ^ 64) :
    IsNumberToken literal (Number.ofNat (integerOf base digits)) := by
  refine ⟨fun text earlier cur behind hstands => h.read hfits hstands, fun spaces hspaces => ?_⟩
  have hbehind : SpaceNext spaces := fun c hc => hspaces c (List.mem_of_mem_head? hc)
  obtain ⟨t, after, hkind, hspan, -, hafter, hread⟩ := h.read hfits (h.standsAt_start hbehind)
  have hleft : ∀ c ∈ after.rest, c = ' ' := by
    rw [hafter]
    exact hspaces
  obtain ⟨ending, last, hending, hend⟩ := tokenAt_ending false hleft
  refine ⟨t, ending, hread [ending] (readsAll_end hending hend), hkind, ?_, hend⟩
  rw [hspan]
  exact congrArg (Span.mk 0) (Nat.zero_add _)

/-- A larger integer is refused wherever its literal stands. -/
lemma WritesInteger.refused (h : WritesInteger base digits literal) (hlarge : 2 ^ 64 ≤ integerOf base digits)
    {text : String} {earlier : List Token} {cur : Cursor} (hstands : StandsAt text earlier cur literal behind) :
    tokenize text = .error ⟨.invalidNumber, cur.place⟩ := by
  obtain ⟨⟨regex, last, gap, hscans, hgap⟩, hcur, hbehind⟩ := hstands
  have hkind := kindAt_prefixed h hcur hbehind regex
  rw [if_neg (Nat.not_lt.mpr hlarge)] at hkind
  refine hscans.refused ?_
  rw [tokenAt_gap hgap, hkind]
  rfl

/-- The literal of an integer is one number token with the double closest to the integer as its value if and only
if the integer fits sixty-four bits. A file with the literal of a larger one is refused. -/
theorem prefixed_integer_read_iff (h : WritesInteger base digits literal) :
    ((∃ x, IsNumberToken literal x ∧ IsClosest x (integerOf base digits)) ↔ integerOf base digits < 2 ^ 64) ∧
    (2 ^ 64 ≤ integerOf base digits → ∀ text earlier cur behind, StandsAt text earlier cur literal behind →
      tokenize text = .error ⟨.invalidNumber, cur.place⟩) := by
  refine ⟨⟨?_, fun hfits => ?_⟩, fun hlarge text earlier cur behind hstands => h.refused hlarge hstands⟩
  · rintro ⟨x, hnumber, -⟩
    by_contra hlarge
    have hnothing : SpaceNext [] := fun _ hc => absurd hc (Option.not_mem_none _)
    obtain ⟨t, ending, hread, -⟩ := hnumber.alone [] (List.forall_mem_nil _)
    cases hread.symm.trans (h.refused (Nat.not_lt.mp hlarge) (h.standsAt_start hnothing))
  · have hrange : 2 ^ 64 < 2 ^ 1023 := pow_lt_pow_right₀ one_lt_two (by decide)
    exact ⟨_, h.isNumberToken hfits, ofNat_isClosest (hfits.trans hrange)⟩

lemma writesInteger_halfway :
    WritesInteger 16 [2, 0, 0, 0, 0, 0, 0, 0, 0, 0, 0, 0, 0, 1] "0x20_0000_000000_01n".toList :=
  ⟨'x', ["20".toList, "0000".toList, "000000".toList, "01".toList], ['n'], by decide,
    ⟨by decide, by decide, by decide, by decide⟩, .inr rfl, by decide⟩

/-- An integer half-way between two doubles, with separators and an `n`. -/
theorem prefixed_integer_read_iff_halfway :
    WritesInteger 16 [2, 0, 0, 0, 0, 0, 0, 0, 0, 0, 0, 0, 0, 1] "0x20_0000_000000_01n".toList ∧
      ∃ x, IsNumberToken "0x20_0000_000000_01n".toList x ∧ IsClosest x (2 ^ 53 + 1) := by
  have hvalue : integerOf 16 [2, 0, 0, 0, 0, 0, 0, 0, 0, 0, 0, 0, 0, 1] = 2 ^ 53 + 1 := by decide
  have hread := (prefixed_integer_read_iff writesInteger_halfway).1.mpr (by rw [hvalue]; decide)
  rw [hvalue] at hread
  exact ⟨writesInteger_halfway, by exact_mod_cast hread⟩

/-- The least integer of sixty-five bits is no number. -/
theorem wide_integer_is_refused :
    WritesInteger 16 (1 :: List.replicate 16 0) "0x10000000000000000".toList ∧
      tokenize "0x10000000000000000" = .error ⟨.invalidNumber, ⟨1, 1⟩⟩ ∧
      ¬ ∃ x, IsNumberToken "0x10000000000000000".toList x := by
  have hread : tokenize "0x10000000000000000" = .error ⟨.invalidNumber, ⟨1, 1⟩⟩ := by decide +kernel
  refine ⟨⟨'x', ["10000000000000000".toList], [], by decide,
    ⟨by decide, by decide, by decide, by decide⟩, .inl rfl, by decide⟩, hread, ?_⟩
  rintro ⟨x, hnumber⟩
  obtain ⟨t, ending, hone, -⟩ := hnumber.alone [] (List.forall_mem_nil _)
  rw [List.append_nil, String.ofList_toList] at hone
  cases hone.symm.trans hread

end TaskRunner.Proofs
