import Mathlib.Data.List.Forall2
import TaskRunner.Proofs.RepeatedTokens
import TaskRunner.Proofs.WrittenTemplates
import TaskRunner.Text.Units

/-!
# Decoded texts

A text may be written with an escape for each of its units or for each of its characters. Every escape is
decoded by itself. So a text comes back from the escapes of its characters, and from those of its units it
comes back if no character takes two of them: each half of a pair of surrogates becomes a replacement
character.
-/

namespace TaskRunner.Proofs
open Source

/-! ## Written texts -/

/-- Hexadecimal digits of a number, in any case and with any zeros in front. -/
def WritesHex (digits : List Char) (n : Nat) : Prop :=
  ∃ zeros, digits.map Char.toLower = List.replicate zeros '0' ++ Nat.toDigits 16 n

/-- A number as an escape with four digits. -/
def FourDigits (n : Nat) (written : List Char) : Prop :=
  ∃ digits, WritesHex digits n ∧ digits.length = 4 ∧ written = '\\' :: 'u' :: digits

/-- A number as an escape with its digits in braces. -/
def InBraces (n : Nat) (written : List Char) : Prop :=
  ∃ digits, WritesHex digits n ∧ written = '\\' :: 'u' :: '\x7b' :: (digits ++ ['\x7d'])

/-- Numbers that are written one behind the other, each one in the given form. -/
def WrittenAs (form : Nat → List Char → Prop) (numbers : List Nat) (written : List Char) : Prop :=
  ∃ pieces, List.Forall₂ form numbers pieces ∧ written = pieces.flatten

/-- Characters between quotes. -/
def betweenQuotes (quote : Char) (written : List Char) : List Char :=
  quote :: (written ++ [quote])

/-- The characters are one token, a text with this value. -/
def IsTextOf (literal value : List Char) : Prop :=
  ∃ t ending, tokenize (String.ofList literal) = .ok [t, ending] ∧ t.kind = .text (String.ofList value) ∧
    t.span = ⟨0, byteCount literal⟩ ∧ ending.kind = .endOfFile

/-! ## Digits -/

/-- A number with one more hexadecimal digit. -/
def withDigit (n : Nat) (c : Char) : Option Nat :=
  (Number.digitValue c).bind fun v => if v < 16 then some (n * 16 + v) else none

lemma natOfDigits_eq (digits : List Char) :
    Number.natOfDigits 16 digits = if digits.isEmpty then none else digits.foldlM withDigit 0 := rfl

lemma digitValue_capital : ∀ n < 26,
    Number.digitValue (Char.ofNat (65 + n)).toLower = Number.digitValue (Char.ofNat (65 + n)) := by
  decide

lemma digitValue_toLower (c : Char) : Number.digitValue c.toLower = Number.digitValue c := by
  by_cases hcapital : c.val ≥ 'A'.val ∧ c.val ≤ 'Z'.val
  · have hrange : 65 ≤ c.toNat ∧ c.toNat ≤ 90 := by
      simpa [UInt32.le_iff_toNat_le] using hcapital
    have hc : c = Char.ofNat (65 + (c.toNat - 65)) := by
      rw [show 65 + (c.toNat - 65) = c.toNat by omega, Char.ofNat_toNat]
    rw [hc]
    exact digitValue_capital _ (by omega)
  · rw [Char.toLower, dif_neg hcapital]

lemma withDigit_toLower (n : Nat) (c : Char) : withDigit n c.toLower = withDigit n c := by
  rw [withDigit, digitValue_toLower, withDigit]

lemma withDigit_digitChar (n : Nat) {d : Nat} (h : d < 16) : withDigit n (Nat.digitChar d) = some (n * 16 + d) := by
  have hvalue : ∀ d < 16, Number.digitValue (Nat.digitChar d) = some d := by decide
  rw [withDigit, hvalue d h, Option.bind_some, if_pos h]

lemma foldlM_zeros (zeros : Nat) : (List.replicate zeros '0').foldlM withDigit 0 = some 0 := by
  induction zeros with
  | zero => rfl
  | succ zeros ih =>
    rw [List.replicate_succ, List.foldlM_cons]
    exact ih

/-- The digits of a number are read from the first one on. -/
lemma foldlM_toDigits (n : Nat) : (Nat.toDigits 16 n).foldlM withDigit 0 = some n := by
  induction n using Nat.strongRecOn with
  | ind n ih =>
    rw [Nat.toDigits_eq_if (by omega)]
    split
    · rename_i hsmall
      rw [List.foldlM_cons, withDigit_digitChar 0 hsmall, Nat.zero_mul, Nat.zero_add]
      rfl
    · rename_i hlarge
      have hdigit : n % 16 < 16 := Nat.mod_lt n (by omega)
      have hwhole : n / 16 * 16 + n % 16 = n := by omega
      rw [List.foldlM_append, ih (n / 16) (by omega)]
      calc ([Nat.digitChar (n % 16)].foldlM withDigit (n / 16))
          = (withDigit (n / 16) (Nat.digitChar (n % 16)) >>= fun m => [].foldlM withDigit m) := rfl
        _ = some n := by rw [withDigit_digitChar _ hdigit, hwhole]; rfl

lemma WritesHex.natOfDigits {digits : List Char} {n : Nat} (h : WritesHex digits n) :
    Number.natOfDigits 16 digits = some n := by
  obtain ⟨zeros, hlower⟩ := h
  have hne : digits.isEmpty = false := by
    cases digits with
    | nil => exact absurd (List.append_eq_nil_iff.mp hlower.symm).2 Nat.toDigits_ne_nil
    | cons => rfl
  have hread : (digits.map Char.toLower).foldlM withDigit 0 = digits.foldlM withDigit 0 := by
    simp only [List.foldlM_map, withDigit_toLower]
  rw [natOfDigits_eq, hne, ← hread, hlower, List.foldlM_append, foldlM_zeros]
  exact foldlM_toDigits n

lemma isHex_of_foldlM {digits : List Char} {n m : Nat} (h : digits.foldlM withDigit n = some m) :
    IsHex digits := by
  induction digits generalizing n with
  | nil => exact List.forall_mem_nil _
  | cons d digits ih =>
    rw [List.foldlM_cons] at h
    obtain ⟨next, hnext, hrest⟩ := Option.bind_eq_some_iff.mp h
    obtain ⟨v, hv, hsmall⟩ := Option.bind_eq_some_iff.mp hnext
    have hdigit : Number.isDigitOf 16 d = true := by
      rw [Number.isDigitOf, hv]
      exact decide_eq_true (by_contra fun hlarge => by simp [hlarge] at hsmall)
    exact List.forall_mem_cons.mpr ⟨hdigit, ih hrest⟩

lemma WritesHex.isHex {digits : List Char} {n : Nat} (h : WritesHex digits n) : IsHex digits := by
  have hread := h.natOfDigits
  rw [natOfDigits_eq] at hread
  split at hread
  · cases hread
  · exact isHex_of_foldlM hread

lemma WritesHex.charOfHex {digits : List Char} {n : Nat} (h : WritesHex digits n) (hn : n < UInt32.size) :
    Source.charOfHex digits = some (Text.charOfCode n) := by
  have hplus : ∀ rest, digits ≠ '+' :: rest := by
    rintro rest rfl
    exact absurd (h.isHex '+' List.mem_cons_self) (by decide)
  have hdigits : Number.unsignedOfText 16 UInt32.size digits = some n := by
    unfold Number.unsignedOfText
    split
    · exact absurd rfl (hplus _)
    · dsimp only
      rw [h.natOfDigits, Option.filter_some, if_pos (decide_eq_true hn)]
  rw [Source.charOfHex, hdigits]
  rfl

/-! ## Escapes -/

/-- The characters are an escape, which is decoded to the character of the number whatever comes next. -/
def EscapeOf (n : Nat) (written : List Char) : Prop :=
  ∃ rest, written = '\\' :: rest ∧
    ∀ behind, textEscape (rest ++ behind) = ([Text.charOfCode n], rest.length)

lemma FourDigits.lt {n : Nat} {written : List Char} (h : FourDigits n written) : n < 0x10000 := by
  obtain ⟨digits, ⟨zeros, hlower⟩, hfour, -⟩ := h
  have hlength := congrArg List.length hlower
  rw [List.length_map, List.length_append, hfour] at hlength
  exact (Nat.length_toDigits_le_iff (by omega) (by omega)).mp (by omega : (Nat.toDigits 16 n).length ≤ 4)

lemma FourDigits.escapeOf {n : Nat} {written : List Char} (h : FourDigits n written) :
    EscapeOf n written := by
  have hn : n < UInt32.size := Nat.lt_trans h.lt (by decide)
  obtain ⟨digits, hex, hfour, rfl⟩ := h
  refine ⟨'u' :: digits, rfl, fun behind => ?_⟩
  have hescape := unicodeEscape_fourDigits hex.isHex hfour behind
  rw [hex.charOfHex hn] at hescape
  rw [List.cons_append, textEscape, hescape, List.length_cons, hfour]
  rfl

lemma InBraces.escapeOf {n : Nat} {written : List Char} (h : InBraces n written) (hn : n < UInt32.size) :
    EscapeOf n written := by
  obtain ⟨digits, hex, rfl⟩ := h
  refine ⟨'u' :: '\x7b' :: (digits ++ ['\x7d']), rfl, fun behind => ?_⟩
  have hescape := unicodeEscape_inBraces hex.isHex behind
  rw [hex.charOfHex hn] at hescape
  have hchars : 'u' :: '\x7b' :: (digits ++ ['\x7d']) ++ behind =
      'u' :: '\x7b' :: (digits ++ '\x7d' :: behind) := by simp
  rw [hchars, textEscape, hescape]
  simp
  omega

/-- Escapes up to the closing quote are decoded one by one. -/
lemma scanText_escapes {quote : Char} (hquote : quote ∉ ['\\', '\n', '\r']) {numbers : List Nat}
    {pieces : List (List Char)} (h : List.Forall₂ EscapeOf numbers pieces) (behind : List Char) {fuel : Nat}
    (hfuel : pieces.flatten.length < fuel) :
    scanText quote fuel (pieces.flatten ++ quote :: behind) =
      some (numbers.map Text.charOfCode, pieces.flatten.length + 1) := by
  simp only [List.mem_cons, List.not_mem_nil, or_false, not_or] at hquote
  obtain ⟨hescape, hfeed, hreturn⟩ := hquote
  induction h generalizing fuel with
  | nil =>
    cases fuel with
    | zero => exact absurd hfuel (Nat.not_lt_zero _)
    | succ fuel => simp [scanText, hfeed, hreturn]
  | @cons n piece numbers pieces hpiece _ ih =>
    obtain ⟨rest, rfl, hdecode⟩ := hpiece
    cases fuel with
    | zero => exact absurd hfuel (Nat.not_lt_zero _)
    | succ fuel =>
      simp only [List.flatten_cons, List.cons_append, List.length_cons, List.length_append,
        List.append_assoc] at hfuel ⊢
      have hmore := ih (by omega : pieces.flatten.length < fuel)
      rw [scanText_cons, hdecode, List.drop_left, hmore]
      simp [Ne.symm hescape]
      omega

/-! ## Whole texts -/

lemma lexeme_text {quote : Char} (hquote : quote = '"' ∨ quote = '\'') {written value behind : List Char}
    (h : ∀ fuel, written.length < fuel →
      scanText quote fuel (written ++ quote :: behind) = some (value, written.length + 1))
    (regexMayStart : Bool) : lexeme regexMayStart (betweenQuotes quote written ++ behind) =
      .ok (.text (String.ofList value), (betweenQuotes quote written).length) := by
  have hscan := h ((written ++ quote :: behind).length + 1) (by rw [List.length_append]; omega)
  have hchars : betweenQuotes quote written ++ behind = quote :: (written ++ quote :: behind) := by
    simp [betweenQuotes]
  have hstart : isNameStart '"' = false ∧ isNameStart '\'' = false := by decide
  rw [hchars, lexeme]
  rcases hquote with rfl | rfl
  all_goals
    simp only [hstart, hscan]
    simp [betweenQuotes]
    omega

/-- A lexeme that is the whole file is its only token in front of the end. -/
lemma tokenize_lexeme {chars : List Char} {kind : Kind} (hopens : Opens chars)
    (hfirst : ∀ c ∈ chars.head?, c ≠ '\ufeff' ∧ c ≠ '#')
    (hlexeme : lexeme true chars = .ok (kind, chars.length)) (hkind : kind ≠ .endOfFile) :
    ∃ t ending, tokenize (String.ofList chars) = .ok [t, ending] ∧ t.kind = kind ∧
      t.span = ⟨0, byteCount chars⟩ ∧ ending.kind = .endOfFile := by
  let cur := Cursor.start chars
  have hrest : cur.rest = chars ++ [] := (List.append_nil _).symm
  have hgap : gapAt cur = .ok (⟨[], false⟩, cur) :=
    gapAt_spaces (List.forall_mem_nil _) hopens.endsGap rfl
  have hread : kindAt true cur = .ok (kind, cur.advance chars.length) := by
    rw [kindAt_lexeme fun rest heq => ?_]
    · rw [lexemeAt, show cur.rest = chars from rfl, hlexeme]
    · have hhead : '\x60' ∈ chars.head? := by
        rw [show chars = '\x60' :: rest from heq]
        rfl
      exact (hopens '\x60' hhead).2.1 rfl
  let t : Token := ⟨kind, ⟨cur.offset, (cur.advance chars.length).offset⟩, cur.place, false, []⟩
  have htoken : tokenAt true cur = .ok (t, cur.advance chars.length) := tokenAt_of_kindAt hgap hread
  obtain ⟨hbehind, hoffset⟩ := offset_advance hrest
  have hblank : ∀ c ∈ (cur.advance chars.length).rest, c = ' ' := by simp [hbehind]
  obtain ⟨ending, after, hending, hend⟩ := tokenAt_ending kind.regexMayFollow hblank
  have hscans : Scans true cur [t] kind.regexMayFollow (cur.advance chars.length) :=
    .next htoken hkind .done
  refine ⟨t, ending, ?_, rfl, ?_, hend⟩
  · rw [tokenize, String.toList_ofList, firstCursor_start hfirst]
    exact hscans.tokensFrom_eq hending hend (Nat.lt_succ_self _)
  · rw [show t.span = ⟨cur.offset, (cur.advance chars.length).offset⟩ from rfl, hoffset]
    exact congrArg (Span.mk 0) (Nat.zero_add _)

lemma isTextOf_escapes {quote : Char} (hquote : quote = '"' ∨ quote = '\'') {numbers : List Nat}
    {written : List Char} (h : WrittenAs EscapeOf numbers written) :
    IsTextOf (betweenQuotes quote written) (numbers.map Text.charOfCode) := by
  obtain ⟨pieces, hpieces, rfl⟩ := h
  have hmarks : quote ∉ ['\\', '\n', '\r'] ∧ StartsToken quote ∧ quote ≠ '\ufeff' ∧ quote ≠ '#' := by
    rcases hquote with rfl | rfl
    · exact ⟨by decide, ⟨by decide, by decide, by decide, by decide⟩, by decide, by decide⟩
    · exact ⟨by decide, ⟨by decide, by decide, by decide, by decide⟩, by decide, by decide⟩
  obtain ⟨hescape, hstarts, hfirst⟩ := hmarks
  have hlexeme := lexeme_text hquote (fun fuel hfuel => scanText_escapes hescape hpieces [] hfuel) true
  rw [List.append_nil] at hlexeme
  obtain ⟨t, ending, hread, hkind, hspan, hend⟩ := tokenize_lexeme (opens_cons hstarts _)
    (fun c hc => Option.mem_some.mp hc ▸ hfirst) hlexeme Kind.noConfusion
  exact ⟨t, ending, hread, hkind, hspan, hend⟩

lemma WrittenAs.imp {form form' : Nat → List Char → Prop} {numbers : List Nat} {written : List Char}
    (himp : ∀ n ∈ numbers, ∀ piece, form n piece → form' n piece) (h : WrittenAs form numbers written) :
    WrittenAs form' numbers written := by
  obtain ⟨pieces, hpieces, rfl⟩ := h
  refine ⟨pieces, ?_, rfl⟩
  induction hpieces with
  | nil => exact .nil
  | cons hpiece _ ih =>
    exact .cons (himp _ List.mem_cons_self _ hpiece) (ih fun n hn => himp n (List.mem_cons_of_mem _ hn))

/-- A literal has one value only. -/
lemma IsTextOf.unique {literal value value' : List Char} (h : IsTextOf literal value)
    (h' : IsTextOf literal value') : value = value' := by
  obtain ⟨t, ending, hread, hkind, -⟩ := h
  obtain ⟨t', ending', hread', hkind', -⟩ := h'
  rw [hread] at hread'
  cases hread'
  rw [hkind] at hkind'
  simpa using congrArg String.toList (Kind.text.inj hkind')

/-! ## Units and characters -/

lemma charOfCode_toNat (c : Char) : Text.charOfCode c.toNat = c := by
  have hvalid : c.toNat.isValidChar := c.valid
  rw [Text.charOfCode, if_pos hvalid, Char.ofNat_toNat]

lemma length_le_units (chars : List Char) : chars.length ≤ (Text.units chars).length := by
  induction chars with
  | nil => exact Nat.le_refl _
  | cons c chars ih =>
    have hone : 1 ≤ (Text.unitsOfChar c).length := by
      unfold Text.unitsOfChar
      dsimp only
      split <;> simp
    rw [Text.units, List.flatMap_cons, List.length_append, List.length_cons]
    exact Nat.add_comm 1 _ ▸ Nat.add_le_add hone ih

/-- Units that are decoded one by one give the text back if each of its characters is one unit. -/
lemma decoded_units_iff (chars : List Char) :
    (Text.units chars).map Text.charOfCode = chars ↔ ∀ c ∈ chars, c.toNat < 0x10000 := by
  induction chars with
  | nil => simp [Text.units]
  | cons c chars ih =>
    have hunits : Text.units (c :: chars) = Text.unitsOfChar c ++ Text.units chars := List.flatMap_cons
    rw [hunits, List.map_append, List.forall_mem_cons, ← ih]
    by_cases hc : c.toNat < 0x10000
    · simp [Text.unitsOfChar, hc, charOfCode_toNat]
    · -- Two characters come of this one, so that there are too many of them.
      have hmore := length_le_units chars
      refine iff_of_false (fun heq => ?_) (fun h => hc h.1)
      have hlength := congrArg List.length heq
      simp [Text.unitsOfChar, hc] at hlength
      omega

/-- A text that is written with escapes of its units is read with each half of a pair of surrogates
replaced; written with escapes of its characters it is read as it is. -/
theorem escaped_text_is_decoded {quote : Char} (hquote : quote = '"' ∨ quote = '\'') (chars : List Char) :
    (∀ written, WrittenAs FourDigits (Text.units chars) written →
      IsTextOf (betweenQuotes quote written) ((Text.units chars).map Text.charOfCode) ∧
        (IsTextOf (betweenQuotes quote written) chars ↔ ∀ c ∈ chars, c.toNat < 0x10000)) ∧
      ∀ written, WrittenAs InBraces (chars.map Char.toNat) written →
        IsTextOf (betweenQuotes quote written) chars := by
  refine ⟨fun written h => ?_, fun written h => ?_⟩
  · have hread := isTextOf_escapes hquote (h.imp fun n _ piece hpiece => hpiece.escapeOf)
    refine ⟨hread, ?_⟩
    rw [← decoded_units_iff]
    exact ⟨fun htext => hread.unique htext, fun heq => heq ▸ hread⟩
  · have hescapes : WrittenAs EscapeOf (chars.map Char.toNat) written := by
      refine h.imp fun n hn piece hpiece => ?_
      obtain ⟨c, -, rfl⟩ := List.mem_map.mp hn
      exact hpiece.escapeOf c.val.toNat_lt
    have hread := isTextOf_escapes hquote hescapes
    have hself : Text.charOfCode ∘ Char.toNat = id := funext charOfCode_toNat
    rwa [List.map_map, hself, List.map_id] at hread

lemma writtenAs_accented : WrittenAs FourDigits (Text.units ['n', 'é']) "\\u006E\\u00e9".toList :=
  ⟨["\\u006E".toList, "\\u00e9".toList],
    .cons ⟨"006E".toList, ⟨2, by decide⟩, rfl, rfl⟩ (.cons ⟨"00e9".toList, ⟨2, by decide⟩, rfl, rfl⟩ .nil), rfl⟩

/-- Two letters of the first plane as units, and an emoji as one code. -/
theorem escaped_text_is_decoded_accented_emoji :
    IsTextOf (betweenQuotes '\'' "\\u006E\\u00e9".toList) ['n', 'é'] ∧
      IsTextOf (betweenQuotes '"' "\\u\x7b01F600\x7d".toList) ['😀'] := by
  have hbraces : WrittenAs InBraces (['😀'].map Char.toNat) "\\u\x7b01F600\x7d".toList :=
    ⟨["\\u\x7b01F600\x7d".toList], .cons ⟨"01F600".toList, ⟨1, by decide⟩, rfl⟩ .nil, rfl⟩
  exact ⟨((escaped_text_is_decoded (.inr rfl) _).1 _ writtenAs_accented).2.mpr (by simp),
    (escaped_text_is_decoded (.inl rfl) _).2 _ hbraces⟩

/-- An emoji that is written with an escape for each of its two units is not read as this emoji. -/
theorem surrogate_pair_is_replaced :
    WrittenAs FourDigits (Text.units ['😀']) "\\ud83d\\ude00".toList ∧
      ¬ IsTextOf (betweenQuotes '"' "\\ud83d\\ude00".toList) ['😀'] := by
  have hwritten : WrittenAs FourDigits (Text.units ['😀']) "\\ud83d\\ude00".toList :=
    ⟨["\\ud83d".toList, "\\ude00".toList],
      .cons ⟨"d83d".toList, ⟨0, by decide⟩, rfl, rfl⟩ (.cons ⟨"de00".toList, ⟨0, by decide⟩, rfl, rfl⟩ .nil), rfl⟩
  refine ⟨hwritten, fun htext => ?_⟩
  have hread := isTextOf_escapes (.inl rfl) (hwritten.imp fun n _ piece hpiece => hpiece.escapeOf)
  exact absurd (hread.unique htext) (by decide +kernel)

end TaskRunner.Proofs
