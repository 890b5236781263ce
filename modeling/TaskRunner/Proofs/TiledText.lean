import TaskRunner.Proofs.TokenSpans

/-!
# Tokens tile the text

Behind a byte order mark and a first line for the system, a text is nothing but its tokens with blanks and
comments between them. Spans are byte offsets between characters, they are in order and do not overlap, and
every comment is recorded at the token behind it.
-/

namespace TaskRunner.Proofs
open Source

/-! ## Byte offsets -/

lemma utf8ByteSize_ofList (chars : List Char) :
    (String.ofList chars).utf8ByteSize = byteCount chars := by
  induction chars with
  | nil => rfl
  | cons c rest ih =>
    rw [← List.singleton_append, String.ofList_append, String.utf8ByteSize_append, ih,
      byteCount_append]
    congr 1
    exact String.utf8ByteSize_singleton

lemma isValid_byteCount {text : String} {before behind : List Char}
    (h : text.toList = before ++ behind) : String.Pos.Raw.IsValid text ⟨byteCount before⟩ := by
  rw [String.Pos.Raw.isValid_iff_exists_append]
  refine ⟨String.ofList before, String.ofList behind, ?_, ?_⟩
  · rw [← String.ofList_append, ← h, String.ofList_toList]
  · rw [String.Pos.Raw.ext_iff, String.byteIdx_rawEndPos, utf8ByteSize_ofList]

/-- Every token stands between characters of the text. -/
lemma Tiles.stands {offset : Nat} {chars : List Char} {tokens : List Token}
    (h : Tiles offset chars tokens) :
    ∀ t ∈ tokens, ∃ before lexeme behind, chars = before ++ (lexeme ++ behind) ∧
      t.span = ⟨offset + byteCount before, offset + byteCount (before ++ lexeme)⟩ := by
  induction h with
  | @ending offset gap t kind span =>
    intro u hu
    rw [List.mem_singleton.mp hu]
    exact ⟨gap, [], [], by simp, by simp [span]⟩
  | @token offset gap lexeme rest t more kind nonempty span tail ih =>
    intro u hu
    rcases List.mem_cons.mp hu with rfl | hu
    · exact ⟨gap, lexeme, rest, rfl, by rw [span, byteCount_append, Nat.add_assoc]⟩
    · obtain ⟨before, own, behind, rfl, hspan⟩ := ih u hu
      refine ⟨gap ++ (lexeme ++ before), own, behind, by simp, ?_⟩
      rw [hspan]
      simp [Nat.add_assoc]

lemma Tiles.increasing {offset : Nat} {chars : List Char} {tokens : List Token}
    (h : Tiles offset chars tokens) :
    tokens.Pairwise fun t u => t.span.start < u.span.start ∧ t.span.stop ≤ u.span.start := by
  induction h with
  | ending => exact List.pairwise_singleton _ _
  | token kind nonempty span tail ih =>
    refine List.pairwise_cons.mpr ⟨?_, ih⟩
    intro u hu
    have hstart := tail.bounds u hu
    have hpos := byteCount_pos nonempty
    rw [span]
    dsimp only
    omega

lemma Tiles.end_span {offset : Nat} {chars : List Char} {body : List Token} {ending : Token}
    (h : Tiles offset chars (body ++ [ending])) :
    ending.span = ⟨offset + byteCount chars, offset + byteCount chars⟩ := by
  induction body generalizing offset chars with
  | nil =>
    cases h with
    | ending kind span => exact span
    | token _ _ _ tail => cases tail
  | cons t body ih =>
    rw [List.cons_append] at h
    generalize hall : t :: (body ++ [ending]) = all at h
    cases h with
    | ending => simp at hall
    | token _ _ _ tail =>
      obtain ⟨rfl, rfl⟩ := List.cons.inj hall
      simpa [Nat.add_assoc] using ih tail

/-! ## What stands before the first gap -/

/-- A byte order mark or nothing, and then a line that starts with `#!` or nothing. -/
structure Preamble (mark line rest : List Char) : Prop where
  mark : mark = [] ∨ mark = ['\ufeff']
  line : line = [] ∨ ∃ body, line = '#' :: '!' :: body ∧ '\n' ∉ body ∧ ∀ c ∈ rest.head?, c = '\n'

lemma advance_line {cur : Cursor} {more : List Char} (h : cur.rest = '#' :: '!' :: more) :
    ∃ body, cur.rest = '#' :: '!' :: body ++ (cur.advance (countWhile (· != '\n') cur.rest)).rest ∧
      '\n' ∉ body ∧ ∀ c ∈ (cur.advance (countWhile (· != '\n') cur.rest)).rest.head?, c = '\n' := by
  rw [advance_rest, drop_countWhile]
  refine ⟨more.takeWhile (· != '\n'), ?_, ?_, ?_⟩
  · rw [h]
    simp [List.takeWhile_append_dropWhile]
  · intro hmem
    simpa using List.all_eq_true.mp List.all_takeWhile _ hmem
  · intro c hc
    have hstop := List.head?_dropWhile_not (· != '\n') cur.rest
    rw [Option.mem_def.mp hc] at hstop
    simpa using hstop

lemma firstCursor_preamble (chars : List Char) :
    ∃ mark line, Preamble mark line (firstCursor chars).rest ∧
      Passed (Cursor.start chars) (mark ++ line) (firstCursor chars) := by
  obtain ⟨mark, hmark, hpassed⟩ := behindMark_passed chars
  rw [firstCursor_eq]
  rcases pastFirstLine_cases (behindMark chars) with ⟨more, hrest, hfirst⟩ | hfirst
  · obtain ⟨body, hsplit, hfeed, hends⟩ := advance_line hrest
    rw [hfirst]
    have hadvance := passed_advance (behindMark chars)
      (countWhile (· != '\n') (behindMark chars).rest)
    have htake := List.append_cancel_right (hadvance.rest.symm.trans hsplit)
    rw [htake] at hadvance
    exact ⟨mark, _, ⟨hmark, .inr ⟨body, rfl, hfeed, hends⟩⟩, hpassed.trans hadvance⟩
  · rw [hfirst]
    exact ⟨mark, [], ⟨hmark, .inl rfl⟩, by rw [List.append_nil]; exact hpassed⟩

/-! ## The tokens of a text -/

/-- Behind its preamble a text consists of its tokens, each one on its span behind blanks and the comments
that it records. The last token is the only end of the text and has the empty span there; all others take
some characters, and every span lies between characters, behind the spans before it. -/
theorem tokens_tile_text {text : String} {tokens : List Token} (h : tokenize text = .ok tokens) :
    (∃ mark line rest, text.toList = mark ++ (line ++ rest) ∧ Preamble mark line rest ∧
      Tiling (byteCount (mark ++ line)) rest tokens) ∧
    (∃ body ending, tokens = body ++ [ending] ∧ ending.kind = .endOfFile ∧
      ending.span = ⟨text.utf8ByteSize, text.utf8ByteSize⟩ ∧
      ∀ t ∈ body, t.kind ≠ .endOfFile ∧ t.span.start < t.span.stop) ∧
    (∀ t ∈ tokens, String.Pos.Raw.IsValid text ⟨t.span.start⟩ ∧
      String.Pos.Raw.IsValid text ⟨t.span.stop⟩) ∧
    tokens.Pairwise fun t u => t.span.start < u.span.start ∧ t.span.stop ≤ u.span.start := by
  have htiles := tokenize_tiles h
  refine ⟨?_, ?_, ?_, htiles.increasing⟩
  · obtain ⟨mark, line, hpreamble, hpassed⟩ := firstCursor_preamble text.toList
    have htiling := tokenize_tiling h
    rw [hpassed.offset] at htiling
    refine ⟨mark, line, _, ?_, hpreamble, ?_⟩
    · rw [← List.append_assoc]
      exact hpassed.rest
    · simpa [Cursor.start] using htiling
  · obtain ⟨body, ending, rfl, hending, hbody⟩ := htiles.ends
    refine ⟨body, ending, rfl, hending, ?_, ?_⟩
    · rw [htiles.end_span, Nat.zero_add, ← utf8ByteSize_ofList, String.ofList_toList]
    · intro t ht
      exact ⟨hbody t ht, htiles.wide t (List.mem_append_left _ ht) (hbody t ht)⟩
  · intro t ht
    obtain ⟨before, lexeme, behind, hchars, hspan⟩ := htiles.stands t ht
    rw [hspan, Nat.zero_add, Nat.zero_add]
    exact ⟨isValid_byteCount hchars, isValid_byteCount (by rw [hchars, List.append_assoc])⟩

/-- A text with a byte order mark, a line for the system and comments in front of both of its tokens. -/
def commented : String :=
  "\ufeff#!/usr/bin/env bunosh\n/* é */ main // at the end"

/-- The gap of the first token starts behind the line for the system, and an accented letter takes two bytes. -/
theorem tokens_tile_text_commented :
    ∃ t ending, tokenize commented = .ok [t, ending] ∧
      t.comments = [⟨" é ", true, ⟨25, 33⟩⟩] ∧
      ending.comments = [⟨" at the end", false, ⟨39, 52⟩⟩] ∧ ending.span = ⟨52, 52⟩ ∧
      t.span.stop ≤ ending.span.start ∧
      ∃ mark line rest, commented.toList = mark ++ (line ++ rest) ∧ Preamble mark line rest ∧
        Tiling (byteCount (mark ++ line)) rest [t, ending] := by
  have hread : tokenize commented = .ok [
      ⟨.ident "main", ⟨34, 38⟩, ⟨2, 9⟩, true, [⟨" é ", true, ⟨25, 33⟩⟩]⟩,
      ⟨.endOfFile, ⟨52, 52⟩, ⟨2, 27⟩, false, [⟨" at the end", false, ⟨39, 52⟩⟩]⟩] := by
    rfl
  obtain ⟨htiling, -, -, hincreasing⟩ := tokens_tile_text hread
  exact ⟨_, _, hread, rfl, rfl, rfl, (List.rel_of_pairwise_cons hincreasing (by simp)).2, htiling⟩

end TaskRunner.Proofs
