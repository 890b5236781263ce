import TaskRunner.Proofs.TemplateSteps

/-!
# Where tokens stand

Every token but the end of a file takes at least one character. So the tokens of a file stand in order in
its text, each one on its span, with gaps between them, and the last one is the end of the text.
-/

namespace TaskRunner.Proofs
open Source

/-! ## Lexemes are not empty -/

lemma nameAt_pos {ch : Char} {rest : List Char}
    (h : (isNameStart ch || (ch == '\\' && rest.head? == some 'u')) = true) :
    0 < (nameAt (ch :: rest)).2 := by
  change 0 < (scanName (rest.length + 1) (ch :: rest)).2
  by_cases hescape : ch = '\\' ∧ rest.head? = some 'u'
  · obtain ⟨rfl, hhead⟩ := hescape
    cases rest with
    | nil => cases hhead
    | cons u rest =>
      cases hhead
      rw [scanName]
      split
      · dsimp only
        omega
      · dsimp only
        omega
  · have hstart : isNameStart ch = true := by simpa [hescape] using h
    have hnot : ∀ more, ch = '\\' → rest = 'u' :: more → False := by
      intro more hch hrest
      exact hescape ⟨hch, by rw [hrest, List.head?_cons]⟩
    rw [scanName, if_pos (by simp [isNamePart, hstart])]
    · dsimp only
      omega
    · exact hnot

lemma decimalTextLength_pos {ch : Char} {rest : List Char}
    (h : (ch.isDigit || (ch == '.' && rest.head?.any Char.isDigit)) = true) :
    0 < decimalTextLength (ch :: rest) := by
  unfold decimalTextLength
  by_cases hdigit : ch.isDigit = true
  · have hwhole : 0 < countWhile isDigitOrSeparator (ch :: rest) := by
      simp [countWhile, isDigitOrSeparator, hdigit]
    dsimp only
    omega
  · simp only [hdigit, Bool.false_or, Bool.and_eq_true, beq_iff_eq] at h
    obtain ⟨rfl, -⟩ := h
    have hwhole : countWhile isDigitOrSeparator ('.' :: rest) = 0 := by
      simp [countWhile, isDigitOrSeparator]
    have hpoint : countOptional '.' (('.' :: rest).drop 0) = 1 := by
      simp [countOptional]
    rw [hwhole]
    dsimp only
    rw [hpoint]
    omega

lemma numberAt_pos {ch : Char} {rest : List Char} {value : Float} {count : Nat}
    (hstart : (ch.isDigit || (ch == '.' && rest.head?.any Char.isDigit)) = true)
    (h : numberAt (ch :: rest) = .ok (value, count)) : 0 < count := by
  unfold numberAt at h
  split at h
  · dsimp only at h
    split at h
    · cases h
    · split at h
      · cases h
        omega
      · cases h
  · dsimp only at h
    have hlength := decimalTextLength_pos hstart
    split at h
    · split at h
      · cases h
        omega
      · cases h
    · cases h

lemma markAt_pos {chars : List Char} {mark : String} (h : markAt chars = some mark) :
    0 < mark.length := by
  have hmarks : ∀ mark ∈ marks, 0 < mark.length := by decide
  obtain ⟨found, hfound, rfl⟩ := Option.map_eq_some_iff.mp h
  split
  · decide
  · exact hmarks found (List.mem_of_find?_eq_some hfound)

/-- Only the end of the file takes no characters, and nothing is ahead of it. -/
lemma lexeme_cases {regexMayStart : Bool} {chars : List Char} {kind : Kind} {count : Nat}
    (h : lexeme regexMayStart chars = .ok (kind, count)) :
    (kind = .endOfFile ∧ chars = []) ∨ (kind ≠ .endOfFile ∧ chars ≠ [] ∧ 0 < count) := by
  unfold lexeme at h
  cases chars with
  | nil =>
    cases h
    exact .inl ⟨rfl, rfl⟩
  | cons ch rest =>
    right
    dsimp only at h
    split at h
    · rename_i hname
      cases h
      exact ⟨Kind.noConfusion, List.cons_ne_nil _ _, nameAt_pos hname⟩
    · split at h
      · cases h
        exact ⟨Kind.noConfusion, List.cons_ne_nil _ _, by omega⟩
      · split at h
        · rename_i hnumber
          obtain ⟨⟨value, width⟩, hvalue, h⟩ := bind_ok h
          cases h
          exact ⟨Kind.noConfusion, List.cons_ne_nil _ _, numberAt_pos hnumber hvalue⟩
        · split at h
          · split at h
            · cases h
              exact ⟨Kind.noConfusion, List.cons_ne_nil _ _, by omega⟩
            · cases h
          · split at h
            · split at h
              · cases h
                exact ⟨Kind.noConfusion, List.cons_ne_nil _ _, by omega⟩
              · cases h
            · split at h
              · rename_i hmark
                cases h
                exact ⟨Kind.noConfusion, List.cons_ne_nil _ _, markAt_pos hmark⟩
              · cases h

/-! ## Tokens -/

/-- A token is read between two cursors: its gap up to the cursor in the middle, and its lexeme from there
on. -/
structure IsRead (cur mid after : Cursor) (gap lexeme : List Char) (t : Token) : Prop where
  skips : Passed cur gap mid
  skipped : mid = cur.advance gap.length
  between : Between cur.offset gap mid.rest t.comments
  takes : Passed mid lexeme after
  taken : Forward mid after
  span : t.span = ⟨mid.offset, after.offset⟩
  place : t.place = mid.place
  kind : (t.kind = .endOfFile ∧ lexeme = [] ∧ after.rest = []) ∨ (t.kind ≠ .endOfFile ∧ lexeme ≠ [])

lemma tokenAt_ok {regexMayStart : Bool} {cur after : Cursor} {t : Token}
    (h : tokenAt regexMayStart cur = .ok (t, after)) :
    ∃ mid gap lexeme, IsRead cur mid after gap lexeme t := by
  unfold tokenAt at h
  obtain ⟨⟨gap, mid⟩, hgap, h⟩ := bind_ok h
  obtain ⟨skipped, hrest, hmid, hbetween⟩ := gapAt_ok hgap
  have hpassed : Passed cur skipped mid := by
    have hadvance := passed_advance cur skipped.length
    rw [hrest, List.take_left, ← hmid] at hadvance
    exact hadvance
  dsimp only at h
  split at h
  · rename_i rest hopen
    obtain ⟨⟨kind, behind⟩, hkind, h⟩ := bind_ok h
    cases h
    obtain ⟨behind, htext, heq⟩ := map_ok hkind
    cases heq
    have htemplate := (template_forward _).1 htext
    obtain ⟨chars, hchars⟩ := htemplate.leads
    refine ⟨mid, skipped, _, hpassed, hmid, hbetween, (passed_advance mid 1).trans hchars,
      (forward_advance mid 1).trans htemplate, rfl, rfl, .inr ⟨Kind.noConfusion, ?_⟩⟩
    rw [hopen, List.take_succ_cons]
    exact List.cons_ne_nil _ _
  · obtain ⟨⟨kind, behind⟩, hkind, h⟩ := bind_ok h
    cases h
    obtain ⟨count, hlexeme, rfl⟩ := lexemeAt_ok hkind
    refine ⟨mid, skipped, _, hpassed, hmid, hbetween, passed_advance mid count,
      forward_advance mid count, rfl, rfl, ?_⟩
    rcases lexeme_cases hlexeme with ⟨hend, hnil⟩ | ⟨hend, hne, hpos⟩
    · have hrest := (passed_advance mid count).rest
      rw [hnil, List.take_nil, List.nil_append] at hrest
      exact .inl ⟨hend, by rw [hnil, List.take_nil], hrest.symm⟩
    · refine .inr ⟨hend, ?_⟩
      rw [ne_eq, List.take_eq_nil_iff, not_or]
      exact ⟨Nat.ne_of_gt hpos, hne⟩

lemma IsRead.length {cur mid after : Cursor} {gap lexeme : List Char} {t : Token}
    (h : IsRead cur mid after gap lexeme t) :
    cur.rest.length = gap.length + (lexeme.length + after.rest.length) := by
  rw [h.skips.rest, h.takes.rest, List.length_append, List.length_append]

lemma tokenAt_shorter {regex : Bool} {cur after : Cursor} {t : Token}
    (h : tokenAt regex cur = .ok (t, after)) (hkind : t.kind ≠ .endOfFile) :
    after.rest.length < cur.rest.length := by
  obtain ⟨mid, gap, lexeme, hread⟩ := tokenAt_ok h
  have hlength := hread.length
  rcases hread.kind with ⟨hend, -⟩ | ⟨-, hne⟩
  · exact absurd hend hkind
  · have hpos := List.length_pos_iff.mpr hne
    omega

/-! ## Runs of tokens -/

/-- The tokens between two cursors. The Booleans tell whether a slash starts a regular expression. -/
inductive Scans : Bool → Cursor → List Token → Bool → Cursor → Prop where
  | done {regex : Bool} {cur : Cursor} : Scans regex cur [] regex cur
  | next {regex regex' : Bool} {cur after last : Cursor} {t : Token} {tokens : List Token}
      (token : tokenAt regex cur = .ok (t, after)) (kind : t.kind ≠ .endOfFile)
      (tail : Scans t.kind.regexMayFollow after tokens regex' last) :
      Scans regex cur (t :: tokens) regex' last

variable {regex regex' regex'' : Bool} {cur mid last : Cursor} {tokens more : List Token}

lemma Scans.trans (h : Scans regex cur tokens regex' mid) (hmore : Scans regex' mid more regex'' last) :
    Scans regex cur (tokens ++ more) regex'' last := by
  induction h with
  | done => exact hmore
  | next token kind _ ih => exact .next token kind (ih hmore)

lemma tokenAt_passed {after : Cursor} {t : Token} (h : tokenAt regex cur = .ok (t, after)) :
    Leads cur after := by
  obtain ⟨mid, gap, lexeme, hread⟩ := tokenAt_ok h
  exact ⟨gap ++ lexeme, hread.skips.trans hread.takes⟩

lemma Scans.leads (h : Scans regex cur tokens regex' last) : Leads cur last := by
  induction h with
  | done => exact Leads.rfl
  | next token _ _ ih => exact (tokenAt_passed token).trans ih

lemma Scans.tokensFrom_eq (h : Scans regex cur tokens regex' last) {ending : Token} {after : Cursor}
    (hending : tokenAt regex' last = .ok (ending, after)) (hkind : ending.kind = .endOfFile)
    {fuel : Nat} (hfuel : cur.rest.length < fuel) :
    tokensFrom fuel regex cur = .ok (tokens ++ [ending]) := by
  induction h generalizing fuel with
  | done =>
    cases fuel with
    | zero => exact absurd hfuel (Nat.not_lt_zero _)
    | succ fuel =>
      rw [tokensFrom, hending]
      simp [hkind, bind, Except.bind]
  | next token kind _ ih =>
    cases fuel with
    | zero => exact absurd hfuel (Nat.not_lt_zero _)
    | succ fuel =>
      have hshorter := tokenAt_shorter token kind
      have hmore := ih hending (by omega : _ < fuel)
      rw [tokensFrom, token]
      simp [kind, hmore, bind, Except.bind]

/-- Reading tokens ends with the end of the text, or with a token that cannot be read. Every token but the
last takes at least one character, so the fuel is never used up. -/
lemma tokensFrom_cases (regex : Bool) {fuel : Nat} (hfuel : cur.rest.length < fuel) :
    (∃ body regex' last ending after, Scans regex cur body regex' last ∧
      tokenAt regex' last = .ok (ending, after) ∧ ending.kind = .endOfFile ∧
      tokensFrom fuel regex cur = .ok (body ++ [ending])) ∨
    ∃ body regex' last e, Scans regex cur body regex' last ∧ tokenAt regex' last = .error e ∧
      tokensFrom fuel regex cur = .error e := by
  induction fuel generalizing regex cur with
  | zero => exact absurd hfuel (Nat.not_lt_zero _)
  | succ fuel ih =>
    cases htoken : tokenAt regex cur with
    | error e => exact .inr ⟨[], regex, cur, e, .done, htoken, by rw [tokensFrom, htoken]; rfl⟩
    | ok found =>
      obtain ⟨t, after⟩ := found
      by_cases hkind : t.kind = .endOfFile
      · exact .inl ⟨[], regex, cur, t, after, .done, htoken, hkind, by
          simp [tokensFrom, htoken, hkind, bind, Except.bind]⟩
      · have hshorter := tokenAt_shorter htoken hkind
        rcases ih t.kind.regexMayFollow (by omega : after.rest.length < fuel) with
          ⟨body, regex', last, ending, behind, hscans, hending, hend, hmore⟩ |
          ⟨body, regex', last, e, hscans, herror, hmore⟩
        · refine .inl ⟨t :: body, regex', last, ending, behind, .next htoken hkind hscans, hending,
            hend, ?_⟩
          simp [tokensFrom, htoken, hkind, hmore, bind, Except.bind]
        · refine .inr ⟨t :: body, regex', last, e, .next htoken hkind hscans, herror, ?_⟩
          simp [tokensFrom, htoken, hkind, hmore, bind, Except.bind]

/-! ## Tokens in the text -/

/-- The tokens tile the text behind a byte offset: each one stands on its span, behind blanks and the
comments that it records. The last one is the end of the text, and no other is. -/
inductive Tiling : Nat → List Char → List Token → Prop
  | ending {offset : Nat} {gap : List Char} {t : Token} (kind : t.kind = .endOfFile)
      (between : Between offset gap [] t.comments)
      (span : t.span = ⟨offset + byteCount gap, offset + byteCount gap⟩) : Tiling offset gap [t]
  | token {offset : Nat} {gap lexeme rest : List Char} {t : Token} {more : List Token}
      (kind : t.kind ≠ .endOfFile) (nonempty : lexeme ≠ [])
      (between : Between offset gap (lexeme ++ rest) t.comments)
      (span : t.span = ⟨offset + byteCount gap, offset + byteCount gap + byteCount lexeme⟩)
      (tail : Tiling (offset + byteCount gap + byteCount lexeme) rest more) :
      Tiling offset (gap ++ (lexeme ++ rest)) (t :: more)

/-- The tokens stand in order in the text behind a byte offset, each one on its span, whatever is between
them. The last one is the end of the text. -/
inductive Tiles : Nat → List Char → List Token → Prop
  | ending {offset : Nat} {gap : List Char} {t : Token} (kind : t.kind = .endOfFile)
      (span : t.span = ⟨offset + byteCount gap, offset + byteCount gap⟩) : Tiles offset gap [t]
  | token {offset : Nat} {gap lexeme rest : List Char} {t : Token} {more : List Token}
      (kind : t.kind ≠ .endOfFile) (nonempty : lexeme ≠ [])
      (span : t.span = ⟨offset + byteCount gap, offset + byteCount gap + byteCount lexeme⟩)
      (tail : Tiles (offset + byteCount gap + byteCount lexeme) rest more) :
      Tiles offset (gap ++ (lexeme ++ rest)) (t :: more)

lemma IsRead.span_eq {cur mid after : Cursor} {gap lexeme : List Char} {t : Token}
    (h : IsRead cur mid after gap lexeme t) :
    t.span = ⟨cur.offset + byteCount gap, cur.offset + byteCount gap + byteCount lexeme⟩ := by
  rw [h.span, h.takes.offset, h.skips.offset]

lemma Scans.tiling {after : Cursor} {ending : Token} (h : Scans regex cur tokens regex' last)
    (hending : tokenAt regex' last = .ok (ending, after)) (hkind : ending.kind = .endOfFile) :
    Tiling cur.offset cur.rest (tokens ++ [ending]) := by
  induction h with
  | done =>
    obtain ⟨mid, gap, lexeme, hread⟩ := tokenAt_ok hending
    rcases hread.kind with ⟨-, rfl, hrest⟩ | ⟨hne, -⟩
    · have hspan := hread.span_eq
      have hmid : mid.rest = [] := by rw [hread.takes.rest, hrest, List.append_nil]
      have hbetween := hread.between
      rw [hmid] at hbetween
      rw [hread.skips.rest, hmid, List.append_nil]
      exact .ending hkind hbetween hspan
    · exact absurd hkind hne
  | next token kind _ ih =>
    obtain ⟨mid, gap, lexeme, hread⟩ := tokenAt_ok token
    rcases hread.kind with ⟨hend, -⟩ | ⟨-, hne⟩
    · exact absurd hend kind
    · have htail := ih hending
      rw [hread.takes.offset, hread.skips.offset] at htail
      have hbetween := hread.between
      rw [hread.takes.rest] at hbetween
      rw [hread.skips.rest, hread.takes.rest]
      exact .token kind hne hbetween hread.span_eq htail

lemma Tiling.tiles {offset : Nat} {chars : List Char} {tokens : List Token}
    (h : Tiling offset chars tokens) : Tiles offset chars tokens := by
  induction h with
  | ending kind _ span => exact .ending kind span
  | token kind nonempty _ span _ ih => exact .token kind nonempty span ih

lemma Tiles.widen {offset : Nat} {chars more : List Char} {tokens : List Token}
    (h : Tiles (offset + byteCount more) chars tokens) : Tiles offset (more ++ chars) tokens := by
  cases h with
  | ending kind span => exact .ending kind (by rw [span, byteCount_append, Nat.add_assoc])
  | token kind nonempty span tail =>
    rw [← List.append_assoc]
    refine .token kind nonempty ?_ ?_
    · rw [span, byteCount_append, Nat.add_assoc]
    · rw [byteCount_append, ← Nat.add_assoc]
      exact tail

lemma Tiles.ends {offset : Nat} {chars : List Char} {tokens : List Token}
    (h : Tiles offset chars tokens) :
    ∃ before ending, tokens = before ++ [ending] ∧ ending.kind = .endOfFile ∧
      ∀ t ∈ before, t.kind ≠ .endOfFile := by
  induction h with
  | @ending _ _ t kind span => exact ⟨[], t, rfl, kind, by simp⟩
  | @token _ _ _ _ t more kind nonempty span tail ih =>
    obtain ⟨before, ending, rfl, hending, hbefore⟩ := ih
    refine ⟨t :: before, ending, rfl, hending, ?_⟩
    intro u hu
    rcases List.mem_cons.mp hu with rfl | hu
    · exact kind
    · exact hbefore u hu

lemma Tiles.bounds {offset : Nat} {chars : List Char} {tokens : List Token}
    (h : Tiles offset chars tokens) : ∀ t ∈ tokens, offset ≤ t.span.start := by
  induction h with
  | ending kind span =>
    intro t ht
    rw [List.mem_singleton.mp ht, span]
    exact Nat.le_add_right _ _
  | token kind nonempty span tail ih =>
    intro t ht
    rcases List.mem_cons.mp ht with rfl | ht
    · rw [span]
      exact Nat.le_add_right _ _
    · have hstart := ih t ht
      omega

/-- Tokens that follow each other do not overlap. -/
def Ordered (tokens : List Token) : Prop :=
  tokens.Pairwise (fun t u => t.span.stop ≤ u.span.start) ∧ ∀ t ∈ tokens, t.span.start ≤ t.span.stop

lemma Tiles.ordered {offset : Nat} {chars : List Char} {tokens : List Token}
    (h : Tiles offset chars tokens) : Ordered tokens := by
  induction h with
  | ending kind span => exact ⟨List.pairwise_singleton _ _, by simp [span]⟩
  | token kind nonempty span tail ih =>
    refine ⟨List.pairwise_cons.mpr ⟨?_, ih.1⟩, ?_⟩
    · intro u hu
      rw [span]
      exact tail.bounds u hu
    · intro u hu
      rcases List.mem_cons.mp hu with rfl | hu
      · rw [span]
        exact Nat.le_add_right _ _
      · exact ih.2 u hu

lemma Tiles.wide {offset : Nat} {chars : List Char} {tokens : List Token}
    (h : Tiles offset chars tokens) :
    ∀ t ∈ tokens, t.kind ≠ .endOfFile → t.span.start < t.span.stop := by
  induction h with
  | ending kind span =>
    intro t ht hkind
    rw [List.mem_singleton.mp ht] at hkind
    exact absurd kind hkind
  | token kind nonempty span tail ih =>
    intro t ht hkind
    rcases List.mem_cons.mp ht with rfl | ht
    · have hpos := byteCount_pos nonempty
      rw [span]
      dsimp only
      omega
    · exact ih t ht hkind

lemma Ordered.within {tokens more : List Token} (h : Ordered more) (hwithin : tokens <:+: more) :
    Ordered tokens :=
  ⟨h.1.sublist hwithin.sublist, fun t ht => h.2 t (hwithin.subset ht)⟩

/-- The start of a text, behind a byte order mark. -/
def behindMark (chars : List Char) : Cursor :=
  match chars with
  | '\ufeff' :: rest => ⟨rest, 3, ⟨1, 1⟩⟩
  | _ => Cursor.start chars

lemma behindMark_cases (chars : List Char) :
    (∃ rest, chars = '\ufeff' :: rest ∧ behindMark chars = ⟨rest, 3, ⟨1, 1⟩⟩) ∨
      ((∀ rest, chars ≠ '\ufeff' :: rest) ∧ behindMark chars = Cursor.start chars) := by
  unfold behindMark
  split
  · exact .inl ⟨_, rfl, rfl⟩
  · rename_i hmark
    exact .inr ⟨hmark, rfl⟩

/-- The cursor behind a first line for the system, if there is one. -/
def pastFirstLine (cur : Cursor) : Cursor :=
  match cur.rest with
  | '#' :: '!' :: _ => cur.advance (countWhile (· != '\n') cur.rest)
  | _ => cur

lemma drop_countWhile (p : Char → Bool) (chars : List Char) :
    chars.drop (countWhile p chars) = chars.dropWhile p := by
  calc chars.drop (countWhile p chars)
    _ = (chars.takeWhile p ++ chars.dropWhile p).drop (chars.takeWhile p).length := by
      rw [List.takeWhile_append_dropWhile]
      rfl
    _ = chars.dropWhile p := List.drop_left

lemma firstCursor_eq (chars : List Char) : firstCursor chars = pastFirstLine (behindMark chars) :=
  rfl

lemma pastFirstLine_cases (cur : Cursor) :
    (∃ more, cur.rest = '#' :: '!' :: more ∧
      pastFirstLine cur = cur.advance (countWhile (· != '\n') cur.rest)) ∨
    pastFirstLine cur = cur := by
  unfold pastFirstLine
  split
  · exact .inl ⟨_, ‹_›, rfl⟩
  · exact .inr rfl

/-- A first line for the system is passed behind a byte order mark. -/
lemma firstCursor_forward (chars : List Char) : Forward (behindMark chars) (firstCursor chars) := by
  rw [firstCursor_eq]
  rcases pastFirstLine_cases (behindMark chars) with ⟨more, -, hfirst⟩ | hfirst
  · rw [hfirst]
    exact forward_advance _ _
  · rw [hfirst]
    exact Forward.rfl

lemma behindMark_passed (chars : List Char) :
    ∃ mark, (mark = [] ∨ mark = ['\ufeff']) ∧ Passed (Cursor.start chars) mark (behindMark chars) := by
  rcases behindMark_cases chars with ⟨rest, rfl, hbehind⟩ | ⟨-, hbehind⟩
  · exact ⟨['\ufeff'], .inr rfl, rfl, rfl⟩
  · rw [hbehind]
    exact ⟨[], .inl rfl, passed_nothing _⟩

/-- A byte order mark and a first line for the system are part of the first gap. -/
lemma firstCursor_passed (chars : List Char) :
    ∃ passed, Passed (Cursor.start chars) passed (firstCursor chars) := by
  obtain ⟨mark, -, hmark⟩ := behindMark_passed chars
  obtain ⟨line, hline⟩ := (firstCursor_forward chars).leads
  exact ⟨mark ++ line, hmark.trans hline⟩

lemma tokenize_tiling {source : String} {tokens : List Token} (h : tokenize source = .ok tokens) :
    Tiling (firstCursor source.toList).offset (firstCursor source.toList).rest tokens := by
  unfold tokenize at h
  dsimp only at h
  rcases tokensFrom_cases true (Nat.lt_succ_self (firstCursor source.toList).rest.length) with
    ⟨body, regex', last, ending, after, hscans, hending, hkind, heq⟩ | ⟨_, _, _, e, -, -, heq⟩
  · cases heq.symm.trans h
    exact hscans.tiling hending hkind
  · cases heq.symm.trans h

/-- The tokens of a file stand on their spans, and the last one ends it. -/
lemma tokenize_tiles {source : String} {tokens : List Token} (h : tokenize source = .ok tokens) :
    Tiles 0 source.toList tokens := by
  obtain ⟨passed, hpassed⟩ := firstCursor_passed source.toList
  have htiles := (tokenize_tiling h).tiles
  have hrest : source.toList = passed ++ (firstCursor source.toList).rest := hpassed.rest
  rw [hpassed.offset] at htiles
  rw [hrest]
  exact htiles.widen

end TaskRunner.Proofs
