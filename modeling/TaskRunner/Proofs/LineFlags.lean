import TaskRunner.Proofs.SpacedFiles
import TaskRunner.Proofs.TiledText

/-!
# Ends of lines in front of a token

A token records whether a line ends in front of it. Between comments each line terminator counts. Within a
comment only a line feed does, and within a first line for the system none.
-/

namespace TaskRunner.Proofs
open Source

variable {start offset : Nat} {comments found : List Comment} {chars more behind : List Char} {c : Char}
variable {regex : Bool} {cur after : Cursor} {t : Token}

/-- A line terminator that counts as an end of a line: a line feed does everywhere, the others do behind the
start and outside of comments. -/
def CountsAsEnd (start : Nat) (comments : List Comment) (offset : Nat) (c : Char) : Prop :=
  isLineTerminator c = true ∧ (c = '\n' ∨ start ≤ offset ∧ OutsideComments offset comments)

/-- A line ends in characters that stand at an offset. -/
def EndsLine (start : Nat) (comments : List Comment) (offset : Nat) (chars : List Char) : Prop :=
  ∃ front c more, chars = front ++ c :: more ∧ CountsAsEnd start comments (offset + byteCount front) c

/-! ## Pieces of a gap -/

lemma not_endsLine_nil : ¬ EndsLine start comments offset [] := by
  rintro ⟨front, c, more, h, -⟩
  simp at h

lemma endsLine_cons : EndsLine start comments offset (c :: chars) ↔
    CountsAsEnd start comments offset c ∨ EndsLine start comments (offset + c.utf8Size) chars := by
  constructor
  · rintro ⟨front, d, more, hsplit, hcounts⟩
    cases front with
    | nil =>
      obtain ⟨rfl, rfl⟩ := List.cons.inj hsplit
      exact .inl hcounts
    | cons e front =>
      obtain ⟨rfl, rfl⟩ := List.cons.inj hsplit
      rw [byteCount_cons, ← Nat.add_assoc] at hcounts
      exact .inr ⟨front, d, more, rfl, hcounts⟩
  · rintro (hcounts | ⟨front, d, more, rfl, hcounts⟩)
    · exact ⟨[], c, chars, rfl, hcounts⟩
    · rw [Nat.add_assoc] at hcounts
      exact ⟨c :: front, d, more, rfl, hcounts⟩

lemma endsLine_append : EndsLine start comments offset (chars ++ more) ↔
    EndsLine start comments offset chars ∨ EndsLine start comments (offset + byteCount chars) more := by
  induction chars generalizing offset with
  | nil => simp [not_endsLine_nil]
  | cons c chars ih =>
    rw [List.cons_append, endsLine_cons, endsLine_cons, ih, byteCount_cons, ← Nat.add_assoc, or_assoc]

lemma EndsLine.terminator (h : EndsLine start comments offset chars) :
    ∃ c ∈ chars, isLineTerminator c = true := by
  obtain ⟨front, c, more, rfl, hend, -⟩ := h
  exact ⟨c, List.mem_append_right _ List.mem_cons_self, hend⟩

/-- Where nothing but a line feed counts, a line ends at a line feed. -/
lemma endsLine_iff_lineFeed
    (h : ∀ n, offset ≤ n → n < offset + byteCount chars → start ≤ n → ¬ OutsideComments n comments) :
    EndsLine start comments offset chars ↔ '\n' ∈ chars := by
  induction chars generalizing offset with
  | nil => simp [not_endsLine_nil]
  | cons c chars ih =>
    have hsize := Char.utf8Size_pos c
    rw [byteCount_cons] at h
    have hhead : CountsAsEnd start comments offset c ↔ c = '\n' := by
      refine ⟨fun hcounts => hcounts.2.elim id fun houtside => ?_, ?_⟩
      · exact absurd houtside.2 (h offset (Nat.le_refl _) (by omega) houtside.1)
      · rintro rfl
        exact ⟨by decide, .inl rfl⟩
    have hrest : EndsLine start comments (offset + c.utf8Size) chars ↔ '\n' ∈ chars :=
      ih fun n hle hlt => h n (by omega) (by omega)
    rw [endsLine_cons, hhead, hrest, List.mem_cons, eq_comm]

/-- Behind a comment it makes no difference. -/
lemma endsLine_behind {c : Comment} (h : c.span.stop ≤ offset) :
    EndsLine start (c :: comments) offset chars ↔ EndsLine start comments offset chars := by
  have hsame : ∀ n, OutsideComments (offset + n) (c :: comments) ↔ OutsideComments (offset + n) comments := by
    intro n
    simp only [OutsideComments, List.forall_mem_cons]
    exact and_iff_right fun hin => by omega
  simp only [EndsLine, CountsAsEnd, hsame]

lemma Between.comments_from (h : Between offset chars behind comments) :
    ∀ c ∈ comments, offset ≤ c.span.start := by
  induction h with
  | nothing => exact List.forall_mem_nil _
  | blank _ _ ih => exact fun c hc => Nat.le_trans (Nat.le_add_right _ _) (ih c hc)
  | line _ _ _ ih | block _ _ ih =>
    refine List.forall_mem_cons.mpr ⟨Nat.le_refl _, fun c hc => ?_⟩
    exact Nat.le_trans (Nat.le_add_right _ _) (ih c hc)

/-- Within a comment only a line feed counts. -/
lemma endsLine_comment {c : Comment} {piece : List Char} (hspan : c.span = ⟨offset, offset + byteCount piece⟩) :
    EndsLine start (c :: comments) offset (piece ++ chars) ↔
      '\n' ∈ piece ∨ EndsLine start comments (offset + byteCount piece) chars := by
  have hinside : ∀ n, offset ≤ n → n < offset + byteCount piece → start ≤ n →
      ¬ OutsideComments n (c :: comments) := by
    intro n hle hlt _ houtside
    refine houtside c List.mem_cons_self ?_
    rw [hspan]
    exact ⟨hle, hlt⟩
  rw [endsLine_append, endsLine_iff_lineFeed hinside, endsLine_behind (by rw [hspan])]

/-! ## Gaps -/

/-- What stands between tokens is skipped, and it is recorded whether a line ends in it. -/
lemma Between.skips_lines (h : Between offset chars behind comments) (hstart : start ≤ offset) :
    ∃ line, Skips chars behind line (comments.map seen) ∧
      (line = true ↔ EndsLine start comments offset chars) := by
  induction h with
  | nothing => exact ⟨false, skips_nothing _, by simp [not_endsLine_nil]⟩
  | @blank offset c chars behind comments blank more ih =>
    obtain ⟨line, hskips, hline⟩ := ih (by omega)
    have houtside : OutsideComments offset comments := by
      intro d hd hin
      have hfrom := more.comments_from d hd
      have hsize := Char.utf8Size_pos c
      omega
    have hcounts : CountsAsEnd start comments offset c ↔ isLineTerminator c = true :=
      ⟨And.left, fun hend => ⟨hend, .inr ⟨hstart, houtside⟩⟩⟩
    refine ⟨isLineTerminator c || line, (skips_blank blank _).trans hskips, ?_⟩
    rw [Bool.or_eq_true, hline, endsLine_cons, hcounts]
  | @line offset body chars behind comments inLine ends more ih =>
    obtain ⟨line, hskips, hline⟩ := ih (by omega)
    have hfeed : '\n' ∉ lineComment body := by
      simp only [lineComment, List.mem_cons, not_or]
      exact ⟨by decide, by decide, fun hmem => (inLine _ hmem).1 rfl⟩
    refine ⟨false || line, (skips_lineComment inLine ends).trans hskips, ?_⟩
    rw [endsLine_comment rfl, Bool.false_or, hline]
    exact (or_iff_right hfeed).symm
  | @block offset body chars behind comments unclosed more ih =>
    obtain ⟨line, hskips, hline⟩ := ih (by omega)
    have hfeed : '\n' ∈ blockComment body ↔ body.contains '\n' = true := by
      simp [blockComment]
    refine ⟨body.contains '\n' || line, (skips_blockComment unclosed _).trans hskips, ?_⟩
    rw [endsLine_comment rfl, Bool.or_eq_true, hline, hfeed]

/-- The flag of a token tells whether a line ends in what is skipped in front of it. -/
lemma tokenAt_flagged (h : tokenAt regex cur = .ok (t, after)) (hstart : start ≤ cur.offset) :
    ∃ gap behind, cur.rest = gap ++ behind ∧ t.span.start = cur.offset + byteCount gap ∧
      (t.newlineBefore = true ↔ EndsLine start t.comments cur.offset gap) := by
  obtain ⟨gap, mid, hgap, -, ht⟩ := tokenAt_cases h
  obtain ⟨chars, hchars, hmid, hbetween⟩ := gapAt_ok hgap
  obtain ⟨line, hskips, hline⟩ := hbetween.skips_lines hstart
  obtain ⟨gap', hread, hflag, -⟩ := hskips.gapAt (gapAt_led hgap) hchars
  cases hgap.symm.trans hread
  rw [ht]
  exact ⟨chars, _, hchars, (offset_advance hchars).2, by rw [← hline, ← hflag]⟩

/-! ## Files -/

/-- In front of the place where the first token is looked for no line ends. -/
lemma firstCursor_noEnd (text : List Char) : ∃ front, text = front ++ (firstCursor text).rest ∧
    (firstCursor text).offset = byteCount front ∧
    ∀ comments, ¬ EndsLine (firstCursor text).offset comments 0 front := by
  obtain ⟨mark, line, hpreamble, hpassed⟩ := firstCursor_preamble text
  have hoffset : (firstCursor text).offset = byteCount (mark ++ line) :=
    hpassed.offset.trans (Nat.zero_add _)
  have hfeed : '\n' ∉ mark ++ line := by
    rw [List.mem_append, not_or]
    refine ⟨?_, ?_⟩
    · rcases hpreamble.mark with rfl | rfl <;> decide
    · rcases hpreamble.line with rfl | ⟨body, rfl, hbody, -⟩
      · exact List.not_mem_nil
      · simpa using hbody
  refine ⟨mark ++ line, hpassed.rest, hoffset, fun comments hend => ?_⟩
  exact hfeed ((endsLine_iff_lineFeed fun n _ hlt hle _ => by omega).mp hend)

/-- The token behind others is read where the last of them ends, or where the first token is looked for. -/
lemma tokenize_at {text : String} {earlier later : List Token}
    (h : tokenize text = .ok (earlier ++ t :: later)) :
    ∃ regex cur after passed, tokenAt regex cur = .ok (t, after) ∧
      Passed (firstCursor text.toList) passed cur ∧
      (earlier = [] ∧ cur = firstCursor text.toList ∨ earlier.getLast?.map (·.span.stop) = some cur.offset) := by
  obtain ⟨regex, cur, hscans, hmore⟩ := (tokenize_iff.mp h).split (List.cons_ne_nil t later)
  obtain ⟨after, htoken, -⟩ := hmore.cases
  obtain ⟨passed, hpassed⟩ := hscans.leads
  refine ⟨regex, cur, after, passed, htoken, hpassed, ?_⟩
  rcases List.eq_nil_or_concat' earlier with rfl | ⟨front, u, rfl⟩
  · cases hscans
    exact .inl ⟨rfl, rfl⟩
  · rw [List.getLast?_concat, Option.map_some, hscans.stop]
    exact .inr rfl

/-- A token's flag is set if a line ends between the token in front of it, or the start of the file, and
itself. It is exact if a line ends there wherever a line terminator stands there. -/
theorem newline_flag_iff {text : String} {earlier later : List Token}
    (h : tokenize text = .ok (earlier ++ t :: later)) :
    ∃ before gap behind, text.toList = before ++ (gap ++ behind) ∧
      byteCount before = (earlier.getLast?.map (·.span.stop)).getD 0 ∧
      byteCount (before ++ gap) = t.span.start ∧
      (t.newlineBefore = true ↔
        EndsLine (firstCursor text.toList).offset t.comments (byteCount before) gap) ∧
      ((t.newlineBefore = true ↔ ∃ c ∈ gap, isLineTerminator c = true) ↔
        ((∃ c ∈ gap, isLineTerminator c = true) →
          EndsLine (firstCursor text.toList).offset t.comments (byteCount before) gap)) := by
  obtain ⟨regex, cur, after, passed, htoken, hpassed, hcur⟩ := tokenize_at h
  obtain ⟨front, hfront, hoffset, hnone⟩ := firstCursor_noEnd text.toList
  obtain ⟨gap, behind, hgap, hstart, hflag⟩ := tokenAt_flagged htoken (hpassed.offset ▸ Nat.le_add_right _ _)
  have hexact : ∀ {ends terminated : Prop}, (t.newlineBefore = true ↔ ends) → (ends → terminated) →
      ((t.newlineBefore = true ↔ terminated) ↔ (terminated → ends)) := by
    intro ends terminated hends hin
    rw [hends]
    exact ⟨Iff.mpr, fun hback => ⟨hin, hback⟩⟩
  rcases hcur with ⟨rfl, rfl⟩ | hlast
  · -- The gap of the first token starts with the line for the system, in which no line ends.
    have hwhole : t.newlineBefore = true ↔
        EndsLine (firstCursor text.toList).offset t.comments 0 (front ++ gap) := by
      rw [hflag, endsLine_append, Nat.zero_add, ← hoffset]
      exact (or_iff_right (hnone t.comments)).symm
    refine ⟨[], front ++ gap, behind, ?_, rfl, ?_, hwhole, hexact hwhole EndsLine.terminator⟩
    · rw [List.nil_append, List.append_assoc, ← hgap, ← hfront]
    · rw [List.nil_append, byteCount_append, ← hoffset, hstart]
  · have hbefore : byteCount (front ++ passed) = cur.offset := by
      rw [byteCount_append, ← hoffset, hpassed.offset]
    rw [← hbefore] at hflag
    refine ⟨front ++ passed, gap, behind, ?_, ?_, ?_, hflag, hexact hflag EndsLine.terminator⟩
    · rw [List.append_assoc, ← hgap, ← hpassed.rest, ← hfront]
    · rw [hlast, hbefore, Option.getD_some]
    · rw [byteCount_append, hbefore, hstart]

/-- Two names with a comment between them that goes on to the next line. -/
def commentedLines : String :=
  "a/*\n*/b"

/-- A line feed in a comment ends a line. -/
theorem newline_flag_iff_commentedLines :
    ∃ a b ending, tokenize commentedLines = .ok [a, b, ending] ∧ b.newlineBefore = true ∧
      ∃ before gap behind, commentedLines.toList = before ++ (gap ++ behind) ∧ byteCount before = 1 ∧
        byteCount (before ++ gap) = 6 ∧ (b.newlineBefore = true ↔ EndsLine 0 b.comments 1 gap) := by
  have hread : tokenize commentedLines = .ok ([⟨.ident "a", ⟨0, 1⟩, ⟨1, 1⟩, false, []⟩] ++
      ⟨.ident "b", ⟨6, 7⟩, ⟨2, 3⟩, true, [⟨"\n", true, ⟨1, 6⟩⟩]⟩ :: [⟨.endOfFile, ⟨7, 7⟩, ⟨2, 4⟩, false, []⟩]) := by
    rfl
  obtain ⟨before, gap, behind, htext, hbefore, hgap, hflag, -⟩ := newline_flag_iff hread
  have hone : byteCount before = 1 := hbefore
  rw [hone] at hflag
  exact ⟨_, _, _, hread, rfl, before, gap, behind, htext, hone, hgap, hflag⟩

/-- A carriage return in the comment between two names ends no line. -/
theorem return_in_comment_ends_no_line :
    ∃ a b ending, tokenize "a/*\r*/b" = .ok [a, b, ending] ∧ a.span = ⟨0, 1⟩ ∧ b.span = ⟨6, 7⟩ ∧
      ¬ (b.newlineBefore = true ↔ ∃ c ∈ "/*\r*/".toList, isLineTerminator c = true) := by
  refine ⟨⟨.ident "a", ⟨0, 1⟩, ⟨1, 1⟩, false, []⟩,
    ⟨.ident "b", ⟨6, 7⟩, ⟨1, 7⟩, false, [⟨"\r", true, ⟨1, 6⟩⟩]⟩, ⟨.endOfFile, ⟨7, 7⟩, ⟨1, 8⟩, false, []⟩,
    rfl, rfl, rfl, fun hexact => ?_⟩
  exact Bool.false_ne_true (hexact.mpr ⟨'\r', by decide, by decide⟩)

end TaskRunner.Proofs
