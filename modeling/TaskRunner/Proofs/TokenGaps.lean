import TaskRunner.Source.Lexer
import TaskRunner.Proofs.ExceptSteps

/-!
# Between tokens

A cursor only moves forward, over whole characters, and it counts the bytes that it passes.

In front of a token stand blanks and comments. The comments are those that the token records, each one on
its own span with its own text, and nothing else but blanks is skipped. Only a block comment that is not
closed is an error there.
-/

namespace TaskRunner.Proofs
open Source

/-! ## Moving through a text -/

section Moves

/-- The bytes that characters take. -/
def byteCount : List Char → Nat
  | [] => 0
  | c :: rest => c.utf8Size + byteCount rest

@[simp] lemma byteCount_nil : byteCount [] = 0 := rfl

@[simp] lemma byteCount_cons (c : Char) (chars : List Char) :
    byteCount (c :: chars) = c.utf8Size + byteCount chars := rfl

@[simp] lemma byteCount_append (chars more : List Char) :
    byteCount (chars ++ more) = byteCount chars + byteCount more := by
  induction chars with
  | nil => exact (Nat.zero_add _).symm
  | cons c rest ih => rw [List.cons_append, byteCount_cons, byteCount_cons, ih, Nat.add_assoc]

lemma byteCount_pos {chars : List Char} (h : chars ≠ []) : 0 < byteCount chars := by
  obtain ⟨c, rest, rfl⟩ := List.exists_cons_of_ne_nil h
  rw [byteCount_cons]
  exact Nat.lt_of_lt_of_le (Char.utf8Size_pos c) (Nat.le_add_right _ _)

/-- Of two ends of fronts of one text the further one is behind the other. -/
lemma front_of_byteCount_le {front more front' more' : List Char}
    (h : front ++ more = front' ++ more') (hle : byteCount front ≤ byteCount front') :
    ∃ between, front' = front ++ between ∧ more = between ++ more' := by
  rcases List.append_eq_append_iff.mp h with ⟨between, hfront, hmore⟩ | ⟨between, hfront, hmore⟩
  · exact ⟨between, hfront, hmore⟩
  · rw [hfront, byteCount_append] at hle
    have hnone : between = [] := by
      cases between with
      | nil => rfl
      | cons c rest =>
        have hpos := byteCount_pos (List.cons_ne_nil c rest)
        omega
    subst hnone
    exact ⟨[], by simpa using hfront.symm, by simpa using hmore.symm⟩

lemma front_of_byteCount_eq {front more front' more' : List Char}
    (h : front ++ more = front' ++ more') (heq : byteCount front = byteCount front') :
    front = front' ∧ more = more' := by
  obtain ⟨between, hfront, hmore⟩ := front_of_byteCount_le h (Nat.le_of_eq heq)
  cases between with
  | nil => exact ⟨by rw [hfront, List.append_nil], hmore⟩
  | cons c between =>
    have hpos := byteCount_pos (List.cons_ne_nil c between)
    rw [hfront, byteCount_append] at heq
    omega

/-! ## Moving forward -/

/-- The characters passed on the way from one cursor to another. -/
structure Passed (a : Cursor) (chars : List Char) (b : Cursor) : Prop where
  rest : a.rest = chars ++ b.rest
  offset : b.offset = a.offset + byteCount chars

/-- The second cursor is reached from the first one by moving forward. -/
def Leads (a b : Cursor) : Prop :=
  ∃ chars, Passed a chars b

/-- The second cursor is reached from the first one by advancing over characters. -/
def Forward (a b : Cursor) : Prop :=
  ∃ n, b = a.advance n

variable {a b c cur after : Cursor}

lemma passed_nothing (a : Cursor) : Passed a [] a :=
  ⟨rfl, rfl⟩

lemma Passed.trans {chars more : List Char} (hab : Passed a chars b) (hbc : Passed b more c) :
    Passed a (chars ++ more) c := by
  refine ⟨?_, ?_⟩
  · rw [hab.rest, hbc.rest, List.append_assoc]
  · rw [hbc.offset, hab.offset, byteCount_append, Nat.add_assoc]

lemma Leads.rfl : Leads a a :=
  ⟨[], passed_nothing a⟩

lemma Leads.trans (hab : Leads a b) (hbc : Leads b c) : Leads a c := by
  obtain ⟨chars, hchars⟩ := hab
  obtain ⟨more, hmore⟩ := hbc
  exact ⟨chars ++ more, hchars.trans hmore⟩

lemma passed_advance (cur : Cursor) (n : Nat) : Passed cur (cur.rest.take n) (cur.advance n) := by
  induction n generalizing cur with
  | zero => exact passed_nothing cur
  | succ n ih =>
    obtain ⟨rest, offset, place⟩ := cur
    cases rest with
    | nil => exact passed_nothing _
    | cons ch rest =>
      have hrest := ih ⟨rest, offset + ch.utf8Size, place.past ch⟩
      refine ⟨?_, ?_⟩
      · rw [List.take_succ_cons, List.cons_append]
        exact congrArg (ch :: ·) hrest.rest
      · rw [Cursor.advance, hrest.offset, List.take_succ_cons, byteCount_cons, Nat.add_assoc]

lemma advance_rest (cur : Cursor) (n : Nat) : (cur.advance n).rest = cur.rest.drop n := by
  have hpassed := (passed_advance cur n).rest
  rw [← List.take_append_drop n cur.rest] at hpassed
  rw [List.take_append_drop] at hpassed
  exact (List.append_cancel_left ((List.take_append_drop n cur.rest).trans hpassed)).symm

lemma advance_shorter {ch : Char} {rest : List Char} {n : Nat} (h : cur.rest = ch :: rest)
    (hn : 0 < n) : (cur.advance n).rest.length < cur.rest.length := by
  rw [advance_rest, h, List.length_drop, List.length_cons]
  omega

lemma advance_advance (cur : Cursor) (m n : Nat) : (cur.advance m).advance n = cur.advance (m + n) := by
  induction m generalizing cur with
  | zero => rw [Nat.zero_add, Cursor.advance]
  | succ m ih =>
    obtain ⟨rest, offset, place⟩ := cur
    rw [Nat.succ_add]
    cases rest with
    | nil => cases n <;> rfl
    | cons ch rest => exact ih ⟨rest, offset + ch.utf8Size, place.past ch⟩

lemma leads_advance (cur : Cursor) (n : Nat) : Leads cur (cur.advance n) :=
  ⟨_, passed_advance cur n⟩

lemma Forward.leads (h : Forward a b) : Leads a b := by
  obtain ⟨n, rfl⟩ := h
  exact leads_advance a n

lemma Forward.rfl : Forward a a :=
  ⟨0, by rw [Cursor.advance]⟩

lemma Forward.trans (hab : Forward a b) (hbc : Forward b c) : Forward a c := by
  obtain ⟨m, rfl⟩ := hab
  obtain ⟨n, rfl⟩ := hbc
  exact ⟨m + n, advance_advance a m n⟩

lemma forward_advance (cur : Cursor) (n : Nat) : Forward cur (cur.advance n) :=
  ⟨n, Eq.refl _⟩

lemma Forward.length_le (h : Forward a b) : b.rest.length ≤ a.rest.length := by
  obtain ⟨n, rfl⟩ := h
  rw [advance_rest, List.length_drop]
  exact Nat.sub_le _ _

end Moves

section Gaps

variable {cur after : Cursor}

/-! ## Comments -/

/-- A line comment in the text. -/
def lineComment (body : List Char) : List Char :=
  '/' :: '/' :: body

/-- A block comment in the text. -/
def blockComment (body : List Char) : List Char :=
  '/' :: '*' :: (body ++ ['*', '/'])

/-- A comment ends a line here, or the text. -/
def LineEnds (chars : List Char) : Prop :=
  ∀ c ∈ chars.head?, c = '\n' ∨ c = '\r'

/-- The body of a block comment is not closed in it. -/
def Unclosed (body : List Char) : Prop :=
  ¬ ['*', '/'] <:+: body

/-- From a byte offset on stand comments, each one on its span, with nothing but blanks between them. What
is behind only tells where a line comment ends. -/
inductive Between : Nat → List Char → List Char → List Comment → Prop
  | nothing {offset : Nat} {behind : List Char} : Between offset [] behind []
  | blank {offset : Nat} {c : Char} {chars behind : List Char} {comments : List Comment}
      (blank : Text.isBlank c = true)
      (more : Between (offset + c.utf8Size) chars behind comments) :
      Between offset (c :: chars) behind comments
  | line {offset : Nat} {body chars behind : List Char} {comments : List Comment}
      (inLine : ∀ c ∈ body, c ≠ '\n' ∧ c ≠ '\r') (ends : LineEnds (chars ++ behind))
      (more : Between (offset + byteCount (lineComment body)) chars behind comments) :
      Between offset (lineComment body ++ chars) behind
        (⟨String.ofList body, false, ⟨offset, offset + byteCount (lineComment body)⟩⟩ :: comments)
  | block {offset : Nat} {body chars behind : List Char} {comments : List Comment}
      (unclosed : Unclosed body)
      (more : Between (offset + byteCount (blockComment body)) chars behind comments) :
      Between offset (blockComment body ++ chars) behind
        (⟨String.ofList body, true, ⟨offset, offset + byteCount (blockComment body)⟩⟩ :: comments)

lemma lineCommentBody_split (chars : List Char) :
    ∃ more, chars = lineCommentBody chars ++ more ∧ LineEnds more ∧
      ∀ c ∈ lineCommentBody chars, c ≠ '\n' ∧ c ≠ '\r' := by
  refine ⟨_, (List.takeWhile_append_dropWhile ..).symm, ?_, ?_⟩
  · intro c hc
    have hstop := List.head?_dropWhile_not (fun c => c != '\n' && c != '\r') chars
    rw [Option.mem_def.mp hc] at hstop
    by_cases hfeed : c = '\n'
    · exact .inl hfeed
    · exact .inr (by simpa [hfeed] using hstop)
  · intro c hc
    simpa using List.all_eq_true.mp List.all_takeWhile c hc

lemma unclosed_cons {c : Char} {body : List Char} (hbody : Unclosed body)
    (h : ¬ (c = '*' ∧ body.head? = some '/')) : Unclosed (c :: body) := by
  intro hinfix
  rcases List.infix_cons_iff.mp hinfix with hprefix | hinfix
  · obtain ⟨more, hmore⟩ := hprefix
    obtain ⟨rfl, hrest⟩ := List.cons.inj hmore
    exact h ⟨rfl, by rw [← hrest]; rfl⟩
  · exact hbody hinfix

lemma blockCommentBody_split {chars body : List Char} (h : blockCommentBody chars = some body) :
    (∃ more, chars = body ++ '*' :: '/' :: more) ∧ Unclosed body := by
  fun_induction blockCommentBody chars generalizing body with
  | case1 => cases h
  | case2 more =>
    cases h
    exact ⟨⟨more, rfl⟩, by simp [Unclosed]⟩
  | case3 c rest hclose ih =>
    obtain ⟨body, hbody, rfl⟩ := Option.map_eq_some_iff.mp h
    obtain ⟨⟨more, hmore⟩, hunclosed⟩ := ih hbody
    refine ⟨⟨more, by rw [List.cons_append, ← hmore]⟩, unclosed_cons hunclosed ?_⟩
    rintro ⟨rfl, hhead⟩
    obtain ⟨tail, rfl⟩ := List.head?_eq_some_iff.mp hhead
    exact hclose (tail ++ '*' :: '/' :: more) rfl hmore

lemma blockCommentBody_none {chars : List Char} (h : blockCommentBody chars = none) :
    Unclosed chars := by
  fun_induction blockCommentBody chars with
  | case1 => simp [Unclosed]
  | case2 => cases h
  | case3 c rest hclose ih =>
    refine unclosed_cons (ih (Option.map_eq_none_iff.mp h)) ?_
    rintro ⟨rfl, hhead⟩
    obtain ⟨tail, rfl⟩ := List.head?_eq_some_iff.mp hhead
    exact hclose tail rfl rfl

/-! ## Steps through a gap -/

lemma isBlank_of_isLineTerminator {c : Char} (h : isLineTerminator c = true) :
    Text.isBlank c = true := by
  simp only [isLineTerminator, Bool.or_eq_true, beq_iff_eq] at h
  rcases h with ((rfl | rfl) | rfl) | rfl <;> decide

lemma offset_advance {chars more : List Char} (h : cur.rest = chars ++ more) :
    (cur.advance chars.length).rest = more ∧
      (cur.advance chars.length).offset = cur.offset + byteCount chars := by
  have hpassed := passed_advance cur chars.length
  rw [h, List.take_left] at hpassed
  exact ⟨(List.append_cancel_left (h.symm.trans hpassed.rest)).symm, hpassed.offset⟩

/-- A blank or a comment at the cursor: whatever gap stands behind it is a gap with it in front. -/
structure GapPiece (cur : Cursor) (piece : List Char) (found : Option Comment) : Prop where
  here : cur.rest = piece ++ (cur.advance piece.length).rest
  between : ∀ {chars behind : List Char} {comments : List Comment},
    (cur.advance piece.length).rest = chars ++ behind →
    Between (cur.advance piece.length).offset chars behind comments →
    Between cur.offset (piece ++ chars) behind (found.toList ++ comments)

/-- The ways in which the reading of a gap goes on. -/
inductive GapStep (cur : Cursor) : Prop
  | piece {piece : List Char} {found : Option Comment} (isPiece : GapPiece cur piece found)
      (eq : ∀ fuel gap, ∃ newline, skipGap (fuel + 1) gap cur =
        skipGap fuel ⟨found.toList ++ gap.comments, newline⟩ (cur.advance piece.length))
  | open_ {rest : List Char} (here : cur.rest = '/' :: '*' :: rest) (unclosed : Unclosed rest)
      (eq : ∀ fuel gap, skipGap (fuel + 1) gap cur = .error (cur.fault .unterminatedComment))
  | done (eq : ∀ fuel gap, skipGap (fuel + 1) gap cur = .ok (gap, cur))

lemma lineComment_piece {body more : List Char} (here : cur.rest = lineComment body ++ more)
    (inLine : ∀ c ∈ body, c ≠ '\n' ∧ c ≠ '\r') (ends : LineEnds more) :
    GapPiece cur (lineComment body) (some ⟨String.ofList body, false,
      ⟨cur.offset, (cur.advance (lineComment body).length).offset⟩⟩) := by
  obtain ⟨hrest, hoffset⟩ := offset_advance here
  refine ⟨by rw [hrest, here], fun hmore hbetween => ?_⟩
  rw [hrest] at hmore
  subst hmore
  rw [hoffset] at hbetween ⊢
  exact .line inLine ends hbetween

lemma blockComment_piece {body more : List Char} (here : cur.rest = blockComment body ++ more)
    (unclosed : Unclosed body) :
    GapPiece cur (blockComment body) (some ⟨String.ofList body, true,
      ⟨cur.offset, (cur.advance (blockComment body).length).offset⟩⟩) := by
  obtain ⟨hrest, hoffset⟩ := offset_advance here
  refine ⟨by rw [hrest, here], fun _ hbetween => ?_⟩
  rw [hoffset] at hbetween ⊢
  exact .block unclosed hbetween

lemma blank_piece {c : Char} {more : List Char} (here : cur.rest = c :: more)
    (blank : Text.isBlank c = true) : GapPiece cur [c] none := by
  obtain ⟨hrest, hoffset⟩ : (cur.advance [c].length).rest = more ∧
      (cur.advance [c].length).offset = cur.offset + byteCount [c] := offset_advance here
  refine ⟨by rw [hrest, here]; rfl, fun _ hbetween => ?_⟩
  rw [hoffset] at hbetween
  exact .blank blank hbetween

lemma gapStep (cur : Cursor) : GapStep cur := by
  cases hrest : cur.rest with
  | nil => exact .done fun fuel gap => by simp [skipGap, hrest]
  | cons c rest =>
    by_cases hline : c = '/' ∧ rest.head? = some '/'
    · obtain ⟨rfl, hhead⟩ := hline
      obtain ⟨rest, rfl⟩ := List.head?_eq_some_iff.mp hhead
      obtain ⟨more, hsplit, hends, hbody⟩ := lineCommentBody_split rest
      have hlength : (lineComment (lineCommentBody rest)).length =
          2 + (lineCommentBody rest).length := by
        simp [lineComment]
        omega
      have hhere : cur.rest = lineComment (lineCommentBody rest) ++ more := by
        rw [hrest, lineComment, List.cons_append, List.cons_append, ← hsplit]
      refine .piece (lineComment_piece hhere hbody hends) fun fuel gap => ⟨gap.newline, ?_⟩
      rw [hlength]
      simp [skipGap, hrest]
    · by_cases hblock : c = '/' ∧ rest.head? = some '*'
      · obtain ⟨rfl, hhead⟩ := hblock
        obtain ⟨rest, rfl⟩ := List.head?_eq_some_iff.mp hhead
        cases hbody : blockCommentBody rest with
        | none =>
          exact .open_ hrest (blockCommentBody_none hbody) fun fuel gap => by
            simp [skipGap, hrest, hbody]
        | some body =>
          obtain ⟨⟨more, hmore⟩, hunclosed⟩ := blockCommentBody_split hbody
          have hlength : (blockComment body).length = 4 + body.length := by
            simp [blockComment]
            omega
          have hhere : cur.rest = blockComment body ++ more := by
            rw [hrest, hmore]
            simp [blockComment]
          refine .piece (blockComment_piece hhere hunclosed) fun fuel gap =>
            ⟨gap.newline || body.contains '\n', ?_⟩
          rw [hlength]
          simp [skipGap, hrest, hbody]
      · have hopen : ∀ fuel gap, skipGap (fuel + 1) gap cur =
            if isLineTerminator c then skipGap fuel ⟨gap.comments, true⟩ (cur.advance 1)
            else if Text.isBlank c then skipGap fuel gap (cur.advance 1)
            else .ok (gap, cur) := by
          intro fuel gap
          rw [skipGap]
          split
          · rename_i heq
            obtain ⟨hc, htail⟩ := List.cons.inj (hrest.symm.trans heq)
            exact absurd ⟨hc, by rw [htail]; rfl⟩ hline
          · rename_i heq
            obtain ⟨hc, htail⟩ := List.cons.inj (hrest.symm.trans heq)
            exact absurd ⟨hc, by rw [htail]; rfl⟩ hblock
          · rename_i heq
            obtain ⟨rfl, -⟩ := List.cons.inj (hrest.symm.trans heq)
            rfl
          · rename_i heq
            cases hrest.symm.trans heq
        by_cases hterminator : isLineTerminator c = true
        · exact .piece (blank_piece hrest (isBlank_of_isLineTerminator hterminator)) fun fuel gap =>
            ⟨true, by rw [hopen, if_pos hterminator]; rfl⟩
        · by_cases hblank : Text.isBlank c = true
          · exact .piece (blank_piece hrest hblank) fun fuel gap =>
              ⟨gap.newline, by rw [hopen, if_neg hterminator, if_pos hblank]; rfl⟩
          · exact .done fun fuel gap => by rw [hopen, if_neg hterminator, if_neg hblank]

/-! ## Gaps -/

/-- What is skipped in front of a token: the comments found are recorded, last one first. -/
lemma skipGap_ok {fuel : Nat} {gap gap' : Gap} (h : skipGap fuel gap cur = .ok (gap', after)) :
    ∃ chars comments, cur.rest = chars ++ after.rest ∧ after = cur.advance chars.length ∧
      gap'.comments = comments.reverse ++ gap.comments ∧
      Between cur.offset chars after.rest comments := by
  induction fuel generalizing gap cur with
  | zero =>
    cases h
    exact ⟨[], [], rfl, by rw [List.length_nil, Cursor.advance], rfl, .nothing⟩
  | succ fuel ih =>
    cases gapStep cur with
    | @piece piece found isPiece eq =>
      obtain ⟨newline, hstep⟩ := eq fuel gap
      rw [hstep] at h
      obtain ⟨chars, comments, hchars, hafter, hcomments, hbetween⟩ := ih h
      have hsingle : found.toList.reverse = found.toList := by cases found <;> rfl
      refine ⟨piece ++ chars, found.toList ++ comments, ?_, ?_, ?_, isPiece.between hchars hbetween⟩
      · rw [List.append_assoc, ← hchars, ← isPiece.here]
      · rw [hafter, advance_advance, List.length_append]
      · rw [hcomments, List.reverse_append, List.append_assoc, hsingle]
    | open_ _ _ eq =>
      rw [eq] at h
      cases h
    | done eq =>
      rw [eq] at h
      cases h
      exact ⟨[], [], rfl, by rw [List.length_nil, Cursor.advance], rfl, .nothing⟩

/-- The reading of a gap fails only at a block comment that is not closed, behind a gap without it. -/
lemma skipGap_error {fuel : Nat} {gap : Gap} {e : SyntaxError} (h : skipGap fuel gap cur = .error e) :
    ∃ skipped body comments, cur.rest = skipped ++ '/' :: '*' :: body ∧
      Between cur.offset skipped ('/' :: '*' :: body) comments ∧ Unclosed body ∧
      e = (cur.advance skipped.length).fault .unterminatedComment := by
  induction fuel generalizing gap cur with
  | zero => cases h
  | succ fuel ih =>
    cases gapStep cur with
    | @piece piece found isPiece eq =>
      obtain ⟨newline, hstep⟩ := eq fuel gap
      rw [hstep] at h
      obtain ⟨skipped, body, comments, hsplit, hbetween, hunclosed, rfl⟩ := ih h
      refine ⟨piece ++ skipped, body, found.toList ++ comments, ?_, isPiece.between hsplit hbetween,
        hunclosed, ?_⟩
      · rw [List.append_assoc, ← hsplit, ← isPiece.here]
      · rw [advance_advance, List.length_append]
    | @open_ rest here unclosed eq =>
      rw [eq] at h
      cases h
      exact ⟨[], rest, [], here, .nothing, unclosed, by rw [List.length_nil, Cursor.advance]⟩
    | done eq =>
      rw [eq] at h
      cases h

lemma gapAt_ok {gap : Gap} (h : gapAt cur = .ok (gap, after)) :
    ∃ chars, cur.rest = chars ++ after.rest ∧ after = cur.advance chars.length ∧
      Between cur.offset chars after.rest gap.comments.reverse := by
  obtain ⟨chars, comments, hchars, hafter, hcomments, hbetween⟩ := skipGap_ok h
  refine ⟨chars, hchars, hafter, ?_⟩
  rw [hcomments, List.append_nil, List.reverse_reverse]
  exact hbetween

lemma gapAt_forward {gap : Gap} (h : gapAt cur = .ok (gap, after)) : Forward cur after := by
  obtain ⟨chars, -, hafter, -⟩ := gapAt_ok h
  exact ⟨chars.length, hafter⟩

end Gaps

end TaskRunner.Proofs
