import TaskRunner.Proofs.RepeatedLexemes
import TaskRunner.Proofs.WrittenTokens

/-!
# Gaps in front of a change

Blanks and comments are skipped piece by piece, wherever they stand. What is behind a gap only tells where a
line comment ends, and that no further piece follows.
-/

namespace TaskRunner.Proofs
open Source

/-! ## Steps -/

lemma skipGap_line {cur : Cursor} {rest : List Char} (hcur : cur.rest = '/' :: '/' :: rest)
    (fuel : Nat) (gap : Gap) :
    ∃ span, skipGap (fuel + 1) gap cur =
      skipGap fuel ⟨⟨String.ofList (lineCommentBody rest), false, span⟩ :: gap.comments, gap.newline⟩
        (cur.advance (2 + (lineCommentBody rest).length)) := by
  obtain ⟨text, offset, place⟩ := cur
  cases hcur
  exact ⟨_, rfl⟩

lemma skipGap_block {cur : Cursor} {rest body : List Char} (hcur : cur.rest = '/' :: '*' :: rest)
    (hbody : blockCommentBody rest = some body) (fuel : Nat) (gap : Gap) :
    ∃ span, skipGap (fuel + 1) gap cur =
      skipGap fuel ⟨⟨String.ofList body, true, span⟩ :: gap.comments, gap.newline || body.contains '\n'⟩
        (cur.advance (4 + body.length)) := by
  obtain ⟨text, offset, place⟩ := cur
  cases hcur
  exact ⟨_, by rw [skipGap]; simp only [hbody]; rfl⟩

lemma skipGap_char {cur : Cursor} {c : Char} {rest : List Char} (hcur : cur.rest = c :: rest)
    (hcomment : ¬ (c = '/' ∧ (rest.head? = some '/' ∨ rest.head? = some '*'))) (fuel : Nat)
    (gap : Gap) :
    skipGap (fuel + 1) gap cur =
      if isLineTerminator c then skipGap fuel ⟨gap.comments, true⟩ (cur.advance 1)
      else if Text.isBlank c then skipGap fuel gap (cur.advance 1)
      else .ok (gap, cur) := by
  obtain ⟨text, offset, place⟩ := cur
  cases hcur
  rw [skipGap]
  dsimp only
  split
  · rename_i heq
    obtain ⟨rfl, rfl⟩ := List.cons.inj heq
    exact absurd ⟨rfl, .inl rfl⟩ hcomment
  · rename_i heq
    obtain ⟨rfl, rfl⟩ := List.cons.inj heq
    exact absurd ⟨rfl, .inr rfl⟩ hcomment
  · rename_i heq
    obtain ⟨rfl, -⟩ := List.cons.inj heq
    rfl
  · rename_i heq
    cases heq

/-- A blank, a line end or a comment comes next. -/
def gapLed (chars : List Char) : Bool :=
  match chars with
  | c :: rest =>
    (c == '/' && (rest.head? == some '/' || rest.head? == some '*')) || isLineTerminator c ||
      Text.isBlank c
  | [] => false

lemma Opens.gapLed {chars : List Char} (h : Opens chars) : gapLed chars = false := by
  cases chars with
  | nil => rfl
  | cons c rest =>
    obtain ⟨hslash, -, hterminator, hblank⟩ := h c rfl
    simp [Proofs.gapLed, hslash, hterminator, hblank]

lemma skipGap_stop {cur : Cursor} (h : gapLed cur.rest = false) (fuel : Nat) (gap : Gap) :
    skipGap fuel gap cur = .ok (gap, cur) := by
  cases fuel with
  | zero => rfl
  | succ fuel =>
    cases hcur : cur.rest with
    | nil =>
      obtain ⟨text, offset, place⟩ := cur
      cases hcur
      rfl
    | cons c rest =>
      rw [hcur] at h
      simp only [gapLed, Bool.or_eq_false_iff] at h
      obtain ⟨⟨hcomment, hterminator⟩, hblank⟩ := h
      rw [skipGap_char hcur]
      · simp [hterminator, hblank]
      · rintro ⟨rfl, hsecond⟩
        simp only [beq_self_eq_true, Bool.true_and, Bool.or_eq_false_iff, beq_eq_false_iff_ne] at hcomment
        exact hsecond.elim hcomment.1 hcomment.2

/-! ## Pieces that are skipped -/

/-- What a comment says, without where it stands. -/
def seen (c : Comment) : Comment :=
  ⟨c.text, c.isBlock, ⟨0, 0⟩⟩

/-- The text is skipped in front of what stands behind it. A line ends in it or not, and comments are found
in it. -/
def Skips (passed behind : List Char) (line : Bool) (found : List Comment) : Prop :=
  ∃ steps ≤ passed.length, ∀ fuel gap cur, cur.rest = passed ++ behind →
    ∃ gap', gap'.newline = (gap.newline || line) ∧
      gap'.comments.map seen = found.reverse ++ gap.comments.map seen ∧
      skipGap (fuel + steps) gap cur = skipGap fuel gap' (cur.advance passed.length)

variable {passed behind behind' more : List Char} {line line' : Bool}
  {found found' : List Comment}

lemma skips_nothing (behind : List Char) : Skips [] behind false [] :=
  ⟨0, Nat.le_refl 0, fun _ gap _ _ => ⟨gap, (Bool.or_false _).symm, rfl, rfl⟩⟩

lemma Skips.trans (h : Skips passed (more ++ behind) line found)
    (hmore : Skips more behind line' found') :
    Skips (passed ++ more) behind (line || line') (found ++ found') := by
  obtain ⟨steps, hsteps, hskip⟩ := h
  obtain ⟨steps', hsteps', hskip'⟩ := hmore
  refine ⟨steps' + steps, ?_, ?_⟩
  · rw [List.length_append]
    omega
  · intro fuel gap cur hcur
    rw [List.append_assoc] at hcur
    obtain ⟨gap₁, hline₁, hfound₁, hfirst⟩ := hskip (fuel + steps') gap cur hcur
    obtain ⟨gap₂, hline₂, hfound₂, hsecond⟩ := hskip' fuel gap₁ _ (advance_append hcur)
    refine ⟨gap₂, by rw [hline₂, hline₁, Bool.or_assoc], by simp [hfound₂, hfound₁], ?_⟩
    rw [← Nat.add_assoc, hfirst, hsecond, advance_advance, List.length_append]

lemma skips_blank {c : Char} (hblank : Text.isBlank c = true) (behind : List Char) :
    Skips [c] behind (isLineTerminator c) [] := by
  have hslash : c ≠ '/' := by
    rintro rfl
    revert hblank
    decide
  refine ⟨1, Nat.le_refl 1, fun fuel gap cur hcur => ?_⟩
  rw [skipGap_char hcur (fun h => hslash h.1)]
  cases hterminator : isLineTerminator c with
  | true => exact ⟨⟨gap.comments, true⟩, (Bool.or_true _).symm, rfl, if_pos rfl⟩
  | false =>
    refine ⟨gap, (Bool.or_false _).symm, rfl, ?_⟩
    rw [if_neg Bool.false_ne_true, if_pos hblank]
    rfl

lemma lineCommentBody_append {body : List Char} (hbody : ∀ c ∈ body, c ≠ '\n' ∧ c ≠ '\r')
    (hends : LineEnds behind) : lineCommentBody (body ++ behind) = body := by
  rw [lineCommentBody, List.takeWhile_append_of_pos fun c hc => by simpa using hbody c hc]
  cases behind with
  | nil => simp
  | cons c rest => rcases hends c rfl with rfl | rfl <;> simp

lemma skips_lineComment {body : List Char} (hbody : ∀ c ∈ body, c ≠ '\n' ∧ c ≠ '\r')
    (hends : LineEnds behind) :
    Skips (lineComment body) behind false [⟨String.ofList body, false, ⟨0, 0⟩⟩] := by
  refine ⟨1, by simp [lineComment], fun fuel gap cur hcur => ?_⟩
  have hcur : cur.rest = '/' :: '/' :: (body ++ behind) := hcur
  obtain ⟨span, hstep⟩ := skipGap_line hcur fuel gap
  have hlength : (lineComment body).length = 2 + body.length := Nat.add_comm _ 2
  rw [lineCommentBody_append hbody hends, ← hlength] at hstep
  exact ⟨⟨⟨_, false, span⟩ :: gap.comments, gap.newline⟩, (Bool.or_false _).symm, rfl, hstep⟩

lemma blockCommentBody_cons {c : Char} {rest : List Char}
    (h : ¬ (c = '*' ∧ rest.head? = some '/')) :
    blockCommentBody (c :: rest) = (blockCommentBody rest).map (c :: ·) := by
  rw [blockCommentBody]
  rintro more rfl rfl
  exact h ⟨rfl, rfl⟩

/-- A comment ends where its body is closed for the first time. -/
lemma blockCommentBody_append {body : List Char} (h : Unclosed body) (more : List Char) :
    blockCommentBody (body ++ '*' :: '/' :: more) = some body := by
  induction body with
  | nil => rfl
  | cons c body ih =>
    have hbody : Unclosed body := fun hinfix => h (List.infix_cons hinfix)
    rw [List.cons_append, blockCommentBody_cons, ih hbody]
    · rfl
    · rintro ⟨rfl, hhead⟩
      cases body with
      | nil => cases hhead
      | cons d body =>
        obtain rfl : d = '/' := Option.some.inj hhead
        exact h ⟨[], body, rfl⟩

lemma skips_blockComment {body : List Char} (hbody : Unclosed body) (behind : List Char) :
    Skips (blockComment body) behind (body.contains '\n') [⟨String.ofList body, true, ⟨0, 0⟩⟩] := by
  refine ⟨1, by simp [blockComment], fun fuel gap cur hcur => ?_⟩
  have hcur : cur.rest = '/' :: '*' :: (body ++ '*' :: '/' :: behind) := by
    simpa [blockComment] using hcur
  have hlength : (blockComment body).length = 4 + body.length := by
    simp [blockComment]
    omega
  obtain ⟨span, hstep⟩ := skipGap_block hcur (blockCommentBody_append hbody behind) fuel gap
  rw [← hlength] at hstep
  exact ⟨_, rfl, rfl, hstep⟩

/-! ## Gaps -/

lemma LineEnds.append {chars : List Char} (hends : LineEnds behind → LineEnds behind')
    (h : LineEnds (chars ++ behind)) : LineEnds (chars ++ behind') := by
  cases chars with
  | nil => exact hends h
  | cons c chars => exact h

/-- What stands between tokens is skipped in front of any text, if a line comment at its end still ends
there. -/
lemma Between.skips {offset : Nat} {comments : List Comment} (h : Between offset passed behind comments) :
    ∃ line, ∀ behind', (LineEnds behind → LineEnds behind') →
      Skips passed behind' line (comments.map seen) := by
  induction h with
  | nothing => exact ⟨false, fun behind' _ => skips_nothing behind'⟩
  | blank blank _ ih =>
    obtain ⟨line, hmore⟩ := ih
    exact ⟨_, fun behind' hends => (skips_blank blank _).trans (hmore behind' hends)⟩
  | line inLine ends _ ih =>
    obtain ⟨line, hmore⟩ := ih
    refine ⟨false || line, fun behind' hends => ?_⟩
    exact (skips_lineComment inLine (ends.append hends)).trans (hmore behind' hends)
  | block unclosed _ ih =>
    obtain ⟨line, hmore⟩ := ih
    exact ⟨_, fun behind' hends => (skips_blockComment unclosed _).trans (hmore behind' hends)⟩

/-- All that is skipped is skipped with enough fuel. -/
lemma Skips.gapAt (h : Skips passed behind line found) (hled : gapLed behind = false) {cur : Cursor}
    (hcur : cur.rest = passed ++ behind) :
    ∃ gap, Source.gapAt cur = .ok (gap, cur.advance passed.length) ∧ gap.newline = line ∧
      gap.comments.reverse.map seen = found := by
  obtain ⟨steps, hsteps, hskip⟩ := h
  have hfuel : cur.rest.length + 1 = (cur.rest.length + 1 - steps) + steps := by
    rw [hcur, List.length_append]
    omega
  obtain ⟨gap, hline, hfound, hread⟩ := hskip (cur.rest.length + 1 - steps) ⟨[], false⟩ cur hcur
  have hstop : gapLed (cur.advance passed.length).rest = false := by rwa [advance_append hcur]
  refine ⟨gap, ?_, by rw [hline, Bool.false_or], ?_⟩
  · rw [Source.gapAt, hfuel, hread, skipGap_stop hstop]
  · rw [List.map_reverse, hfound, List.map_nil, List.append_nil, List.reverse_reverse]

/-- With enough fuel, reading stops where nothing more is to be skipped. -/
lemma skipGap_led {fuel : Nat} {gap gap' : Gap} {cur mid : Cursor} (hfuel : cur.rest.length < fuel)
    (h : skipGap fuel gap cur = .ok (gap', mid)) : gapLed mid.rest = false := by
  induction fuel generalizing gap cur with
  | zero => exact absurd hfuel (Nat.not_lt_zero _)
  | succ fuel ih =>
    have hstop : gapLed cur.rest = false → gapLed mid.rest = false := by
      intro hled
      rw [skipGap_stop hled] at h
      cases h
      exact hled
    have hgo : ∀ {c : Char} {rest : List Char} {gap : Gap} {n : Nat}, cur.rest = c :: rest → 0 < n →
        skipGap fuel gap (cur.advance n) = .ok (gap', mid) → gapLed mid.rest = false := by
      intro c rest gap n hcur hn h
      have hshorter := advance_shorter hcur hn
      exact ih (by omega) h
    cases hcur : cur.rest with
    | nil => exact hstop (by rw [hcur]; rfl)
    | cons c rest =>
      by_cases hcomment : c = '/' ∧ (rest.head? = some '/' ∨ rest.head? = some '*')
      · obtain ⟨rfl, hhead | hhead⟩ := hcomment
        · obtain ⟨rest, rfl⟩ := List.head?_eq_some_iff.mp hhead
          obtain ⟨span, hstep⟩ := skipGap_line hcur fuel gap
          rw [hstep] at h
          exact hgo hcur (by omega) h
        · obtain ⟨rest, rfl⟩ := List.head?_eq_some_iff.mp hhead
          cases hbody : blockCommentBody rest with
          | none => simp [skipGap, hcur, hbody] at h
          | some body =>
            obtain ⟨span, hstep⟩ := skipGap_block hcur hbody fuel gap
            rw [hstep] at h
            exact hgo hcur (by omega) h
      · rw [skipGap_char hcur hcomment] at h
        split at h
        · exact hgo hcur Nat.one_pos h
        · rename_i hterminator
          split at h
          · exact hgo hcur Nat.one_pos h
          · rename_i hblank
            cases h
            have hfirst : (c == '/' && (rest.head? == some '/' || rest.head? == some '*')) = false := by
              simpa [Bool.eq_false_iff] using hcomment
            rw [hcur]
            simp [gapLed, hfirst, hterminator, hblank]

lemma gapAt_led {gap : Gap} {cur mid : Cursor} (h : Source.gapAt cur = .ok (gap, mid)) :
    gapLed mid.rest = false :=
  skipGap_led (Nat.lt_succ_self _) h

/-- A gap is read again in another place and in front of another text. -/
lemma gapAt_again {gap : Gap} {cur mid : Cursor} (h : Source.gapAt cur = .ok (gap, mid)) :
    ∃ passed, cur.rest = passed ++ mid.rest ∧ mid = cur.advance passed.length ∧
      ∀ {cur' : Cursor} {rest' : List Char}, cur'.rest = passed ++ rest' → gapLed rest' = false →
        (LineEnds mid.rest → LineEnds rest') →
        ∃ gap', Source.gapAt cur' = .ok (gap', cur'.advance passed.length) ∧
          gap'.newline = gap.newline ∧
          gap'.comments.reverse.map seen = gap.comments.reverse.map seen := by
  obtain ⟨passed, hpassed, hmid, hbetween⟩ := gapAt_ok h
  obtain ⟨line, hskips⟩ := hbetween.skips
  obtain ⟨gap₁, hread, hline, hfound⟩ := (hskips mid.rest id).gapAt (gapAt_led h) hpassed
  cases h.symm.trans hread
  refine ⟨passed, hpassed, hmid, fun hcur' hled hends => ?_⟩
  obtain ⟨gap', hread', hline', hfound'⟩ := (hskips _ hends).gapAt hled hcur'
  exact ⟨gap', hread', hline'.trans hline.symm, hfound'⟩

end TaskRunner.Proofs
