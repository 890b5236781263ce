import TaskRunner.Proofs.CheckedTokens

/-!
# Templates by byte offsets

A template's text is read character by character, and the tokens of a substitution in it are read as all
others are, with templates among them. The readers agree with the cursor by one induction on the fuel, and
so do the tokens of a whole text.
-/

namespace TaskRunner.Proofs
open Source

variable {text : String} {cur after : Cursor}

/-! ## Agreement up to a fuel -/

/-- The reading of a token by offsets agrees with that by the cursor, as far as the fuel reaches. -/
def TokenAgrees (text : String) (fuel : Nat) : Prop :=
  ∀ {regex : Bool} {cur : Cursor}, IsAt text cur → 3 * cur.rest.length + 1 ≤ fuel →
    checkedToken text fuel regex cur = lifted (tokenAt regex cur)

/-- A reading of a template's text from the cursor on agrees with that by the cursor, whatever fuel that
one has, if it is enough for the characters ahead. -/
def TextAgrees (text : String) (opened : Place) (cur : Cursor) (read : Cursor → Checked Cursor) : Prop :=
  ∀ {after : Cursor} {fuel : Nat}, IsAt text after → after.rest.length ≤ cur.rest.length →
    after.rest.length ≤ fuel → read after = lifted (templateText opened fuel after)

/-- The reading of a template's text by offsets agrees with that by the cursor. -/
def TemplateAgrees (text : String) (fuel : Nat) : Prop :=
  ∀ {opened : Place} {cur : Cursor}, 3 * cur.rest.length + 1 ≤ fuel →
    TextAgrees text opened cur (checkedTemplate text opened fuel)

/-- The reading of a substitution by offsets, and of the text behind it, agrees with that by the cursor. -/
def HoleAgrees (text : String) (fuel : Nat) : Prop :=
  ∀ {opened : Place} {depth : Nat} {regex : Bool} {cur : Cursor} {ample : Nat}
    {read : Cursor → Checked Cursor}, IsAt text cur → 3 * cur.rest.length + 2 ≤ fuel →
    cur.rest.length ≤ ample → TextAgrees text opened cur read →
    (checkedHole text opened fuel depth regex cur >>= read) =
      lifted (templateHole opened ample depth regex cur)

variable {fuel : Nat}

lemma TextAgrees.shorter {opened : Place} {read : Cursor → Checked Cursor}
    (h : TextAgrees text opened cur read) (hshorter : after.rest.length ≤ cur.rest.length) :
    TextAgrees text opened after read :=
  fun hat hlength hfuel => h hat (Nat.le_trans hlength hshorter) hfuel

/-- Fuel that is enough for the characters ahead makes no difference. -/
lemma TemplateAgrees.ample_eq (h : TemplateAgrees text fuel) (hat : IsAt text cur)
    (hfuel : 3 * cur.rest.length + 1 ≤ fuel) {opened : Place} {ample ample' : Nat}
    (hample : cur.rest.length ≤ ample) (hample' : cur.rest.length ≤ ample') :
    templateText opened ample cur = templateText opened ample' cur := by
  have hagrees : TextAgrees text opened cur (checkedTemplate text opened fuel) := h hfuel
  have heq := (hagrees hat (Nat.le_refl _) hample).symm.trans (hagrees hat (Nat.le_refl _) hample')
  cases hleft : templateText opened ample cur <;> cases hright : templateText opened ample' cur <;>
    rw [hleft, hright] at heq <;> cases heq <;> rfl

lemma tokenAt_gapFails {regex : Bool} {e : SyntaxError} (h : gapAt cur = .error e) :
    tokenAt regex cur = .error e := by
  rw [tokenAt, h]
  rfl

/-- The token that is found behind a gap, and the cursor behind it. -/
def tokenBehind (gap : Gap) (mid : Cursor) (found : Kind × Cursor) : Token × Cursor :=
  (⟨found.1, ⟨mid.offset, found.2.offset⟩, mid.place, gap.newline, gap.comments.reverse⟩, found.2)

lemma tokenAt_template {regex : Bool} {gap : Gap} {mid : Cursor} {rest : List Char}
    (h : gapAt cur = .ok (gap, mid)) (hrest : mid.rest = '\x60' :: rest) :
    tokenAt regex cur = (templateText mid.place (2 * mid.rest.length) (mid.advance 1)).map fun after =>
      tokenBehind gap mid (.template, after) := by
  rw [tokenAt, h]
  simp only [bind, Except.bind, hrest]
  cases templateText mid.place (2 * ('\x60' :: rest).length) (mid.advance 1) <;> rfl

lemma tokenAt_lexeme {regex : Bool} {gap : Gap} {mid : Cursor} (h : gapAt cur = .ok (gap, mid))
    (hno : ∀ rest, mid.rest ≠ '\x60' :: rest) :
    tokenAt regex cur = (lexemeAt regex mid).map (tokenBehind gap mid) := by
  rw [tokenAt, h]
  dsimp only [bind, Except.bind]
  split
  · rename_i heq
    exact absurd heq (hno _)
  · cases lexemeAt regex mid <;> rfl

/-- A reading that moves on, or comes to the end, gives the token. -/
lemma token_onward {mid : Cursor} (gap : Gap) (found : Kind × Cursor)
    (h : found.1 = .endOfFile ∨ mid.offset < found.2.offset) :
    ((do
      let _ ← if found.1 == .endOfFile then .ok found.2.offset else onward mid.offset found.2.offset
      .ok (tokenBehind gap mid found)) : Checked (Token × Cursor)) = .ok (tokenBehind gap mid found) := by
  by_cases hend : found.1 = .endOfFile
  · rw [if_pos (by simpa using hend)]
    rfl
  · rw [if_neg (by simpa using hend), onward_later (h.resolve_left hend)]
    rfl

/-- What is read behind a gap. -/
lemma IsAt.token_behind (h : IsAt text cur) {regex : Bool} {gap : Gap} {mid : Cursor}
    (hgap : gapAt cur = .ok (gap, mid)) :
    checkedToken text (fuel + 1) regex cur = (do
      let found ← match mid.rest with
        | '\x60' :: _ => do
          let first ← passOver text mid 1
          let after ← checkedTemplate text mid.place fuel first
          .ok (Kind.template, after)
        | _ => checkedLexemeAt text regex mid
      let _ ← if found.1 == .endOfFile then .ok found.2.offset else onward mid.offset found.2.offset
      .ok (tokenBehind gap mid found)) := by
  have hread : checkedGap text (cur.rest.length + 1) ⟨[], false⟩ cur = .ok (gap, mid) := by
    rw [h.gap_eq (Nat.lt_succ_self _), show skipGap (cur.rest.length + 1) ⟨[], false⟩ cur = _ from hgap]
    rfl
  rw [checkedToken, h.reopen_eq]
  dsimp only [bind, Except.bind]
  rw [hread]
  rfl

lemma tokenAgrees_succ (ih : TemplateAgrees text fuel) : TokenAgrees text (fuel + 1) := by
  intro regex cur h hfuel
  cases hgap : gapAt cur with
  | error e =>
    rw [checkedToken, h.reopen_eq, tokenAt_gapFails hgap]
    dsimp only [bind, Except.bind]
    rw [h.gap_eq (Nat.lt_succ_self _), show skipGap (cur.rest.length + 1) ⟨[], false⟩ cur = _ from hgap]
    rfl
  | ok found =>
    obtain ⟨gap, mid⟩ := found
    have hmid : IsAt text mid := h.forward (gapAt_forward hgap)
    have hlength : mid.rest.length ≤ cur.rest.length := (gapAt_forward hgap).length_le
    rw [h.token_behind hgap]
    split
    · rename_i rest hrest
      have hne : mid.rest ≠ [] := by rw [hrest]; exact List.cons_ne_nil _ _
      have hshorter := advance_shorter hrest Nat.one_pos
      have hread : checkedTemplate text mid.place fuel (mid.advance 1) =
          lifted (templateText mid.place (2 * mid.rest.length) (mid.advance 1)) :=
        ih (show 3 * (mid.advance 1).rest.length + 1 ≤ fuel by omega) (hmid.advance 1) (Nat.le_refl _)
          (by omega)
      rw [tokenAt_template hgap hrest, hmid.passOver_eq Nat.one_pos hne]
      dsimp only [bind, Except.bind]
      rw [hread]
      cases htext : templateText mid.place (2 * mid.rest.length) (mid.advance 1) with
      | error e => rfl
      | ok after =>
        have hmoved : mid.offset < after.offset :=
          Nat.lt_of_lt_of_le (offset_lt_advance Nat.one_pos hne)
            ((template_forward _).1 htext).leads.offset_le
        exact token_onward _ (.template, after) (.inr hmoved)
    · rename_i hno
      rw [tokenAt_lexeme hgap fun rest hrest => hno rest hrest, hmid.lexemeAt_eq]
      cases hlexeme : lexemeAt regex mid with
      | error e => rfl
      | ok found =>
        obtain ⟨kind, after⟩ := found
        obtain ⟨count, hcount, hafter⟩ := lexemeAt_ok hlexeme
        refine token_onward _ (kind, after) ?_
        rcases lexeme_cases hcount with ⟨hend, -⟩ | ⟨-, hne, hpos⟩
        · exact .inl hend
        · exact .inr (by rw [hafter]; exact offset_lt_advance hpos hne)

lemma templateAgrees_succ (ihText : TemplateAgrees text fuel) (ihHole : HoleAgrees text fuel) :
    TemplateAgrees text (fuel + 1) := by
  intro opened cur hfuel after ample h hlength hample
  rw [checkedTemplate, h.reopen_eq]
  dsimp only [bind, Except.bind]
  cases ample with
  | zero =>
    have hnil := List.eq_nil_of_length_eq_zero (Nat.le_zero.mp hample)
    rw [hnil]
    rfl
  | succ ample =>
    have hmore : ∀ {n : Nat}, 0 < n → after.rest ≠ [] →
        checkedTemplate text opened fuel (after.advance n) =
          lifted (templateText opened ample (after.advance n)) := by
      intro n hn hne
      obtain ⟨c, rest, hcons⟩ := List.exists_cons_of_ne_nil hne
      have hshorter := advance_shorter hcons hn
      exact ihText (show 3 * (after.advance n).rest.length + 1 ≤ fuel by omega) (h.advance n)
        (Nat.le_refl _) (by omega)
    cases textStep after with
    | ended nothing eq =>
      rw [eq, nothing]
      rfl
    | @closed rest close eq =>
      have hne : after.rest ≠ [] := by rw [close]; exact List.cons_ne_nil _ _
      rw [eq, close]
      exact h.passOver_eq Nat.one_pos hne
    | @inText last step eq =>
      rw [eq]
      cases step with
      | @escape rest escape moved =>
        have hne : after.rest ≠ [] := by rw [escape]; exact List.cons_ne_nil _ _
        rw [moved, ← hmore Nat.two_pos hne, escape, h.passOver_eq Nat.two_pos hne]
        rfl
      | @char ch rest char open_ plain noHole moved =>
        have hne : after.rest ≠ [] := by rw [char]; exact List.cons_ne_nil _ _
        rw [moved, ← hmore Nat.one_pos hne]
        split
        · rename_i heq
          exact absurd heq hne
        · rename_i heq
          exact absurd (List.cons.inj (char.symm.trans heq)).1 open_
        · rename_i heq
          exact absurd (List.cons.inj (char.symm.trans heq)).1 plain
        · rename_i heq
          obtain ⟨hch, hrest⟩ := List.cons.inj (char.symm.trans heq)
          exact absurd ⟨hch, by rw [hrest, List.head?_cons]⟩ noHole
        · rw [h.passOver_eq Nat.one_pos hne]
    | @hole rest hole eq =>
      have hne : after.rest ≠ [] := by rw [hole]; exact List.cons_ne_nil _ _
      have hshorter := advance_shorter hole Nat.two_pos
      rw [eq, hole, h.passOver_eq Nat.two_pos hne]
      exact ihHole (h.advance 2) (by omega) (by omega)
        fun hat hlength hfuel => ihText (by omega) hat (Nat.le_refl _) hfuel

lemma templateHole_nothing {opened : Place} {depth : Nat} {regex : Bool} (h : cur.rest = []) :
    templateHole opened 0 depth regex cur = templateHole opened 1 depth regex cur := by
  simp only [templateHole, gapAt, skipGap, h, bind, Except.bind]

lemma holeAgrees_succ (ihToken : TokenAgrees text fuel) (ihText : TemplateAgrees text fuel)
    (ihHole : HoleAgrees text fuel) : HoleAgrees text (fuel + 1) := by
  intro opened depth regex cur ample read h hfuel hample hread
  -- without fuel there are no characters either, and one more unit changes nothing
  obtain ⟨left, hleft, hlength⟩ : ∃ left, templateHole opened ample depth regex cur =
      templateHole opened (left + 1) depth regex cur ∧ cur.rest.length ≤ left + 1 := by
    cases ample with
    | zero =>
      have hnil := List.eq_nil_of_length_eq_zero (Nat.le_zero.mp hample)
      exact ⟨0, templateHole_nothing hnil, Nat.le_succ_of_le hample⟩
    | succ left => exact ⟨left, rfl, hample⟩
  have hmore : ∀ {depth : Nat} {regex : Bool} {after : Cursor}, IsAt text after →
      after.rest.length < cur.rest.length →
      (checkedHole text opened fuel depth regex after >>= read) =
        lifted (templateHole opened left depth regex after) :=
    fun hat hshorter => ihHole hat (by omega) (by omega) (hread.shorter (Nat.le_of_lt hshorter))
  rw [hleft, checkedHole, ihToken h (by omega)]
  cases holeStep depth regex cur with
  | gapFails hgap eq =>
    rw [eq, tokenAt_gapFails hgap]
    rfl
  | @ended gap mid hgap nothing eq =>
    rw [eq, tokenAt_lexeme hgap (by simp [nothing]), lexemeAt, nothing]
    rfl
  | @template gap mid rest hgap template eq =>
    have hmid : IsAt text mid := h.forward (gapAt_forward hgap)
    have hmidLength := (gapAt_forward hgap).length_le
    have hshorter := advance_shorter template Nat.one_pos
    have hsame : templateText mid.place (2 * mid.rest.length) (mid.advance 1) =
        templateText mid.place left (mid.advance 1) :=
      ihText.ample_eq (hmid.advance 1) (by omega) (by omega) (by omega)
    rw [eq, tokenAt_template hgap template, hsame]
    cases htext : templateText mid.place left (mid.advance 1) with
    | error e => rfl
    | ok behind =>
      have hforward := (template_forward _).1 htext
      have hbehind : behind.rest.length < cur.rest.length := by
        have := hforward.length_le
        omega
      exact hmore ((hmid.advance 1).forward hforward) hbehind
  | @lexemeFails gap mid e hgap noTemplate hlexeme eq =>
    rw [eq, tokenAt_lexeme hgap noTemplate, hlexeme]
    rfl
  | @lexeme gap mid behind kind hgap something noTemplate hlexeme eq =>
    have hmid : IsAt text mid := h.forward (gapAt_forward hgap)
    have hmidLength := (gapAt_forward hgap).length_le
    have hshorter : behind.rest.length < cur.rest.length :=
      Nat.lt_of_lt_of_le (lexemeAt_shorter hlexeme something) hmidLength
    have hbehind : IsAt text behind := hmid.forward (lexemeAt_forward hlexeme)
    have hkind : kind ≠ .endOfFile := by
      obtain ⟨count, hcount, -⟩ := lexemeAt_ok hlexeme
      rcases lexeme_cases hcount with ⟨-, hnil⟩ | ⟨hkind, -⟩
      · exact absurd hnil something
      · exact hkind
    rw [eq, tokenAt_lexeme hgap noTemplate, hlexeme]
    change ((if kind == .endOfFile then _ else _) >>= read) = _
    rw [if_neg (by simpa using hkind)]
    cases depthBehind depth kind with
    | none =>
      have hleast : behind.rest.length ≤ left := by omega
      exact hread hbehind (Nat.le_of_lt hshorter) hleast
    | some depth => exact hmore hbehind hshorter

/-- Tokens, templates and substitutions are read alike by offsets and by the cursor. -/
lemma tokens_agree (fuel : Nat) :
    TokenAgrees text fuel ∧ TemplateAgrees text fuel ∧ HoleAgrees text fuel := by
  induction fuel with
  | zero =>
    refine ⟨?_, ?_, ?_⟩
    · intro regex cur h hfuel
      omega
    · intro opened cur hfuel
      omega
    · intro opened depth regex cur ample read h hfuel
      omega
  | succ fuel ih =>
    obtain ⟨ihToken, ihText, ihHole⟩ := ih
    exact ⟨tokenAgrees_succ ihText, templateAgrees_succ ihText ihHole,
      holeAgrees_succ ihToken ihText ihHole⟩

/-! ## The tokens of a text -/

lemma tokenAt_forward {regex : Bool} {t : Token} (h : tokenAt regex cur = .ok (t, after)) :
    Leads cur after := by
  obtain ⟨mid, gap, lexeme, hread⟩ := tokenAt_ok h
  exact ⟨_, hread.skips.trans hread.takes⟩

lemma IsAt.tokens_eq {regex : Bool} (h : IsAt text cur) (hfuel : cur.rest.length < fuel) :
    checkedTokens text fuel regex cur = lifted (tokensFrom fuel regex cur) := by
  induction fuel generalizing regex cur with
  | zero => exact absurd hfuel (Nat.not_lt_zero _)
  | succ fuel ih =>
    rw [checkedTokens, (tokens_agree _).1 h (Nat.le_refl _), tokensFrom]
    cases htoken : tokenAt regex cur with
    | error e => rfl
    | ok found =>
      obtain ⟨t, after⟩ := found
      dsimp only [lifted_ok, bind, Except.bind]
      by_cases hend : t.kind = .endOfFile
      · rw [if_pos (by simpa using hend), if_pos (by simpa using hend)]
        rfl
      · have hshorter := tokenAt_shorter htoken hend
        rw [if_neg (by simpa using hend), if_neg (by simpa using hend),
          ih (Leads.trans h (tokenAt_forward htoken)) (by omega)]
        cases tokensFrom fuel t.kind.regexMayFollow after <;> rfl

/-- The tokens read by byte offsets are those that the cursor reads. -/
lemma checkedTokenize_eq (text : String) : checkedTokenize text = lifted (tokenize text) := by
  have hmark : IsAt text (behindMark text.toList) := by
    obtain ⟨mark, -, hpassed⟩ := behindMark_passed text.toList
    exact ⟨mark, hpassed⟩
  have hfirst : IsAt text (firstCursor text.toList) := firstCursor_passed text.toList
  rw [checkedTokenize, hmark.reopen_eq]
  dsimp only [bind, Except.bind]
  split
  · rename_i more hrest
    have hne : (behindMark text.toList).rest ≠ [] := by rw [hrest]; exact List.cons_ne_nil _ _
    have hpos : 0 < countWhile (· != '\n') (behindMark text.toList).rest := by
      rw [hrest]
      simp [countWhile]
    have hcur : firstCursor text.toList = (behindMark text.toList).advance
        (countWhile (· != '\n') (behindMark text.toList).rest) := by
      rw [firstCursor_eq, pastFirstLine]
      split
      · rfl
      · rename_i hno
        exact absurd hrest (hno _)
    rw [hmark.passOver_eq hpos hne, ← hcur]
    exact hfirst.tokens_eq (Nat.lt_succ_self _)
  · rename_i hno
    have hcur : firstCursor text.toList = behindMark text.toList := by
      rw [firstCursor_eq, pastFirstLine]
      split
      · exact absurd ‹_› (hno _)
      · rfl
    rw [← hcur]
    exact hfirst.tokens_eq (Nat.lt_succ_self _)

end TaskRunner.Proofs
