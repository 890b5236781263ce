import TaskRunner.Proofs.LexicalFaults
import TaskRunner.Proofs.ReaderComplaints

/-!
# Where a file is refused

The tokens of a file are refused at the first one that does not fit to the brackets open before it, and
otherwise in the first statement that cannot be read. So a complaint about a file is about a fault of its
text or about such a token, and has the place of that.
-/

namespace TaskRunner.Proofs
open Source Tree

/-! ## Brackets that do not fit -/

/-- The brackets that are open behind tokens, the innermost one first. -/
inductive Opened : List Token → List Token → Prop
  | start : Opened [] []
  | opener {before opened : List Token} {t : Token} {mark : String} (here : Opened before opened)
      (kind : t.kind = .punct mark) (opens : isOpener mark = true) : Opened (before ++ [t]) (t :: opened)
  | closer {before opened : List Token} {opener t : Token} {mark expected : String}
      (here : Opened before (opener :: opened)) (kind : t.kind = .punct mark)
      (closes : openerOf mark = some expected) (fits : opener.isPunct expected = true) :
      Opened (before ++ [t]) opened
  | other {before opened : List Token} {t : Token} (here : Opened before opened)
      (kind : ∀ mark, t.kind = .punct mark → isOpener mark = false ∧ openerOf mark = none) :
      Opened (before ++ [t]) opened

/-- The token does not fit to the brackets that are open: the file ends in a group, or a closing bracket
closes no group or one that another bracket opens. -/
inductive Misfits (opened : List Token) (t : Token) : Prop
  | ending (kind : t.kind = .endOfFile) (inGroup : opened ≠ [])
  | closer {mark expected : String} (kind : t.kind = .punct mark) (closes : openerOf mark = some expected)
      (other : ∀ opener ∈ opened.head?, opener.isPunct expected = false)

/-- One of the tokens behind those that have been passed is the first that does not fit to the brackets
open before it, and the complaint is about it. -/
def AboutBracket (passed tokens : List Token) (e : SyntaxError) : Prop :=
  ∃ front t behind opened, tokens = front ++ t :: behind ∧ Opened (passed ++ front) opened ∧
    Misfits opened t ∧ e = unexpected t

lemma AboutBracket.next {passed rest : List Token} {t : Token} {e : SyntaxError}
    (h : AboutBracket (passed ++ [t]) rest e) : AboutBracket passed (t :: rest) e := by
  obtain ⟨front, u, behind, opened, rfl, hopened, hmisfits, he⟩ := h
  exact ⟨t :: front, u, behind, opened, rfl, by simpa using hopened, hmisfits, he⟩

lemma nestFrom_error {outer : List (Token × List Tree)} {level : List Tree} {passed rest : List Token}
    {e : SyntaxError} (hopened : Opened passed (outer.map Prod.fst))
    (h : nestFrom outer level rest = .error e) : AboutBracket passed rest e := by
  induction rest generalizing outer level passed with
  | nil => cases h
  | cons t rest ih =>
    have hhere : Misfits (outer.map Prod.fst) t → AboutBracket passed (t :: rest) (unexpected t) :=
      fun hmisfits => ⟨[], t, rest, _, rfl, by rwa [List.append_nil], hmisfits, rfl⟩
    unfold nestFrom at h
    split at h
    · rename_i hend
      split at h
      · cases h
      · rename_i hne
        cases h
        exact hhere (.ending hend fun hnil => hne (List.map_eq_nil_iff.mp hnil))
    · rename_i mark hmark
      split at h
      · exact (ih (hopened.opener hmark ‹_›) h).next
      · rename_i hopens
        split at h
        · rename_i hcloses
          refine (ih (hopened.other fun mark' hmark' => ?_) h).next
          obtain rfl := Kind.punct.inj (hmark.symm.trans hmark')
          exact ⟨Bool.eq_false_iff.mpr hopens, hcloses⟩
        · rename_i expected hcloses
          split at h
          · cases h
            refine hhere (.closer hmark hcloses fun o ho => ?_)
            cases ho
          · rename_i opener inside further
            split at h
            · rename_i hfits
              exact (ih (hopened.closer hmark hcloses hfits) h).next
            · rename_i hother
              cases h
              refine hhere (.closer hmark hcloses fun o ho => ?_)
              cases ho
              exact Bool.eq_false_iff.mpr hother
    · rename_i hpunct
      exact (ih (hopened.other fun mark hmark => absurd hmark (hpunct mark)) h).next

/-! ## Statements that cannot be read -/

/-- Statements are read one behind the other, up to one that cannot be read. -/
inductive StopsAt (after : Token) (e : SyntaxError) : Outline → List Tree → List Tree → Prop
  | here {o : Outline} {t : Tree} {rest : List Tree} (fails : statement after o (t :: rest) = .error e) :
      StopsAt after e o (t :: rest) (t :: rest)
  | next {o o₁ : Outline} {t : Tree} {trees behind rest : List Tree}
      (read : statement after o (t :: trees) = .ok (o₁, behind)) (more : StopsAt after e o₁ behind rest) :
      StopsAt after e o (t :: trees) rest

section
variable {after : Token} {o : Outline} {trees rest : List Tree} {e : SyntaxError}

lemma statements_error {fuel : Nat} (h : statements after fuel o trees = .error e) :
    ∃ rest, StopsAt after e o trees rest := by
  induction fuel generalizing o trees with
  | zero => cases h
  | succ fuel ih =>
    cases trees with
    | nil => cases h
    | cons t trees =>
      rw [statements] at h
      cases hread : statement after o (t :: trees) with
      | error e' =>
        rw [hread] at h
        cases h
        exact ⟨_, .here hread⟩
      | ok found =>
        rw [hread] at h
        obtain ⟨rest, hstops⟩ := ih h
        exact ⟨rest, .next hread hstops⟩

lemma StopsAt.suffix (hafter : after.kind = .endOfFile) (hmarks : OpenedByMarks trees)
    (h : StopsAt after e o trees rest) : rest <:+ trees := by
  induction h with
  | here => exact List.suffix_rfl
  | @next _ _ t trees _ _ read _ ih =>
    have hbehind := (statement_suffix hafter hmarks read).trans (List.suffix_cons t trees)
    exact (ih (hmarks.suffix hbehind)).trans hbehind

/-- The complaint is about a token of what could not be read, or about the one behind. -/
lemma StopsAt.blames (h : StopsAt after e o trees rest) :
    ∃ t ∈ tokensOfAll rest ++ [after], Blames t e := by
  induction h with
  | @here o t rest fails =>
    have hblaming := statement_blaming (o := o)
      (List.mem_append_right (tokensOfAll (t :: rest)) (List.mem_singleton_self after))
      (List.subset_append_left (tokensOfAll (t :: rest)) [after])
    rw [fails] at hblaming
    exact hblaming
  | next _ _ ih => exact ih

end

/-! ## Files that are refused -/

/-- The token at which the tokens of a file are refused: the first that does not fit to the brackets open
before it, or one of what is left where a statement cannot be read, the end of the file included. -/
inductive RefusedAt (tokens : List Token) (t : Token) (e : SyntaxError) : Prop
  | bracket {before behind opened : List Token} (split : tokens = before ++ t :: behind)
      (brackets : Opened before opened) (misfits : Misfits opened t) (about : e = unexpected t)
  | statement {nested : Nested} {rest : List Tree} (fits : nest tokens = .ok nested)
      (stops : StopsAt nested.ending e .empty nested.trees rest) (suffix : rest <:+ nested.trees)
      (left : t ∈ tokensOfAll rest ++ [nested.ending]) (blames : Blames t e)

lemma RefusedAt.blames {tokens : List Token} {t : Token} {e : SyntaxError} (h : RefusedAt tokens t e) :
    Blames t e := by
  cases h with
  | bracket _ _ _ about => exact .inl about
  | statement _ _ _ _ blames => exact blames

/-- Behind its tokens a file is refused only at one of them. -/
lemma ofText_error {text : String} {tokens : List Token} {e : SyntaxError}
    (htokens : tokenize text = .ok tokens) (h : File.ofText text = .error e) :
    ∃ t ∈ tokens, RefusedAt tokens t e := by
  unfold File.ofText at h
  rw [htokens, ok_bind] at h
  cases hnested : nest tokens with
  | error e' =>
    rw [hnested] at h
    cases h
    obtain ⟨before, t, behind, opened, rfl, hopened, hmisfits, rfl⟩ := nestFrom_error .start hnested
    exact ⟨t, by simp, .bracket rfl hopened hmisfits rfl⟩
  | ok nested =>
    obtain ⟨hsplit, hending⟩ := nest_tokens (tokenize_tiles htokens) hnested
    have houtline : outlineOf nested = .error e := by
      rw [hnested, ok_bind] at h
      cases houtline : outlineOf nested with
      | ok o =>
        rw [houtline] at h
        cases h
      | error e' =>
        rw [houtline] at h
        cases h
        rfl
    obtain ⟨rest, hstops⟩ := statements_error houtline
    have hsuffix := hstops.suffix hending (nest_openedByMarks hnested)
    obtain ⟨t, hleft, hblames⟩ := hstops.blames
    refine ⟨t, ?_, .statement hnested hstops hsuffix hleft hblames⟩
    obtain ⟨earlier, hearlier⟩ := hsuffix
    rw [hsplit, ← hearlier, tokensOfAll_append, List.append_assoc]
    exact List.mem_append_right _ hleft

/-- Lines and columns are those counted from scratch. A token has the place of the start of its span. A
complaint about a text has the place where a construct of it opens that is not closed, or where no token
can be read, or else the place of the token at which the file is refused. -/
theorem places_are_true (text : String) :
    (∀ tokens, tokenize text = .ok tokens → ∀ t ∈ tokens, ∃ before behind,
      text.toList = before ++ behind ∧ t.span.start = byteCount before ∧ t.place = placeBehind before) ∧
    ∀ e, File.ofText text = .error e → ∃ before behind,
      text.toList = before ++ behind ∧ e.place = placeBehind before ∧
      ((∃ cur, FaultAt text.toList e.fault cur ∧ cur.offset = byteCount before ∧ cur.rest = behind ∧
          StartsFault e.fault behind) ∨
        ∃ tokens t, tokenize text = .ok tokens ∧ t ∈ tokens ∧ t.span.start = byteCount before ∧
          RefusedAt tokens t e) := by
  refine ⟨fun tokens htokens => tokenize_truePlaces htokens, ?_⟩
  intro e he
  cases htokens : tokenize text with
  | error e' =>
    have hsame : e' = e := by
      unfold File.ofText at he
      rw [htokens] at he
      exact Except.error.inj he
    subst hsame
    obtain ⟨cur, hfault, hplace⟩ := tokenize_error htokens
    obtain ⟨⟨before, hchars, hoffset, hcounted, -⟩, hstarts⟩ := hfault.located
    exact ⟨before, cur.rest, hchars, hplace.trans hcounted, .inl ⟨cur, hfault, hoffset, rfl, hstarts⟩⟩
  | ok tokens =>
    obtain ⟨t, ht, hrefused⟩ := ofText_error htokens he
    obtain ⟨before, behind, hchars, hstart, hplace⟩ := tokenize_truePlaces htokens t ht
    have hthere := hrefused.blames.place.trans hplace
    exact ⟨before, behind, hchars, hthere, .inr ⟨tokens, t, rfl, ht, hstart, hrefused⟩⟩

/-- A text with a byte order mark and two lines. -/
def twoLines : String :=
  "\ufefflet é =\n\t/* ü */ é"

/-- A text that is not closed in a substitution of a template, which is not closed either. -/
def unclosedText : String :=
  "\ufeff/* a\n */ let a = \x60x$\x7b\n 'b\x60 + 1\n"

/-- A name that is declared again. -/
def declaredAgain : String :=
  "let é = (1)\nconst \x7b x: [é] \x7d = x\n"

/-- Columns count characters, and complaints have the places of the quote and of the second name. -/
theorem places_are_true_twoLines_unclosedText :
    (∃ tokens, tokenize twoLines = .ok tokens ∧
      tokens.map (·.place) = [⟨1, 1⟩, ⟨1, 5⟩, ⟨1, 7⟩, ⟨2, 10⟩, ⟨2, 11⟩] ∧
      ∀ t ∈ tokens, ∃ before behind, twoLines.toList = before ++ behind ∧
        t.span.start = byteCount before ∧ t.place = placeBehind before) ∧
    (File.ofText unclosedText = .error ⟨.unterminatedString, ⟨3, 2⟩⟩ ∧
      ∃ before quote body, unclosedText.toList = before ++ quote :: body ∧
        placeBehind before = ⟨3, 2⟩ ∧ (quote = '"' ∨ quote = '\'') ∧
        ∃ cur, FaultAt unclosedText.toList .unterminatedString cur ∧ cur.rest = quote :: body) ∧
    File.ofText declaredAgain = .error ⟨.duplicateDeclaration "é", ⟨2, 13⟩⟩ ∧
    ∃ before behind tokens t, declaredAgain.toList = before ++ behind ∧ placeBehind before = ⟨2, 13⟩ ∧
      tokenize declaredAgain = .ok tokens ∧ t ∈ tokens ∧ t.span.start = byteCount before ∧
      RefusedAt tokens t ⟨.duplicateDeclaration "é", ⟨2, 13⟩⟩ := by
  have hagain : File.ofText declaredAgain = .error ⟨.duplicateDeclaration "é", ⟨2, 13⟩⟩ :=
    error_of_failure? (by decide +kernel)
  refine ⟨⟨_, rfl, rfl, (places_are_true twoLines).1 _ rfl⟩, ⟨rfl, ?_⟩, hagain, ?_⟩
  · have hfault : tokenize unclosedText = .error ⟨.unterminatedString, ⟨3, 2⟩⟩ := rfl
    obtain ⟨before, behind, hchars, hplace, ⟨cur, hat, -, hrest, hstarts⟩ | ⟨tokens, t, htokens, -⟩⟩ :=
      (places_are_true unclosedText).2 ⟨.unterminatedString, ⟨3, 2⟩⟩ rfl
    · obtain ⟨quote, body, rfl, hquote, -⟩ := hstarts
      exact ⟨before, quote, body, hchars, hplace.symm, hquote, cur, hat, hrest⟩
    · rw [hfault] at htokens
      cases htokens
  · obtain ⟨before, behind, hchars, hplace, ⟨cur, -, -, -, hnever⟩ | ⟨tokens, t, htokens, ht, hstart, hat⟩⟩ :=
      (places_are_true declaredAgain).2 _ hagain
    · exact hnever.elim
    · exact ⟨before, behind, tokens, t, hchars, hplace.symm, htokens, ht, hstart, hat⟩

end TaskRunner.Proofs
