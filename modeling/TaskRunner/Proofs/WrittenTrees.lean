import TaskRunner.Proofs.NestedTokens
import TaskRunner.Proofs.WrittenTokens

/-!
# Written trees

A text is read piece by piece: what a piece is read as depends on the piece and on what follows it, not on
what was read before. Pieces that follow each other are read as the trees of the one behind those of the
other, and a bracketed piece as one group.
-/

namespace TaskRunner.Proofs
open Source Tree

variable {regex regex' regex'' : Bool} {cur mid last : Cursor} {tokens more : List Token}

/-! ## Runs of trees -/

/-- The tokens are nested as the trees, in whatever group they stand. -/
def Nests (tokens : List Token) (trees : List Tree) : Prop :=
  ∀ outer level rest,
    nestFrom outer level (tokens ++ rest) = nestFrom outer (trees.reverse ++ level) rest

lemma nests_nil : Nests [] [] :=
  fun _ _ _ => rfl

lemma Nests.append {trees moreTrees : List Tree} (h : Nests tokens trees)
    (hmore : Nests more moreTrees) : Nests (tokens ++ more) (trees ++ moreTrees) := by
  intro outer level rest
  rw [List.append_assoc, h, hmore, List.reverse_append, List.append_assoc]

/-- A mark that is neither an opening nor a closing bracket. -/
def IsPlainMark (mark : String) : Prop :=
  isOpener mark = false ∧ openerOf mark = none

lemma nests_leaf {t : Token} (hend : t.kind ≠ .endOfFile)
    (hplain : ∀ mark, t.kind = .punct mark → IsPlainMark mark) : Nests [t] [leaf t] := by
  intro outer level rest
  rw [List.singleton_append]
  conv_lhs => unfold nestFrom
  split
  · exact absurd ‹_› hend
  · rename_i mark hmark
    obtain ⟨hopener, hcloser⟩ := hplain mark hmark
    simp [hopener, hcloser]
  · rfl

lemma nests_group {opener closer : Token} {mark mark' : String} {inside : List Tree}
    (hopener : opener.kind = .punct mark) (hcloser : closer.kind = .punct mark')
    (hisOpener : isOpener mark = true) (hisCloser : isOpener mark' = false)
    (hmatch : openerOf mark' = some mark) (h : Nests tokens inside) :
    Nests (opener :: (tokens ++ [closer])) [group opener inside closer] := by
  intro outer level rest
  have hopens : nestFrom outer level (opener :: (tokens ++ [closer] ++ rest)) =
      nestFrom ((opener, level) :: outer) [] (tokens ++ [closer] ++ rest) := by
    conv_lhs => unfold nestFrom
    simp [hopener, hisOpener]
  have hcloses : nestFrom ((opener, level) :: outer) (inside.reverse ++ []) (closer :: rest) =
      nestFrom outer (group opener inside closer :: level) rest := by
    conv_lhs => unfold nestFrom
    simp [hcloser, hisCloser, hmatch, Token.isPunct, hopener]
  rw [List.cons_append, hopens, List.append_assoc, h, List.singleton_append, hcloses]
  rfl

/-! ## Pieces of a text -/

def Spaces (chars : List Char) : Prop :=
  ∀ c ∈ chars, c = ' '

lemma spaces_nil : Spaces [] :=
  fun _ hc => absurd hc List.not_mem_nil

lemma Spaces.append {chars more : List Char} (h : Spaces chars) (hmore : Spaces more) :
    Spaces (chars ++ more) := by
  intro c hc
  rcases List.mem_append.mp hc with hc | hc
  · exact h c hc
  · exact hmore c hc

/-- In front of `rest`, and behind any spaces, the characters are read as trees with the property. -/
def ReadAs (chars rest : List Char) (P : List Tree → Prop) : Prop :=
  ∀ regex cur spaces, Spaces spaces → cur.rest = spaces ++ (chars ++ rest) →
    ∃ tokens trees regex' last spaces', Scans regex cur tokens regex' last ∧ Spaces spaces' ∧
      last.rest = spaces' ++ rest ∧ Nests tokens trees ∧ P trees

variable {chars moreChars rest : List Char} {P Q : List Tree → Prop}

lemma readAs_nothing (hP : P []) : ReadAs [] rest P :=
  fun _ _ spaces hspaces hcur => ⟨[], [], _, _, spaces, .done, hspaces, hcur, nests_nil, hP⟩

lemma ReadAs.imp (h : ReadAs chars rest P) (hPQ : ∀ trees, P trees → Q trees) :
    ReadAs chars rest Q := by
  intro regex cur spaces hspaces hcur
  obtain ⟨tokens, trees, regex', last, spaces', hscans, hspaces', hlast, hnests, hP⟩ :=
    h regex cur spaces hspaces hcur
  exact ⟨tokens, trees, regex', last, spaces', hscans, hspaces', hlast, hnests, hPQ trees hP⟩

lemma ReadAs.behindSpaces {spaces : List Char} (hspaces : Spaces spaces) (h : ReadAs chars rest P) :
    ReadAs (spaces ++ chars) rest P := by
  intro regex cur before hbefore hcur
  refine h regex cur (before ++ spaces) (hbefore.append hspaces) ?_
  rw [hcur, List.append_assoc, List.append_assoc]

/-- Trees of one kind with trees of another kind behind them. -/
def Followed (P Q : List Tree → Prop) (trees : List Tree) : Prop :=
  ∃ front behind, trees = front ++ behind ∧ P front ∧ Q behind

lemma ReadAs.append (h : ReadAs chars (moreChars ++ rest) P) (hmore : ReadAs moreChars rest Q) :
    ReadAs (chars ++ moreChars) rest (Followed P Q) := by
  intro regex cur spaces hspaces hcur
  rw [List.append_assoc] at hcur
  obtain ⟨tokens, trees, regex', mid, spaces', hscans, hspaces', hmid, hnests, hP⟩ :=
    h regex cur spaces hspaces hcur
  obtain ⟨more, moreTrees, regex'', last, spaces'', hscans', hspaces'', hlast, hnests', hQ⟩ :=
    hmore regex' mid spaces' hspaces' hmid
  exact ⟨tokens ++ more, trees ++ moreTrees, regex'', last, spaces'', hscans.trans hscans',
    hspaces'', hlast, hnests.append hnests', trees, moreTrees, rfl, hP, hQ⟩

/-- A single token of a kind, without comments before it. -/
def IsLeaf (kind : Kind) (trees : List Tree) : Prop :=
  ∃ t, trees = [leaf t] ∧ t.kind = kind ∧ t.comments = []

lemma ReadAs.scanned {kind : Kind} (hopens : Opens (chars ++ rest))
    (hlexeme : ∀ regex, lexeme regex (chars ++ rest) = .ok (kind, chars.length))
    (hend : kind ≠ .endOfFile) {regex : Bool} {cur : Cursor} {spaces : List Char}
    (hspaces : Spaces spaces) (hcur : cur.rest = spaces ++ (chars ++ rest)) :
    ∃ t after, Scans regex cur [t] t.kind.regexMayFollow after ∧ after.rest = rest ∧
      t.kind = kind ∧ t.comments = [] := by
  obtain ⟨t, after, htoken, hkind, hcomments, hafter⟩ :=
    tokenAt_written hspaces hcur hopens (hlexeme regex)
  exact ⟨t, after, .next htoken (hkind ▸ hend) .done, hafter, hkind, hcomments⟩

lemma readAs_leaf {kind : Kind} (hopens : Opens (chars ++ rest))
    (hlexeme : ∀ regex, lexeme regex (chars ++ rest) = .ok (kind, chars.length))
    (hend : kind ≠ .endOfFile) (hplain : ∀ mark, kind = .punct mark → IsPlainMark mark) :
    ReadAs chars rest (IsLeaf kind) := by
  intro regex cur spaces hspaces hcur
  obtain ⟨t, after, hscans, hafter, rfl, hcomments⟩ :=
    ReadAs.scanned hopens hlexeme hend hspaces hcur
  exact ⟨[t], [leaf t], _, after, [], hscans, spaces_nil, hafter, nests_leaf hend hplain, t, rfl,
    rfl, hcomments⟩

/-- A group of a bracket around trees with the property. -/
def IsGroupOf (mark : String) (P : List Tree → Prop) (trees : List Tree) : Prop :=
  ∃ opener inside closer, trees = [group opener inside closer] ∧ opener.kind = .punct mark ∧ P inside

/-- A pair of brackets, as characters and as marks. -/
structure Brackets where
  opener : Char × String
  closer : Char × String
deriving DecidableEq

def parentheses : Brackets := ⟨('(', "("), (')', ")")⟩

def braces : Brackets := ⟨('\x7b', "\x7b"), ('\x7d', "\x7d")⟩

lemma readAs_group {b : Brackets} (hb : b = parentheses ∨ b = braces) {inside spaces : List Char}
    (hspaces : Spaces spaces) (h : ReadAs inside (spaces ++ b.closer.1 :: rest) P) :
    ReadAs (b.opener.1 :: (inside ++ (spaces ++ [b.closer.1]))) rest (IsGroupOf b.opener.2 P) := by
  have hmarks : b.opener ∈ plainMarks ∧ b.closer ∈ plainMarks ∧ isOpener b.opener.2 = true ∧
      isOpener b.closer.2 = false ∧ openerOf b.closer.2 = some b.opener.2 ∧
      StartsToken b.opener.1 ∧ StartsToken b.closer.1 := by
    rcases hb with rfl | rfl
    all_goals
      refine ⟨by decide, by decide, by decide, by decide, by decide, ?_, ?_⟩
      all_goals exact ⟨by decide, by decide, by decide, by decide⟩
  obtain ⟨hopener, hcloser, hisOpener, hisCloser, hmatch, hopens, hcloses⟩ := hmarks
  intro regex cur before hbefore hcur
  have hopened : cur.rest = before ++ ([b.opener.1] ++ (inside ++ (spaces ++ b.closer.1 :: rest))) := by
    rw [hcur]
    simp
  obtain ⟨o, afterOpener, hscans, hrest, hkind, -⟩ := ReadAs.scanned
    (opens_cons hopens _) (lexeme_plainMark hopener _) Kind.noConfusion
    hbefore hopened
  obtain ⟨tokens, trees, regex', last, spaces', hinside, hspaces', hlast, hnests, hP⟩ :=
    h _ afterOpener [] spaces_nil hrest
  have hclosed : last.rest = spaces' ++ spaces ++ ([b.closer.1] ++ rest) := by
    rw [hlast, List.append_assoc]
    rfl
  obtain ⟨c, after, hscans', hafter, hkind', -⟩ := ReadAs.scanned
    (opens_cons hcloses _) (lexeme_plainMark hcloser _) Kind.noConfusion
    (hspaces'.append hspaces) hclosed
  exact ⟨[o] ++ (tokens ++ [c]), [group o trees c], _, after, [], hscans.trans (hinside.trans hscans'),
    spaces_nil, hafter, nests_group hkind hkind' hisOpener hisCloser hmatch hnests, o, trees, c, rfl,
    hkind, hP⟩

/-- Tokens up to the last spaces of a text are all tokens of the text. -/
lemma Scans.nested {text : String} {trees : List Tree} {spaces : List Char}
    (hscans : Scans true (Cursor.start text.toList) tokens regex' last) (hspaces : Spaces spaces)
    (hlast : last.rest = spaces) (hnests : Nests tokens trees)
    (hfirst : firstCursor text.toList = Cursor.start text.toList) :
    ∃ tokens nested, tokenize text = .ok tokens ∧ nest tokens = .ok nested ∧ nested.trees = trees := by
  obtain ⟨ending, after, hending, hkind⟩ := tokenAt_ending regex' (hlast ▸ hspaces)
  refine ⟨tokens ++ [ending], ⟨trees, ending⟩, ?_, ?_, rfl⟩
  · rw [tokenize, hfirst]
    exact hscans.tokensFrom_eq hending hkind (Nat.lt_succ_self _)
  · rw [nest, hnests, List.append_nil]
    unfold nestFrom
    simp [hkind]

/-- A text that is read as trees is cut and nested as those trees. -/
lemma ReadAs.nested {text : String} (h : ReadAs text.toList [] P)
    (hfirst : firstCursor text.toList = Cursor.start text.toList) :
    ∃ tokens nested, tokenize text = .ok tokens ∧ nest tokens = .ok nested ∧ P nested.trees := by
  have hstart : (Cursor.start text.toList).rest = [] ++ (text.toList ++ []) := by
    rw [List.nil_append, List.append_nil]
    rfl
  obtain ⟨tokens, trees, regex', last, spaces, hscans, hspaces, hlast, hnests, hP⟩ :=
    h true (Cursor.start text.toList) [] spaces_nil hstart
  rw [List.append_nil] at hlast
  obtain ⟨all, nested, htokens, hnested, rfl⟩ := hscans.nested hspaces hlast hnests hfirst
  exact ⟨all, nested, htokens, hnested, hP⟩

end TaskRunner.Proofs
