import TaskRunner.Proofs.BracketPartners
import TaskRunner.Proofs.ExportEnds
import TaskRunner.Proofs.StatementEnds

/-!
# Looking ahead by indexes

Where trees stand at an index, the token there is the token ahead, a step along the table goes over the
first tree, and the end of an expression is where it is cut off.
-/

namespace TaskRunner.Proofs
open Source Tree

/-! ## Tokens at indexes -/

variable {s : Sheet} {i : Nat} {t : Tree} {token after : Token} {trees rest behind : List Tree}

lemma Sheet.tokens_clamped (s : Sheet) (i : Nat) :
    s.tokens[min i (s.tokens.length - 1)]? = some (s.tok i) := by
  have hpos := List.length_pos_iff.mpr s.nonempty
  have hlt : min i (s.tokens.length - 1) < s.tokens.length := by omega
  rw [List.getElem?_eq_getElem hlt]
  rfl

lemma Sheet.tok_eq (h : s.tokens[i]? = some token) : s.tok i = token := by
  obtain ⟨hlt, -⟩ := List.getElem?_eq_some_iff.mp h
  have hclamped := s.tokens_clamped i
  rw [Nat.min_eq_left (by omega), h] at hclamped
  exact (Option.some.inj hclamped).symm

lemma Sheet.partner?_eq {entry : Option Nat} (h : s.partners[i]? = some entry) :
    s.partner? i = entry := by
  rw [Sheet.partner?, h]
  rfl

lemma Sheet.partner_eq {j : Nat} (h : s.partners[i]? = some (some j)) : s.partner i = .ok j := by
  rw [Sheet.partner, Sheet.partner?_eq h]

@[simp] lemma at_leaf : At s i (leaf token) ↔
    PlainToken token ∧ s.tokens[i]? = some token ∧ s.partners[i]? = some none := by
  rw [At]

/-- Where a group stands. -/
structure GroupAt (s : Sheet) (i : Nat) (opener : Token) (inside : List Tree) (closer : Token) : Prop where
  fit : Fit opener closer
  insideAt : AllAt s (i + 1) inside
  openerAt : s.tokens[i]? = some opener
  partner : s.partners[i]? = some (some (i + 1 + widthOfAll inside))
  closerAt : s.tokens[i + 1 + widthOfAll inside]? = some closer
  back : s.partners[i + 1 + widthOfAll inside]? = some (some i)

lemma at_group {opener closer : Token} {inside : List Tree} :
    At s i (group opener inside closer) ↔ GroupAt s i opener inside closer := by
  rw [At]
  exact ⟨fun ⟨h₁, h₂, h₃, h₄, h₅, h₆⟩ => ⟨h₁, h₂, h₃, h₄, h₅, h₆⟩,
    fun ⟨h₁, h₂, h₃, h₄, h₅, h₆⟩ => ⟨h₁, h₂, h₃, h₄, h₅, h₆⟩⟩

@[simp] lemma allAt_nil : AllAt s i [] := by
  rw [AllAt]
  trivial

@[simp] lemma allAt_cons : AllAt s i (t :: rest) ↔ At s i t ∧ AllAt s (i + width t) rest := by
  rw [AllAt]

lemma allAt_append {more : List Tree} :
    AllAt s i (trees ++ more) ↔ AllAt s i trees ∧ AllAt s (i + widthOfAll trees) more := by
  induction trees generalizing i with
  | nil => simp
  | cons t rest ih => simp [ih, and_assoc, Nat.add_assoc]

lemma At.first (h : At s i t) : s.tokens[i]? = some t.first := by
  cases t with
  | leaf token => exact (at_leaf.mp h).2.1
  | group opener inside closer => exact (at_group.mp h).openerAt

lemma At.tok (h : At s i t) : s.tok i = t.first :=
  Sheet.tok_eq h.first

lemma At.last (h : At s i t) : s.tok (i + width t - 1) = t.last := by
  refine Sheet.tok_eq ?_
  cases t with
  | leaf token =>
    rw [width_leaf, Nat.add_sub_cancel]
    exact (at_leaf.mp h).2.1
  | group opener inside closer =>
    rw [width_group, show i + (widthOfAll inside + 2) - 1 = i + 1 + widthOfAll inside by omega]
    exact (at_group.mp h).closerAt

/-- One step goes over one tree. -/
lemma At.step (h : At s i t) : s.step i = i + width t := by
  rw [Sheet.step]
  cases t with
  | leaf token => rw [Sheet.partner?_eq (at_leaf.mp h).2.2, width_leaf]
  | group opener inside closer =>
    rw [Sheet.partner?_eq (at_group.mp h).partner]
    dsimp only
    rw [if_pos (by omega), width_group]
    omega

/-! ## What the first token tells -/

lemma isOpener_cases {mark : String} (h : isOpener mark = true) :
    mark = "(" ∨ mark = "[" ∨ mark = "\x7b" := by
  simpa [isOpener, or_assoc] using h

lemma openerOf_opener {mark : String} (h : isOpener mark = true) : openerOf mark = none := by
  rcases isOpener_cases h with rfl | rfl | rfl <;> rfl

lemma isPunct_of_punct {mark : String} (h : token.kind = .punct mark) (other : String) :
    token.isPunct other = (mark == other) := by
  rw [Token.isPunct, h, Bool.eq_iff_iff]
  simp

lemma PlainToken.not_opener (h : PlainToken token) (mark : String) (hmark : isOpener mark = true) :
    token.isPunct mark = false := by
  rw [Bool.eq_false_iff]
  intro hpunct
  have hkind : token.kind = .punct mark := by simpa [Token.isPunct] using hpunct
  rw [(h.notBracket mark hkind).1] at hmark
  cases hmark

/-- An opening bracket is no word, no name and no text. -/
structure NoWord (token : Token) : Prop where
  isWord : ∀ word, token.isWord word = false
  name? : token.name? = none
  nameOrText? : token.nameOrText? = none

lemma noWord_of_punct {mark : String} (h : token.kind = .punct mark) : NoWord token :=
  ⟨fun word => by simp [Token.isWord, h], by simp [Token.name?, h], by simp [Token.nameOrText?, h]⟩

lemma noWord_of_end (h : token.kind = .endOfFile) : NoWord token :=
  ⟨fun word => by simp [Token.isWord, h], by simp [Token.name?, h], by simp [Token.nameOrText?, h]⟩

lemma Fit.noWord {opener closer : Token} (h : Fit opener closer) : NoWord opener := by
  obtain ⟨mark, _, hkind, -⟩ := h
  exact noWord_of_punct hkind

lemma At.isWord (h : At s i t) (word : String) : t.isWord word = (s.tok i).isWord word := by
  rw [h.tok]
  cases t with
  | leaf token => rfl
  | group opener inside closer =>
    exact ((at_group.mp h).fit.noWord.isWord word).symm

lemma At.name? (h : At s i t) : t.name? = (s.tok i).name? := by
  rw [h.tok]
  cases t with
  | leaf token => rfl
  | group opener inside closer =>
    exact (at_group.mp h).fit.noWord.name?.symm

lemma At.isPunct (h : At s i t) (mark : String) (hmark : isOpener mark = false) :
    t.isPunct mark = (s.tok i).isPunct mark := by
  rw [h.tok]
  cases t with
  | leaf token => rfl
  | group opener inside closer =>
    obtain ⟨kind, _, hkind, hopen, -⟩ := (at_group.mp h).fit
    rw [Tree.isPunct, Tree.first, isPunct_of_punct hkind, eq_comm, beq_eq_false_iff_ne]
    rintro rfl
    rw [hopen] at hmark
    cases hmark

lemma At.isGroup (h : At s i t) (mark : String) (hmark : isOpener mark = true) :
    t.isGroup mark = (s.tok i).isPunct mark := by
  rw [h.tok]
  cases t with
  | leaf token => exact ((at_leaf.mp h).1.not_opener mark hmark).symm
  | group opener inside closer => rfl

/-! ## Trees and what stands behind them -/

/-- At an index stands the closing bracket behind some trees, or the end of the file, which is found
behind that index as well. -/
inductive Ends (s : Sheet) (k : Nat) (after : Token) : Prop
  | closing {mark opener : String} (here : s.tokens[k]? = some after) (kind : after.kind = .punct mark)
      (closes : openerOf mark = some opener)
  | ending (isEnd : after.kind = .endOfFile) (here : ∀ j, k ≤ j → s.tok j = after)

/-- Trees stand at an index with a token behind them. -/
structure Lies (s : Sheet) (i : Nat) (trees : List Tree) (after : Token) : Prop where
  stand : AllAt s i trees
  ends : Ends s (i + widthOfAll trees) after

lemma Ends.tok {k : Nat} (h : Ends s k after) : s.tok k = after := by
  cases h with
  | closing here _ _ => exact Sheet.tok_eq here
  | ending _ here => exact here k (Nat.le_refl _)

lemma Ends.noWord {k : Nat} (h : Ends s k after) : NoWord after := by
  cases h with
  | closing _ kind _ => exact noWord_of_punct kind
  | ending isEnd _ => exact noWord_of_end isEnd

lemma Ends.isPunct {k : Nat} (h : Ends s k after) {mark : String} (hmark : openerOf mark = none) :
    after.isPunct mark = false := by
  cases h with
  | closing _ kind closes =>
    rw [isPunct_of_punct kind, beq_eq_false_iff_ne]
    rintro rfl
    rw [hmark] at closes
    cases closes
  | ending isEnd _ => simp [Token.isPunct, isEnd]

lemma Lies.ahead (h : Lies s i trees after) : s.tok i = ahead after trees := by
  cases trees with
  | nil =>
    have hends := h.ends
    rw [widthOfAll_nil, Nat.add_zero] at hends
    exact hends.tok
  | cons t rest => exact (allAt_cons.mp h.stand).1.tok

lemma Lies.head (h : Lies s i (t :: rest) after) : At s i t :=
  (allAt_cons.mp h.stand).1

lemma Lies.tail (h : Lies s i (t :: rest) after) : Lies s (i + width t) rest after := by
  refine ⟨(allAt_cons.mp h.stand).2, ?_⟩
  have hends := h.ends
  rwa [widthOfAll_cons, ← Nat.add_assoc] at hends

lemma Lies.drop (h : Lies s i (trees ++ behind) after) :
    Lies s (i + widthOfAll trees) behind after := by
  refine ⟨(allAt_append.mp h.stand).2, ?_⟩
  have hends := h.ends
  rwa [widthOfAll_append, ← Nat.add_assoc] at hends

/-- Behind the end of the file there is still the end. -/
lemma Lies.beyond (h : Lies s i [] after) (hend : after.kind = .endOfFile) : Lies s (i + 1) [] after := by
  refine ⟨allAt_nil, ?_⟩
  cases h.ends with
  | closing _ kind _ =>
    rw [hend] at kind
    cases kind
  | ending _ here =>
    rw [widthOfAll_nil] at here
    exact .ending hend fun j hj => here j (by omega)

lemma Lies.nil_tok (h : Lies s i [] after) : s.tok i = after :=
  h.ahead

lemma Lies.word (h : Lies s i trees after) (word : String) :
    startsWithWord trees word = (s.tok i).isWord word := by
  cases trees with
  | nil =>
    rw [h.nil_tok, h.ends.noWord.isWord]
    rfl
  | cons t rest => exact h.head.isWord word

lemma Lies.name (h : Lies s i trees after) : startsWithName trees = (s.tok i).name?.isSome := by
  cases trees with
  | nil =>
    rw [h.nil_tok, h.ends.noWord.name?]
    rfl
  | cons t rest => exact congrArg Option.isSome h.head.name?

lemma Lies.punct (h : Lies s i trees after) (mark : String) (hopen : isOpener mark = false)
    (hclose : openerOf mark = none) : startsWithPunct trees mark = (s.tok i).isPunct mark := by
  cases trees with
  | nil =>
    rw [h.nil_tok, h.ends.isPunct hclose]
    rfl
  | cons t rest => exact h.head.isPunct mark hopen

lemma Lies.group (h : Lies s i trees after) (mark : String) (hopen : isOpener mark = true) :
    startsWithGroup trees mark = (s.tok i).isPunct mark := by
  cases trees with
  | nil =>
    rw [h.nil_tok, h.ends.isPunct (openerOf_opener hopen)]
    rfl
  | cons t rest => exact h.head.isGroup mark hopen

lemma Lies.leafTail (h : Lies s i (leaf token :: rest) after) : Lies s (i + 1) rest after := by
  have htail := h.tail
  rwa [width_leaf] at htail

/-- A group's own trees, with its closing bracket behind them. -/
lemma GroupAt.lies {opener closer : Token} {inside : List Tree} (h : GroupAt s i opener inside closer) :
    Lies s (i + 1) inside closer := by
  obtain ⟨mark, closing, -, -, hkind, -, hcloses⟩ := h.fit
  exact ⟨h.insideAt, .closing h.closerAt hkind hcloses⟩

/-! ## Where statements end -/

namespace Sheet

variable (s : Sheet)

/-- Whether a declaration starts at an index. -/
def startsDeclaration (i : Nat) : Bool :=
  match (s.tok i).name? with
  | none => false
  | some name =>
    let next := s.tok (i + 1)
    if name == "import" then !(next.isPunct "(") && !(next.isPunct ".")
    else if name == "async" then next.isWord "function" && !next.newlineBefore
    else declarationWords.contains name

/-- Whether the expression that the token before belongs to ends here: the file or the group does, a
separator comes, or a declaration on a new line. -/
def endsExpression (commas : Bool) (previous : Option Nat) (i : Nat) : Bool :=
  (s.tok i).kind == .endOfFile ||
    (previous.any fun p =>
      (s.tok i).newlineBefore && s.startsDeclaration i && !leavesOpen (s.tok p)) ||
    (s.tok i).isPunct ";" || (commas && (s.tok i).isPunct ",") ||
    (match (s.tok i).kind with
      | .punct mark => (openerOf mark).isSome
      | _ => false)

/-- The index where an expression ends. -/
def expressionEnd (commas : Bool) : Nat → Option Nat → Nat → Checked Nat
  | 0, _, _ => .error .stuck
  | fuel + 1, previous, i =>
    if s.endsExpression commas previous i then .ok i
    else do
      let next ← onward i (s.step i)
      expressionEnd commas fuel (some (next - 1)) next

/-- The index behind a statement of no interest. -/
def skipStatement (i : Nat) : Checked Nat := do
  let stop ← s.expressionEnd false (s.tokens.length + 1) none i
  if (s.tok stop).isPunct ";" then .ok (stop + 1)
  else if stop = i then .ok (i + 1)
  else .ok stop

/-- The index behind a semicolon, if there is one. -/
def consumeSemicolon (i : Nat) : Nat :=
  if (s.tok i).isPunct ";" then i + 1 else i

/-- The span from a token to the one before an index. -/
def spanBetween (first stop : Nat) : Span :=
  ⟨(s.tok first).span.start, (s.tok (max (stop - 1) first)).span.stop⟩

end Sheet

lemma At.startsDeclaration (h : Lies s i (t :: rest) after) :
    s.startsDeclaration i = startsDeclaration after (t :: rest) := by
  rw [Sheet.startsDeclaration, Source.startsDeclaration, h.head.name?]
  cases hname : (s.tok i).name? with
  | none => rfl
  | some name =>
    have hleaf : ∃ token, t = leaf token := by
      cases t with
      | leaf token => exact ⟨token, rfl⟩
      | group opener inside closer =>
        have hnone := h.head.name?
        rw [hname] at hnone
        cases hnone
    obtain ⟨token, rfl⟩ := hleaf
    rw [h.leafTail.ahead]

lemma Lies.startsDeclaration (h : Lies s i trees after) :
    s.startsDeclaration i = Source.startsDeclaration after trees := by
  cases trees with
  | nil =>
    rw [Sheet.startsDeclaration, h.nil_tok, h.ends.noWord.name?]
    rfl
  | cons t rest => exact At.startsDeclaration h

lemma At.not_ends (h : At s i t) : ((s.tok i).kind == .endOfFile) = false ∧
    (match (s.tok i).kind with
      | .punct mark => (openerOf mark).isSome
      | _ => false) = false := by
  rw [h.tok]
  cases t with
  | leaf token =>
    obtain ⟨hend, hplain⟩ := (at_leaf.mp h).1
    refine ⟨by simpa [Tree.first] using hend, ?_⟩
    dsimp only [Tree.first]
    split
    · rename_i mark hmark
      rw [(hplain mark hmark).2]
      rfl
    · rfl
  | group opener inside closer =>
    obtain ⟨mark, _, hkind, hopen, -⟩ := (at_group.mp h).fit
    simp [Tree.first, hkind, openerOf_opener hopen]

lemma Lies.endsExpression (h : Lies s i (t :: rest) after) (commas : Bool) (previous : Option Nat) :
    s.endsExpression commas previous i =
      stopsAt after commas (previous.map s.tok) (t :: rest) := by
  obtain ⟨hend, hclose⟩ := h.head.not_ends
  rw [Sheet.endsExpression, hend, hclose, Bool.false_or, Bool.or_false, stopsAt,
    h.head.isPunct ";" rfl, h.head.isPunct "," rfl, h.startsDeclaration, h.head.tok,
    Option.any_map]

lemma Ends.endsExpression (h : Ends s i after) (commas : Bool) (previous : Option Nat) :
    s.endsExpression commas previous i = true := by
  rw [Sheet.endsExpression, h.tok]
  cases h with
  | closing _ kind closes => simp [kind, closes]
  | ending isEnd _ => simp [isEnd]

/-- An expression ends where it is cut off. -/
lemma Lies.expressionEnd (h : Lies s i trees after) (commas : Bool) (previous : Option Nat) {fuel : Nat}
    (hfuel : trees.length < fuel) : s.expressionEnd commas fuel previous i =
      .ok (i + widthOfAll (cutExpression after commas (previous.map s.tok) trees).1) := by
  induction trees generalizing i previous fuel with
  | nil =>
    obtain ⟨fuel, rfl⟩ := Nat.exists_eq_succ_of_ne_zero (Nat.ne_of_gt hfuel)
    have hends := h.ends
    rw [widthOfAll_nil, Nat.add_zero] at hends
    rw [Sheet.expressionEnd, if_pos (hends.endsExpression commas previous), cutExpression,
      widthOfAll_nil, Nat.add_zero]
  | cons t rest ih =>
    obtain ⟨fuel, rfl⟩ := Nat.exists_eq_succ_of_ne_zero (Nat.ne_of_gt (Nat.zero_lt_of_lt hfuel))
    have hstop := h.endsExpression commas previous
    rw [Sheet.expressionEnd]
    cases hcut : stopsAt after commas (previous.map s.tok) (t :: rest) with
    | true =>
      rw [hcut] at hstop
      rw [if_pos hstop, cutExpression_stop hcut, widthOfAll_nil, Nat.add_zero]
    | false =>
      rw [hcut] at hstop
      have hpos := width_pos t
      have hmore := ih h.tail (some (i + width t - 1)) (Nat.lt_of_succ_lt_succ hfuel)
      rw [Option.map_some, h.head.last] at hmore
      rw [hstop, if_neg Bool.false_ne_true, h.head.step, onward_later (by omega)]
      dsimp only [bind, Except.bind]
      rw [hmore, cutExpression_go hcut, widthOfAll_cons, Nat.add_assoc]

/-- The index stands behind the front of the trees that what is left leaves out. -/
structure Past (i : Nat) (trees : List Tree) (j : Nat) (left : List Tree) : Prop where
  split : ∃ front, trees = front ++ left ∧ j = i + widthOfAll front

lemma Past.refl (i : Nat) (trees : List Tree) : Past i trees i trees :=
  ⟨[], rfl, by simp⟩

lemma Past.trans {j k : Nat} {left more : List Tree} (h : Past i trees j left) (h' : Past j left k more) :
    Past i trees k more := by
  obtain ⟨front, rfl, rfl⟩ := h.split
  obtain ⟨front', rfl, rfl⟩ := h'.split
  exact ⟨front ++ front', by rw [List.append_assoc], by rw [widthOfAll_append, Nat.add_assoc]⟩

lemma Past.tree (i : Nat) (t : Tree) (rest : List Tree) : Past i (t :: rest) (i + width t) rest :=
  ⟨[t], rfl, by simp⟩

lemma Past.leaf (i : Nat) (token : Token) (rest : List Tree) :
    Past i (leaf token :: rest) (i + 1) rest :=
  ⟨[Tree.leaf token], rfl, by simp⟩

lemma Past.group (i : Nat) (opener closer : Token) (inside rest : List Tree) :
    Past i (Tree.group opener inside closer :: rest) (i + 1 + widthOfAll inside + 1) rest := by
  refine ⟨[Tree.group opener inside closer], rfl, ?_⟩
  rw [widthOfAll_cons, widthOfAll_nil, width_group]
  omega

lemma Past.lies {j : Nat} {left : List Tree} (h : Past i trees j left) (hlies : Lies s i trees after) :
    Lies s j left after := by
  obtain ⟨front, rfl, rfl⟩ := h.split
  exact hlies.drop

lemma Past.le {j : Nat} {left : List Tree} (h : Past i trees j left) : i ≤ j := by
  obtain ⟨front, -, rfl⟩ := h.split
  exact Nat.le_add_right _ _

/-- The trees in front of what is left stand between the indexes. -/
lemma Past.consumed {j : Nat} {left : List Tree} (h : Past i trees j left) :
    trees = Source.consumed trees left ++ left ∧ j = i + widthOfAll (Source.consumed trees left) := by
  obtain ⟨front, rfl, rfl⟩ := h.split
  rw [consumed_eq]
  exact ⟨rfl, rfl⟩

lemma cutPast (i : Nat) (after : Token) (commas : Bool) (previous : Option Token) (trees : List Tree) :
    Past i trees (i + widthOfAll (cutExpression after commas previous trees).1)
      (cutExpression after commas previous trees).2 :=
  ⟨_, (cutExpression_append after commas previous trees).symm, rfl⟩

/-! ## Bounds -/

lemma At.width_le (h : At s i t) : i + width t ≤ s.tokens.length := by
  cases t with
  | leaf token =>
    obtain ⟨hlt, -⟩ := List.getElem?_eq_some_iff.mp (at_leaf.mp h).2.1
    rw [width_leaf]
    omega
  | group opener inside closer =>
    obtain ⟨hlt, -⟩ := List.getElem?_eq_some_iff.mp (at_group.mp h).closerAt
    rw [width_group]
    omega

lemma AllAt.width_le (h : AllAt s i trees) (hne : trees ≠ []) :
    i + widthOfAll trees ≤ s.tokens.length := by
  induction trees generalizing i with
  | nil => exact absurd rfl hne
  | cons t rest ih =>
    obtain ⟨ht, hrest⟩ := allAt_cons.mp h
    rw [widthOfAll_cons, ← Nat.add_assoc]
    by_cases hlast : rest = []
    · rw [hlast, widthOfAll_nil, Nat.add_zero]
      exact ht.width_le
    · exact ih hrest hlast

lemma AllAt.length_le (h : AllAt s i trees) : trees.length ≤ s.tokens.length := by
  by_cases hne : trees = []
  · rw [hne]
    exact Nat.zero_le _
  · have hwidth := h.width_le hne
    have hlength := length_le_widthOfAll trees
    omega

lemma widthOfAll_eq_zero : widthOfAll trees = 0 ↔ trees = [] := by
  cases trees with
  | nil => simp
  | cons t rest =>
    have hpos := width_pos t
    simp only [widthOfAll_cons, List.cons_ne_nil, iff_false]
    omega

/-! ## Statements of no interest, and spans -/

lemma Lies.consumeSemicolon (h : Lies s i trees after) :
    Past i trees (s.consumeSemicolon i) (pastSemicolon trees) := by
  rw [Sheet.consumeSemicolon, ← h.punct ";" rfl rfl]
  cases trees with
  | nil => exact Past.refl i []
  | cons t rest =>
    rw [pastSemicolon]
    by_cases hmark : t.isPunct ";" = true
    · obtain ⟨token, rfl, -⟩ := leaf_of_isPunct hmark
      rw [if_pos (show startsWithPunct (leaf token :: rest) ";" = true from hmark), if_pos hmark]
      exact Past.leaf i token rest
    · rw [if_neg (show ¬ startsWithPunct (t :: rest) ";" = true from hmark), if_neg hmark]
      exact Past.refl i _

/-- Nothing is taken in front of the end only, or of a mark that ends statements. -/
lemma trees_of_nothing_taken {after : Token} {left : List Tree}
    (hcut : cutExpression after false none trees = ([], left)) (hmark : ¬startsWithPunct left ";" = true) :
    trees = [] := by
  cases trees with
  | nil => rfl
  | cons t rest =>
    cases hstop : stopsAt after false none (t :: rest) with
    | true =>
      rw [cutExpression_stop hstop] at hcut
      obtain ⟨-, rfl⟩ := Prod.mk.inj hcut
      simp only [stopsAt, Option.any_none, Bool.false_or, Bool.false_and, Bool.or_false] at hstop
      exact absurd hstop hmark
    | false =>
      rw [cutExpression_go hstop] at hcut
      cases (Prod.mk.inj hcut).1

/-- A statement of no interest is skipped by at least one token, in a file that has ended as well. -/
lemma Lies.skipStatement (h : Lies s i trees after) (hafter : after.kind = .endOfFile) :
    ∃ j, s.skipStatement i = .ok j ∧ i < j ∧ Lies s j (pastStatement after trees) after ∧
      (trees ≠ [] → Past i trees j (pastStatement after trees)) := by
  have hend := h.expressionEnd false none (Nat.lt_succ_of_le h.stand.length_le)
  have hpast := cutPast i after false none trees
  have hlies := hpast.lies h
  rw [Option.map_none] at hend
  unfold pastStatement
  generalize hcut : cutExpression after false none trees = cut at hend hpast hlies ⊢
  obtain ⟨taken, left⟩ := cut
  dsimp only at hend hpast hlies ⊢
  rw [Sheet.skipStatement, hend]
  dsimp only [bind, Except.bind]
  rw [← hlies.punct ";" rfl rfl]
  by_cases hmark : startsWithPunct left ";" = true
  · obtain ⟨t, rest, rfl, ht⟩ := startsWithPunct_iff.mp hmark
    obtain ⟨token, rfl, -⟩ := leaf_of_isPunct ht
    have hall := hpast.trans (Past.leaf _ token rest)
    rw [if_pos hmark, if_pos hmark]
    exact ⟨_, rfl, by omega, hall.lies h, fun _ => hall⟩
  · rw [if_neg hmark, if_neg hmark]
    by_cases htaken : taken = []
    · subst htaken
      obtain rfl := trees_of_nothing_taken hcut hmark
      -- the index leaves the file here; what is looked up behind the end is the end again
      rw [if_pos (by simp), if_pos List.isEmpty_nil]
      exact ⟨i + 1, rfl, Nat.lt_succ_self i, h.beyond hafter, fun hne => absurd rfl hne⟩
    · have hpos : 0 < widthOfAll taken := Nat.pos_of_ne_zero (mt widthOfAll_eq_zero.mp htaken)
      rw [if_neg (by omega), if_neg (by simpa using htaken)]
      exact ⟨_, rfl, by omega, hlies, fun _ => hpast⟩

/-- The span between indexes is that of the trees there. -/
lemma AllAt.spanBetween (h : AllAt s i trees) (hne : trees ≠ []) :
    s.spanBetween i (i + widthOfAll trees) = spanOf trees := by
  obtain ⟨t, rest, rfl⟩ := List.exists_cons_of_ne_nil hne
  have hpos := width_pos t
  have hmax : max (i + widthOfAll (t :: rest) - 1) i = i + widthOfAll (t :: rest) - 1 := by
    rw [widthOfAll_cons]
    omega
  have hlast : ∀ {t : Tree} {rest : List Tree} {i : Nat}, AllAt s i (t :: rest) →
      s.tok (i + widthOfAll (t :: rest) - 1) = (rest.getLastD t).last := by
    intro t rest
    induction rest generalizing t with
    | nil =>
      intro i h
      rw [widthOfAll_cons, widthOfAll_nil, Nat.add_zero]
      exact (allAt_cons.mp h).1.last
    | cons next rest ih =>
      intro i h
      rw [widthOfAll_cons, ← Nat.add_assoc, List.getLastD_cons]
      exact ih (allAt_cons.mp h).2
  rw [Sheet.spanBetween, hmax, hlast h, (allAt_cons.mp h).1.tok]
  rfl

lemma Past.spanBetween {j : Nat} {left : List Tree} (h : Past i trees j left)
    (hlies : Lies s i trees after) (hij : i < j) :
    s.spanBetween i j = spanOf (Source.consumed trees left) := by
  obtain ⟨hsplit, hj⟩ := h.consumed
  have hne : Source.consumed trees left ≠ [] := by
    intro hnil
    rw [hnil, widthOfAll_nil] at hj
    omega
  have hstand := hlies.stand
  rw [hsplit] at hstand
  conv_lhs => rw [hj]
  exact (allAt_append.mp hstand).1.spanBetween hne

end TaskRunner.Proofs
