import TaskRunner.Proofs.BareTrees
import TaskRunner.Proofs.ExportEnds

/-!
# The statements of a file

Every reader of a statement takes at least one tree, so the outline of a file is what the statements of
its whole text make of it, one behind the other. A statement is an import, an export, one of three kinds of
declarations, or of no interest. An import is erased as a whole, and so is an export without a declaration;
of any other export only the words in front are.
-/

namespace TaskRunner.Proofs
open Source

section Statements

variable {after : Token} {trees behind : List Tree} {o o' : Outline}

/-! ## Progress -/

lemma tail_suffix_of_suffix (h : behind <:+ trees) : behind.tail <:+ trees.tail := by
  obtain ⟨front, rfl⟩ := h
  cases front with
  | nil => exact List.suffix_rfl
  | cons t front => exact (List.tail_suffix _).trans (List.suffix_append _ _)

lemma functionDeclaration_suffix {leading : List Comment} {exported : Bool}
    (h : functionDeclaration after leading exported o trees = .ok (o', behind)) :
    behind <:+ trees.tail := by
  unfold functionDeclaration at h
  dsimp only at h
  split at h
  · obtain ⟨bound, -, h⟩ := bind_ok h
    obtain ⟨⟨params, body, rest⟩, htail, h⟩ := bind_ok h
    obtain ⟨o₁, -, h⟩ := bind_ok h
    cases h
    refine (functionTail_suffix htail).trans ((List.tail_suffix _).trans ?_)
    exact (dropPunct_suffix _ _).trans (tail_suffix_of_suffix (dropWord_suffix _ _))
  · cases h

lemma classDeclaration_suffix {exported : Bool}
    (h : classDeclaration after exported o trees = .ok (o', behind)) : behind <:+ trees.tail := by
  obtain ⟨bound, -, h⟩ := bind_ok h
  obtain ⟨rest, hbody, h⟩ := bind_ok h
  obtain ⟨o₁, -, h⟩ := bind_ok h
  cases h
  exact (pastClassBody_suffix hbody).trans (List.tail_suffix _)

lemma pastStatement_tail (after : Token) (t : Tree) (rest : List Tree) :
    pastStatement after (t :: rest) <:+ rest := by
  have hsuffix := cutExpression_suffix after false none (t :: rest)
  cases hstop : stopsAt after false none (t :: rest) with
  | true =>
    unfold pastStatement
    rw [cutExpression_stop hstop]
    dsimp only
    split
    · exact List.suffix_rfl
    · exact List.suffix_rfl
  | false =>
    unfold pastStatement
    rw [cutExpression_go hstop]
    have hmore := cutExpression_suffix after false (some t.last) rest
    dsimp only
    split
    · exact (List.tail_suffix _).trans hmore
    · exact hmore

lemma exportDeclaration_suffix {t : Tree} {rest : List Tree}
    (h : exportDeclaration after o (t :: rest) = .ok (o', behind)) : behind <:+ rest := by
  unfold exportDeclaration at h
  split at h
  · rename_i e d more heq
    obtain ⟨-, rfl⟩ := List.cons.inj heq
    have hmore : more <:+ d :: more := List.suffix_cons d more
    dsimp only at h
    split at h
    · unfold exportDefault at h
      dsimp only [List.drop_succ_cons, List.drop_zero] at h
      split at h
      · exact ((functionDeclaration_suffix h).trans (List.tail_suffix _)).trans hmore
      · split at h
        · exact ((classDeclaration_suffix h).trans (List.tail_suffix _)).trans hmore
        · cases h
          exact (pastStatement_suffix _ _).trans hmore
    · split at h
      · exact (functionDeclaration_suffix h).trans hmore
      · split at h
        · exact (variableDeclaration_reads h).suffix
        · split at h
          · exact (classDeclaration_suffix h).trans hmore
          · split at h
            · cases h
              exact pastStatement_suffix _ _
            · split at h
              · obtain ⟨entries, -, h⟩ := bind_ok h
                dsimp only [List.drop_succ_cons, List.drop_zero] at h
                split at h
                · split at h
                  · cases h
                    exact ((pastSemicolon_suffix _).trans (List.drop_suffix _ _)).trans hmore
                  · cases h
                · cases h
                  exact (pastSemicolon_suffix _).trans hmore
              · cases h
  · cases h

/-- A statement takes at least one tree. -/
lemma statement_suffix {t : Tree} {rest : List Tree} (hafter : after.kind = .endOfFile)
    (hmarks : OpenedByMarks (t :: rest)) (h : statement after o (t :: rest) = .ok (o', behind)) :
    behind <:+ rest := by
  unfold statement at h
  dsimp only at h
  split at h
  · rename_i himport
    rw [Bool.and_eq_true] at himport
    obtain ⟨i, clause, heq, hi⟩ := startsWithWord_iff.mp himport.1
    obtain ⟨rfl, rfl⟩ := List.cons.inj heq
    obtain ⟨form, tail, replacement, hsplit, hform, rfl, -⟩ :=
      importDeclaration_form hi hafter hmarks h
    have hne : form ≠ [] := by cases hform <;> simp
    obtain ⟨t', form, rfl⟩ := List.exists_cons_of_ne_nil hne
    obtain ⟨-, rfl⟩ := List.cons.inj hsplit
    exact (pastSemicolon_suffix _).trans (List.suffix_append _ _)
  · split at h
    · exact exportDeclaration_suffix h
    · split at h
      · exact functionDeclaration_suffix h
      · split at h
        · exact (declarators_reads h).suffix
        · split at h
          · exact classDeclaration_suffix h
          · cases h
            exact pastStatement_tail after t rest

/-! ## Declarators -/

lemma declaratorTarget_cons {single : Option String} {names : List BoundName}
    (h : declaratorTarget after trees = .ok (single, names, behind)) : ∃ t, trees = t :: behind := by
  unfold declaratorTarget at h
  split at h
  · cases h
  · rename_i t rest
    split at h
    · obtain ⟨bound, -, h⟩ := bind_ok h
      cases h
      exact ⟨_, rfl⟩
    · obtain ⟨bound, -, h⟩ := bind_ok h
      cases h
      exact ⟨_, rfl⟩

/-- What is behind the value of a declarator, if it has one. -/
def pastValue (after : Token) (trees : List Tree) : List Tree :=
  if startsWithPunct trees "=" then (cutExpression after true none trees.tail).2 else trees

lemma pastValue_suffix (after : Token) (trees : List Tree) : pastValue after trees <:+ trees := by
  unfold pastValue
  split
  · exact (cutExpression_suffix _ _ _ _).trans (List.tail_suffix _)
  · exact List.suffix_rfl

/-- What is read behind a declarator: another one stands behind a comma. -/
def moreDeclarators (after : Token) (kind : Declaration) (leading : List Comment) (exported : Bool)
    (fuel : Nat) (o : Outline) (trees : List Tree) : Except SyntaxError (Outline × List Tree) :=
  if startsWithPunct trees "," then declarators after kind leading exported fuel o trees.tail
  else .ok (o, pastSemicolon trees)

variable {kind : Declaration} {leading : List Comment} {exported : Bool} {fuel : Nat}

/-- A declarator is a target that is declared, with its value. -/
lemma declarators_eq {single : Option String} {names : List BoundName} {left : List Tree}
    {o₁ : Outline} (htarget : declaratorTarget after trees = .ok (single, names, left))
    (hdeclare : o.declareAll kind names = .ok o₁) :
    ∃ o₂, SameNames o₁ o₂ ∧ o₂.exports = (o₁.exportNames exported names).exports ∧
      declarators after kind leading exported (fuel + 1) o trees =
        moreDeclarators after kind leading exported fuel o₂ (pastValue after left) := by
  have hexported := (sameNames_exportNames o₁ exported names).symm
  unfold pastValue
  rw [declarators, htarget]
  dsimp only [bind, Except.bind]
  rw [hdeclare]
  dsimp only
  cases hvalue : startsWithPunct left "=" with
  | true =>
    simp only [if_true]
    refine ⟨_, ?_, ?_, rfl⟩ <;> split
    · exact ⟨hexported.lexical, hexported.var⟩
    · exact hexported
    · rfl
    · rfl
  | false => exact ⟨_, hexported, rfl, rfl⟩

lemma declarators_step (h : declarators after kind leading exported (fuel + 1) o trees = .ok (o', behind)) :
    ∃ single names target left o₁ o₂, trees = target :: left ∧
      declaratorTarget after trees = .ok (single, names, left) ∧
      o.declareAll kind names = .ok o₁ ∧ SameNames o₁ o₂ ∧
      moreDeclarators after kind leading exported fuel o₂ (pastValue after left) = .ok (o', behind) := by
  have hread := h
  rw [declarators] at hread
  obtain ⟨⟨single, names, left⟩, htarget, hread⟩ := bind_ok hread
  obtain ⟨o₁, hdeclare, -⟩ := bind_ok hread
  obtain ⟨target, htrees⟩ := declaratorTarget_cons htarget
  obtain ⟨o₂, hnames, -, heq⟩ := declarators_eq htarget hdeclare
  rw [heq] at h
  exact ⟨single, names, target, left, o₁, o₂, htrees, htarget, hdeclare, hnames, h⟩

/-! ## Statements one behind the other -/

/-- Statements that are read one behind the other, each of some trees. -/
inductive Sequence (after : Token) : Outline → List (List Tree) → Outline → Prop
  | ending {o : Outline} : Sequence after o [] o
  | next {o o₁ o₂ : Outline} {stmt : List Tree} {more : List (List Tree)} (nonempty : stmt ≠ [])
      (read : statement after o (stmt ++ more.flatten) = .ok (o₁, more.flatten))
      (tail : Sequence after o₁ more o₂) : Sequence after o (stmt :: more) o₂

lemma statements_sequence {fuel : Nat} (hafter : after.kind = .endOfFile)
    (hmarks : OpenedByMarks trees) (hfuel : trees.length ≤ fuel)
    (h : statements after fuel o trees = .ok o') :
    ∃ stmts, trees = stmts.flatten ∧ Sequence after o stmts o' := by
  induction fuel generalizing o trees with
  | zero =>
    cases h
    obtain rfl := List.eq_nil_of_length_eq_zero (Nat.le_zero.mp hfuel)
    exact ⟨[], rfl, .ending⟩
  | succ fuel ih =>
    cases trees with
    | nil =>
      cases h
      exact ⟨[], rfl, .ending⟩
    | cons t rest =>
      obtain ⟨⟨o₁, behind⟩, hstatement, h⟩ := bind_ok h
      obtain ⟨front, hfront⟩ := statement_suffix hafter hmarks hstatement
      have hsuffix : behind <:+ t :: rest := ⟨t :: front, by rw [List.cons_append, hfront]⟩
      have hlength : behind.length ≤ fuel := by
        have hrest := List.IsSuffix.length_le ⟨front, hfront⟩
        rw [List.length_cons] at hfuel
        omega
      obtain ⟨stmts, rfl, hmore⟩ := ih (hmarks.suffix hsuffix) hlength h
      refine ⟨(t :: front) :: stmts, by rw [List.flatten_cons, List.cons_append, hfront], ?_⟩
      refine .next (List.cons_ne_nil _ _) ?_ hmore
      rw [List.cons_append, hfront]
      exact hstatement

/-- The outline of a file is what its statements make of it. -/
lemma outlineOf_sequence {nested : Nested} (hending : nested.ending.kind = .endOfFile)
    (hmarks : OpenedByMarks nested.trees) (h : outlineOf nested = .ok o) :
    ∃ stmts, nested.trees = stmts.flatten ∧ Sequence nested.ending .empty stmts o :=
  statements_sequence hending hmarks (Nat.le_refl _) h

end Statements

section Cases

open Tree

variable {after : Token} {trees behind : List Tree} {o o' : Outline}

/-! ## Words -/

lemma isWord_other {t : Tree} {word other : String} (h : t.isWord word = true) (hne : word ≠ other) :
    t.isWord other = false := by
  rw [Bool.eq_false_iff]
  exact fun hother => hne (isWord_unique h hother)

lemma isPunct_other {t : Tree} {mark other : String} (h : t.isPunct mark = true) (hne : mark ≠ other) :
    t.isPunct other = false := by
  obtain ⟨token, rfl, hkind⟩ := leaf_of_isPunct h
  simpa [Tree.isPunct, Token.isPunct, hkind] using hne

/-- The word of an export or an import declaration comes next. Before a parenthesis or a point, `import`
is an expression. -/
def startsModule (after : Token) (trees : List Tree) : Bool :=
  startsWithWord trees "export" || (startsWithWord trees "import" && startsDeclaration after trees)

lemma startsModule_word {k : Tree} {rest : List Tree} (h : startsModule after (k :: rest) = true) :
    ∃ word, (word = "export" ∨ word = "import") ∧ k.isWord word = true := by
  rw [startsModule, Bool.or_eq_true, Bool.and_eq_true] at h
  rcases h with h | ⟨h, -⟩
  · exact ⟨"export", .inl rfl, h⟩
  · exact ⟨"import", .inr rfl, h⟩

lemma startsModule_isPunct {k : Tree} {rest : List Tree} (h : startsModule after (k :: rest) = true)
    (mark : String) : k.isPunct mark = false := by
  obtain ⟨word, -, hword⟩ := startsModule_word h
  exact isPunct_of_isWord hword

lemma startsModule_declaration {k : Tree} {rest : List Tree}
    (h : startsModule after (k :: rest) = true) : startsDeclaration after (k :: rest) = true := by
  rw [startsModule, Bool.or_eq_true, Bool.and_eq_true] at h
  rcases h with h | ⟨-, h⟩
  · obtain ⟨token, rfl, hkind⟩ := leaf_of_isWord h
    simp [startsDeclaration, Tree.name?, Token.name?, hkind, declarationWords]
  · exact h

lemma not_module_of_isGroup {t : Tree} {rest : List Tree} {mark : String}
    (h : t.isGroup mark = true) : startsModule after (t :: rest) = false := by
  cases t with
  | leaf token => cases h
  | group opener inside closer => rfl

lemma not_module_of_isWord {t : Tree} {rest : List Tree} {word : String} (h : t.isWord word = true)
    (hne : word ≠ "export" ∧ word ≠ "import") : startsModule after (t :: rest) = false := by
  rw [Bool.eq_false_iff]
  intro hmodule
  obtain ⟨other, hother, hword⟩ := startsModule_word hmodule
  have heq := isWord_unique h hword
  rcases hother with rfl | rfl
  · exact hne.1 heq
  · exact hne.2 heq

lemma not_module_of_isPunct {t : Tree} {rest : List Tree} {mark : String}
    (h : t.isPunct mark = true) : startsModule after (t :: rest) = false := by
  rw [Bool.eq_false_iff]
  intro hmodule
  rw [startsModule_isPunct hmodule] at h
  cases h

/-! ## Readers -/

/-- The statement is none of those that declare, import or export something. -/
def startsPlain (after : Token) (trees : List Tree) : Bool :=
  !(startsWithWord trees "import" && startsDeclaration after trees) &&
    !startsWithWord trees "export" &&
    !(startsWithWord trees "function" ||
      (startsWithWord trees "async" && startsDeclaration after trees)) &&
    !startsVariables trees && !startsWithWord trees "class"

lemma startsPlain_module (h : startsPlain after trees = true) : startsModule after trees = false := by
  simp only [startsPlain, Bool.and_eq_true, Bool.not_eq_true'] at h
  rw [startsModule, h.1.1.1.1, h.1.1.1.2, Bool.or_self]

/-- A declaration of a function, of variables or of a class is read. -/
inductive Declared (after : Token) (o : Outline) (trees : List Tree) (o' : Outline)
    (behind : List Tree) : Prop
  | ofFunction {leading : List Comment} {exported : Bool}
      (read : functionDeclaration after leading exported o trees = .ok (o', behind))
  | ofVariables {word : String} {leading : List Comment} {exported : Bool}
      (isWord : word ∈ ["const", "let", "var"]) (starts : startsWithWord trees word = true)
      (read : variableDeclaration after leading exported o trees = .ok (o', behind))
  | ofClass {exported : Bool} (starts : startsWithWord trees "class" = true)
      (read : classDeclaration after exported o trees = .ok (o', behind))

/-- What is read as a statement, and what is erased of it. -/
inductive StatementCase (after : Token) (o : Outline) (trees : List Tree) (o' : Outline)
    (behind : List Tree) : Prop
  | whole {replacement : String} (starts : startsModule after trees = true)
      (edits : o'.edits = o.edits ++ [⟨spanOf (consumed trees behind), replacement⟩])
  | exported {e : Tree} {more : List Tree} (split : trees = e :: more)
      (starts : startsModule after more = false)
      (read : Declared after (o.addEdit (spanOf [e]) "") more o' behind)
  | exportedDefault {e d : Tree} {more : List Tree} (split : trees = e :: d :: more)
      (isDefault : d.isWord "default" = true)
      (read : Declared after (o.addEdit (spanOf [e, d]) "") more o' behind)
  | exportedValue {e d : Tree} {more : List Tree} (split : trees = e :: d :: more)
      (isDefault : d.isWord "default" = true) (read : pastStatement after more = behind)
      (outline : o' = o.addEdit (spanOf [e, d]) "void")
  | declared (starts : startsModule after trees = false) (read : Declared after o trees o' behind)
  | plain (starts : startsPlain after trees = true) (read : pastStatement after trees = behind)
      (outline : o' = o)

lemma exportDefault_cases {leading : List Comment} {e d : Tree} {more : List Tree}
    (hd : d.isWord "default" = true)
    (h : exportDefault after leading o (e :: d :: more) = .ok (o', behind)) :
    StatementCase after o (e :: d :: more) o' behind := by
  unfold exportDefault at h
  dsimp only [List.drop_succ_cons, List.drop_zero, List.take_succ_cons, List.take_zero] at h
  split at h
  · exact .exportedDefault rfl hd (.ofFunction h)
  · split at h
    · rename_i hclass
      simp only [Bool.and_eq_true] at hclass
      exact .exportedDefault rfl hd (.ofClass hclass.1.1 h)
    · obtain ⟨ho, hbehind⟩ := Prod.mk.inj (Except.ok.inj h)
      exact .exportedValue rfl hd hbehind ho.symm

lemma exportDeclaration_cases (hafter : after.kind = .endOfFile) (hmarks : OpenedByMarks trees)
    (hword : startsWithWord trees "export" = true)
    (h : exportDeclaration after o trees = .ok (o', behind)) :
    StatementCase after o trees o' behind := by
  obtain ⟨e, more, rfl, he⟩ := startsWithWord_iff.mp hword
  obtain ⟨token, rfl, -⟩ := leaf_of_isWord he
  have hmore : OpenedByMarks more := hmarks.suffix (List.suffix_cons _ _)
  have hstarts : startsModule after (leaf token :: more) = true := by
    rw [startsModule, hword, Bool.true_or]
  have hdeclared : ∀ {word : String}, startsWithWord more word = true →
      word ≠ "export" ∧ word ≠ "import" →
      Declared after (o.addEdit (spanOf [leaf token]) "") more o' behind →
      StatementCase after o (leaf token :: more) o' behind := by
    intro word hstarts hne hread
    obtain ⟨t, rest, rfl, ht⟩ := startsWithWord_iff.mp hstarts
    exact .exported rfl (not_module_of_isWord ht hne) hread
  unfold exportDeclaration at h
  split at h
  · rename_i e' t rest heq
    obtain ⟨rfl, rfl⟩ := List.cons.inj heq
    dsimp only at h
    split at h
    · exact exportDefault_cases ‹_› h
    · split at h
      · rename_i hfunction
        simp only [Bool.or_eq_true, Bool.and_eq_true] at hfunction
        rcases hfunction with hword | ⟨hword, -⟩
        · exact hdeclared hword (by decide) (.ofFunction h)
        · exact hdeclared hword (by decide) (.ofFunction h)
      · split at h
        · rename_i hvariables
          simp only [Bool.or_eq_true] at hvariables
          rcases hvariables with (hword | hword) | hword
          · exact hdeclared hword (by decide) (.ofVariables (by decide) hword h)
          · exact hdeclared hword (by decide) (.ofVariables (by decide) hword h)
          · exact hdeclared hword (by decide) (.ofVariables (by decide) hword h)
        · split at h
          · rename_i hclass
            exact hdeclared hclass (by decide) (.ofClass hclass h)
          · split at h
            · obtain ⟨ho, hbehind⟩ := Prod.mk.inj (Except.ok.inj h)
              rw [hbehind] at ho
              exact .whole hstarts (congrArg Outline.edits ho).symm
            · split at h
              · rename_i inside closer hinside
                obtain ⟨form, tail, replacement, -, -, -, hedits⟩ := exportList_form he
                  (isGroup_of_inside? hinside) hafter (hmore.suffix (List.suffix_cons t rest)) h
                exact .whole hstarts hedits
              · cases h
  · cases h

lemma statement_cases (hafter : after.kind = .endOfFile) (hmarks : OpenedByMarks trees)
    (h : statement after o trees = .ok (o', behind)) : StatementCase after o trees o' behind := by
  unfold statement at h
  dsimp only at h
  split at h
  · rename_i himport
    have hstarts : startsModule after trees = true := by
      rw [startsModule, himport, Bool.or_true]
    rw [Bool.and_eq_true] at himport
    obtain ⟨i, clause, rfl, hi⟩ := startsWithWord_iff.mp himport.1
    obtain ⟨form, tail, replacement, -, -, -, hedits⟩ := importDeclaration_form hi hafter hmarks h
    exact .whole hstarts hedits
  · rename_i himport
    split at h
    · exact exportDeclaration_cases hafter hmarks ‹_› h
    · rename_i hexport
      have hstarts : startsModule after trees = false := by
        simp only [startsModule, hexport, himport, Bool.or_self]
      split at h
      · exact .declared hstarts (.ofFunction h)
      · rename_i hfunction
        split at h
        · rename_i hvariables
          simp only [startsVariables, Bool.and_eq_true, Bool.or_eq_true] at hvariables
          rcases hvariables.1 with (hword | hword) | hword
          · exact .declared hstarts (.ofVariables (by decide) hword h)
          · exact .declared hstarts (.ofVariables (by decide) hword h)
          · exact .declared hstarts (.ofVariables (by decide) hword h)
        · rename_i hvariables
          split at h
          · exact .declared hstarts (.ofClass ‹_› h)
          · rename_i hclass
            obtain ⟨ho, hbehind⟩ := Prod.mk.inj (Except.ok.inj h)
            refine .plain ?_ hbehind ho.symm
            simp only [startsPlain, himport, hexport, hfunction, hvariables, hclass, Bool.not_false,
              Bool.and_self]

/-! ## Which statement starts -/

lemma startsVariables_word {trees : List Tree} (h : startsVariables trees = true) :
    ∃ word ∈ ["const", "let", "var"], startsWithWord trees word = true := by
  simp only [startsVariables, Bool.and_eq_true, Bool.or_eq_true] at h
  rcases h.1 with (h | h) | h
  · exact ⟨_, by simp, h⟩
  · exact ⟨_, by simp, h⟩
  · exact ⟨_, by simp, h⟩

lemma statement_plain {trees : List Tree} (h : startsPlain after trees = true) :
    statement after o trees = .ok (o, pastStatement after trees) := by
  simp only [startsPlain, Bool.and_eq_true, Bool.not_eq_true'] at h
  simp [statement, h]

end Cases

end TaskRunner.Proofs
