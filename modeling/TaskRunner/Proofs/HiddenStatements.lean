import TaskRunner.Proofs.HiddenReaders
import TaskRunner.Proofs.StatementList

/-!
# Statements of hidden trees

A statement of hidden trees makes the same of a hidden outline, and it ends before the same trees. So
statements one behind the other have the same boundaries.
-/

namespace TaskRunner.Proofs
open Source Tree

variable {keep : Bool} {standIn : Tree → List Tree → String} {behindPoint : Bool} {after : Token}
  {trees rest : List Tree} {o o' : Outline} {leading : List Comment} {exported : Bool}

/-! ## Hidden outlines -/

/-- Comments without their places, if they are kept. -/
def hideComments (keep : Bool) (comments : List Comment) : List Comment :=
  if keep then comments.map seen else []

lemma placeless_comments (t : Token) : (placeless keep t).comments = hideComments keep t.comments := rfl

/-- A function, its trees hidden. -/
def hideFunction (keep : Bool) (f : LocalFunction) : LocalFunction :=
  ⟨f.name, hideTrees keep false f.params, f.body.map (hideInside keep), hideComments keep f.leading⟩

/-- An outline without places. -/
def hideOutline (keep : Bool) (o : Outline) : Outline :=
  { o with
    functions := o.functions.map (hideFunction keep)
    edits := o.edits.map fun e => ⟨⟨0, 0⟩, e.replacement⟩ }

lemma addFunction_hidden (f : LocalFunction) :
    (hideOutline keep o).addFunction (hideFunction keep f) = hideOutline keep (o.addFunction f) := by
  simp [hideOutline, Outline.addFunction]

lemma addEdit_hidden (span : Span) (replacement : String) :
    (hideOutline keep o).addEdit ⟨0, 0⟩ replacement = hideOutline keep (o.addEdit span replacement) := by
  simp [hideOutline, Outline.addEdit]

lemma addExports_hidden (entries : List Export) :
    (hideOutline keep o).addExports entries = hideOutline keep (o.addExports entries) := rfl

lemma exportNames_hidden (names : List BoundName) :
    (hideOutline keep o).exportNames exported (names.map (hideBound keep)) =
      hideOutline keep (o.exportNames exported names) := by
  cases exported with
  | false => rfl
  | true =>
    simp only [Outline.exportNames, if_true, List.map_map]
    exact addExports_hidden _

lemma declare_hidden (kind : Declaration) (bound : BoundName) :
    Matches (hideOutline keep) (o.declare kind bound)
      ((hideOutline keep o).declare kind (hideBound keep bound)) := by
  unfold Outline.declare
  cases kind with
  | lexical =>
    dsimp only [hideOutline, hideBound]
    split <;> rfl
  | var =>
    dsimp only [hideOutline, hideBound]
    split <;> rfl

lemma declareAll_hidden (kind : Declaration) (names : List BoundName) :
    Matches (hideOutline keep) (o.declareAll kind names)
      ((hideOutline keep o).declareAll kind (names.map (hideBound keep))) := by
  unfold Outline.declareAll
  induction names generalizing o with
  | nil => exact matches_ok (hideOutline keep) o
  | cons bound names ih =>
    rw [List.map_cons, List.foldlM_cons, List.foldlM_cons]
    exact (declare_hidden kind bound).bind fun _ _ => ih

/-! ## Spans of hidden trees -/

lemma spanOf_placeless {trees : List Tree}
    (h : ∀ t ∈ trees, t.first.span = ⟨0, 0⟩ ∧ t.last.span = ⟨0, 0⟩) : spanOf trees = ⟨0, 0⟩ := by
  cases trees with
  | nil => rfl
  | cons t rest =>
    have hlast : rest.getLastD t ∈ t :: rest := by
      rw [List.getLastD_eq_getLast?]
      cases hrest : rest.getLast? with
      | none => exact List.mem_cons_self
      | some u => exact List.mem_cons_of_mem _ (List.mem_of_getLast? hrest)
    rw [spanOf, (h t List.mem_cons_self).1, (h _ hlast).2]

lemma hideLevel_spans {t : Tree} (h : t ∈ hideLevel keep standIn behindPoint trees) :
    t.first.span = ⟨0, 0⟩ ∧ t.last.span = ⟨0, 0⟩ := by
  induction trees generalizing behindPoint with
  | nil => simp at h
  | cons u rest ih =>
    rw [hideLevel_cons] at h
    rcases List.mem_cons.mp h with rfl | h
    · cases u with
      | leaf token => exact ⟨rfl, rfl⟩
      | group opener inside closer => exact ⟨rfl, rfl⟩
    · exact ih h

lemma spanOf_hidden (n : Nat) : spanOf ((hideLevel keep standIn behindPoint trees).take n) = ⟨0, 0⟩ :=
  spanOf_placeless fun _ ht => hideLevel_spans (List.mem_of_mem_take ht)

/-- What a reader has made of an outline, and what is behind it, hidden. -/
def hideRead (keep : Bool) (standIn : Tree → List Tree → String) : Outline × List Tree → Outline × List Tree :=
  hideBehind (hideOutline keep) keep standIn

/-- An edit of everything that has been read. -/
lemma addEdit_consumed (behind : List Tree) (replacement : String) :
    ((hideOutline keep o).addEdit (spanOf (consumed (hideLevel keep standIn false trees)
        (hideLevel keep standIn false behind))) replacement, hideLevel keep standIn false behind) =
      hideRead keep standIn (o.addEdit (spanOf (consumed trees behind)) replacement, behind) := by
  rw [consumed, spanOf_hidden, addEdit_hidden (spanOf (consumed trees behind))]
  rfl

/-! ## Functions and classes -/

lemma functionDeclaration_hidden :
    Matches (hideRead keep standIn) (functionDeclaration after leading exported o trees)
      (functionDeclaration (placeless keep after) (hideComments keep leading) exported (hideOutline keep o)
        (hideLevel keep standIn false trees)) := by
  unfold functionDeclaration
  simp only [dropWord_hidden]
  generalize dropWord "async" trees = trees
  rw [startsWithWord_hideLevel]
  split
  · rw [hideLevel_tail (noPoint_word ‹_›), dropPunct_hidden (by decide)]
    generalize dropPunct "*" trees.tail = named
    rw [ahead_hideLevel]
    refine (nameOfToken_hidden _).bind fun bound hbound => ?_
    rw [hideLevel_tail (noPoint_ahead (nameOrText?_name (nameOfToken_ok hbound)))]
    refine functionTail_hidden.bind fun found _ => ?_
    obtain ⟨params, body, rest⟩ := found
    refine (declare_hidden .lexical bound).bind fun o₁ _ => ?_
    have hfunction : hideFunction keep ⟨bound.name, params, some body, leading⟩ =
        ⟨bound.name, hideTrees keep false params, some (hideInside keep body), hideComments keep leading⟩ :=
      rfl
    have hnames : [hideBound keep bound] = [bound].map (hideBound keep) := rfl
    dsimp only [hideTail]
    rw [hnames, show (hideBound keep bound).name = bound.name from rfl, ← hfunction, addFunction_hidden,
      exportNames_hidden]
    exact matches_ok (hideRead keep standIn) (_, rest)
  · exact matches_error _ _ _

lemma classDeclaration_hidden (hclass : startsWithWord trees "class" = true) :
    Matches (hideRead keep standIn) (classDeclaration after exported o trees)
      (classDeclaration (placeless keep after) exported (hideOutline keep o)
        (hideLevel keep standIn false trees)) := by
  unfold classDeclaration
  rw [hideLevel_tail (noPoint_word hclass), ahead_hideLevel]
  refine (nameOfToken_hidden _).bind fun bound hbound => ?_
  rw [hideLevel_tail (noPoint_ahead (nameOrText?_name (nameOfToken_ok hbound)))]
  refine pastClassBody_hidden.bind fun rest _ => ?_
  refine (declare_hidden .lexical bound).bind fun o₁ _ => ?_
  have hnames : [hideBound keep bound] = [bound].map (hideBound keep) := rfl
  rw [hnames, exportNames_hidden]
  exact matches_ok (hideRead keep standIn) (_, rest)

/-! ## Variables -/

/-- The value of a declarator: a function is added, and what is behind the value is left. -/
def declaratorValue (after : Token) (leading : List Comment) (single : Option String) (o : Outline)
    (trees : List Tree) : Outline × List Tree :=
  if startsWithPunct trees "=" then
    let value := trees.tail
    let (taken, behind) := cutExpression after true none value
    let o := match single, functionValue value taken.length with
      | some name, some (params, body) => o.addFunction ⟨name, params, body, leading⟩
      | _, _ => o
    (o, behind)
  else (o, trees)

lemma declarators_succ (kind : Declaration) (fuel : Nat) :
    declarators after kind leading exported (fuel + 1) o trees =
      declaratorTarget after trees >>= fun found => o.declareAll kind found.2.1 >>= fun o =>
        let read := declaratorValue after leading found.1 (o.exportNames exported found.2.1) found.2.2
        moreDeclarators after kind leading exported fuel read.1 read.2 := by
  rw [declarators]
  rfl

lemma declaratorValue_hidden (hopen : KeepsOpen after standIn) (single : Option String) :
    declaratorValue (placeless keep after) (hideComments keep leading) single (hideOutline keep o)
        (hideLevel keep standIn false trees) =
      hideRead keep standIn (declaratorValue after leading single o trees) := by
  unfold declaratorValue
  rw [startsWithPunct_hideLevel]
  split
  · rw [hideLevel_tail (noPoint_punct ‹_› (by decide))]
    obtain ⟨taken, hcut, hlength⟩ :
        ∃ taken, cutExpression (placeless keep after) true none (hideLevel keep standIn false trees.tail) =
            (taken, hideLevel keep standIn false (cutExpression after true none trees.tail).2) ∧
          taken.length = (cutExpression after true none trees.tail).1.length :=
      cutExpression_hidden hopen .start
    dsimp only
    rw [hcut]
    dsimp only
    rw [hlength, functionValue_hidden]
    cases single with
    | none => rfl
    | some name =>
      cases functionValue trees.tail (cutExpression after true none trees.tail).1.length with
      | none => rfl
      | some found =>
        obtain ⟨params, body⟩ := found
        exact congrArg (·, _) (addFunction_hidden ⟨name, params, body, leading⟩)
  · rfl

lemma declarators_hidden (hopen : KeepsOpen after standIn) (kind : Declaration) (fuel : Nat) :
    Matches (hideRead keep standIn) (declarators after kind leading exported fuel o trees)
      (declarators (placeless keep after) kind (hideComments keep leading) exported fuel
        (hideOutline keep o) (hideLevel keep standIn false trees)) := by
  induction fuel generalizing o trees with
  | zero => exact matches_ok (hideRead keep standIn) (o, trees)
  | succ fuel ih =>
    rw [declarators_succ, declarators_succ]
    refine declaratorTarget_hidden.bind fun found _ => ?_
    refine (declareAll_hidden kind found.2.1).bind fun o₁ _ => ?_
    dsimp only [hideTarget]
    rw [exportNames_hidden, declaratorValue_hidden hopen]
    generalize declaratorValue after leading found.1 (o₁.exportNames exported found.2.1) found.2.2 = read
    obtain ⟨o₂, behind⟩ := read
    change Matches _ (moreDeclarators after kind leading exported fuel o₂ behind)
      (moreDeclarators (placeless keep after) kind (hideComments keep leading) exported fuel
        (hideOutline keep o₂) (hideLevel keep standIn false behind))
    unfold moreDeclarators
    rw [startsWithPunct_hideLevel, pastSemicolon_hidden]
    split
    · rw [hideLevel_tail (noPoint_punct ‹_› (by decide))]
      exact ih
    · exact matches_ok (hideRead keep standIn) (o₂, pastSemicolon behind)

lemma variableDeclaration_hidden (hopen : KeepsOpen after standIn) (h : NoPoint trees) :
    Matches (hideRead keep standIn) (variableDeclaration after leading exported o trees)
      (variableDeclaration (placeless keep after) (hideComments keep leading) exported (hideOutline keep o)
        (hideLevel keep standIn false trees)) := by
  unfold variableDeclaration
  rw [startsWithWord_hideLevel, hideLevel_length, hideLevel_tail h]
  exact declarators_hidden hopen _ _

/-! ## Imports and exports -/

/-- What stands behind the names of an import declaration. -/
def importSource (after : Token) (o : Outline) (trees : List Tree)
    (found : List (ImportBinding × BoundName) × List Tree) : Except SyntaxError (Outline × List Tree) :=
  match (ahead after found.2).text? with
  | none => .error (unexpected (ahead after found.2))
  | some source => do
    let behind := pastSemicolon (pastAttributes found.2.tail)
    let o ← o.declareAll .lexical (found.1.map (·.2))
    .ok (o.addEdit (spanOf (consumed trees behind)) (importReplacement source (found.1.map (·.1))), behind)

lemma importDeclaration_eq :
    importDeclaration after o trees =
      (if (ahead after trees.tail).text?.isSome then .ok ([], trees.tail)
        else importClause after trees.tail) >>= importSource after o trees := by
  unfold importDeclaration
  dsimp only
  split
  · rfl
  · rfl

lemma importSource_hidden (found : List (ImportBinding × BoundName) × List Tree) :
    Matches (hideRead keep standIn) (importSource after o trees found)
      (importSource (placeless keep after) (hideOutline keep o) (hideLevel keep standIn false trees)
        (hideBehind (List.map (hideImport keep)) keep standIn found)) := by
  obtain ⟨bindings, rest⟩ := found
  unfold importSource
  dsimp only [hideBehind]
  rw [ahead_hideLevel, placeless_text?]
  cases htext : (ahead after rest).text? with
  | none => exact matches_error _ _ _
  | some source =>
    have hnames : (bindings.map (hideImport keep)).map (·.2) = (bindings.map (·.2)).map (hideBound keep) := by
      simp [hideImport]
    have hbindings : (bindings.map (hideImport keep)).map (·.1) = bindings.map (·.1) := by
      simp [hideImport]
    have hnamed : (ahead after rest).nameOrText?.isSome = true := nameOrText?_text (by rw [htext]; rfl)
    dsimp only
    rw [hideLevel_tail (noPoint_ahead hnamed), pastAttributes_hidden, pastSemicolon_hidden, hnames, hbindings]
    refine (declareAll_hidden .lexical _).bind fun o₁ _ => ?_
    rw [addEdit_consumed]
    exact matches_ok (hideRead keep standIn) _

lemma importDeclaration_hidden (h : NoPoint trees) :
    Matches (hideRead keep standIn) (importDeclaration after o trees)
      (importDeclaration (placeless keep after) (hideOutline keep o) (hideLevel keep standIn false trees)) := by
  rw [importDeclaration_eq, importDeclaration_eq, hideLevel_tail h, ahead_hideLevel, placeless_text?]
  refine Matches.bind ?_ fun found _ => importSource_hidden found
  split
  · exact matches_ok (hideBehind (List.map (hideImport keep)) keep standIn) ([], trees.tail)
  · exact importClause_hidden

/-- What an export list makes of an outline: nothing is exported before the name of a module. -/
def exportSource (after : Token) (o : Outline) (entries : List Export) (rest : List Tree) :
    Except SyntaxError (Outline × List Tree) :=
  if startsWithWord rest "from" then
    if (ahead after rest.tail).text?.isSome then .ok (o, rest.drop 2)
    else .error (unexpected (ahead after rest.tail))
  else .ok (o.addExports entries, rest)

lemma exportList_eq (inside : List Tree) (closer : Token) :
    exportList after o trees inside closer =
      exportElements closer (inside.length + 1) inside >>= fun entries =>
        exportSource after o entries (trees.drop 2) >>= fun read =>
          .ok (read.1.addEdit (spanOf (consumed trees (pastSemicolon read.2))) "", pastSemicolon read.2) := by
  unfold exportList exportSource
  cases exportElements closer (inside.length + 1) inside with
  | error e => rfl
  | ok entries =>
    dsimp only [bind, Except.bind]
    split
    · split <;> rfl
    · rfl

lemma exportSource_hidden (entries : List Export) :
    Matches (hideRead keep standIn) (exportSource after o entries trees)
      (exportSource (placeless keep after) (hideOutline keep o) entries
        (hideLevel keep standIn false trees)) := by
  have hdrop : ∀ trees : List Tree, trees.drop 2 = trees.tail.tail := by
    intro trees
    rw [← List.drop_one, ← List.drop_one, List.drop_drop]
  unfold exportSource
  rw [startsWithWord_hideLevel, hdrop, hdrop]
  split
  · rw [hideLevel_tail (noPoint_word ‹_›), ahead_hideLevel, placeless_text?]
    split
    · rw [hideLevel_tail (noPoint_ahead (nameOrText?_text ‹_›))]
      exact matches_ok (hideRead keep standIn) (o, trees.tail.tail)
    · exact matches_error _ _ _
  · exact matches_ok (hideRead keep standIn) (o.addExports entries, trees)

lemma drop_hidden {keyword t : Tree} (hkeyword : isPoint keyword = false) (ht : isPoint t = false) :
    (hideLevel keep standIn false (keyword :: t :: rest)).drop 2 = hideLevel keep standIn false rest := by
  simp [hkeyword, ht]

lemma exportList_hidden {keyword t : Tree} {inside : List Tree} {closer : Token}
    (hkeyword : isPoint keyword = false) (ht : isPoint t = false) :
    Matches (hideRead keep standIn) (exportList after o (keyword :: t :: rest) inside closer)
      (exportList (placeless keep after) (hideOutline keep o)
        (hideLevel keep standIn false (keyword :: t :: rest)) (hideTrees keep false inside)
        (placeless keep closer)) := by
  rw [exportList_eq, exportList_eq, drop_hidden hkeyword ht, hideTrees_eq, hideLevel_length]
  refine (exportElements_hidden _).bind fun entries _ => ?_
  refine (exportSource_hidden entries).bind fun read _ => ?_
  dsimp only [hideRead, hideBehind]
  rw [pastSemicolon_hidden, addEdit_consumed]
  exact matches_ok (hideRead keep standIn) _

lemma startsNamedFunction_hidden :
    startsNamedFunction (hideLevel keep standIn false trees) = startsNamedFunction trees := by
  unfold startsNamedFunction
  rw [startsWithWord_hideLevel, startsWithWord_hideLevel]
  by_cases hfunction : startsWithWord trees "function" = true
  · rw [if_pos hfunction, if_pos hfunction, hideLevel_tail (noPoint_word hfunction), startsWithName_hideLevel,
      startsWithPunct_hideLevel]
    cases hstar : startsWithPunct trees.tail "*" with
    | true => rw [hideLevel_tail (noPoint_punct hstar (by decide)), startsWithName_hideLevel]
    | false => rfl
  · rw [if_neg hfunction, if_neg hfunction]
    cases hasync : startsWithWord trees "async" with
    | false => rfl
    | true =>
      rw [hideLevel_tail (noPoint_word hasync), startsWithWord_hideLevel]
      cases hinner : startsWithWord trees.tail "function" with
      | false => rfl
      | true => rw [hideLevel_tail (noPoint_word hinner), startsWithName_hideLevel]

/-- A class with a name comes next. -/
def startsNamedClass (trees : List Tree) : Bool :=
  startsWithWord trees "class" && startsWithName trees.tail && !startsWithWord trees.tail "extends"

lemma startsNamedClass_hidden :
    startsNamedClass (hideLevel keep standIn false trees) = startsNamedClass trees := by
  unfold startsNamedClass
  rw [startsWithWord_hideLevel]
  cases hclass : startsWithWord trees "class" with
  | true => rw [hideLevel_tail (noPoint_word hclass), startsWithName_hideLevel, startsWithWord_hideLevel]
  | false => rfl

lemma exportDefault_eq (keyword t : Tree) :
    exportDefault after leading o (keyword :: t :: rest) =
      if startsNamedFunction rest then
        functionDeclaration after leading false (o.addEdit (spanOf [keyword, t]) "") rest
      else if startsNamedClass rest then
        classDeclaration after false (o.addEdit (spanOf [keyword, t]) "") rest
      else .ok (o.addEdit (spanOf [keyword, t]) "void", pastStatement after rest) :=
  rfl

lemma exportDefault_hidden (hopen : KeepsOpen after standIn) {keyword t : Tree}
    (hkeyword : isPoint keyword = false) (ht : isPoint t = false) :
    Matches (hideRead keep standIn) (exportDefault after leading o (keyword :: t :: rest))
      (exportDefault (placeless keep after) (hideComments keep leading) (hideOutline keep o)
        (hideLevel keep standIn false (keyword :: t :: rest))) := by
  have hspan : spanOf [hideTree keep none keyword, hideTree keep none t] = ⟨0, 0⟩ := by
    have hfront : [hideTree keep none keyword, hideTree keep none t] =
        (hideLevel keep standIn false (keyword :: t :: rest)).take 2 := by simp [hkeyword]
    rw [hfront, spanOf_hidden]
  rw [hideLevel_cons, hideLevel_cons, hkeyword, ht, nameBehind_false, nameBehind_false, exportDefault_eq,
    exportDefault_eq, hspan, startsNamedFunction_hidden, startsNamedClass_hidden,
    addEdit_hidden (spanOf [keyword, t]), addEdit_hidden (spanOf [keyword, t]), pastStatement_hidden hopen]
  split
  · exact functionDeclaration_hidden
  · split
    · rename_i hclass
      simp only [startsNamedClass, Bool.and_eq_true] at hclass
      exact classDeclaration_hidden hclass.1.1
    · exact matches_ok (hideRead keep standIn) (_, pastStatement after rest)

lemma noPoint_variables (h : (startsWithWord trees "const" || startsWithWord trees "let" ||
    startsWithWord trees "var") = true) : NoPoint trees := by
  simp only [Bool.or_eq_true] at h
  rcases h with (hword | hword) | hword
  all_goals exact noPoint_word hword

lemma exportDeclaration_hidden (hopen : KeepsOpen after standIn) (h : NoPoint trees) :
    Matches (hideRead keep standIn) (exportDeclaration after o trees)
      (exportDeclaration (placeless keep after) (hideOutline keep o)
        (hideLevel keep standIn false trees)) := by
  cases trees with
  | nil => exact matches_error _ _ _
  | cons keyword rest =>
    cases rest with
    | nil => exact matches_error _ _ _
    | cons t rest =>
      have hkeyword : isPoint keyword = false := h keyword rfl
      have hspan : (hideTree keep none keyword).first.span = ⟨0, 0⟩ := by
        rw [hideTree_first]
        rfl
      have hall : hideLevel keep standIn false (keyword :: t :: rest) =
          hideTree keep none keyword :: hideTree keep none t :: hideLevel keep standIn (isPoint t) rest := by
        simp [hkeyword]
      have hrest : hideLevel keep standIn false (t :: rest) =
          hideTree keep none t :: hideLevel keep standIn (isPoint t) rest := by simp
      unfold exportDeclaration
      rw [hall]
      dsimp only
      rw [← hall, ← hrest, hspan, addEdit_hidden keyword.first.span, hideTree_first, placeless_comments]
      have hasync : (t.isWord "async" && startsWithWord (hideLevel keep standIn (isPoint t) rest) "function") =
          (t.isWord "async" && startsWithWord rest "function") := by
        cases hword : t.isWord "async" with
        | true => rw [isPoint_of_isWord hword, startsWithWord_hideLevel]
        | false => rfl
      simp only [hideTree_isWord, hideTree_isPunct, hideTree_inside?, hasync]
      split
      · exact exportDefault_hidden hopen hkeyword (isPoint_of_isWord ‹_›)
      · split
        · exact functionDeclaration_hidden
        · split
          · exact variableDeclaration_hidden hopen (noPoint_variables ‹_›)
          · split
            · exact classDeclaration_hidden ‹_›
            · split
              · rw [pastStatement_hidden hopen, addEdit_consumed]
                exact matches_ok (hideRead keep standIn) _
              · cases hinside : t.inside? "\x7b" with
                | none => exact matches_error _ _ _
                | some found => exact exportList_hidden hkeyword (isPoint_of_inside? hinside)

/-! ## Statements -/

lemma startsVariables_hidden :
    startsVariables (hideLevel keep standIn false trees) = startsVariables trees := by
  unfold startsVariables
  rw [startsWithWord_hideLevel, startsWithWord_hideLevel, startsWithWord_hideLevel]
  cases hvariables : startsWithWord trees "const" || startsWithWord trees "let" || startsWithWord trees "var" with
  | false => rfl
  | true =>
    rw [hideLevel_tail (noPoint_variables hvariables), startsWithName_hideLevel, startsWithGroup_hideLevel,
      startsWithGroup_hideLevel]

/-- A statement of hidden trees makes the same of a hidden outline. -/
lemma statement_hidden (hopen : KeepsOpen after standIn) :
    Matches (hideRead keep standIn) (statement after o trees)
      (statement (placeless keep after) (hideOutline keep o) (hideLevel keep standIn false trees)) := by
  unfold statement
  simp only [startsWithWord_hideLevel, startsDeclaration_hidden, startsVariables_hidden, ahead_hideLevel,
    placeless_comments]
  split
  · rename_i himport
    exact importDeclaration_hidden (noPoint_word (Bool.and_eq_true_iff.mp himport).1)
  · split
    · exact exportDeclaration_hidden hopen (noPoint_word ‹_›)
    · split
      · exact functionDeclaration_hidden
      · split
        · rename_i hvariables
          exact variableDeclaration_hidden hopen (noPoint_variables (Bool.and_eq_true_iff.mp hvariables).1)
        · split
          · exact classDeclaration_hidden ‹_›
          · rw [pastStatement_hidden hopen]
            exact matches_ok (hideRead keep standIn) (o, pastStatement after trees)

lemma statements_hidden (hopen : KeepsOpen after standIn) (fuel : Nat) :
    Matches (hideOutline keep) (statements after fuel o trees)
      (statements (placeless keep after) fuel (hideOutline keep o) (hideLevel keep standIn false trees)) := by
  induction fuel generalizing o trees with
  | zero => exact matches_ok (hideOutline keep) o
  | succ fuel ih =>
    cases trees with
    | nil =>
      rw [hideLevel_nil]
      exact matches_ok (hideOutline keep) o
    | cons t rest =>
      have hfirst : Matches (hideRead keep standIn) (statement after o (t :: rest)) _ := statement_hidden hopen
      rw [hideLevel_cons] at hfirst ⊢
      exact hfirst.bind fun _ _ => ih

/-! ## Files that look alike when they are hidden -/

mutual

lemma hideTree_tokens (name : Option String) :
    ∀ t : Tree, (hideTree keep name t).tokens.length = t.tokens.length
  | leaf t => by simp
  | group opener inside closer => by
    have hinside := hideTrees_tokens false inside
    simp [hinside]

lemma hideTrees_tokens (behindPoint : Bool) :
    ∀ trees : List Tree, (tokensOfAll (hideTrees keep behindPoint trees)).length = (tokensOfAll trees).length
  | [] => by simp [hideTrees]
  | t :: rest => by
    have hfirst := hideTree_tokens (nameBehind behindPoint "") t
    have hrest := hideTrees_tokens (isPoint t) rest
    simp [hideTrees, hfirst, hrest]

end

lemma hideLevel_tokens : (tokensOfAll (hideLevel keep standIn behindPoint trees)).length =
    (tokensOfAll trees).length := by
  induction trees generalizing behindPoint with
  | nil => simp
  | cons t rest ih => simp [ih, hideTree_tokens]

/-- Two computations with the same hidden result both succeed. -/
lemma Matches.alike {α α' β : Type} {m : α → β} {m' : α' → β} {x : Except SyntaxError α}
    {x' : Except SyntaxError α'} {y : Except SyntaxError β} (h : Matches m x y) (h' : Matches m' x' y) {a : α}
    (hread : x = .ok a) : ∃ a', x' = .ok a' ∧ m' a' = m a := by
  subst hread
  unfold Matches at h h'
  rw [h] at h'
  cases x' with
  | error e => cases h'
  | ok a' => exact ⟨a', rfl, (Option.some.inj h').symm⟩

section
variable {standIn' : Tree → List Tree → String} {after' : Token} {trees' : List Tree} {q : Outline}

/-- The trees of two files look alike when they are hidden, and so do the ends of the files. -/
structure LooksAlike (keep : Bool) (after : Token) (standIn : Tree → List Tree → String) (trees : List Tree)
    (after' : Token) (standIn' : Tree → List Tree → String) (trees' : List Tree) : Prop where
  ending : placeless keep after' = placeless keep after
  level : hideLevel keep standIn' false trees' = hideLevel keep standIn false trees
  keepsOpen : KeepsOpen after standIn
  keepsOpen' : KeepsOpen after' standIn'

lemma LooksAlike.statement {behind : List Tree}
    (h : LooksAlike keep after standIn trees after' standIn' trees')
    (hq : hideOutline keep q = hideOutline keep o)
    (hread : Source.statement after o trees = .ok (o', behind)) :
    ∃ q' behind', Source.statement after' q trees' = .ok (q', behind') ∧
      hideOutline keep q' = hideOutline keep o' ∧ LooksAlike keep after standIn behind after' standIn' behind' := by
  have hhidden : Matches (hideRead keep standIn) (Source.statement after o trees) _ :=
    statement_hidden h.keepsOpen
  have hhidden' : Matches (hideRead keep standIn') (Source.statement after' q trees') _ :=
    statement_hidden h.keepsOpen'
  rw [h.ending, hq, h.level] at hhidden'
  obtain ⟨⟨q', behind'⟩, hread', heq⟩ := hhidden.alike hhidden' hread
  obtain ⟨houtline, hbehind⟩ := Prod.mk.inj heq
  exact ⟨q', behind', hread', houtline, h.ending, hbehind, h.keepsOpen, h.keepsOpen'⟩

lemma LooksAlike.length (h : LooksAlike keep after standIn trees after' standIn' trees') :
    trees'.length = trees.length := by
  have hlength := congrArg List.length h.level
  rwa [hideLevel_length, hideLevel_length] at hlength

lemma LooksAlike.tokens (h : LooksAlike keep after standIn trees after' standIn' trees') :
    (tokensOfAll trees').length = (tokensOfAll trees).length := by
  rw [← hideLevel_tokens, h.level, hideLevel_tokens]

/-- The number of tokens of each statement. -/
def boundaries (stmts : List (List Tree)) : List Nat :=
  stmts.map fun stmt => (tokensOfAll stmt).length

/-- Statements one behind the other have the same boundaries. -/
lemma LooksAlike.sequence {stmts : List (List Tree)}
    (h : LooksAlike keep after standIn stmts.flatten after' standIn' trees')
    (hafter : after'.kind = .endOfFile) (hmarks : OpenedByMarks trees')
    (hq : hideOutline keep q = hideOutline keep o) (hread : Sequence after o stmts o') :
    ∃ stmts' q', trees' = stmts'.flatten ∧ Sequence after' q stmts' q' ∧
      hideOutline keep q' = hideOutline keep o' ∧ boundaries stmts' = boundaries stmts := by
  induction hread generalizing trees' q with
  | @ending o =>
    obtain rfl := List.length_eq_zero_iff.mp h.length
    exact ⟨[], q, rfl, .ending, hq, rfl⟩
  | @next o o₁ o₂ stmt more nonempty read _ ih =>
    rw [List.flatten_cons] at h
    obtain ⟨q₁, behind, hstatement, hq₁, hbehind⟩ := h.statement hq read
    cases trees' with
    | nil =>
      have hlength := h.length
      rw [List.length_append] at hlength
      have hpos := List.length_pos_of_ne_nil nonempty
      simp at hlength
      omega
    | cons t rest =>
      obtain ⟨front, hfront⟩ := statement_suffix hafter hmarks hstatement
      have hsuffix : behind <:+ t :: rest := ⟨t :: front, by rw [List.cons_append, hfront]⟩
      obtain ⟨stmts', q₂, rfl, hmore, hq₂, hboundaries⟩ := ih hbehind (hmarks.suffix hsuffix) hq₁
      refine ⟨(t :: front) :: stmts', q₂, by rw [List.flatten_cons, List.cons_append, hfront],
        .next (List.cons_ne_nil _ _) ?_ hmore, hq₂, ?_⟩
      · rw [List.cons_append, hfront]
        exact hstatement
      · have hall := h.tokens
        have hleft := hbehind.tokens
        rw [← hfront, ← List.cons_append, tokensOfAll_append, tokensOfAll_append, List.length_append,
          List.length_append] at hall
        rw [boundaries, boundaries, List.map_cons, List.map_cons]
        exact congrArg₂ List.cons (by omega) hboundaries

end

end TaskRunner.Proofs
