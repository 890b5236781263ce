import TaskRunner.Proofs.DeclaredPatterns
import TaskRunner.Proofs.StatementList

/-!
# Functions that are recorded

The functions that a statement adds to the outline, read off its form: a function declaration adds its
function, and a declaration of variables adds one for each name whose value starts with a function. How
such a value goes on plays no part in it.
-/

namespace TaskRunner.Proofs
open Source Tree

variable {after : Token} {leading : List Comment} {exported : Bool} {trees rest behind : List Tree}
  {o o' : Outline} {kind : Declaration}

/-! ## The functions of a statement -/

/-- The function declaration that a statement is or exports, or nothing. -/
def functionPart (after : Token) (trees : List Tree) : List Tree :=
  if startsWithWord trees "export" then
    if startsWithWord trees.tail "default" then
      if startsNamedFunction trees.tail.tail then trees.tail.tail else []
    else if startsWithWord (dropWord "async" trees.tail) "function" then trees.tail
    else []
  else if startsWithWord trees "function" ||
      (startsWithWord trees "async" && startsDeclaration after trees) then trees
  else []

/-- The declaration of variables that a statement is or exports, or nothing. -/
def variablePart (trees : List Tree) : List Tree :=
  if startsWithWord trees "export" then
    if startsWithWord trees.tail "const" || startsWithWord trees.tail "let" ||
        startsWithWord trees.tail "var" then trees.tail
    else []
  else if startsVariables trees then trees
  else []

/-- The function of a function declaration. -/
def declaredFunction (after : Token) (leading : List Comment) (trees : List Tree) : List LocalFunction :=
  let named := dropPunct "*" (dropWord "async" trees).tail
  match nameOfToken (ahead after named), functionTail after named.tail with
  | .ok bound, .ok (params, body, _) => [⟨bound.name, params, some body, leading⟩]
  | _, _ => []

/-- The targets of declarators with the trees behind their equals signs; at most `fuel` declarators. -/
def declaratorValues (after : Token) : Nat → List Tree → List (Tree × List Tree)
  | fuel + 1, t :: rest =>
    let own := if startsWithPunct rest "=" then [(t, rest.tail)] else []
    let behind := pastValue after rest
    if startsWithPunct behind "," then own ++ declaratorValues after fuel behind.tail else own
  | _, _ => []

lemma declaratorValues_nil (fuel : Nat) : declaratorValues after fuel [] = [] := by
  cases fuel <;> rfl

/-- The targets and values of a statement's variables. -/
def variableValues (after : Token) (trees : List Tree) : List (Tree × List Tree) :=
  declaratorValues after (variablePart trees).length (variablePart trees).tail

/-- The function that a variable is recorded as. -/
def valueFunction (after : Token) (leading : List Comment) (binding : Tree × List Tree) :
    Option LocalFunction := do
  let name ← binding.1.name?
  let (params, body) ← functionValue binding.2 (cutExpression after true none binding.2).1.length
  some ⟨name, params, body, leading⟩

/-- The functions that a statement adds. -/
def functionsOf (after : Token) (trees : List Tree) : List LocalFunction :=
  let leading := (ahead after trees).comments
  declaredFunction after leading (functionPart after trees) ++
    (variableValues after trees).filterMap (valueFunction after leading)

lemma declaredFunction_nil : declaredFunction after leading [] = [] := by
  simp [declaredFunction, dropWord, dropPunct, startsWithWord, startsWithPunct, functionTail]

lemma functionsOf_nil : functionsOf after [] = [] := by
  have hfunction : functionPart after [] = [] := rfl
  have hvalues : variableValues after [] = [] := rfl
  rw [functionsOf, hfunction, hvalues, declaredFunction_nil]
  rfl

/-! ## Readers -/

lemma exportNames_functions (o : Outline) (exported : Bool) (names : List BoundName) :
    (o.exportNames exported names).functions = o.functions := by
  unfold Outline.exportNames
  split <;> rfl

lemma declareAll_functions {names : List BoundName} (h : o.declareAll kind names = .ok o') :
    o'.functions = o.functions := by
  obtain heq | ⟨_, _, _, _, _, heq⟩ := declareAll_cases kind o names
  · cases heq.symm.trans h
    cases kind <;> rfl
  · cases heq.symm.trans h

lemma declare_functions {bound : BoundName} (h : o.declare kind bound = .ok o') :
    o'.functions = o.functions := by
  have hall : o.declareAll kind [bound] = .ok o' := by
    rw [Outline.declareAll, List.foldlM_cons, h]
    rfl
  exact declareAll_functions hall

lemma functionDeclaration_functions
    (h : functionDeclaration after leading exported o trees = .ok (o', behind)) :
    o'.functions = o.functions ++ declaredFunction after leading trees := by
  unfold functionDeclaration at h
  dsimp only at h
  split at h
  · obtain ⟨bound, hbound, h⟩ := bind_ok h
    obtain ⟨⟨params, body, rest⟩, htail, h⟩ := bind_ok h
    obtain ⟨o₁, hdeclare, h⟩ := bind_ok h
    cases h
    simp only [declaredFunction, hbound, htail]
    rw [exportNames_functions, Outline.addFunction, declare_functions hdeclare]
  · cases h

lemma classDeclaration_functions (h : classDeclaration after exported o trees = .ok (o', behind)) :
    o'.functions = o.functions := by
  obtain ⟨bound, -, h⟩ := bind_ok h
  obtain ⟨rest, -, h⟩ := bind_ok h
  obtain ⟨o₁, hdeclare, h⟩ := bind_ok h
  cases h
  rw [exportNames_functions, declare_functions hdeclare]

/-- A single name is that of the target. -/
lemma declaratorTarget_single {single : Option String} {names : List BoundName} {t : Tree}
    (h : declaratorTarget after (t :: rest) = .ok (single, names, behind)) :
    single = t.name? ∧ behind = rest := by
  cases t with
  | leaf token =>
    obtain ⟨bound, hbound, h⟩ := bind_ok h
    cases h
    unfold nameOfToken at hbound
    split at hbound
    · rename_i name hname
      cases hbound
      exact ⟨hname.symm, rfl⟩
    · cases hbound
  | group opener inside closer =>
    obtain ⟨names, -, h⟩ := bind_ok h
    cases h
    exact ⟨rfl, rfl⟩

/-- Declarators add their function values one behind the other. -/
lemma declarators_functions {fuel : Nat}
    (h : declarators after kind leading exported fuel o trees = .ok (o', behind)) :
    o'.functions = o.functions ++
      (declaratorValues after fuel trees).filterMap (valueFunction after leading) := by
  induction fuel generalizing o trees with
  | zero =>
    cases h
    rw [declaratorValues, List.filterMap_nil, List.append_nil]
    exact fun _ _ _ heq _ => nomatch heq
  | succ fuel ih =>
    rw [declarators] at h
    obtain ⟨⟨single, names, left⟩, htarget, h⟩ := bind_ok h
    obtain ⟨o₁, hdeclare, h⟩ := bind_ok h
    obtain ⟨t, rfl⟩ := declaratorTarget_cons htarget
    obtain ⟨rfl, -⟩ := declaratorTarget_single htarget
    have hfunctions : (o₁.exportNames exported names).functions = o.functions := by
      rw [exportNames_functions, declareAll_functions hdeclare]
    -- The outline behind the value of this declarator.
    obtain ⟨o₂, hadded, hmore⟩ : ∃ o₂, o₂.functions = o.functions ++
          (if startsWithPunct left "=" then [(t, left.tail)] else []).filterMap (valueFunction after leading) ∧
        moreDeclarators after kind leading exported fuel o₂ (pastValue after left) = .ok (o', behind) := by
      unfold pastValue
      cases hvalue : startsWithPunct left "=" with
      | false =>
        rw [hvalue] at h
        exact ⟨_, by simpa using hfunctions, h⟩
      | true =>
        rw [hvalue] at h
        refine ⟨_, ?_, h⟩
        simp only [if_true, List.filterMap_cons, List.filterMap_nil, valueFunction]
        cases t.name? with
        | none => simpa using hfunctions
        | some name =>
          cases functionValue left.tail (cutExpression after true none left.tail).1.length with
          | none => simpa using hfunctions
          | some value => simp [Outline.addFunction, hfunctions]
    rw [declaratorValues]
    unfold moreDeclarators at hmore
    split at hmore
    · rename_i hcomma
      rw [if_pos hcomma, List.filterMap_append, ← List.append_assoc, ← hadded]
      exact ih hmore
    · rename_i hcomma
      cases hmore
      rw [if_neg hcomma, hadded]

/-! ## Statements -/

lemma importDeclaration_functions (h : importDeclaration after o trees = .ok (o', behind)) :
    o'.functions = o.functions := by
  unfold importDeclaration at h
  dsimp only at h
  split at h
  all_goals
    obtain ⟨clause, -, h⟩ := bind_ok h
    split at h
    · cases h
    · obtain ⟨o₁, hdeclare, h⟩ := bind_ok h
      cases h
      have hsame : o₁.functions = o.functions := declareAll_functions hdeclare
      exact hsame

lemma exportList_functions {inside : List Tree} {closer : Token}
    (h : exportList after o trees inside closer = .ok (o', behind)) : o'.functions = o.functions := by
  obtain ⟨entries, -, h⟩ := bind_ok h
  dsimp only at h
  split at h
  · split at h
    · cases h
      rfl
    · cases h
  · cases h
    rfl

/-- Where there is no declaration of variables, the function declaration is all that is added. -/
lemma functionsOf_function (h : variablePart trees = []) :
    functionsOf after trees = declaredFunction after (ahead after trees).comments (functionPart after trees) := by
  rw [functionsOf, variableValues, h]
  exact List.append_nil _

/-- Where there is no function declaration, the values of variables are all that is added. -/
lemma functionsOf_variables (h : functionPart after trees = []) : functionsOf after trees =
    (variableValues after trees).filterMap (valueFunction after (ahead after trees).comments) := by
  rw [functionsOf, h, declaredFunction_nil, List.nil_append]

lemma startsFunction_iff {t : Tree} : startsWithWord (dropWord "async" (t :: rest)) "function" =
    (t.isWord "function" || (t.isWord "async" && startsWithWord rest "function")) := by
  have hstarts : ∀ word, startsWithWord (t :: rest) word = t.isWord word := fun _ => rfl
  rw [dropWord, hstarts]
  cases hasync : t.isWord "async" with
  | true =>
    rw [if_pos rfl, isWord_other hasync (by decide), Bool.false_or, Bool.true_and]
    rfl
  | false => rw [if_neg Bool.false_ne_true, hstarts, Bool.false_and, Bool.or_false]

lemma exportDefault_functions {e d : Tree}
    (h : exportDefault after leading o (e :: d :: rest) = .ok (o', behind)) :
    o'.functions = o.functions ++
      declaredFunction after leading (if startsNamedFunction rest then rest else []) := by
  unfold exportDefault at h
  simp only [List.drop_succ_cons, List.drop_zero] at h
  cases hnamed : startsNamedFunction rest with
  | true =>
    rw [hnamed, if_pos rfl] at h
    exact (functionDeclaration_functions h :)
  | false =>
    rw [if_neg Bool.false_ne_true, declaredFunction_nil, List.append_nil]
    rw [hnamed, if_neg Bool.false_ne_true] at h
    split at h
    · exact (classDeclaration_functions h :)
    · cases h
      rfl

lemma exportDeclaration_functions {e : Tree} (he : e.isWord "export" = true)
    (h : exportDeclaration after o (e :: trees) = .ok (o', behind)) :
    o'.functions = o.functions ++ functionsOf after (e :: trees) := by
  have hexport : startsWithWord (e :: trees) "export" = true := he
  cases trees with
  | nil => cases h
  | cons t rest =>
    have hfunction : functionPart after (e :: t :: rest) =
        if t.isWord "default" then if startsNamedFunction rest then rest else []
        else if t.isWord "function" || (t.isWord "async" && startsWithWord rest "function") then t :: rest
        else [] := by
      rw [functionPart, if_pos hexport, ← startsFunction_iff]
      rfl
    have hvariables : variablePart (e :: t :: rest) =
        if t.isWord "const" || t.isWord "let" || t.isWord "var" then t :: rest else [] := by
      rw [variablePart, if_pos hexport]
      rfl
    rw [exportDeclaration] at h
    dsimp only at h
    split at h
    · rename_i hdefault
      have hother : ∀ word, "default" ≠ word → t.isWord word = false := fun word => isWord_other hdefault
      rw [functionsOf_function (by rw [hvariables]; simp [hother]), hfunction, if_pos hdefault]
      exact exportDefault_functions h
    · rename_i hdefault
      rw [if_neg hdefault] at hfunction
      split at h
      · rename_i hword
        have hnone : variablePart (e :: t :: rest) = [] := by
          rw [hvariables]
          rw [Bool.or_eq_true, Bool.and_eq_true] at hword
          obtain hword | ⟨hword, -⟩ := hword
          all_goals
            have hother : ∀ word, _ ≠ word → t.isWord word = false := fun word => isWord_other hword
            simp [hother]
        rw [functionsOf_function hnone, hfunction, if_pos hword]
        exact (functionDeclaration_functions h :)
      · rename_i hword
        rw [if_neg hword] at hfunction
        rw [functionsOf_variables hfunction, variableValues, hvariables]
        split at h
        · rename_i hkeyword
          rw [if_pos hkeyword]
          exact (declarators_functions h :)
        · rename_i hkeyword
          rw [if_neg hkeyword, List.tail_nil, declaratorValues_nil, List.filterMap_nil, List.append_nil]
          split at h
          · exact (classDeclaration_functions h :)
          · split at h
            · cases h
              rfl
            · split at h
              · exact exportList_functions h
              · cases h

/-- A statement adds its functions. -/
lemma statement_functions (h : statement after o trees = .ok (o', behind)) :
    o'.functions = o.functions ++ functionsOf after trees := by
  unfold statement at h
  dsimp only at h
  split at h
  · rename_i himport
    rw [Bool.and_eq_true] at himport
    obtain ⟨t, rest, rfl, ht⟩ := startsWithWord_iff.mp himport.1
    have hother : ∀ word, "import" ≠ word → startsWithWord (t :: rest) word = false :=
      fun word => isWord_other ht
    rw [functionsOf_function (by simp [variablePart, startsVariables, hother])]
    simp [functionPart, hother, declaredFunction_nil, importDeclaration_functions h]
  · split at h
    · rename_i hexport
      obtain ⟨e, rest, rfl, he⟩ := startsWithWord_iff.mp hexport
      exact exportDeclaration_functions he h
    · rename_i hexport
      rw [Bool.not_eq_true] at hexport
      have hfunctionPart : functionPart after trees = if startsWithWord trees "function" ||
          (startsWithWord trees "async" && startsDeclaration after trees) then trees else [] := by
        rw [functionPart, if_neg (by rw [hexport]; exact Bool.false_ne_true)]
      have hvariablePart : variablePart trees = if startsVariables trees then trees else [] := by
        rw [variablePart, if_neg (by rw [hexport]; exact Bool.false_ne_true)]
      split at h
      · rename_i hword
        rw [if_pos hword] at hfunctionPart
        have hnone : startsVariables trees = false := by
          rw [Bool.or_eq_true, Bool.and_eq_true] at hword
          obtain hword | ⟨hword, -⟩ := hword
          all_goals
            obtain ⟨t, rest, rfl, ht⟩ := startsWithWord_iff.mp hword
            have hother : ∀ word, _ ≠ word → startsWithWord (t :: rest) word = false :=
              fun word => isWord_other ht
            simp [startsVariables, hother]
        rw [functionsOf_function (by rw [hvariablePart, hnone]; rfl), hfunctionPart]
        exact functionDeclaration_functions h
      · rename_i hword
        rw [if_neg hword] at hfunctionPart
        rw [functionsOf_variables hfunctionPart, variableValues, hvariablePart]
        split at h
        · rename_i hvariables
          rw [if_pos hvariables]
          exact declarators_functions h
        · rename_i hvariables
          rw [if_neg hvariables, List.tail_nil, declaratorValues_nil, List.filterMap_nil, List.append_nil]
          split at h
          · exact classDeclaration_functions h
          · cases h
            rfl

/-- The functions of an outline are those of its statements, one behind the other. -/
theorem sequence_functions {stmts : List (List Tree)} (h : Sequence after o stmts o') :
    o'.functions = o.functions ++ stmts.tails.flatMap fun more => functionsOf after more.flatten := by
  induction h with
  | ending => simp [functionsOf_nil]
  | next _ hread _ ih =>
    rw [ih, statement_functions hread, List.tails, List.flatMap_cons, List.append_assoc,
      List.flatten_cons]

end TaskRunner.Proofs
