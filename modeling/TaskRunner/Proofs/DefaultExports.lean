import TaskRunner.Proofs.ExpressionReaders
import TaskRunner.Proofs.ScriptStatements

/-!
# Values that are exported by default

The operator `void` takes a unary expression. Behind it, the trees of an expression are read as the same
expression if and only if that is a unary one; they are malformed if it is an arrow function or an
assignment, or if its first operand is raised to a power.

The words in front of a value that is exported by default are replaced by this operator. The statement that
is left is the operator on the whole value if and only if the value is a unary expression.
-/

namespace TaskRunner.Proofs
section Values
open Script
open Source (Tree Token startsWithPunct)

variable {p : Script.Place} {v : Tree} {trees rest behind : List Tree} {e e' x x' : Expr}

/-! ## Values behind the operator -/

/-- The trees are an expression without commas, up to the end of a statement. -/
structure IsValue (p : Script.Place) (trees : List Tree) (e : Expr) (rest behind : List Tree) : Prop where
  reads : Gives (fun fuel => assignment p fuel trees) (e, rest)
  ends : statementEnd? rest = some behind
  noComma : startsWithPunct rest "," = false

/-- What is read behind the operator is read without it as well. -/
lemma conditional_voided (hv : v.isWord "void" = true)
    (h : Gives (fun fuel => conditional p fuel (v :: trees)) (x, rest)) :
    ∃ e' r x', Gives (fun fuel => unary p fuel trees) (e', r) ∧ startsWithPunct r "**" = false ∧
      Gives (fun fuel => conditional p fuel trees) (x', rest) ∧
      ReadOn (.unary .discard e') e' r x x' rest := by
  obtain ⟨y, behind, hinfixes, -⟩ := gives_conditional.mp h
  obtain ⟨first, r, hunary, -⟩ := gives_infixes.mp hinfixes
  obtain ⟨e', hread, hpower, hfirst⟩ := (gives_unary_void hv).mp hunary
  dsimp only at hread hpower hfirst
  subst hfirst
  obtain ⟨x', hother, hmore⟩ := conditional_other hunary hread h
  exact ⟨e', r, x', hread, hpower, hother, hmore⟩

lemma ReadOn.target {r : List Tree} (h : ReadOn (.unary .discard e) e' r x x' rest) :
    Target.ofExpr? x = none := by
  cases h with
  | same => rfl
  | more compound => exact compound.target

/-- A value that is read as a condition is not assigned to. -/
lemma IsValue.notAssigned (h : IsValue p trees e rest behind)
    (hread : Gives (fun fuel => conditional p fuel trees) (e, rest)) : NotAssigned rest := by
  obtain harrow | ⟨t, mark, more, target, value, rfl, hgroup, hmark, rfl⟩ | hassigned :=
    assignment_cases h.reads
  · obtain ⟨first, r, hunary⟩ := conditional_unary hread
    have hdangling := harrow.dangling hunary
    obtain rfl := hdangling.conditional hunary hread
    cases hdangling.ends.1.symm.trans h.ends
  · obtain ⟨first, r, hunary⟩ := conditional_unary hread
    obtain ⟨rfl, hne⟩ := unary_assigned hgroup hmark hunary
    exact absurd (conditional_assigned hmark hunary hread).1.symm (hne _ _)
  · obtain ⟨left, rest', hconditional, fuel, htail⟩ := gives_assigned.mp hassigned
    cases hconditional.unique hread (conditional_grows p trees)
    obtain ⟨-, -, hnot⟩ | ⟨-, hsome, hnone⟩ := assignedTail_cases htail
    · exact hnot
    · rw [hnone] at hsome
      cases hsome

/-- What follows a value does not go on as the value does in the middle of an expression. -/
lemma IsValue.unique (h : IsValue p trees e rest behind) {r : List Tree}
    (hread : Gives (fun fuel => conditional p fuel trees) (x, r)) (hnot : NotAssigned r)
    (hends : ¬ Dangling r) : x = e ∧ r = rest := by
  have hassigned : Gives (fun fuel => assigned p fuel trees) (x, r) :=
    gives_assigned.mpr ⟨x, r, hread, 0, assignedTail_notAssigned hnot 0⟩
  obtain ⟨first, left, hunary⟩ := conditional_unary hread
  obtain harrow | ⟨t, mark, more, target, value, rfl, hgroup, hmark, rfl⟩ | hvalue :=
    assignment_cases h.reads
  · have hdangling := harrow.dangling hunary
    obtain rfl := hdangling.conditional hunary hread
    exact absurd hdangling hends
  · obtain ⟨rfl, -⟩ := unary_assigned hgroup hmark hunary
    obtain ⟨-, rfl⟩ := conditional_assigned hmark hunary hread
    exact absurd hnot (assigned_equals hmark)
  · cases hassigned.unique hvalue (assigned_grows p trees)
    exact ⟨rfl, rfl⟩

/-- A value behind the operator is a statement only if it is read as a condition, and its first operand is
not raised to a power. -/
lemma IsValue.voided (h : IsValue p trees e rest behind) (hv : v.isWord "void" = true) {s : Stmt}
    {left : List Tree} (hread : Gives (fun fuel => statement p fuel (v :: trees)) (s, left)) :
    ∃ e' r x y, Gives (fun fuel => unary p fuel trees) (e', r) ∧ startsWithPunct r "**" = false ∧
      Gives (fun fuel => conditional p fuel trees) (e, rest) ∧ ReadOn (.unary .discard e') e' r x e rest ∧
      s = .expr y ∧ (y = x ∨ ∃ b, y = .sequence x b) := by
  obtain ⟨y, stop, hsequence, hend, rfl⟩ := (gives_statement_void hv).mp hread
  obtain ⟨x, r', hassignment, fuel, htail⟩ := gives_sequence.mp hsequence
  obtain ⟨left', r'', hconditional, fuel', hassigned⟩ := gives_assigned.mp (assigned_of_void hv hassignment)
  obtain ⟨e', r, x', hunary, hpower, hother, hmore⟩ := conditional_voided hv hconditional
  obtain ⟨rfl, rfl, hnot⟩ | ⟨-, hsome, -⟩ := assignedTail_cases hassigned
  · dsimp only at htail
    have hresult : (y = x ∧ stop = r') ∨ startsWithPunct r' "," = true ∧ ∃ b, y = .sequence x b := by
      unfold sequenceTail at htail
      split at htail
      · rename_i hcomma
        obtain ⟨b, -, htail⟩ := Option.bind_eq_some_iff.mp htail
        cases htail
        exact .inr ⟨hcomma, b.1, rfl⟩
      · cases htail
        exact .inl ⟨rfl, rfl⟩
    have hends : ¬ Dangling r' := by
      intro hdangling
      obtain ⟨-, rfl⟩ | ⟨hcomma, -⟩ := hresult
      · cases hdangling.ends.1.symm.trans hend
      · cases hdangling.ends.2.symm.trans hcomma
    obtain ⟨rfl, rfl⟩ := h.unique hother hnot hends
    exact ⟨e', r, x, y, hunary, hpower, hother, hmore, rfl, hresult.imp And.left And.right⟩
  · rw [hmore.target] at hsome
    cases hsome

/-- Behind the operator, a condition is a statement whose first operand the operator takes. -/
lemma IsValue.void_statement (h : IsValue p trees e rest behind) (hv : v.isWord "void" = true) {r : List Tree}
    (hunary : Gives (fun fuel => unary p fuel trees) (e', r)) (hpower : startsWithPunct r "**" = false)
    (hread : Gives (fun fuel => conditional p fuel trees) (e, rest)) :
    ∃ x, Gives (fun fuel => statement p fuel (v :: trees)) (.expr x, behind) ∧
      ReadOn e' (.unary .discard e') r e x rest := by
  have hvoid : Gives (fun fuel => unary p fuel (v :: trees)) (.unary .discard e', r) :=
    (gives_unary_void hv).mpr ⟨e', hunary, hpower, rfl⟩
  obtain ⟨x, hconditional, hmore⟩ := conditional_other hunary hvoid hread
  have hassigned : Gives (fun fuel => assigned p fuel (v :: trees)) (x, rest) :=
    gives_assigned.mpr ⟨x, rest, hconditional, 0, assignedTail_notAssigned (h.notAssigned hread) 0⟩
  have hsequence : Gives (fun fuel => sequence p fuel (v :: trees)) (x, rest) := by
    refine gives_sequence.mpr ⟨x, rest, assignment_of_void hv hunary hassigned, 0, ?_⟩
    dsimp only
    rw [sequenceTail, h.noComma, if_neg Bool.false_ne_true]
  exact ⟨x, (gives_statement_void hv).mpr ⟨x, rest, hsequence, h.ends, rfl⟩, hmore⟩

/-- A value that is a unary expression is read as a condition, and nothing is added to it. -/
lemma IsValue.unary_conditional (h : IsValue p trees e rest behind)
    (hunary : Gives (fun fuel => unary p fuel trees) (e, rest)) :
    Gives (fun fuel => conditional p fuel trees) (e, rest) ∧ NoOperator rest := by
  obtain harrow | ⟨t, mark, more, target, value, rfl, hgroup, hmark, rfl⟩ | hassigned :=
    assignment_cases h.reads
  · cases (harrow.dangling hunary).ends.1.symm.trans h.ends
  · exact absurd rfl ((unary_assigned hgroup hmark hunary).2 _ _)
  · obtain ⟨left, rest', hconditional, fuel, htail⟩ := gives_assigned.mp hassigned
    obtain ⟨x', -, hmore⟩ := conditional_other hunary hunary hconditional
    obtain ⟨rfl, rfl, -⟩ | ⟨-, hsome, hnone⟩ := assignedTail_cases htail
    · refine ⟨hconditional, ?_⟩
      cases hmore with
      | same stops => exact stops
      | more _ _ larger => exact absurd larger (Nat.lt_irrefl _)
    · cases hmore with
      | same =>
        rw [hnone] at hsome
        cases hsome
      | more compound =>
        rw [compound.target] at hsome
        cases hsome

lemma NoOperator.noPower (h : NoOperator rest) : startsWithPunct rest "**" = false := by
  rw [Bool.eq_false_iff]
  intro hpower
  cases rest with
  | nil => cases hpower
  | cons t more =>
    obtain ⟨token, rfl, hkind⟩ := leaf_of_isPunct (show t.isPunct "**" = true from hpower)
    have hnone := h _ rfl
    rw [infixOf?, markOf?, hkind] at hnone
    exact absurd hnone (by decide)

/-- The operator takes the whole value if and only if that is a unary expression. -/
lemma IsValue.discards_iff (h : IsValue p trees e rest behind) (hv : v.isWord "void" = true) :
    Gives (fun fuel => statement p fuel (v :: trees)) (.expr (.unary .discard e), behind) ↔
      Gives (fun fuel => unary p fuel trees) (e, rest) := by
  constructor
  · intro hread
    obtain ⟨e', r, x, y, hunary, -, hconditional, hmore, heq, hy⟩ := h.voided hv hread
    cases heq
    obtain rfl | ⟨b, hsequence⟩ := hy
    · cases hmore with
      | same => exact hunary
      | more compound => cases compound
    · cases hsequence
  · intro hunary
    obtain ⟨hconditional, hstops⟩ := h.unary_conditional hunary
    obtain ⟨x, hread, hmore⟩ := h.void_statement hv hunary hstops.noPower hconditional
    cases hmore with
    | same => exact hread
    | more _ _ larger => exact absurd larger (Nat.lt_irrefl _)

/-- The operator in front of a value makes a statement if and only if the value is no arrow function and no
assignment, and its first operand is not raised to a power. -/
lemma IsValue.void_reads_iff (h : IsValue p trees e rest behind) (hv : v.isWord "void" = true) :
    (∃ s left, Gives (fun fuel => statement p fuel (v :: trees)) (s, left)) ↔
      Gives (fun fuel => conditional p fuel trees) (e, rest) ∧
        ∀ e' r, Gives (fun fuel => unary p fuel trees) (e', r) → startsWithPunct r "**" = false := by
  constructor
  · rintro ⟨s, left, hread⟩
    obtain ⟨e', r, -, -, hunary, hpower, hconditional, -⟩ := h.voided hv hread
    refine ⟨hconditional, fun e'' r' hother => ?_⟩
    cases hunary.unique hother (unary_grows p trees)
    exact hpower
  · rintro ⟨hconditional, hpower⟩
    obtain ⟨e', r, hunary⟩ := conditional_unary hconditional
    obtain ⟨x, hread, -⟩ := h.void_statement hv hunary (hpower e' r hunary) hconditional
    exact ⟨_, _, hread⟩

/-- The operator never stands in front of an arrow function. -/
lemma IsValue.arrow_malformed (h : IsValue p trees e rest behind) (hv : v.isWord "void" = true)
    (harrow : StartsArrow trees) {s : Stmt} {left : List Tree} :
    ¬ Gives (fun fuel => statement p fuel (v :: trees)) (s, left) := by
  intro hread
  obtain ⟨e', r, -, -, hunary, -, hconditional, -⟩ := h.voided hv hread
  have hdangling := harrow.dangling hunary
  obtain rfl := hdangling.conditional hunary hconditional
  cases hdangling.ends.1.symm.trans h.ends

end Values

section Exports
open Source Tree

/-! ## Exported values -/

/-- What becomes of a value behind the operator. -/
structure Voided (p : Script.Place) (v : Tree) (trees : List Tree) (x : Script.Expr)
    (rest behind : List Tree) : Prop where
  /-- The operator takes the whole value if and only if that is a unary expression. -/
  discards : Gives (fun fuel => Script.statement p fuel (v :: trees)) (.expr (.unary .discard x), behind) ↔
    Gives (fun fuel => Script.unary p fuel trees) (x, rest)
  /-- There is a statement if and only if the value is no arrow function and no assignment, and its first
  operand is not raised to a power. -/
  reads : (∃ s left, Gives (fun fuel => Script.statement p fuel (v :: trees)) (s, left)) ↔
    Gives (fun fuel => Script.conditional p fuel trees) (x, rest) ∧
      ∀ e r, Gives (fun fuel => Script.unary p fuel trees) (e, r) → startsWithPunct r "**" = false
  /-- There is no statement of an arrow function. -/
  arrow : StartsArrow trees → ∀ s left, ¬ Gives (fun fuel => Script.statement p fuel (v :: trees)) (s, left)

lemma IsValue.becomes {p : Script.Place} {v : Tree} {trees rest behind : List Tree} {x : Script.Expr}
    (h : IsValue p trees x rest behind) (hv : v.isWord "void" = true) : Voided p v trees x rest behind :=
  ⟨h.discards_iff hv, h.void_reads_iff hv, fun harrow _ _ => h.arrow_malformed hv harrow⟩

/-- The operator and the value are found in the script, one behind the other. -/
lemma CutInto.voided {form body trees : List Tree} {more : List Piece}
    (h : CutInto ([.erased form "void", .kept body] ++ more) trees) :
    ∃ v value after, trees = v :: (value ++ after) ∧ v.isWord "void" = true ∧ Copies body value ∧
      CutInto more after := by
  cases h with
  | erased cut copies line tail =>
    cases cut_void.symm.trans cut
    cases copies with
    | @cons _ v _ _ hv hnil =>
      cases hnil
      cases tail with
      | @kept _ value after _ hbody line' tail =>
        exact ⟨v, value, after, rfl, (hv.isWord "void").symm, hbody, tail⟩

/-- In every accepted file, a default export of a value is cut into its words, which become the operator
`void`, and the value, which is kept; and the statement of the script that starts with the operator is what
that operator makes of the value. -/
theorem default_value_voided {text : String} {f : File} (h : File.ofText text = .ok f) :
    ∃ (nested : Nested) (parts : List (List Piece)), (tokenize text >>= nest) = .ok nested ∧
      nested.trees = treesOf parts.flatten ∧ f.outline.edits = editsOf parts.flatten ∧
      Sequence nested.ending .empty (parts.map treesOf) f.outline ∧
      ∀ earlier part later, parts = earlier ++ part :: later →
        ExportsValue (treesOf part ++ treesOf later.flatten) →
        ∃ e d body, part = [.erased [e, d] "void", .kept body] ∧
          ∀ script, (tokenize f.script >>= nest) = .ok script → CutInto parts.flatten script.trees →
            ∃ front v value after, script.trees = front ++ v :: (value ++ after) ∧
              v.isWord "void" = true ∧ Copies body value ∧ CutInto later.flatten after ∧
              ∀ x rest behind, IsValue (.top f.script) (value ++ after) x rest behind →
                Voided (.top f.script) v (value ++ after) x rest behind := by
  obtain ⟨nested, parts, hnested, htrees, hedits, hsequence, -, -, hparts⟩ := ofText_parts h
  refine ⟨nested, parts, hnested, htrees, hedits, hsequence, ?_⟩
  intro earlier part later hsplit hvalue
  obtain ⟨-, hdefault, -⟩ := hparts earlier part later hsplit
  obtain ⟨e, d, body, rfl⟩ := hdefault hvalue
  refine ⟨e, d, body, rfl, fun script hscript hcut => ?_⟩
  rw [hsplit, List.flatten_append, List.flatten_cons] at hcut
  obtain ⟨front, tail, htail, -, hcut⟩ := hcut.append_split
  obtain ⟨v, value, after, rfl, hv, hbody, hafter⟩ := hcut.voided
  exact ⟨front, v, value, after, htail, hv, hbody, hafter, fun x rest behind hread => hread.becomes hv⟩

lemma Copies.length_eq {trees copies : List Tree} (h : Copies trees copies) :
    copies.length = trees.length := by
  cases h with
  | nil => rfl
  | cons first more => rw [List.length_cons, List.length_cons, more.length_eq]

/-- A statement that takes everything is the only one. -/
lemma Sequence.alone {after : Token} {o o₁ o' : Outline} {stmts : List (List Tree)}
    (h : Sequence after o stmts o') (hne : stmts ≠ [])
    (hread : statement after o stmts.flatten = .ok (o₁, [])) : ∃ stmt, stmts = [stmt] := by
  cases h with
  | ending => exact absurd rfl hne
  | @next _ o₂ _ stmt more nonempty read tail =>
    have hmore : more.flatten = [] := by
      rw [List.flatten_cons, read] at hread
      exact (Prod.mk.inj (Except.ok.inj hread)).2
    cases tail with
    | ending => exact ⟨stmt, rfl⟩
    | next nonempty' => exact absurd (List.append_eq_nil_iff.mp hmore).1 nonempty'

/-- A call that is exported by default. -/
def calling : String :=
  "export default f(x)\n"

/-- The call, behind the words. -/
def calledTrees : List Tree :=
  [.leaf (lineWord "f" 15), .group (lineMark "(" 16) [.leaf (lineWord "x" 17)] (lineMark ")" 18)]

def endBehind (stop : Nat) : Token :=
  ⟨.endOfFile, ⟨stop, stop⟩, ⟨2, 1⟩, true, []⟩

/-- The operator takes the whole call. -/
theorem default_value_voided_call :
    ∃ f, File.ofText calling = .ok f ∧ f.script = "void           f(x)\n" ∧
      (tokenize f.script >>= nest) = .ok ⟨.leaf (lineWord "void" 0) :: calledTrees, endBehind 20⟩ ∧
      Gives (fun fuel => Script.statement (.top f.script) fuel (.leaf (lineWord "void" 0) :: calledTrees))
        (.expr (.unary .discard (.call (.name "f") [.one (.name "x")] false)), []) := by
  have hread : (File.ofText calling).toOption.map (fun f => (f.text, f.outline.edits)) =
      some (calling, [⟨⟨0, 14⟩, "void"⟩]) := by
    decide +kernel
  obtain ⟨f, hf, hcontent⟩ := Option.map_eq_some_iff.mp hread
  obtain ⟨htext, hedits⟩ := Prod.mk.inj hcontent
  have hscript : f.script = "void           f(x)\n" := by
    rw [File.script, htext, hedits, applyEdits, List.mergeSort_of_pairwise (by decide)]
    decide +kernel
  have htokens : tokenize f.script = .ok [lineWord "void" 0, lineWord "f" 15, lineMark "(" 16, lineWord "x" 17,
      lineMark ")" 18, endBehind 20] := by
    rw [hscript]
    decide +kernel
  have hnested : (tokenize f.script >>= nest) =
      .ok ⟨.leaf (lineWord "void" 0) :: calledTrees, endBehind 20⟩ := by
    rw [htokens]
    rfl
  refine ⟨f, ok_of_toOption hf, hscript, hnested, ?_⟩
  obtain ⟨nested, parts, hfile, htrees, -, hsequence, hparts⟩ := default_value_voided (ok_of_toOption hf)
  have hsource : tokenize calling = .ok [lineWord "export" 0, lineWord "default" 7, lineWord "f" 15,
      lineMark "(" 16, lineWord "x" 17, lineMark ")" 18, endBehind 20] := by
    decide +kernel
  rw [hsource] at hfile
  cases hfile
  change [.leaf (lineWord "export" 0), .leaf (lineWord "default" 7)] ++ calledTrees = _ at htrees
  have hflatten : (parts.map treesOf).flatten =
      [.leaf (lineWord "export" 0), .leaf (lineWord "default" 7)] ++ calledTrees := by
    rw [htrees, treesOf_flatten]
  obtain ⟨stmt, hstmt⟩ := hsequence.alone (by rintro hnil; simp [hnil] at hflatten)
    (by rw [hflatten]; rfl)
  obtain ⟨part, rfl, -⟩ := List.map_eq_singleton_iff.mp hstmt
  have htrees : treesOf part = [.leaf (lineWord "export" 0), .leaf (lineWord "default" 7)] ++ calledTrees := by
    simpa using hflatten
  obtain ⟨e, d, body, rfl, hscripts⟩ := hparts [] part [] rfl
    ⟨_, _, _, by rw [htrees]; rfl, rfl, rfl, rfl, rfl⟩
  obtain ⟨rfl, rfl, rfl⟩ : e = .leaf (lineWord "export" 0) ∧ d = .leaf (lineWord "default" 7) ∧
      body = calledTrees := by
    simpa [Piece.trees] using htrees
  have hcopies : Copies calledTrees calledTrees := .cons rfl (same_refl _)
  have hcut : CutInto [.erased [.leaf (lineWord "export" 0), .leaf (lineWord "default" 7)] "void",
      .kept calledTrees] (.leaf (lineWord "void" 0) :: calledTrees) := by
    have hkept : CutInto [.kept calledTrees] (calledTrees ++ []) := .kept hcopies id .nil
    have hword : Copies [voidWord] [.leaf (lineWord "void" 0)] := .cons rfl .nil
    exact .erased cut_void hword (fun hline => absurd (hline _ rfl) (by decide)) hkept
  obtain ⟨front, v, value, after, hall, -, hbody, hafter, hvoided⟩ :=
    hscripts _ hnested (by simpa using hcut)
  obtain ⟨rfl, hrest⟩ : front = [] ∧ v :: (value ++ after) = .leaf (lineWord "void" 0) :: calledTrees := by
    cases hafter
    have hlength := congrArg List.length hall
    simp only [List.length_append, List.length_cons, hbody.length_eq, List.length_nil] at hlength
    obtain rfl := List.eq_nil_of_length_eq_zero (show front.length = 0 by omega)
    exact ⟨rfl, hall.symm⟩
  obtain ⟨rfl, hvalue⟩ := List.cons.inj hrest
  have hcall : Gives (fun fuel => Script.unary (.top f.script) fuel calledTrees)
      (.call (.name "f") [.one (.name "x")] false, []) := ⟨20, rfl⟩
  have hreads : IsValue (.top f.script) calledTrees (.call (.name "f") [.one (.name "x")] false) [] [] :=
    ⟨⟨20, rfl⟩, rfl, rfl⟩
  rw [hvalue] at hvoided
  exact (hvoided _ _ _ hreads).discards.mpr hcall

/-- An arrow function that is exported by default, in front of a function. -/
def arrowing : String :=
  "export default () => 1\nexport function main() \x7b return 1 \x7d\n"

/-- The arrow function is an expression, but the script is malformed behind the operator. -/
theorem arrow_is_voided :
    ∃ f, File.ofText arrowing = .ok f ∧ (Script.expression? "() => 1").isSome = true ∧
      f.script = "void           () => 1\n       function main() \x7b return 1 \x7d\n" ∧
      Script.program? f.script = none := by
  have hread : (File.ofText arrowing).toOption.map (fun f => (f.text, f.outline.edits)) =
      some (arrowing, [⟨⟨0, 14⟩, "void"⟩, ⟨⟨23, 29⟩, ""⟩]) := by
    decide +kernel
  obtain ⟨f, hf, hcontent⟩ := Option.map_eq_some_iff.mp hread
  obtain ⟨htext, hedits⟩ := Prod.mk.inj hcontent
  have hscript : f.script = "void           () => 1\n       function main() \x7b return 1 \x7d\n" := by
    rw [File.script, htext, hedits, applyEdits, List.mergeSort_of_pairwise (by decide)]
    decide +kernel
  refine ⟨f, ok_of_toOption hf, by decide +kernel, hscript, ?_⟩
  rw [hscript, ← Option.isNone_iff_eq_none]
  decide +kernel

end Exports

end TaskRunner.Proofs
