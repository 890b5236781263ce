import TaskRunner.Proofs.OffendingTokens
import TaskRunner.Proofs.TopLevelNames

/-!
# Names that are declared twice

The bindings of a file in the order in which they are met. Two of them may share a name only if both are of
`var`. A file is refused for a name exactly where a binding is met that an earlier one excludes; only a
default export that is taken for an expression is passed over.
-/

namespace TaskRunner.Proofs
open Source Tree

/-- The bindings may not stand in one file: they have one name, and not both are of `var`. -/
def NewName.Excludes (b c : NewName) : Prop :=
  b.bound.name = c.bound.name ∧ (b.kind = .lexical ∨ c.kind = .lexical)

/-- Bindings exclude each other only if one of them is passed over. -/
def Apart (met : List NewName) : Prop :=
  met.Pairwise fun b c => b.Excludes c → b.passedOver = true ∨ c.passedOver = true

/-- The binding is excluded by an earlier one. -/
def ExcludedBy (front : List NewName) (b : NewName) : Prop :=
  b.passedOver = false ∧ ∃ c ∈ front, c.passedOver = false ∧ c.Excludes b

/-- The complaint is about the first binding that is excluded by an earlier one. -/
def FirstClash (met : List NewName) (e : SyntaxError) : Prop :=
  ∃ front b back, met = front ++ b :: back ∧ Apart front ∧ ExcludedBy front b ∧ e = declaredTwice b.bound

/-- The names that are declared in one way. -/
def namesDeclared (o : Outline) : Declaration → List String
  | .lexical => o.lexicalNames
  | .var => o.varNames

/-- The outline has the names of the bindings that have been met, and no two of these exclude each other. -/
structure HasNames (o : Outline) (met : List NewName) : Prop where
  declared : ∀ kind name, name ∈ namesDeclared o kind ↔
    ∃ b ∈ met, b.passedOver = false ∧ b.kind = kind ∧ b.bound.name = name
  apart : Apart met

variable {o q : Outline} {met read more : List NewName} {kind : Declaration} {bound : BoundName}
  {names : List BoundName} {e : SyntaxError} {after : Token} {trees rest behind : List Tree}

lemma bindingsOf_append (names names' : List BoundName) :
    bindingsOf kind (names ++ names') = bindingsOf kind names ++ bindingsOf kind names' :=
  List.map_append

lemma FirstClash.append (h : FirstClash met e) (more : List NewName) : FirstClash (met ++ more) e := by
  obtain ⟨front, b, back, rfl, hclash⟩ := h
  exact ⟨front, b, back ++ more, by simp, hclash⟩

lemma apart_concat {b : NewName} (h : Apart met) (hb : ¬ ExcludedBy met b) : Apart (met ++ [b]) := by
  refine List.pairwise_append.mpr ⟨h, List.pairwise_singleton _ _, ?_⟩
  intro c hc b' hb' hexcludes
  obtain rfl := List.mem_singleton.mp hb'
  by_contra hneither
  rw [not_or, Bool.not_eq_true, Bool.not_eq_true] at hneither
  exact hb ⟨hneither.2, c, hc, hneither.1, hexcludes⟩

lemma mem_namesDeclared {kind' : Declaration} {name : String} :
    name ∈ namesDeclared (withNames kind [bound] o) kind' ↔
      name ∈ namesDeclared o kind' ∨ kind = kind' ∧ bound.name = name := by
  cases kind <;> cases kind' <;> simp [withNames, namesDeclared, or_comm, eq_comm]

namespace HasNames

lemma same (h : HasNames o met) (hsame : SameNames o q) : HasNames q met := by
  refine ⟨fun kind name => ?_, h.apart⟩
  have hkept : namesDeclared q kind = namesDeclared o kind := by
    cases kind
    · exact hsame.lexical.symm
    · exact hsame.var.symm
  rw [hkept, h.declared]

/-- What is passed over leaves no name. -/
lemma passOver (h : HasNames o met) (hmore : ∀ b ∈ more, b.passedOver = true) : HasNames o (met ++ more) := by
  refine ⟨fun kind name => ?_, ?_⟩
  · rw [h.declared]
    constructor
    · rintro ⟨b, hb, hrest⟩
      exact ⟨b, List.mem_append_left _ hb, hrest⟩
    · rintro ⟨b, hb, hrest⟩
      rcases List.mem_append.mp hb with hb | hb
      · exact ⟨b, hb, hrest⟩
      · simp [hmore b hb] at hrest
  · refine List.pairwise_append.mpr ⟨h.apart, ?_, ?_⟩
    · exact List.pairwise_of_forall_mem_list fun b hb _ _ _ => .inl (hmore b hb)
    · exact fun _ _ c hc _ => .inr (hmore c hc)

lemma clashes_iff (h : HasNames o met) :
    Clashes kind o [] bound ↔ ExcludedBy met ⟨bound, kind, false⟩ := by
  have hlexical := h.declared .lexical bound.name
  have hvar := h.declared .var bound.name
  dsimp only [namesDeclared] at hlexical hvar
  rw [Clashes, hlexical, hvar]
  unfold ExcludedBy NewName.Excludes
  constructor
  · rintro (⟨b, hb, hread, hkind, hname⟩ | ⟨rfl, ⟨b, hb, hread, -, hname⟩ | hnone⟩)
    · exact ⟨rfl, b, hb, hread, hname, .inl hkind⟩
    · exact ⟨rfl, b, hb, hread, hname, .inr rfl⟩
    · exact absurd hnone List.not_mem_nil
  · rintro ⟨-, b, hb, hread, hname, hkind⟩
    cases hb' : b.kind with
    | lexical => exact .inl ⟨b, hb, hread, hb', hname⟩
    | var =>
      rw [hb'] at hkind
      exact .inr ⟨hkind.resolve_left (by simp), .inl ⟨b, hb, hread, hb', hname⟩⟩

/-- A name is declared unless an earlier binding excludes it. -/
lemma declare (h : HasNames o met) (kind : Declaration) (bound : BoundName) :
    (∃ o', o.declare kind bound = .ok o' ∧ HasNames o' (met ++ [⟨bound, kind, false⟩])) ∨
      o.declare kind bound = .error (declaredTwice bound) ∧ ExcludedBy met ⟨bound, kind, false⟩ := by
  classical
  rw [declare_eq]
  by_cases hclash : Clashes kind o [] bound
  · exact .inr ⟨if_pos hclash, h.clashes_iff.mp hclash⟩
  · refine .inl ⟨_, if_neg hclash, fun kind' name => ?_, apart_concat h.apart (h.clashes_iff.not.mp hclash)⟩
    rw [mem_namesDeclared, h.declared]
    simp [or_and_right, exists_or]

/-- Names are declared one behind the other, up to the first that an earlier binding excludes. -/
lemma declareAll (h : HasNames o met) (kind : Declaration) (names : List BoundName) :
    (∃ o', o.declareAll kind names = .ok o' ∧ HasNames o' (met ++ bindingsOf kind names)) ∨
      ∃ e, o.declareAll kind names = .error e ∧ FirstClash (met ++ bindingsOf kind names) e := by
  unfold Outline.declareAll
  induction names generalizing o met with
  | nil => exact .inl ⟨o, rfl, by rwa [bindingsOf, List.map_nil, List.append_nil]⟩
  | cons bound rest ih =>
    have hsplit : met ++ bindingsOf kind (bound :: rest) =
        (met ++ [⟨bound, kind, false⟩]) ++ bindingsOf kind rest := by simp [bindingsOf]
    rw [List.foldlM_cons]
    obtain ⟨o', hdeclare, ho'⟩ | ⟨hdeclare, hexcluded⟩ := h.declare kind bound
    · rw [hdeclare, hsplit]
      exact ih ho'
    · rw [hdeclare]
      exact .inr ⟨_, rfl, met, _, bindingsOf kind rest, rfl, h.apart, hexcluded, rfl⟩

end HasNames

/-! ## Readers -/

/-- The reader meets the bindings: it leaves an outline with their names, and if it complains about a name
that has been declared already, then about the first binding that is excluded by an earlier one. -/
structure Meets (met : List NewName) (x : Except SyntaxError (Outline × List Tree)) : Prop where
  ok : ∀ o behind, x = .ok (o, behind) → HasNames o met
  clash : ∀ e, x = .error e → e.fault.category = .duplicateDeclaration → FirstClash met e

lemma meets_ok (h : HasNames o met) (behind : List Tree) : Meets met (.ok (o, behind)) :=
  ⟨fun _ _ heq => (Prod.mk.inj (Except.ok.inj heq)).1 ▸ h, fun _ heq => nomatch heq⟩

lemma unexpected_category (t : Token) : (unexpected t).fault.category = .unexpectedToken := by
  unfold unexpected
  split <;> rfl

lemma meets_unexpected (met : List NewName) (t : Token) : Meets met (.error (unexpected t)) := by
  refine ⟨fun _ _ heq => (nomatch heq), fun e heq hcategory => ?_⟩
  rw [← Except.error.inj heq, unexpected_category] at hcategory
  cases hcategory

lemma meets_firstClash (h : FirstClash met e) : Meets met (.error e) :=
  ⟨fun _ _ heq => (nomatch heq), fun _ heq _ => Except.error.inj heq ▸ h⟩

/-- A step that declares nothing. -/
lemma Meets.step {α : Type} {x : Except SyntaxError α} {f : α → Except SyntaxError (Outline × List Tree)}
    (hx : OnlyUnexpected x) (hf : ∀ a, x = .ok a → Meets met (f a)) : Meets met (x >>= f) := by
  cases x with
  | error e =>
    obtain ⟨t, rfl⟩ := hx e rfl
    exact meets_unexpected met t
  | ok a => exact hf a rfl

/-- A step that declares names, the last one that does. -/
lemma Meets.declares {f : Outline → Except SyntaxError (Outline × List Tree)} (h : HasNames o read)
    (hf : ∀ o', HasNames o' (read ++ bindingsOf kind names) → Meets (read ++ bindingsOf kind names) (f o')) :
    Meets (read ++ bindingsOf kind names) (o.declareAll kind names >>= f) := by
  obtain ⟨o', hdeclare, ho'⟩ | ⟨e, hdeclare, hclash⟩ := h.declareAll kind names
  · rw [hdeclare]
    exact hf o' ho'
  · rw [hdeclare]
    exact meets_firstClash hclash

section
variable {leading : List Comment} {exported : Bool}

lemma HasNames.addEdit (h : HasNames o met) (span : Span) (replacement : String) :
    HasNames (o.addEdit span replacement) met :=
  h.same ⟨rfl, rfl⟩

lemma declare_eq_declareAll (o : Outline) (kind : Declaration) (bound : BoundName) :
    o.declare kind bound = o.declareAll kind [bound] := by
  rw [Outline.declareAll, List.foldlM_cons]
  cases o.declare kind bound <;> rfl

lemma functionDeclaration_meets (h : HasNames o read)
    (hfunction : startsWithWord (dropWord "async" trees) "function" = true) :
    Meets (read ++ bindingsOf .lexical (functionNames after trees))
      (functionDeclaration after leading exported o trees) := by
  unfold functionDeclaration
  dsimp only
  rw [if_pos hfunction]
  refine .step (nameOfToken_unexpected _) fun bound hbound => ?_
  refine .step (functionTail_unexpected _ _) fun ⟨params, body, rest⟩ _ => ?_
  rw [functionNames, namesAt_of_ok hbound, declare_eq_declareAll]
  exact .declares h fun o' ho' => meets_ok (ho'.same (sameNames_function o' _ exported [bound]).symm) rest

lemma classDeclaration_meets (h : HasNames o read) :
    Meets (read ++ bindingsOf .lexical (namesAt (ahead after trees.tail)))
      (classDeclaration after exported o trees) := by
  unfold classDeclaration
  refine .step (nameOfToken_unexpected _) fun bound hbound => ?_
  refine .step (pastClassBody_unexpected _ _) fun rest _ => ?_
  rw [namesAt_of_ok hbound, declare_eq_declareAll]
  exact .declares h fun o' ho' => meets_ok (ho'.same (sameNames_exportNames o' exported [bound]).symm) rest

lemma declaratorTarget_ok {single : Option String} {t : Tree}
    (h : declaratorTarget after (t :: rest) = .ok (single, names, behind)) :
    namesOfTarget t = .ok names ∧ behind = rest := by
  cases t with
  | leaf token =>
    obtain ⟨bound, hbound, h⟩ := bind_ok h
    cases h
    exact ⟨by rw [namesOfTarget, hbound]; rfl, rfl⟩
  | group opener inside closer =>
    obtain ⟨names, hnames, h⟩ := bind_ok h
    cases h
    exact ⟨hnames, rfl⟩

/-- Declarators are declared one behind the other, so the first that clashes is the first of all names. -/
lemma declarators_meets (h : HasNames o read) (fuel : Nat) (trees : List Tree) :
    Meets (read ++ bindingsOf kind (declaratorNames after fuel trees))
      (declarators after kind leading exported fuel o trees) := by
  induction fuel generalizing o read trees with
  | zero => exact meets_ok (by simpa [declaratorNames, bindingsOf] using h) trees
  | succ fuel ih =>
    cases htarget : declaratorTarget after trees with
    | error e =>
      obtain ⟨t, rfl⟩ := declaratorTarget_unexpected after trees e htarget
      rw [declarators, htarget]
      exact meets_unexpected _ t
    | ok found =>
      obtain ⟨single, names, left⟩ := found
      obtain ⟨t, rfl⟩ := declaratorTarget_cons htarget
      obtain ⟨hnames, -⟩ := declaratorTarget_ok htarget
      rw [declaratorNames, hnames]
      dsimp only
      obtain ⟨o₁, hdeclare, ho₁⟩ | ⟨e, hdeclare, hclash⟩ := h.declareAll kind names
      · obtain ⟨o₂, hsame, -, heq⟩ := declarators_eq htarget hdeclare
        rw [heq, moreDeclarators]
        split
        · rw [bindingsOf_append, ← List.append_assoc]
          exact ih (ho₁.same hsame) _
        · exact meets_ok (ho₁.same hsame) _
      · have hread : declarators after kind leading exported (fuel + 1) o (t :: left) = .error e := by
          rw [declarators, htarget]
          dsimp only [bind, Except.bind]
          rw [hdeclare]
        rw [hread]
        apply meets_firstClash
        split
        · rw [bindingsOf_append, ← List.append_assoc]
          exact hclash.append _
        · exact hclash

/-! ## Declarations -/

lemma dropWord_async (h : startsWithWord trees "async" = false) : dropWord "async" trees = trees := by
  rw [dropWord, h, if_neg Bool.false_ne_true]

lemma startsWithWord_other {word : String} (h : startsWithWord trees word = true) (other : String)
    (hne : word ≠ other) : startsWithWord trees other = false := by
  obtain ⟨t, rest, rfl, ht⟩ := startsWithWord_iff.mp h
  exact isWord_other ht hne

lemma declarationBindings_function (h : startsWithWord (dropWord "async" trees) "function" = true) :
    declarationBindings after trees = bindingsOf .lexical (functionNames after trees) := by
  rw [declarationBindings, if_pos h]

lemma declarationBindings_class (h : startsWithWord trees "class" = true) :
    declarationBindings after trees = bindingsOf .lexical (namesAt (ahead after trees.tail)) := by
  have hother := startsWithWord_other h
  rw [declarationBindings, dropWord_async (hother "async" (by decide)), hother "function" (by decide),
    if_neg Bool.false_ne_true, if_pos h]

lemma declarationBindings_variables {word : String} (h : startsWithWord trees word = true)
    (hword : word ∈ ["const", "let", "var"]) : declarationBindings after trees =
      bindingsOf (if startsWithWord trees "var" then .var else .lexical)
        (declaratorNames after trees.length trees.tail) := by
  have hother := startsWithWord_other h
  simp only [List.mem_cons, List.not_mem_nil, or_false] at hword
  rcases hword with rfl | rfl | rfl <;>
    simp [declarationBindings, h, hother, dropWord_async (hother "async" (by decide))]

lemma declarationBindings_none (h : startsWithName trees = false) : declarationBindings after trees = [] := by
  have hother : ∀ word, startsWithWord trees word = false := by
    intro word
    rw [Bool.eq_false_iff]
    intro hword
    obtain ⟨t, rest, rfl, ht⟩ := startsWithWord_iff.mp hword
    obtain ⟨token, rfl, hkind⟩ := leaf_of_isWord ht
    simp [startsWithName, Tree.name?, Token.name?, hkind] at h
  simp [declarationBindings, hother, dropWord_async]

lemma startsFunction_word (h : startsWithWord trees "function" = true) :
    startsWithWord (dropWord "async" trees) "function" = true := by
  rwa [dropWord_async (startsWithWord_other h "async" (by decide))]

lemma startsFunction_async (h : startsWithWord trees "async" = true)
    (hfunction : startsWithWord trees.tail "function" = true) :
    startsWithWord (dropWord "async" trees) "function" = true := by
  rwa [dropWord, if_pos h]

/-! ## Imports and exports -/

lemma namesAt_ahead (hafter : after.name? = none) (hproper : ProperAll trees)
    (h : startsWithName trees = false) : namesAt (ahead after trees) = [] := by
  cases trees with
  | nil => simp [namesAt, ahead, hafter]
  | cons t rest =>
    cases t with
    | leaf token => simpa [namesAt, ahead, Tree.first, startsWithName, Tree.name?] using h
    | group opener inside closer =>
      obtain ⟨⟨opens, closes, hkind, -⟩, -⟩ := proper_group.mp (properAll_cons.mp hproper).1
      simp [namesAt, ahead, Tree.first, Token.name?, hkind]

lemma importedNames_text (hproper : ProperAll trees) (h : (ahead after trees).text?.isSome = true) :
    importedNames after trees = [] := by
  cases trees with
  | nil => rfl
  | cons t rest =>
    cases t with
    | leaf token =>
      obtain ⟨value, hkind⟩ : ∃ value, token.kind = .text value := by
        simp only [ahead, Tree.first, Token.text?] at h
        split at h
        · exact ⟨_, ‹_›⟩
        · cases h
      simp [importedNames, defaultName, otherNames, Tree.isPunct, Token.isPunct, Tree.inside?,
        Token.name?, hkind]
    | group opener inside closer =>
      obtain ⟨⟨opens, closes, hkind, -⟩, -⟩ := proper_group.mp (properAll_cons.mp hproper).1
      simp [ahead, Tree.first, Token.text?, hkind] at h

lemma importDeclaration_meets (h : HasNames o read) (hproper : ProperAll trees) :
    Meets (read ++ bindingsOf .lexical (importedNames after trees.tail)) (importDeclaration after o trees) := by
  have hclause := hproper.suffix (List.tail_suffix trees)
  -- What is declared once the source is read, whatever the clause binds and wherever it ends.
  have hsource : ∀ (bindings : List (ImportBinding × BoundName)) (span : Span) (replacement : String)
      (behind : List Tree), bindings.map Prod.snd = importedNames after trees.tail →
      Meets (read ++ bindingsOf .lexical (importedNames after trees.tail))
        (o.declareAll .lexical (bindings.map (·.2)) >>= fun o => .ok (o.addEdit span replacement, behind)) := by
    intro bindings span replacement behind hnames
    rw [hnames]
    exact .declares h fun o' ho' => meets_ok (ho'.addEdit _ _) _
  unfold importDeclaration
  dsimp only
  split
  · rename_i htext
    refine .step (onlyUnexpected_ok _) fun clauseRead hread => ?_
    obtain rfl := Except.ok.inj hread
    split
    · exact meets_unexpected _ _
    · exact hsource [] _ _ _ (importedNames_text hclause htext).symm
  · refine .step (importClause_unexpected _ _) fun clauseRead hread => ?_
    split
    · exact meets_unexpected _ _
    · exact hsource clauseRead.1 _ _ _ (importClause_names hclause hread)

lemma exportList_meets {inside : List Tree} {closer : Token} (h : HasNames o read) :
    Meets read (exportList after o trees inside closer) := by
  unfold exportList
  refine .step (exportElements_unexpected _ _ _) fun entries _ => ?_
  dsimp only
  split
  · split
    · exact meets_ok (h.addEdit _ _) _
    · exact meets_unexpected _ _
  · have hexports : HasNames (o.addExports entries) read := h.same ⟨rfl, rfl⟩
    exact meets_ok (hexports.addEdit _ _) _

lemma startsWithPunct_of_name (h : startsWithName trees = true) (mark : String) :
    startsWithPunct trees mark = false := by
  cases trees with
  | nil => rfl
  | cons t rest =>
    cases t with
    | group opener inside closer => rfl
    | leaf token =>
      obtain ⟨name, hname⟩ := Option.isSome_iff_exists.mp h
      exact isPunct_of_name hname mark

/-- The name of a named function is declared: no star stands behind `async function`. -/
lemma startsFunction_of_named (h : startsNamedFunction trees = true) :
    startsWithWord (dropWord "async" trees) "function" = true ∧
      (startsWithWord trees "async" && startsWithPunct trees.tail.tail "*") = false := by
  unfold startsNamedFunction at h
  split at h
  · rename_i hfunction
    have hasync := startsWithWord_other hfunction "async" (by decide)
    rw [dropWord_async hasync, hasync]
    exact ⟨hfunction, Bool.false_and _⟩
  · simp only [Bool.and_eq_true] at h
    obtain ⟨⟨hasync, hfunction⟩, hname⟩ := h
    rw [dropWord, if_pos hasync]
    exact ⟨hfunction, by rw [startsWithPunct_of_name hname, Bool.and_false]⟩

/-- A function that is not declared has no name, unless it is an async generator. -/
lemma unnamedFunction (h : startsNamedFunction trees = false)
    (hfunction : startsWithWord (dropWord "async" trees) "function" = true)
    (hplain : (startsWithWord trees "async" && startsWithPunct trees.tail.tail "*") = false) :
    startsWithName (dropPunct "*" (dropWord "async" trees).tail) = false := by
  unfold startsNamedFunction at h
  cases hasync : startsWithWord trees "async" with
  | true =>
    have hnot := startsWithWord_other hasync "function" (by decide)
    rw [dropWord, if_pos hasync] at hfunction ⊢
    rw [hasync, Bool.true_and] at hplain
    rw [hnot, if_neg Bool.false_ne_true, hasync, hfunction, Bool.and_self, Bool.true_and] at h
    rw [dropPunct, hplain, if_neg Bool.false_ne_true]
    exact h
  | false =>
    rw [dropWord_async hasync] at hfunction ⊢
    rw [if_pos hfunction, Bool.or_eq_false_iff] at h
    unfold dropPunct
    split
    · rename_i hstar
      simpa [hstar] using h.2
    · exact h.1

/-- A default export whose name is not declared is passed over, or it has no name. -/
lemma defaultBindings_passedOver (hafter : after.name? = none) (hproper : ProperAll trees)
    (hfunction : startsNamedFunction trees = false)
    (hclass : (startsWithWord trees "class" && startsWithName trees.tail &&
      !startsWithWord trees.tail "extends") = false) :
    ∀ b ∈ defaultBindings after trees, b.passedOver = true := by
  have hnone : ∀ left, left <:+ trees → startsWithName left = false →
      ∀ b ∈ bindingsOf .lexical (namesAt (ahead after left)), b.passedOver = true := by
    intro left hleft hname
    rw [namesAt_ahead hafter (hproper.suffix hleft) hname]
    exact fun b hb => absurd hb List.not_mem_nil
  have htail := List.tail_suffix trees
  unfold defaultBindings
  split
  · rename_i hstarts
    split
    · split
      · exact fun b hb => absurd hb List.not_mem_nil
      · intro b hb
        obtain ⟨bound, -, rfl⟩ := List.mem_map.mp hb
        rfl
    · rename_i hstar
      refine hnone _ ((dropPunct_suffix _ _).trans ((List.tail_suffix _).trans (dropWord_suffix _ _))) ?_
      exact unnamedFunction hfunction hstarts (Bool.eq_false_iff.mpr hstar)
  · split
    · rename_i hothers
      refine hnone _ htail ?_
      simp only [Bool.and_eq_true] at hothers
      simpa [hothers.1, hothers.2] using hclass
    · exact fun b hb => absurd hb List.not_mem_nil

lemma exportDefault_meets {e d : Tree} (hafter : after.name? = none) (h : HasNames o read)
    (hproper : ProperAll rest) :
    Meets (read ++ defaultBindings after rest) (exportDefault after leading o (e :: d :: rest)) := by
  unfold exportDefault
  dsimp only
  change Meets _ (if startsNamedFunction rest then _ else if _ then _ else _)
  split
  · rename_i hnamed
    obtain ⟨hfunction, hplain⟩ := startsFunction_of_named hnamed
    rw [defaultBindings, if_pos hfunction, hplain, if_neg Bool.false_ne_true]
    exact functionDeclaration_meets (h.addEdit _ _) hfunction
  · rename_i hfunction
    rw [Bool.not_eq_true] at hfunction
    split
    · rename_i hclass
      have hstarts : startsWithWord rest "class" = true ∧ (!startsWithWord rest.tail "extends") = true := by
        rw [Bool.and_eq_true, Bool.and_eq_true] at hclass
        exact ⟨hclass.1.1, hclass.2⟩
      have hasync := startsWithWord_other hstarts.1 "async" (by decide)
      have hnot := startsWithWord_other hstarts.1 "function" (by decide)
      rw [defaultBindings, dropWord_async hasync, hnot, if_neg Bool.false_ne_true, hstarts.1, hstarts.2]
      exact classDeclaration_meets (h.addEdit _ _)
    · rename_i hclass
      rw [Bool.not_eq_true] at hclass
      exact meets_ok ((h.addEdit _ _).passOver (defaultBindings_passedOver hafter hproper hfunction hclass)) _

lemma exportDeclaration_meets {e : Tree} (hafter : after.name? = none) (h : HasNames o read)
    (hproper : ProperAll rest) :
    Meets (read ++ if startsWithWord rest "default" then defaultBindings after rest.tail
        else declarationBindings after rest) (exportDeclaration after o (e :: rest)) := by
  cases rest with
  | nil => exact meets_unexpected _ _
  | cons t more =>
    have hstarts : startsWithWord (t :: more) "default" = t.isWord "default" := rfl
    have hblanked := h.addEdit e.first.span ""
    rw [exportDeclaration, hstarts]
    dsimp only
    split
    · exact exportDefault_meets hafter h (properAll_cons.mp hproper).2
    · split
      · rename_i hfunction
        have hstarts : startsWithWord (dropWord "async" (t :: more)) "function" = true := by
          rw [Bool.or_eq_true, Bool.and_eq_true] at hfunction
          rcases hfunction with hword | ⟨hasync, hword⟩
          · exact startsFunction_word hword
          · exact startsFunction_async hasync hword
        rw [declarationBindings_function hstarts]
        exact functionDeclaration_meets hblanked hstarts
      · split
        · rename_i hvariables
          obtain ⟨word, hmem, hword⟩ :
              ∃ word ∈ ["const", "let", "var"], startsWithWord (t :: more) word = true := by
            rw [Bool.or_eq_true, Bool.or_eq_true] at hvariables
            rcases hvariables with (hword | hword) | hword
            · exact ⟨"const", by decide, hword⟩
            · exact ⟨"let", by decide, hword⟩
            · exact ⟨"var", by decide, hword⟩
          rw [declarationBindings_variables hword hmem]
          exact declarators_meets hblanked _ _
        · split
          · rename_i hclass
            have hword : startsWithWord (t :: more) "class" = true := hclass
            rw [declarationBindings_class hword]
            exact classDeclaration_meets hblanked
          · split
            · rename_i hstar
              obtain ⟨mark, rfl, hkind⟩ := leaf_of_isPunct hstar
              rw [declarationBindings_none (by simp [startsWithName, Tree.name?, Token.name?, hkind]),
                List.append_nil]
              exact meets_ok (h.addEdit _ _) _
            · split
              · rename_i inside closer hinside
                cases t with
                | leaf token => cases hinside
                | group opener trees last =>
                  rw [declarationBindings_none rfl, List.append_nil]
                  exact exportList_meets h
              · exact meets_unexpected _ _

/-! ## Statements -/

lemma startsWithWord_ahead {word : String} (hafter : after.name? = none) (hproper : ProperAll trees)
    (h : (ahead after trees).isWord word = true) : startsWithWord trees word = true := by
  cases trees with
  | nil =>
    have hkind : after.kind = .ident word := by simpa [ahead, Token.isWord] using h
    simp [Token.name?, hkind] at hafter
  | cons t rest =>
    cases t with
    | leaf token => exact h
    | group opener inside closer =>
      obtain ⟨⟨opens, closes, hkind, -⟩, -⟩ := proper_group.mp (properAll_cons.mp hproper).1
      simp [ahead, Tree.first, Token.isWord, hkind] at h

/-- `function` stands behind an `async` that starts a declaration. -/
lemma startsFunction_of_statement (hafter : after.name? = none) (hproper : ProperAll trees)
    (h : (startsWithWord trees "function" ||
      (startsWithWord trees "async" && startsDeclaration after trees)) = true) :
    startsWithWord (dropWord "async" trees) "function" = true := by
  rw [Bool.or_eq_true, Bool.and_eq_true] at h
  rcases h with hfunction | ⟨hasync, hstarts⟩
  · exact startsFunction_word hfunction
  · refine startsFunction_async hasync ?_
    obtain ⟨t, rest, rfl, ht⟩ := startsWithWord_iff.mp hasync
    obtain ⟨token, rfl, hkind⟩ := leaf_of_isWord ht
    have hnext : (ahead after rest).isWord "function" = true := by
      simp only [startsDeclaration, Tree.name?, Token.name?, hkind] at hstarts
      exact (Bool.and_eq_true_iff.mp hstarts).1
    exact startsWithWord_ahead hafter (properAll_cons.mp hproper).2 hnext

/-- A statement meets the bindings that it introduces. -/
lemma statement_meets (hafter : after.name? = none) (h : HasNames o read) (hproper : ProperAll trees) :
    Meets (read ++ introduced after trees) (statement after o trees) := by
  cases hplain : startsPlain after trees with
  | true =>
    rw [statement_plain hplain, introduced, if_pos hplain, List.append_nil]
    exact meets_ok h _
  | false =>
    rw [introduced, hplain, if_neg Bool.false_ne_true, statement]
    by_cases himport : (startsWithWord trees "import" && startsDeclaration after trees) = true
    · rw [if_pos himport, if_pos (Bool.and_eq_true_iff.mp himport).1]
      exact importDeclaration_meets h hproper
    rw [if_neg himport]
    by_cases hexport : startsWithWord trees "export" = true
    · rw [startsWithWord_other hexport "import" (by decide), if_neg Bool.false_ne_true, if_pos hexport,
        if_pos hexport]
      obtain ⟨e, rest, rfl, -⟩ := startsWithWord_iff.mp hexport
      exact exportDeclaration_meets hafter h (properAll_cons.mp hproper).2
    have hnoImport : ¬ startsWithWord trees "import" = true := by
      intro hword
      have hother := startsWithWord_other hword
      simp [startsPlain, startsVariables, eq_false_of_ne_true himport, hother] at hplain
    rw [if_neg hexport, if_neg hnoImport, if_neg hexport]
    split
    · rename_i hfunction
      have hstarts := startsFunction_of_statement hafter hproper hfunction
      rw [declarationBindings_function hstarts]
      exact functionDeclaration_meets h hstarts
    · split
      · rename_i hvariables
        obtain ⟨word, hmem, hword⟩ := startsVariables_word hvariables
        rw [declarationBindings_variables hword hmem]
        exact declarators_meets h _ _
      · split
        · rename_i hclass
          rw [declarationBindings_class hclass]
          exact classDeclaration_meets h
        · rename_i hfunction hvariables hclass
          simp only [startsPlain, himport, hexport, hfunction, hvariables, hclass] at hplain
          cases hplain

end

/-- The statements of a file are read one behind the other, up to those that are left; the bindings are those
that they introduce, in the order in which they are met. -/
inductive ReadTo (nested : Nested) : List NewName → Outline → List Tree → Prop
  | start : ReadTo nested [] .empty nested.trees
  | next {met : List NewName} {o o' : Outline} {t : Tree} {trees behind : List Tree}
      (before : ReadTo nested met o (t :: trees))
      (read : statement nested.ending o (t :: trees) = .ok (o', behind)) :
      ReadTo nested (met ++ introduced nested.ending (t :: trees)) o' behind

variable {nested : Nested} {tokens : List Token} {left : List Tree}

lemma hasNames_nothing : HasNames .empty [] := by
  refine ⟨fun kind name => ?_, List.Pairwise.nil⟩
  cases kind <;> simp [namesDeclared, Outline.empty]

lemma ReadTo.hasNames (hnested : nest tokens = .ok nested) (hending : nested.ending.kind = .endOfFile)
    (h : ReadTo nested met o left) : HasNames o met ∧ left <:+ nested.trees := by
  induction h with
  | start => exact ⟨hasNames_nothing, List.suffix_rfl⟩
  | @next met o o' t trees behind before read ih =>
    obtain ⟨hnames, hsuffix⟩ := ih
    have hnameless : nested.ending.name? = none := by simp [Token.name?, hending]
    have hproper := (nest_proper hnested).suffix hsuffix
    have hbehind := statement_suffix hending ((nest_openedByMarks hnested).suffix hsuffix) read
    exact ⟨(statement_meets hnameless hnames hproper).ok _ _ read,
      (hbehind.trans (List.suffix_cons t trees)).trans hsuffix⟩

lemma Sequence.readTo {stmts : List (List Tree)} (h : Sequence nested.ending o stmts q)
    (hbefore : ReadTo nested met o stmts.flatten) : ∃ met, ReadTo nested met q [] := by
  induction h generalizing met with
  | ending => exact ⟨met, hbefore⟩
  | next nonempty read tail ih =>
    obtain ⟨t, stmt, rfl⟩ := List.exists_cons_of_ne_nil nonempty
    exact ih (.next hbefore read)

lemma StopsAt.readTo (h : StopsAt nested.ending e o trees rest) (hbefore : ReadTo nested met o trees) :
    ∃ met o, ReadTo nested met o rest ∧ statement nested.ending o rest = .error e := by
  induction h generalizing met with
  | here fails => exact ⟨met, _, hbefore, fails⟩
  | next read more ih => exact ih (.next hbefore read)

/-- The bindings of a file that is accepted exclude each other only if one of them is passed over. A file is
refused because of a name that is declared twice only where a binding is met that an earlier one excludes, and
that binding is the first one; the complaint has its name and its place. -/
theorem first_clash_is_reported (text : String) :
    (∀ f, File.ofText text = .ok f → ∃ nested met, (tokenize text >>= nest) = .ok nested ∧
      ReadTo nested met f.outline [] ∧ Apart met) ∧
    ∀ e, File.ofText text = .error e → e.fault.category = .duplicateDeclaration →
      ∃ nested met o rest, (tokenize text >>= nest) = .ok nested ∧ ReadTo nested met o rest ∧
        statement nested.ending o rest = .error e ∧
        FirstClash (met ++ introduced nested.ending rest) e := by
  refine ⟨fun f hf => ?_, fun e he hcategory => ?_⟩
  · obtain ⟨tokens, htokens, hf⟩ := bind_ok hf
    obtain ⟨nested, hnested, hf⟩ := bind_ok hf
    obtain ⟨o, houtline, hf⟩ := bind_ok hf
    cases hf
    obtain ⟨-, hending⟩ := nest_tokens (tokenize_tiles htokens) hnested
    obtain ⟨stmts, htrees, hsequence⟩ := outlineOf_sequence hending (nest_openedByMarks hnested) houtline
    obtain ⟨met, hread⟩ := hsequence.readTo (htrees ▸ ReadTo.start)
    refine ⟨nested, met, by rw [htokens, ok_bind, hnested], hread, ?_⟩
    exact (hread.hasNames hnested hending).1.apart
  · cases htokens : tokenize text with
    | error e' =>
      have hsame : e' = e := by
        unfold File.ofText at he
        rw [htokens] at he
        exact Except.error.inj he
      subst hsame
      obtain ⟨cur, hfault, -⟩ := tokenize_error htokens
      obtain ⟨fault, place⟩ := e'
      cases fault with
      | duplicateDeclaration name => exact hfault.located.2.elim
      | _ => cases hcategory
    | ok tokens =>
      obtain ⟨t, -, hrefused⟩ := ofText_error htokens he
      cases hrefused with
      | bracket _ _ _ about =>
        rw [about, unexpected_category] at hcategory
        cases hcategory
      | @statement nested rest fits stops suffix _ _ =>
        obtain ⟨-, hending⟩ := nest_tokens (tokenize_tiles htokens) fits
        have hnameless : nested.ending.name? = none := by simp [Token.name?, hending]
        obtain ⟨met, o, hread, hfails⟩ := stops.readTo .start
        obtain ⟨hnames, hsuffix⟩ := hread.hasNames fits hending
        refine ⟨nested, met, o, rest, by rw [ok_bind, fits], hread, hfails, ?_⟩
        have hproper := (nest_proper fits).suffix hsuffix
        exact (statement_meets hnameless hnames hproper).clash e hfails hcategory

/-- An async generator that is the default export, and a function of its name. -/
def exportedTwice : String :=
  "export default async function* f() \x7b\x7d\nfunction f() \x7b\x7d\n"

/-- The name at a place of a line that starts behind some characters. -/
def placedName (lineStart line column : Nat) : Token :=
  ⟨.ident "f", ⟨lineStart + column - 1, lineStart + column⟩, ⟨line, column⟩, false, []⟩

/-- What stands behind the words of a function without parameters and statements. -/
def emptyFunction (lineStart line column : Nat) : List Tree :=
  let mark (text : String) (column : Nat) : Token :=
    ⟨.punct text, ⟨lineStart + column - 1, lineStart + column⟩, ⟨line, column⟩, false, []⟩
  [.leaf (placedName lineStart line column), .group (mark "(" (column + 1)) [] (mark ")" (column + 2)),
    .group (mark "\x7b" (column + 4)) [] (mark "\x7d" (column + 5))]

/-- The function behind the default export. -/
def laterFunction : List Tree :=
  .leaf ⟨.ident "function", ⟨38, 46⟩, ⟨2, 1⟩, true, []⟩ :: emptyFunction 38 2 10

/-- Both functions, with the end of the file. -/
def sameFunctions : Nested :=
  ⟨[.leaf (lineWord "export" 0), .leaf (lineWord "default" 7), .leaf (lineWord "async" 15),
      .leaf (lineWord "function" 21), .leaf (lineMark "*" 29)] ++ emptyFunction 0 1 32 ++ laterFunction,
    ⟨.endOfFile, ⟨54, 54⟩, ⟨3, 1⟩, true, []⟩⟩

/-- The name of the async generator is passed over, so the file is accepted with two bindings that exclude each
other. -/
theorem async_generator_is_passed_over :
    (tokenize exportedTwice >>= nest) = .ok sameFunctions ∧
    ∃ f, File.ofText exportedTwice = .ok f ∧
      ReadTo sameFunctions
        [⟨⟨"f", placedName 0 1 32⟩, .lexical, true⟩, ⟨⟨"f", placedName 38 2 10⟩, .lexical, false⟩] f.outline [] ∧
      NewName.Excludes ⟨⟨"f", placedName 0 1 32⟩, .lexical, true⟩
        ⟨⟨"f", placedName 38 2 10⟩, .lexical, false⟩ := by
  have htokens : tokenize exportedTwice =
      .ok (tokensOfAll sameFunctions.trees ++ [sameFunctions.ending]) := by decide +kernel
  have hnested : nest (tokensOfAll sameFunctions.trees ++ [sameFunctions.ending]) = .ok sameFunctions := rfl
  obtain ⟨o, q, hfirst, hsecond, houtline⟩ : ∃ o q,
      statement sameFunctions.ending .empty sameFunctions.trees = .ok (o, laterFunction) ∧
      statement sameFunctions.ending o laterFunction = .ok (q, []) ∧ outlineOf sameFunctions = .ok q :=
    ⟨_, _, rfl, rfl, rfl⟩
  refine ⟨by rw [htokens, ok_bind, hnested], ⟨exportedTwice, q⟩, ?_, .next (.next .start hfirst) hsecond, rfl,
    .inl rfl⟩
  rw [File.ofText, htokens, ok_bind, hnested, ok_bind, houtline]
  rfl

end TaskRunner.Proofs
