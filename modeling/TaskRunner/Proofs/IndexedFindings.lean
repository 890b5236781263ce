import TaskRunner.Proofs.IndexedPatterns

/-!
# What is found by indexes

A reading by indexes keeps a function as the indexes of its parameters, of its body and of the token with
its comments. What it has found stands for an outline, and what it leaves are trees at a later index. Words,
marks, names and groups are looked for at an index as they are in front of the trees there.
-/

namespace TaskRunner.Proofs
open Source Tree

/-! ## What has been found -/

/-- A function by the indexes of its parts. -/
structure FunctionPlace where
  name : String
  params : Nat × Nat
  body : Option Nat
  anchor : Nat

/-- What has been found so far. The functions are kept beside the outline of everything else. -/
structure Findings where
  others : Outline
  functions : List FunctionPlace

namespace Findings

/-- Nothing has been found. -/
def empty : Findings := ⟨.empty, []⟩

/-- Declares names, one after the other. -/
def declare (found : Findings) (kind : Declaration) (names : List BoundName) : Checked Findings :=
  (lifted (found.others.declareAll kind names)).map fun others => { found with others := others }

/-- One more function. -/
def addFunction (found : Findings) (f : FunctionPlace) : Findings :=
  { found with functions := found.functions ++ [f] }

/-- One more edit. -/
def addEdit (found : Findings) (span : Span) (replacement : String) : Findings :=
  { found with others := found.others.addEdit span replacement }

/-- More exports. -/
def addExports (found : Findings) (entries : List Export) : Findings :=
  { found with others := found.others.addExports entries }

/-- Names exported as they are, if they are exported. -/
def exportNames (found : Findings) (exported : Bool) (names : List BoundName) : Findings :=
  { found with others := found.others.exportNames exported names }

end Findings

/-- Trees stand between two indexes, and no object starts behind them. -/
structure PartAt (s : Sheet) (place : Nat × Nat) (part : List Tree) : Prop where
  stand : AllAt s place.1 part
  stop : place.2 = place.1 + widthOfAll part
  behind : ∃ token, s.tokens[place.2]? = some token ∧ token.isPunct "\x7b" = false

/-- A body stands at an index, if there is one. -/
def BodyAt (s : Sheet) : Option Nat → Option (List Tree × Token) → Prop :=
  Option.Rel fun i body => ∃ opener, GroupAt s i opener body.1 body.2

/-- The token at an index has the given comments. -/
def AnchorAt (s : Sheet) (i : Nat) (leading : List Comment) : Prop :=
  ∃ token, s.tokens[i]? = some token ∧ token.comments = leading

/-- A function has its parts at the given indexes. -/
structure Placed (s : Sheet) (place : FunctionPlace) (f : LocalFunction) : Prop where
  name : place.name = f.name
  params : PartAt s place.params f.params
  body : BodyAt s place.body f.body
  anchor : AnchorAt s place.anchor f.leading

/-- An outline without its functions. -/
def withoutFunctions (o : Outline) : Outline :=
  { o with functions := [] }

/-- What has been found by indexes is what has been found by trees. -/
structure Finds (s : Sheet) (found : Findings) (o : Outline) : Prop where
  others : found.others = withoutFunctions o
  functions : List.Forall₂ (Placed s) found.functions o.functions

variable {s : Sheet} {i : Nat} {t : Tree} {after token : Token} {trees rest : List Tree}
variable {found : Findings} {o : Outline}

lemma Finds.empty (s : Sheet) : Finds s .empty .empty :=
  ⟨rfl, .nil⟩

lemma Finds.addFunction (h : Finds s found o) {place : FunctionPlace} {f : LocalFunction}
    (hplace : Placed s place f) : Finds s (found.addFunction place) (o.addFunction f) :=
  ⟨h.others, List.rel_append h.functions (.cons hplace .nil)⟩

lemma Finds.addEdit (h : Finds s found o) (span : Span) (replacement : String) :
    Finds s (found.addEdit span replacement) (o.addEdit span replacement) :=
  ⟨by rw [Findings.addEdit, h.others]; rfl, h.functions⟩

lemma Finds.addExports (h : Finds s found o) (entries : List Export) :
    Finds s (found.addExports entries) (o.addExports entries) :=
  ⟨by rw [Findings.addExports, h.others]; rfl, h.functions⟩

lemma Finds.exportNames (h : Finds s found o) (exported : Bool) (names : List BoundName) :
    Finds s (found.exportNames exported names) (o.exportNames exported names) := by
  cases exported with
  | true => exact h.addExports _
  | false => exact ⟨h.others, h.functions⟩

lemma declare_withoutFunctions (o : Outline) (kind : Declaration) (bound : BoundName) :
    (withoutFunctions o).declare kind bound = (o.declare kind bound).map withoutFunctions ∧
      ∀ o', o.declare kind bound = .ok o' → o'.functions = o.functions := by
  unfold Outline.declare withoutFunctions
  dsimp only
  cases kind with
  | lexical =>
    dsimp only
    split
    · exact ⟨rfl, fun _ h => nomatch h⟩
    · exact ⟨rfl, fun _ h => by cases h; rfl⟩
  | var =>
    dsimp only
    split
    · exact ⟨rfl, fun _ h => nomatch h⟩
    · exact ⟨rfl, fun _ h => by cases h; rfl⟩

lemma declareAll_withoutFunctions (o : Outline) (kind : Declaration) (names : List BoundName) :
    (withoutFunctions o).declareAll kind names = (o.declareAll kind names).map withoutFunctions ∧
      ∀ o', o.declareAll kind names = .ok o' → o'.functions = o.functions := by
  unfold Outline.declareAll
  induction names generalizing o with
  | nil => exact ⟨rfl, fun _ h => by cases h; rfl⟩
  | cons bound more ih =>
    obtain ⟨hfirst, hkept⟩ := declare_withoutFunctions o kind bound
    rw [List.foldlM_cons, List.foldlM_cons, hfirst]
    cases hbound : o.declare kind bound with
    | error e => exact ⟨rfl, fun _ h => nomatch h⟩
    | ok o₁ =>
      obtain ⟨hmore, hmoreKept⟩ := ih o₁
      exact ⟨hmore, fun o' h => (hmoreKept o' h).trans (hkept o₁ hbound)⟩

/-- Names are declared by the same rules, whatever the functions are. -/
lemma Finds.declare (h : Finds s found o) (kind : Declaration) (names : List BoundName) :
    Agrees (Finds s) (found.declare kind names) (o.declareAll kind names) := by
  obtain ⟨hothers, hkept⟩ := declareAll_withoutFunctions o kind names
  rw [Findings.declare, h.others, hothers]
  cases hnames : o.declareAll kind names with
  | error e => exact .refused e
  | ok o' => exact .ok ⟨rfl, by rw [hkept o' hnames]; exact h.functions⟩

lemma declareAll_one (o : Outline) (kind : Declaration) (bound : BoundName) :
    o.declareAll kind [bound] = o.declare kind bound := by
  rw [Outline.declareAll, List.foldlM_cons]
  cases o.declare kind bound <;> rfl

/-- What has been read is the same, and the rest of the trees stands at a later index. -/
structure Leaves (s : Sheet) (i : Nat) (after : Token) (here : Findings × Nat)
    (there : Outline × List Tree) : Prop where
  finds : Finds s here.1 there.1
  later : i < here.2
  lies : Lies s here.2 there.2 after

lemma Leaves.from {j : Nat} {here : Findings × Nat} {there : Outline × List Tree}
    (h : Leaves s j after here there) (hij : i ≤ j) : Leaves s i after here there :=
  ⟨h.finds, Nat.lt_of_le_of_lt hij h.later, h.lies⟩

/-! ## Words, marks and groups ahead -/

namespace Sheet

variable (s : Sheet)

/-- The index behind a word, if it stands here. -/
def pastWord (word : String) (i : Nat) : Nat :=
  if (s.tok i).isWord word then i + 1 else i

/-- The index behind a mark, if it stands here. -/
def pastPunct (mark : String) (i : Nat) : Nat :=
  if (s.tok i).isPunct mark then i + 1 else i

/-- The index behind a name, if one stands here. -/
def pastName (i : Nat) : Nat :=
  if (s.tok i).name?.isSome then i + 1 else i

end Sheet

/-- Without a leading name. -/
def dropName (trees : List Tree) : List Tree :=
  if startsWithName trees then trees.tail else trees

lemma Lies.of_word (h : Lies s i trees after) {word : String} (hword : (s.tok i).isWord word = true) :
    ∃ token rest, trees = leaf token :: rest ∧ token.isWord word = true := by
  rw [← h.word] at hword
  obtain ⟨t, rest, rfl, ht⟩ := startsWithWord_iff.mp hword
  obtain ⟨token, rfl, -⟩ := leaf_of_isWord ht
  exact ⟨token, rest, rfl, ht⟩

lemma Lies.of_punct (h : Lies s i trees after) {mark : String} (hopen : isOpener mark = false)
    (hclose : openerOf mark = none) (hmark : (s.tok i).isPunct mark = true) :
    ∃ token rest, trees = leaf token :: rest ∧ token.isPunct mark = true := by
  rw [← h.punct mark hopen hclose] at hmark
  obtain ⟨t, rest, rfl, ht⟩ := startsWithPunct_iff.mp hmark
  obtain ⟨token, rfl, -⟩ := leaf_of_isPunct ht
  exact ⟨token, rest, rfl, ht⟩

lemma Lies.of_name (h : Lies s i trees after) (hname : (s.tok i).name?.isSome = true) :
    ∃ token rest, trees = leaf token :: rest ∧ s.tok i = token := by
  have hstarts := h.name.trans hname
  cases trees with
  | nil => cases hstarts
  | cons t rest =>
    obtain ⟨token, -, rfl, -⟩ := leaf_of_ident hstarts
    exact ⟨token, rest, rfl, h.head.tok⟩

/-- An opening bracket stands before a group. -/
lemma Lies.of_group (h : Lies s i trees after) {mark : String} (hopen : isOpener mark = true)
    (hmark : (s.tok i).isPunct mark = true) : ∃ opener inside closer rest,
      trees = Tree.group opener inside closer :: rest ∧ opener.isPunct mark = true ∧
        GroupAt s i opener inside closer ∧ Lies s (i + 1 + widthOfAll inside + 1) rest after := by
  rw [← h.group mark hopen] at hmark
  cases trees with
  | nil => cases hmark
  | cons t rest =>
    cases t with
    | leaf token => cases hmark
    | group opener inside closer =>
      exact ⟨opener, inside, closer, rest, rfl, hmark, at_group.mp h.head,
        (Past.group i opener closer inside rest).lies h⟩

lemma inside?_of_group {opener closer : Token} {inside : List Tree} {mark : String}
    (h : opener.isPunct mark = true) :
    (group opener inside closer).inside? mark = some (inside, closer) :=
  if_pos h

lemma inside?_of_not_group {mark : String} (h : t.isGroup mark = false) : t.inside? mark = none := by
  cases t with
  | leaf token => rfl
  | group opener inside closer => exact if_neg (by rw [show opener.isPunct mark = false from h]; simp)

lemma Lies.pastWord (h : Lies s i trees after) (word : String) :
    Past i trees (s.pastWord word i) (dropWord word trees) := by
  rw [Sheet.pastWord, dropWord, h.word]
  by_cases hword : (s.tok i).isWord word = true
  · obtain ⟨token, rest, rfl, -⟩ := h.of_word hword
    rw [if_pos hword, if_pos hword]
    exact Past.leaf i token rest
  · rw [if_neg hword, if_neg hword]
    exact Past.refl i trees

lemma Lies.pastPunct (h : Lies s i trees after) (mark : String) (hopen : isOpener mark = false)
    (hclose : openerOf mark = none) : Past i trees (s.pastPunct mark i) (dropPunct mark trees) := by
  rw [Sheet.pastPunct, dropPunct, h.punct mark hopen hclose]
  by_cases hmark : (s.tok i).isPunct mark = true
  · obtain ⟨token, rest, rfl, -⟩ := h.of_punct hopen hclose hmark
    rw [if_pos hmark, if_pos hmark]
    exact Past.leaf i token rest
  · rw [if_neg hmark, if_neg hmark]
    exact Past.refl i trees

lemma Lies.pastName (h : Lies s i trees after) : Past i trees (s.pastName i) (dropName trees) := by
  rw [Sheet.pastName, dropName, h.name]
  by_cases hname : (s.tok i).name?.isSome = true
  · obtain ⟨token, rest, rfl, -⟩ := h.of_name hname
    rw [if_pos hname, if_pos hname]
    exact Past.leaf i token rest
  · rw [if_neg hname, if_neg hname]
    exact Past.refl i trees

/-- Where a name has to stand, it stands before the rest of the trees. -/
lemma Lies.nameAt (h : Lies s i trees after) :
    Agrees (fun bound bound' => bound = bound' ∧ ∃ token rest, trees = leaf token :: rest) (s.nameAt i)
      (nameOfToken (Source.ahead after trees)) := by
  rw [Sheet.nameAt, h.ahead]
  have hname := h.of_name
  rw [h.ahead] at hname
  unfold nameOfToken
  cases hfound : (Source.ahead after trees).name? with
  | none => exact .refused _
  | some name =>
    obtain ⟨token, rest, htrees, -⟩ := hname (Option.isSome_of_eq_some hfound)
    exact .ok ⟨rfl, token, rest, htrees⟩

end TaskRunner.Proofs
