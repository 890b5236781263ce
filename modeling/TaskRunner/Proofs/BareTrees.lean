import Mathlib.Data.List.Forall2
import TaskRunner.Source.Outline
import TaskRunner.Proofs.NestedTokens

/-!
# Trees without their places

Statements are read by what their tokens are and by the line ends between them. Where the tokens stand,
and what comments are before them, makes no difference to where statements end and to which names they
declare.
-/

namespace TaskRunner.Proofs
open Source Tree

/-! ## Bare trees -/

/-- What a token is, without where it stands. -/
def bareToken (t : Token) : Token :=
  ⟨t.kind, ⟨0, 0⟩, ⟨1, 1⟩, false, []⟩

mutual

/-- A tree of bare tokens. -/
def bare : Tree → Tree
  | leaf t => leaf (bareToken t)
  | group opener inside closer => group (bareToken opener) (bareAll inside) (bareToken closer)

/-- Trees of bare tokens. -/
def bareAll : List Tree → List Tree
  | [] => []
  | t :: rest => bare t :: bareAll rest

end

@[simp] lemma bare_leaf (t : Token) : bare (leaf t) = leaf (bareToken t) := by
  rw [bare]

@[simp] lemma bare_group (opener closer : Token) (inside : List Tree) :
    bare (group opener inside closer) =
      group (bareToken opener) (bareAll inside) (bareToken closer) := by
  rw [bare]

@[simp] lemma bareAll_nil : bareAll [] = [] := by
  rw [bareAll]

@[simp] lemma bareAll_cons (t : Tree) (rest : List Tree) :
    bareAll (t :: rest) = bare t :: bareAll rest := by
  rw [bareAll]

@[simp] lemma bareToken_kind (t : Token) : (bareToken t).kind = t.kind := rfl

@[simp] lemma bareToken_isPunct (t : Token) (mark : String) :
    (bareToken t).isPunct mark = t.isPunct mark := rfl

@[simp] lemma bareToken_isWord (t : Token) (word : String) :
    (bareToken t).isWord word = t.isWord word := rfl

@[simp] lemma bareToken_name? (t : Token) : (bareToken t).name? = t.name? := rfl

@[simp] lemma bare_first (t : Tree) : (bare t).first = bareToken t.first := by
  cases t <;> simp [Tree.first]

@[simp] lemma bare_isPunct (t : Tree) (mark : String) : (bare t).isPunct mark = t.isPunct mark := by
  cases t <;> simp [Tree.isPunct]

@[simp] lemma bare_isWord (t : Tree) (word : String) : (bare t).isWord word = t.isWord word := by
  cases t <;> simp [Tree.isWord]

@[simp] lemma bare_name? (t : Tree) : (bare t).name? = t.name? := by
  cases t <;> simp [Tree.name?]

@[simp] lemma bare_isGroup (t : Tree) (opener : String) :
    (bare t).isGroup opener = t.isGroup opener := by
  cases t <;> simp [Tree.isGroup]

/-! ## Names of patterns -/

/-- The names that are read, without their tokens. -/
def names? (x : Except SyntaxError (List BoundName)) : Option (List String) :=
  x.toOption.map (·.map BoundName.name)

lemma names?_bind {x x' : Except SyntaxError (List BoundName)}
    {f f' : List BoundName → Except SyntaxError (List BoundName)} (hx : names? x' = names? x)
    (hf : ∀ a a', a'.map BoundName.name = a.map BoundName.name → names? (f' a') = names? (f a)) :
    names? (x' >>= f') = names? (x >>= f) := by
  cases x with
  | error e =>
    cases x' with
    | error e' => rfl
    | ok a' => cases hx
  | ok a =>
    cases x' with
    | error e' => cases hx
    | ok a' => exact hf a a' (Option.some.inj hx)

lemma names?_nameOfToken {t t' : Token} (h : t'.name? = t.name?)
    {f f' : BoundName → Except SyntaxError (List BoundName)}
    (hf : ∀ a a', a'.name = a.name → names? (f' a') = names? (f a)) :
    names? (nameOfToken t' >>= f') = names? (nameOfToken t >>= f) := by
  unfold nameOfToken
  rw [h]
  cases t.name? with
  | none => rfl
  | some name => exact hf ⟨name, t⟩ ⟨name, t'⟩ rfl

lemma colonInElement_bare (trees : List Tree) :
    colonInElement (bareAll trees) = colonInElement trees := by
  induction trees with
  | nil => simp
  | cons t rest ih => simp [colonInElement, ih]

lemma ahead_bare_name? {after after' : Token} (hafter : after'.kind = after.kind)
    (trees : List Tree) : (ahead after' (bareAll trees)).name? = (ahead after trees).name? := by
  cases trees with
  | nil => simp [ahead, Token.name?, hafter]
  | cons t rest => simp [ahead]

/-- A name in front of further ones. -/
lemma names?_cons {t t' : Token} (ht : t'.name? = t.name?)
    {more more' : Except SyntaxError (List BoundName)} (hmore : names? more' = names? more) :
    names? (do let bound ← nameOfToken t'; let names ← more'; .ok (bound :: names)) =
      names? (do let bound ← nameOfToken t; let names ← more; .ok (bound :: names)) := by
  refine names?_nameOfToken ht fun a a' ha => names?_bind hmore fun names names' hnames => ?_
  simp [names?, Except.toOption, ha, hnames]

/-- The names of a target in front of further ones. -/
lemma names?_append {x x' more more' : Except SyntaxError (List BoundName)}
    (hx : names? x' = names? x) (hmore : names? more' = names? more) :
    names? (do let bound ← x'; let names ← more'; .ok (bound ++ names)) =
      names? (do let bound ← x; let names ← more; .ok (bound ++ names)) := by
  refine names?_bind hx fun a a' ha => names?_bind hmore fun names names' hnames => ?_
  simp [names?, Except.toOption, ha, hnames]

mutual

lemma names?_elements (isObject : Bool) {after after' : Token} (hafter : after'.kind = after.kind)
    (state : ElementState) : ∀ trees, names? (namesInElements isObject after' state (bareAll trees)) =
      names? (namesInElements isObject after state trees)
  | [] => by
    rw [bareAll_nil]
    cases state <;> simp [namesInElements, names?, Except.toOption]
  | t :: rest => by
    have hrest := fun state => names?_elements isObject hafter state rest
    have htarget := names?_append (names?_target t) (hrest .done)
    rw [bareAll_cons]
    cases state with
    | start =>
      simp only [namesInElements, bare_isPunct, colonInElement_bare, bare_first]
      split
      · exact hrest .start
      · split
        · exact names?_cons (ahead_bare_name? hafter rest) (hrest .done)
        · split
          · split
            · exact hrest .target
            · split
              · exact hrest .key
              · exact names?_cons (bareToken_name? t.first) (hrest .done)
          · exact htarget
    | key =>
      simp only [namesInElements, bare_isPunct]
      exact hrest _
    | target =>
      simp only [namesInElements]
      exact htarget
    | done =>
      simp only [namesInElements, bare_isPunct]
      exact hrest _

lemma names?_target : ∀ t, names? (namesOfTarget (bare t)) = names? (namesOfTarget t)
  | leaf t => by
    rw [bare_leaf, namesOfTarget, namesOfTarget]
    unfold nameOfToken
    rw [bareToken_name?]
    cases t.name? <;> rfl
  | group opener inside closer => by
    have hinside := fun isObject => names?_elements isObject (bareToken_kind closer) .start inside
    rw [bare_group, namesOfTarget, namesOfTarget, bareToken_isPunct, bareToken_isPunct]
    split
    · exact hinside true
    · split
      · exact hinside false
      · rfl

end

/-! ## The same trees in other places -/

/-- The same tree in another place. -/
def Alike (t u : Tree) : Prop :=
  bare t = bare u

/-- The same tree in another place, with a line end before both or before neither. -/
structure Same (t u : Tree) : Prop where
  alike : Alike t u
  line : t.first.newlineBefore = u.first.newlineBefore

variable {t u : Tree} {after after' : Token}

lemma Alike.isPunct (h : Alike t u) (mark : String) : t.isPunct mark = u.isPunct mark := by
  rw [← bare_isPunct t, h, bare_isPunct]

lemma Alike.isWord (h : Alike t u) (word : String) : t.isWord word = u.isWord word := by
  rw [← bare_isWord t, h, bare_isWord]

lemma Alike.isGroup (h : Alike t u) (opener : String) : t.isGroup opener = u.isGroup opener := by
  rw [← bare_isGroup t, h, bare_isGroup]

lemma Alike.name? (h : Alike t u) : t.name? = u.name? := by
  rw [← bare_name? t, h, bare_name?]

lemma Alike.names? (h : Alike t u) : names? (namesOfTarget t) = names? (namesOfTarget u) := by
  rw [← names?_target t, h, names?_target]

/-- A statement in another place: a line end before it makes no difference. -/
inductive Copies : List Tree → List Tree → Prop
  | nil : Copies [] []
  | cons {t u : Tree} {trees copies : List Tree} (first : Alike t u)
      (more : List.Forall₂ Same trees copies) : Copies (t :: trees) (u :: copies)

/-! ## Outlines with the same names -/

/-- The same names are declared. -/
structure SameNames (o q : Outline) : Prop where
  lexical : o.lexicalNames = q.lexicalNames
  var : o.varNames = q.varNames

variable {o o' q : Outline}

lemma SameNames.refl (o : Outline) : SameNames o o :=
  ⟨rfl, rfl⟩

lemma SameNames.symm (h : SameNames o q) : SameNames q o :=
  ⟨h.lexical.symm, h.var.symm⟩

lemma SameNames.trans {r : Outline} (h : SameNames o q) (h' : SameNames q r) : SameNames o r :=
  ⟨h.lexical.trans h'.lexical, h.var.trans h'.var⟩

lemma sameNames_exportNames (o : Outline) (exported : Bool) (names : List BoundName) :
    SameNames (o.exportNames exported names) o := by
  cases exported
  · exact .refl o
  · exact ⟨rfl, rfl⟩

lemma sameNames_function (o : Outline) (f : LocalFunction) (exported : Bool)
    (names : List BoundName) : SameNames ((o.addFunction f).exportNames exported names) o :=
  (sameNames_exportNames (o.addFunction f) exported names).trans ⟨rfl, rfl⟩

lemma SameNames.declare {kind : Declaration} {bound bound' : BoundName} (h : SameNames o q)
    (hname : bound'.name = bound.name) (hread : o.declare kind bound = .ok o') :
    ∃ q', q.declare kind bound' = .ok q' ∧ SameNames o' q' := by
  obtain ⟨hlexical, hvar⟩ := h
  unfold Outline.declare at hread ⊢
  rw [hname, ← hlexical, ← hvar]
  cases kind with
  | lexical =>
    dsimp only at hread ⊢
    split at hread
    · cases hread
    · rename_i hclash
      cases hread
      rw [if_neg hclash]
      exact ⟨_, rfl, ⟨rfl, rfl⟩⟩
  | var =>
    dsimp only at hread ⊢
    split at hread
    · cases hread
    · rename_i hclash
      cases hread
      rw [if_neg hclash]
      exact ⟨_, rfl, ⟨rfl, rfl⟩⟩

lemma SameNames.declareAll {kind : Declaration} {names names' : List BoundName}
    (h : SameNames o q) (hnames : names'.map BoundName.name = names.map BoundName.name)
    (hread : o.declareAll kind names = .ok o') :
    ∃ q', q.declareAll kind names' = .ok q' ∧ SameNames o' q' := by
  unfold Outline.declareAll at hread ⊢
  induction names generalizing names' o q with
  | nil =>
    obtain rfl := List.map_eq_nil_iff.mp hnames
    cases hread
    exact ⟨q, rfl, h⟩
  | cons bound rest ih =>
    obtain ⟨bound', rest', rfl, hbound, hrest⟩ := List.map_eq_cons_iff.mp hnames
    rw [List.foldlM_cons] at hread
    obtain ⟨o₁, hfirst, hmore⟩ := bind_ok hread
    obtain ⟨q₁, hfirst', hq₁⟩ := h.declare hbound hfirst
    obtain ⟨q', hmore', hq'⟩ := ih hq₁ hrest hmore
    refine ⟨q', ?_, hq'⟩
    rw [List.foldlM_cons, hfirst']
    exact hmore'

end TaskRunner.Proofs
