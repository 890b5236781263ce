import TaskRunner.Proofs.LoweredText
import TaskRunner.Proofs.StatementList

/-!
# Complaints about tokens

A reader of trees that fails complains about one of the tokens that it was given: about a token in a wrong
place, or about a name that has already been declared. No reader looks at what has been read before.
-/

namespace TaskRunner.Proofs
open Source Tree

/-! ## Complaints -/

/-- The complaint is about the token: it is in a wrong place, or its name has already been declared. -/
def Blames (t : Token) (e : SyntaxError) : Prop :=
  e = unexpected t ∨ ∃ name, t.nameOrText? = some name ∧ e = ⟨.duplicateDeclaration name, t.place⟩

/-- The computation gives what it should, or it complains about one of the tokens. -/
def Blaming {α : Type} (tokens : List Token) (P : α → Prop) : Except SyntaxError α → Prop
  | .ok a => P a
  | .error e => ∃ t ∈ tokens, Blames t e

/-- The tokens of the trees are among the given ones. -/
def Among (tokens : List Token) (trees : List Tree) : Prop :=
  tokensOfAll trees ⊆ tokens

/-- The name stands at one of the tokens. -/
def Names (tokens : List Token) (bound : BoundName) : Prop :=
  bound.token ∈ tokens ∧ bound.token.nameOrText? = some bound.name

lemma Blames.place {t : Token} {e : SyntaxError} (h : Blames t e) : e.place = t.place := by
  rcases h with rfl | ⟨name, -, rfl⟩
  · unfold unexpected
    split <;> rfl
  · rfl

section
variable {α β : Type} {tokens : List Token} {P : α → Prop} {Q : β → Prop}

lemma Blaming.bind {x : Except SyntaxError α} {f : α → Except SyntaxError β} (h : Blaming tokens P x)
    (hf : ∀ a, P a → Blaming tokens Q (f a)) : Blaming tokens Q (x >>= f) := by
  cases x with
  | error e => exact h
  | ok a => exact hf a h

lemma Blaming.map {x : Except SyntaxError α} {f : α → β} (h : Blaming tokens P x)
    (hf : ∀ a, P a → Q (f a)) : Blaming tokens Q (x.map f) := by
  cases x with
  | error e => exact h
  | ok a => exact hf a h

lemma blaming_unexpected {t : Token} (h : t ∈ tokens) :
    Blaming tokens P (.error (unexpected t)) :=
  ⟨t, h, .inl rfl⟩

end

section
variable {tokens : List Token} {trees behind part : List Tree} {t : Tree} {after : Token}

lemma Among.suffix (h : Among tokens trees) (hsuffix : behind <:+ trees) : Among tokens behind := by
  obtain ⟨front, rfl⟩ := hsuffix
  intro t ht
  exact h (by rw [tokensOfAll_append]; exact List.mem_append_right _ ht)

lemma Among.tail (h : Among tokens trees) : Among tokens trees.tail :=
  h.suffix (List.tail_suffix trees)

lemma Among.first (h : Among tokens (t :: behind)) : t.first ∈ tokens := by
  obtain ⟨more, hfirst⟩ := tokens_first t
  exact h (by simp [hfirst])

lemma Among.head (h : Among tokens (t :: behind)) : t.tokens ⊆ tokens :=
  fun _ ht => h (by rw [tokensOfAll_cons]; exact List.mem_append_left _ ht)

lemma Among.ahead (h : Among tokens trees) (hafter : after ∈ tokens) : ahead after trees ∈ tokens := by
  cases trees with
  | nil => exact hafter
  | cons t rest => exact h.first

lemma Among.group {opener closer : Token} {inside : List Tree}
    (h : Among tokens (.group opener inside closer :: behind)) :
    opener ∈ tokens ∧ Among tokens inside ∧ closer ∈ tokens :=
  ⟨h (by simp), fun t ht => h (by simp [ht]), h (by simp)⟩

lemma Among.inside {mark : String} {inside : List Tree} {closer : Token}
    (h : Among tokens (t :: behind)) (hinside : t.inside? mark = some (inside, closer)) :
    Among tokens inside ∧ closer ∈ tokens := by
  cases t with
  | leaf token => cases hinside
  | group opener trees last =>
    simp only [Tree.inside?] at hinside
    split at hinside
    · cases hinside
      exact h.group.2
    · cases hinside

lemma Among.mem (h : Among tokens trees) (ht : t ∈ trees) : Among tokens [t] := by
  obtain ⟨front, rest, rfl⟩ := List.append_of_mem ht
  intro u hu
  refine h ?_
  rw [tokensOfAll_append, tokensOfAll_cons]
  rw [tokensOfAll_cons, tokensOfAll_nil, List.append_nil] at hu
  exact List.mem_append_right _ (List.mem_append_left _ hu)

lemma Among.parts (h : Among tokens trees) (hpart : ∀ t ∈ part, t ∈ trees) : Among tokens part := by
  induction part with
  | nil => exact List.nil_subset _
  | cons t part ih =>
    obtain ⟨ht, hpart⟩ := List.forall_mem_cons.mp hpart
    rw [Among, tokensOfAll_cons]
    exact List.append_subset.mpr ⟨(h.mem ht).head, ih hpart⟩

end

/-! ## Names -/

section
variable {tokens : List Token}

lemma nameOrText?_of_name? {t : Token} {name : String} (h : t.name? = some name) :
    t.nameOrText? = some name := by
  unfold Token.name? at h
  unfold Token.nameOrText?
  split at h
  · rename_i hkind
    rw [hkind]
    exact h
  · cases h

lemma nameOfToken_blaming {t : Token} (h : t ∈ tokens) :
    Blaming tokens (Names tokens) (nameOfToken t) := by
  unfold nameOfToken
  split
  · exact ⟨h, nameOrText?_of_name? ‹_›⟩
  · exact blaming_unexpected h

lemma blaming_cons {t : Token} {more : Except SyntaxError (List BoundName)} (ht : t ∈ tokens)
    (hmore : Blaming tokens (fun names => ∀ bound ∈ names, Names tokens bound) more) :
    Blaming tokens (fun names => ∀ bound ∈ names, Names tokens bound)
      (do let bound ← nameOfToken t; let names ← more; .ok (bound :: names)) := by
  exact (nameOfToken_blaming ht).bind fun bound hbound => hmore.bind fun names hnames =>
    List.forall_mem_cons.mpr ⟨hbound, hnames⟩

lemma blaming_append {target more : Except SyntaxError (List BoundName)}
    (htarget : Blaming tokens (fun names => ∀ bound ∈ names, Names tokens bound) target)
    (hmore : Blaming tokens (fun names => ∀ bound ∈ names, Names tokens bound) more) :
    Blaming tokens (fun names => ∀ bound ∈ names, Names tokens bound)
      (do let names ← target; let others ← more; .ok (names ++ others)) := by
  exact htarget.bind fun names hnames => hmore.bind fun others hothers =>
    List.forall_mem_append.mpr ⟨hnames, hothers⟩

mutual

lemma namesInElements_blaming (isObject : Bool) {after : Token} (hafter : after ∈ tokens)
    (state : ElementState) :
    ∀ trees, Among tokens trees →
      Blaming tokens (fun names => ∀ bound ∈ names, Names tokens bound)
        (namesInElements isObject after state trees)
  | [], _ => by
    cases state with
    | target =>
      rw [namesInElements]
      exact blaming_unexpected hafter
    | start | key | done =>
      rw [namesInElements]
      exact List.forall_mem_nil _
  | t :: rest, h => by
    have hrest := fun state => namesInElements_blaming isObject hafter state rest h.tail
    have htarget := blaming_append (namesOfTarget_blaming t h.head) (hrest .done)
    cases state with
    | start =>
      simp only [namesInElements]
      split
      · exact hrest .start
      · split
        · exact blaming_cons (h.tail.ahead hafter) (hrest .done)
        · split
          · split
            · exact hrest .target
            · split
              · exact hrest .key
              · exact blaming_cons h.first (hrest .done)
          · exact htarget
    | key =>
      simp only [namesInElements]
      exact hrest _
    | target =>
      simp only [namesInElements]
      exact htarget
    | done =>
      simp only [namesInElements]
      exact hrest _

lemma namesOfTarget_blaming : ∀ t : Tree, t.tokens ⊆ tokens →
    Blaming tokens (fun names => ∀ bound ∈ names, Names tokens bound) (namesOfTarget t)
  | leaf t, h => by
    rw [namesOfTarget]
    exact (nameOfToken_blaming (h (by simp))).map fun bound hbound =>
      List.forall_mem_singleton.mpr hbound
  | group opener inside closer, h => by
    have hamong : Among tokens inside := fun t ht => h (by simp [ht])
    have hopener : opener ∈ tokens := h (by simp)
    have hcloser : closer ∈ tokens := h (by simp)
    have hinside := fun isObject => namesInElements_blaming isObject hcloser .start inside hamong
    rw [namesOfTarget]
    split
    · exact hinside true
    · split
      · exact hinside false
      · exact blaming_unexpected hopener

end

lemma declare_blaming {o : Outline} {kind : Declaration} {bound : BoundName}
    (h : Names tokens bound) : Blaming tokens (fun _ => True) (o.declare kind bound) := by
  cases kind <;>
  · unfold Outline.declare
    dsimp only
    split
    · exact ⟨bound.token, h.1, .inr ⟨bound.name, h.2, rfl⟩⟩
    · trivial

lemma declareAll_blaming {o : Outline} {kind : Declaration} {names : List BoundName}
    (h : ∀ bound ∈ names, Names tokens bound) :
    Blaming tokens (fun _ => True) (o.declareAll kind names) := by
  unfold Outline.declareAll
  induction names generalizing o with
  | nil => trivial
  | cons bound names ih =>
    rw [List.foldlM_cons]
    exact (declare_blaming (h bound List.mem_cons_self)).bind fun o' _ =>
      ih fun bound hbound => h bound (List.mem_cons_of_mem _ hbound)

end

/-! ## Declarations -/

section
variable {tokens : List Token} {after : Token} {trees : List Tree} {o : Outline}

lemma functionTail_blaming (hafter : after ∈ tokens) (h : Among tokens trees) :
    Blaming tokens (fun found => Among tokens found.2.2) (functionTail after trees) := by
  unfold functionTail
  split
  · exact blaming_unexpected hafter
  · rename_i t rest
    split
    · exact blaming_unexpected h.first
    · split
      · exact blaming_unexpected hafter
      · rename_i b rest
        split
        · exact blaming_unexpected h.tail.first
        · exact h.tail.tail

lemma functionDeclaration_blaming {leading : List Comment} {exported : Bool} (hafter : after ∈ tokens)
    (h : Among tokens trees) : Blaming tokens (fun found => Among tokens found.2)
      (functionDeclaration after leading exported o trees) := by
  have hasync := h.suffix (dropWord_suffix "async" trees)
  unfold functionDeclaration
  dsimp only
  split
  · have hname := hasync.tail.suffix (dropPunct_suffix "*" (dropWord "async" trees).tail)
    refine (nameOfToken_blaming (hname.ahead hafter)).bind fun bound hbound => ?_
    refine (functionTail_blaming hafter hname.tail).bind ?_
    rintro ⟨params, body, rest⟩ hrest
    exact (declare_blaming hbound).bind fun o' _ => hrest
  · exact blaming_unexpected (hasync.ahead hafter)

lemma pastClassBody_blaming (hafter : after ∈ tokens) (h : Among tokens trees) :
    Blaming tokens (Among tokens) (pastClassBody after trees) := by
  induction trees with
  | nil => exact blaming_unexpected hafter
  | cons t rest ih =>
    rw [pastClassBody]
    split
    · exact h.tail
    · exact ih h.tail

lemma classDeclaration_blaming {exported : Bool} (hafter : after ∈ tokens) (h : Among tokens trees) :
    Blaming tokens (fun found => Among tokens found.2) (classDeclaration after exported o trees) := by
  unfold classDeclaration
  refine (nameOfToken_blaming (h.tail.ahead hafter)).bind fun bound hbound => ?_
  refine (pastClassBody_blaming hafter h.tail.tail).bind fun rest hrest => ?_
  exact (declare_blaming hbound).bind fun o' _ => hrest

lemma declaratorTarget_blaming (hafter : after ∈ tokens) (h : Among tokens trees) :
    Blaming tokens (fun found => (∀ bound ∈ found.2.1, Names tokens bound) ∧ Among tokens found.2.2)
      (declaratorTarget after trees) := by
  unfold declaratorTarget
  split
  · exact blaming_unexpected hafter
  · rename_i t rest
    split
    · exact (nameOfToken_blaming h.first).bind fun bound hbound =>
        ⟨List.forall_mem_singleton.mpr hbound, h.tail⟩
    · exact (namesOfTarget_blaming _ h.head).bind fun names hnames => ⟨hnames, h.tail⟩

lemma declarators_blaming {kind : Declaration} {leading : List Comment} {exported : Bool} {fuel : Nat}
    (hafter : after ∈ tokens) (h : Among tokens trees) : Blaming tokens (fun found => Among tokens found.2)
      (declarators after kind leading exported fuel o trees) := by
  induction fuel generalizing o trees with
  | zero => exact h
  | succ fuel ih =>
    rw [declarators]
    refine (declaratorTarget_blaming hafter h).bind ?_
    rintro ⟨single, names, left⟩ ⟨hnames, hleft⟩
    refine (declareAll_blaming hnames).bind fun o' _ => ?_
    have hcut := (hleft.tail).suffix (cutExpression_suffix after true none left.tail)
    have hmore : ∀ o₂ rest, Among tokens rest → Blaming tokens (fun found => Among tokens found.2)
        (if startsWithPunct rest "," then
          declarators after kind leading exported fuel o₂ rest.tail
        else .ok (o₂, pastSemicolon rest)) := by
      intro o₂ rest hrest
      split
      · exact ih hrest.tail
      · exact hrest.suffix (pastSemicolon_suffix rest)
    by_cases hvalue : startsWithPunct left "=" = true
    · simp only [hvalue, if_true]
      exact hmore _ _ hcut
    · simp only [hvalue]
      exact hmore _ _ hleft

lemma variableDeclaration_blaming {leading : List Comment} {exported : Bool} (hafter : after ∈ tokens)
    (h : Among tokens trees) : Blaming tokens (fun found => Among tokens found.2)
      (variableDeclaration after leading exported o trees) :=
  declarators_blaming hafter h.tail

end

/-! ## Imports and exports -/

section
variable {tokens : List Token} {after : Token} {trees : List Tree} {o : Outline}

/-- An element of a list and what comes behind it. -/
lemma elements_blaming {α : Type} {Q : List α → Prop} {element : α} {left : List Tree}
    {more : Except SyntaxError (List α)} (hafter : after ∈ tokens) (hleft : Among tokens left)
    (hlast : Q [element]) (hnext : ∀ elements, Q elements → Q (element :: elements))
    (hmore : Blaming tokens Q more) :
    Blaming tokens Q
      (if startsWithPunct left "," then do
        let elements ← more
        .ok (element :: elements)
      else if left.isEmpty then .ok [element]
      else .error (unexpected (ahead after left))) := by
  split
  · exact hmore.bind hnext
  · split
    · exact hlast
    · exact blaming_unexpected (hleft.ahead hafter)

lemma importElements_blaming {fuel : Nat} (hafter : after ∈ tokens) (h : Among tokens trees) :
    Blaming tokens (fun elements => ∀ element ∈ elements, Names tokens element.2)
      (importElements after fuel trees) := by
  induction fuel generalizing trees with
  | zero => exact List.forall_mem_nil _
  | succ fuel ih =>
    cases trees with
    | nil => exact List.forall_mem_nil _
    | cons t rest =>
      rw [importElements]
      split
      · rename_i imported hname
        rw [ok_bind]
        dsimp only
        split
        · refine (nameOfToken_blaming (h.tail.tail.ahead hafter)).bind fun bound hbound => ?_
          have hleft := h.tail.tail.tail
          exact elements_blaming hafter hleft (List.forall_mem_singleton.mpr hbound)
            (fun _ helements => List.forall_mem_cons.mpr ⟨hbound, helements⟩) (ih hleft.tail)
        · have hbound : Names tokens ⟨imported, t.first⟩ := ⟨h.first, hname⟩
          exact elements_blaming hafter h.tail (List.forall_mem_singleton.mpr hbound)
            (fun _ helements => List.forall_mem_cons.mpr ⟨hbound, helements⟩) (ih h.tail.tail)
      · exact blaming_unexpected h.first

lemma defaultImport_names (h : Among tokens trees) :
    (∀ element ∈ (defaultImport trees).1, Names tokens element.2) ∧
      Among tokens (defaultImport trees).2 := by
  have hnone : (∀ element ∈ ([] : List (ImportBinding × BoundName)), Names tokens element.2) ∧
      Among tokens trees := ⟨List.forall_mem_nil _, h⟩
  unfold defaultImport
  split
  · rename_i t rest
    split
    · rename_i name hname
      split
      · exact ⟨List.forall_mem_singleton.mpr ⟨h.first, nameOrText?_of_name? hname⟩,
          h.tail.suffix (dropPunct_suffix "," rest)⟩
      · exact hnone
    · exact hnone
  · exact hnone

lemma importClause_blaming (hafter : after ∈ tokens) (h : Among tokens trees) :
    Blaming tokens (fun found => (∀ element ∈ found.1, Names tokens element.2) ∧ Among tokens found.2)
      (importClause after trees) := by
  obtain ⟨hdefaults, hbehind⟩ := defaultImport_names h
  unfold importClause
  generalize defaultImport trees = found at hdefaults hbehind ⊢
  obtain ⟨defaults, left⟩ := found
  have hmore : ∀ (others : List (ImportBinding × BoundName)) rest,
      (∀ element ∈ others, Names tokens element.2) → Among tokens rest →
      Blaming tokens (fun found => (∀ element ∈ found.1, Names tokens element.2) ∧ Among tokens found.2)
        (if rest.length = trees.length || !startsWithWord rest "from" then
          .error (unexpected (ahead after rest))
        else .ok (defaults ++ others, rest.tail)) := by
    intro others rest hothers hrest
    split
    · exact blaming_unexpected (hrest.ahead hafter)
    · exact ⟨List.forall_mem_append.mpr ⟨hdefaults, hothers⟩, hrest.tail⟩
  dsimp only at hbehind ⊢
  split
  · exact hmore [] [] (List.forall_mem_nil _) hbehind
  · rename_i t rest
    split
    · split
      · refine (nameOfToken_blaming (hbehind.tail.tail.ahead hafter)).bind fun bound hbound => ?_
        exact hmore [(.whole bound.name, bound)] _ (List.forall_mem_singleton.mpr hbound)
          hbehind.tail.tail.tail
      · exact blaming_unexpected (hbehind.tail.ahead hafter)
    · split
      · rename_i inside closer hinside
        obtain ⟨hamong, hcloser⟩ := hbehind.inside hinside
        exact (importElements_blaming hcloser hamong).bind fun elements helements =>
          hmore elements _ helements hbehind.tail
      · exact hmore [] _ (List.forall_mem_nil _) hbehind

/-- What stands behind the names of an import declaration. -/
lemma importSource_blaming {bindings : List (ImportBinding × BoundName)} {rest : List Tree}
    (hafter : after ∈ tokens) (hbindings : ∀ element ∈ bindings, Names tokens element.2)
    (hrest : Among tokens rest) : Blaming tokens (fun found => Among tokens found.2)
      (match (ahead after rest).text? with
      | none => .error (unexpected (ahead after rest))
      | some source => do
        let behind := pastSemicolon (pastAttributes rest.tail)
        let o ← o.declareAll .lexical (bindings.map (·.2))
        let replacement := importReplacement source (bindings.map (·.1))
        .ok (o.addEdit (spanOf (consumed trees behind)) replacement, behind)) := by
  split
  · exact blaming_unexpected (hrest.ahead hafter)
  · have hnames : ∀ bound ∈ bindings.map (·.2), Names tokens bound := by
      intro bound hbound
      obtain ⟨element, helement, rfl⟩ := List.mem_map.mp hbound
      exact hbindings element helement
    obtain ⟨attributes, hattributes, -⟩ := pastAttributes_part rest.tail
    refine (declareAll_blaming hnames).bind fun o' _ => ?_
    exact (hrest.tail.suffix ⟨attributes, hattributes.symm⟩).suffix (pastSemicolon_suffix _)

lemma importDeclaration_blaming (hafter : after ∈ tokens) (h : Among tokens trees) :
    Blaming tokens (fun found => Among tokens found.2) (importDeclaration after o trees) := by
  unfold importDeclaration
  dsimp only
  split
  · exact importSource_blaming hafter (List.forall_mem_nil _) h.tail
  · refine (importClause_blaming hafter h.tail).bind ?_
    rintro ⟨bindings, rest⟩ ⟨hbindings, hrest⟩
    exact importSource_blaming hafter hbindings hrest

lemma exportElements_blaming {fuel : Nat} (hafter : after ∈ tokens) (h : Among tokens trees) :
    Blaming tokens (fun _ => True) (exportElements after fuel trees) := by
  induction fuel generalizing trees with
  | zero => trivial
  | succ fuel ih =>
    cases trees with
    | nil => trivial
    | cons t rest =>
      rw [exportElements]
      split
      · rw [ok_bind]
        dsimp only
        split
        · split
          · exact elements_blaming hafter h.tail.tail.tail trivial (fun _ _ => trivial)
              (ih h.tail.tail.tail.tail)
          · exact blaming_unexpected (h.tail.tail.ahead hafter)
        · exact elements_blaming hafter h.tail trivial (fun _ _ => trivial) (ih h.tail.tail)
      · exact blaming_unexpected h.first

lemma exportList_blaming {inside : List Tree} {closer : Token} (hafter : after ∈ tokens)
    (h : Among tokens trees) (hinside : Among tokens inside) (hcloser : closer ∈ tokens) :
    Blaming tokens (fun found => Among tokens found.2) (exportList after o trees inside closer) := by
  unfold exportList
  refine (exportElements_blaming hcloser hinside).bind fun entries _ => ?_
  have hrest := h.suffix (List.drop_suffix 2 trees)
  dsimp only
  split
  · split
    · exact (hrest.suffix (List.drop_suffix 2 _)).suffix (pastSemicolon_suffix _)
    · exact blaming_unexpected (hrest.tail.ahead hafter)
  · exact hrest.suffix (pastSemicolon_suffix _)

lemma exportDefault_blaming {leading : List Comment} (hafter : after ∈ tokens)
    (h : Among tokens trees) : Blaming tokens (fun found => Among tokens found.2)
      (exportDefault after leading o trees) := by
  have hrest := h.suffix (List.drop_suffix 2 trees)
  unfold exportDefault
  dsimp only
  split
  · exact functionDeclaration_blaming hafter hrest
  · split
    · exact classDeclaration_blaming hafter hrest
    · exact hrest.suffix (pastStatement_suffix after _)

lemma exportDeclaration_blaming (hafter : after ∈ tokens) (h : Among tokens trees) :
    Blaming tokens (fun found => Among tokens found.2) (exportDeclaration after o trees) := by
  unfold exportDeclaration
  split
  · rename_i keyword t rest
    have hrest : Among tokens (t :: rest) := h.tail
    dsimp only
    split
    · exact exportDefault_blaming hafter h
    · split
      · exact functionDeclaration_blaming hafter hrest
      · split
        · exact variableDeclaration_blaming hafter hrest
        · split
          · exact classDeclaration_blaming hafter hrest
          · split
            · have hbehind := hrest.suffix (pastStatement_suffix after (t :: rest))
              exact hbehind
            · split
              · rename_i inside closer hinside
                obtain ⟨hamong, hcloser⟩ := hrest.inside hinside
                exact exportList_blaming hafter h hamong hcloser
              · exact blaming_unexpected hrest.first
  · exact blaming_unexpected hafter

/-! ## Statements -/

lemma statement_blaming (hafter : after ∈ tokens) (h : Among tokens trees) :
    Blaming tokens (fun found => Among tokens found.2) (statement after o trees) := by
  unfold statement
  dsimp only
  split
  · exact importDeclaration_blaming hafter h
  · split
    · exact exportDeclaration_blaming hafter h
    · split
      · exact functionDeclaration_blaming hafter h
      · split
        · exact variableDeclaration_blaming hafter h
        · split
          · exact classDeclaration_blaming hafter h
          · exact h.suffix (pastStatement_suffix after trees)

end

end TaskRunner.Proofs
