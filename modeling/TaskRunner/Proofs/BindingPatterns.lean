import Mathlib.Data.List.Nodup
import TaskRunner.Proofs.IndexedPatterns
import TaskRunner.Proofs.ReaderComplaints
import TaskRunner.Proofs.StatementList

/-!
# Binding patterns

A binding pattern is an identifier, or an object or a list of elements with keys, defaults and patterns of
their own. Its names are read right if and only if no default behind a bare name has a colon outside of
brackets, and what takes the rest of a list is an identifier; otherwise one of the names is missing. A
declaration whose patterns are read right declares and exports exactly their names.
-/

namespace TaskRunner.Proofs
open Source Tree

/-! ## Forms of patterns -/

/-- A form that stands in a pattern. -/
inductive PatternForm where
  | target (t : Tree)
  /-- An item of a list, or what stands behind a key. -/
  | item (part : List Tree)
  | property (part : List Tree)
  | items (inside : List Tree)
  | properties (inside : List Tree)

/-- The trees of a form. -/
def PatternForm.trees : PatternForm → List Tree
  | target t => [t]
  | item part | property part => part
  | items inside | properties inside => inside

/-- A key of a property: a name, a text, a number, or an expression in brackets. -/
def IsKey : Tree → Prop
  | .leaf t => t.nameOrText?.isSome ∨ ∃ x, t.kind = .number x
  | .group opener _ _ => opener.isPunct "[" = true

/-- An expression that a comma would end: whatever is balanced. -/
structure IsDefault (value : List Tree) : Prop where
  nonempty : value ≠ []
  commaFree : CommaFree value

/-- A form of a pattern binds names, in the order of the source. It is clear if no default behind a bare
name has a colon outside of brackets, and only identifiers take the rest of lists. -/
inductive Binds : PatternForm → List BoundName → Bool → Prop
  | name {t : Token} {name : String} (isName : t.name? = some name) :
      Binds (.target (.leaf t)) [⟨name, t⟩] true
  | object {opener closer : Token} {inside : List Tree} {names : List BoundName} {clear : Bool}
      (isBrace : opener.isPunct "\x7b" = true) (elements : Binds (.properties inside) names clear) :
      Binds (.target (.group opener inside closer)) names clear
  | list {opener closer : Token} {inside : List Tree} {names : List BoundName} {clear : Bool}
      (isBracket : opener.isPunct "[" = true) (elements : Binds (.items inside) names clear) :
      Binds (.target (.group opener inside closer)) names clear
  | plain {t : Tree} {names : List BoundName} {clear : Bool} (target : Binds (.target t) names clear) :
      Binds (.item [t]) names clear
  | withDefault {t : Tree} {equals : Token} {value : List Tree} {names : List BoundName} {clear : Bool}
      (target : Binds (.target t) names clear) (isEquals : equals.isPunct "=" = true)
      (default : IsDefault value) : Binds (.item (t :: .leaf equals :: value)) names clear
  | shorthand {t : Token} {name : String} (isName : t.name? = some name) :
      Binds (.property [.leaf t]) [⟨name, t⟩] true
  | shorthandDefault {t equals : Token} {name : String} {value : List Tree}
      (isName : t.name? = some name) (isEquals : equals.isPunct "=" = true)
      (default : IsDefault value) :
      Binds (.property (.leaf t :: .leaf equals :: value)) [⟨name, t⟩]
        (!value.any fun v => v.isPunct ":")
  | renamed {key : Tree} {colon : Token} {part : List Tree} {names : List BoundName} {clear : Bool}
      (isKey : IsKey key) (isColon : colon.isPunct ":" = true) (value : Binds (.item part) names clear) :
      Binds (.property (key :: .leaf colon :: part)) names clear
  | noItem : Binds (.items []) [] true
  | hole {comma : Token} {inside : List Tree} {names : List BoundName} {clear : Bool}
      (isComma : comma.isPunct "," = true) (more : Binds (.items inside) names clear) :
      Binds (.items (.leaf comma :: inside)) names clear
  | lastItem {part : List Tree} {names : List BoundName} {clear : Bool}
      (item : Binds (.item part) names clear) : Binds (.items part) names clear
  | nextItem {part inside : List Tree} {comma : Token} {names names' : List BoundName}
      {clear clear' : Bool} (item : Binds (.item part) names clear) (isComma : comma.isPunct "," = true)
      (more : Binds (.items inside) names' clear') :
      Binds (.items (part ++ .leaf comma :: inside)) (names ++ names') (clear && clear')
  | restItem {dots : Token} {t : Tree} {names : List BoundName} {clear : Bool}
      (isDots : dots.isPunct "..." = true) (target : Binds (.target t) names clear) :
      Binds (.items [.leaf dots, t]) names t.name?.isSome
  | noProperty : Binds (.properties []) [] true
  | lastProperty {part : List Tree} {names : List BoundName} {clear : Bool}
      (property : Binds (.property part) names clear) : Binds (.properties part) names clear
  | nextProperty {part inside : List Tree} {comma : Token} {names names' : List BoundName}
      {clear clear' : Bool} (property : Binds (.property part) names clear)
      (isComma : comma.isPunct "," = true) (more : Binds (.properties inside) names' clear') :
      Binds (.properties (part ++ .leaf comma :: inside)) (names ++ names') (clear && clear')
  | restProperty {dots t : Token} {name : String} (isDots : dots.isPunct "..." = true)
      (isName : t.name? = some name) : Binds (.properties [.leaf dots, .leaf t]) [⟨name, t⟩] true

variable {form : PatternForm} {names names' : List BoundName} {clear : Bool} {t : Tree}
  {part inside : List Tree}

/-- A pattern binds names of its own tokens: in the order of the source, and each token once. -/
lemma Binds.names_sublist (h : Binds form names clear) :
    (names.map BoundName.token).Sublist (tokensOfAll form.trees) := by
  induction h with
  | name isName | shorthand isName | shorthandDefault isName isEquals default =>
    simp [PatternForm.trees]
  | restProperty isDots isName => simp [PatternForm.trees]
  | noItem | noProperty => exact List.nil_sublist _
  | object isBrace elements ih | list isBracket elements ih =>
    simp only [PatternForm.trees, tokensOfAll_cons, tokens_group, tokensOfAll_nil, List.append_nil]
    exact (List.sublist_append_of_sublist_left ih).cons _
  | plain target ih => exact ih
  | withDefault target isEquals default ih =>
    simp only [PatternForm.trees, tokensOfAll_cons, tokensOfAll_nil, List.append_nil] at ih ⊢
    exact List.sublist_append_of_sublist_left ih
  | renamed isKey isColon value ih =>
    simp only [PatternForm.trees, tokensOfAll_cons] at ih ⊢
    exact List.sublist_append_of_sublist_right (List.sublist_append_of_sublist_right ih)
  | hole isComma value ih | restItem isDots value ih =>
    simp only [PatternForm.trees, tokensOfAll_cons] at ih ⊢
    exact List.sublist_append_of_sublist_right ih
  | lastItem value ih | lastProperty value ih => exact ih
  | nextItem value isComma more ih ih' | nextProperty value isComma more ih ih' =>
    simp only [PatternForm.trees, tokensOfAll_append, tokensOfAll_cons] at ih ih' ⊢
    rw [List.map_append]
    exact ih.append (List.sublist_append_of_sublist_right ih')

lemma Binds.names_mem (h : Binds form names clear) :
    ∀ bound ∈ names, bound.token ∈ tokensOfAll form.trees :=
  fun _ hbound => h.names_sublist.subset (List.mem_map_of_mem hbound)

lemma isPunct_of_name {t : Token} {name : String} (h : t.name? = some name) (mark : String) :
    (leaf t).isPunct mark = false := by
  cases hmark : (leaf t).isPunct mark with
  | false => rfl
  | true =>
    have hkind : t.kind = .punct mark := by simpa [Tree.isPunct, Token.isPunct] using hmark
    simp [Token.name?, hkind] at h

lemma Binds.target_isPunct (h : Binds (.target t) names clear) (mark : String) :
    t.isPunct mark = false := by
  cases h with
  | name isName => exact isPunct_of_name isName mark
  | object | list => rfl

lemma IsKey.isPunct {key : Tree} (h : IsKey key) (mark : String) : key.isPunct mark = false := by
  cases key with
  | group => rfl
  | leaf t =>
    cases hmark : (leaf t).isPunct mark with
    | false => rfl
    | true =>
      have hkind : t.kind = .punct mark := by simpa [Tree.isPunct, Token.isPunct] using hmark
      simp [IsKey, Token.nameOrText?, hkind] at h

lemma Binds.item_commaFree (h : Binds (.item part) names clear) : CommaFree part := by
  cases h with
  | plain target => exact commaFree_cons.mpr ⟨target.target_isPunct ",", commaFree_nil⟩
  | withDefault target isEquals default =>
    exact commaFree_cons.mpr ⟨target.target_isPunct ",",
      commaFree_cons.mpr ⟨isPunct_other isEquals (by decide), default.commaFree⟩⟩

lemma Binds.property_commaFree (h : Binds (.property part) names clear) : CommaFree part := by
  cases h with
  | shorthand isName => exact commaFree_cons.mpr ⟨isPunct_of_name isName ",", commaFree_nil⟩
  | shorthandDefault isName isEquals default =>
    exact commaFree_cons.mpr ⟨isPunct_of_name isName ",",
      commaFree_cons.mpr ⟨isPunct_other isEquals (by decide), default.commaFree⟩⟩
  | renamed isKey isColon value =>
    exact commaFree_cons.mpr ⟨isKey.isPunct ",",
      commaFree_cons.mpr ⟨isPunct_other isColon (by decide), value.item_commaFree⟩⟩

lemma cutAt_eq_none_iff {mark : String} {trees : List Tree} :
    cutAt mark trees = none ↔ (trees.any fun t => t.isPunct mark) = false := by
  induction trees with
  | nil => simp [cutAt]
  | cons t rest ih =>
    rw [cutAt, List.any_cons]
    cases t.isPunct mark <;> simp [ih]

/-! ## Reading a form -/

/-- What the names of a form are read as, with a token behind it. -/
def PatternForm.read (behind : Token) : PatternForm → Except SyntaxError (List BoundName)
  | target t => namesOfTarget t
  | item part => namesInPart false behind part
  | property part => namesInPart true behind part
  | items inside => namesInElements false behind .start inside
  | properties inside => namesInElements true behind .start inside

variable {behind : Token}

/-- An item is read as its target. -/
lemma Binds.item_read (h : Binds (.item part) names clear) (behind : Token) :
    ∃ t rest, part = t :: rest ∧
      (PatternForm.item part).read behind = (PatternForm.target t).read behind := by
  cases h with
  | plain target | withDefault target =>
    refine ⟨_, _, rfl, ?_⟩
    rw [PatternForm.read, PatternForm.read, namesInPart, target.target_isPunct, if_neg Bool.false_ne_true,
      if_neg Bool.false_ne_true]

/-- A property with a key is read as what stands behind its colon. -/
lemma Binds.renamed_read {key : Tree} {colon : Token} (isKey : IsKey key)
    (isColon : colon.isPunct ":" = true) (value : Binds (.item part) names clear) :
    (PatternForm.property (key :: .leaf colon :: part)).read behind =
      (PatternForm.item part).read behind := by
  obtain ⟨t, rest, rfl, hread⟩ := value.item_read behind
  have hcolon : (leaf colon).isPunct ":" = true := isColon
  rw [hread, PatternForm.read, PatternForm.read, namesInPart, isKey.isPunct,
    if_neg Bool.false_ne_true, if_pos rfl, cutAt, isKey.isPunct, if_neg Bool.false_ne_true, cutAt, if_pos hcolon]
  rfl

/-- The last part of a pattern is read alone. -/
lemma read_last (isObject : Bool) (h : CommaFree part) :
    namesInElements isObject behind .start part = namesInPart isObject behind part := by
  have hread := namesInElements_part isObject behind h (.inl rfl)
  rw [List.append_nil] at hread
  rw [hread, namesBefore]
  have hdone : namesInElements isObject behind .done [] = .ok [] := by rw [namesInElements]
  rw [hdone]
  change (namesInPart isObject behind part >>= fun bound => .ok (bound ++ [])) = _
  cases namesInPart isObject behind part with
  | error e => rfl
  | ok bound => exact congrArg Except.ok (List.append_nil bound)

/-- Names that are read before others. -/
def readBefore (first more : Except SyntaxError (List BoundName)) : Except SyntaxError (List BoundName) := do
  let names ← first
  let others ← more
  .ok (names ++ others)

/-- A part of a pattern is read before what stands behind its comma. -/
lemma read_next (isObject : Bool) {comma : Token} (h : CommaFree part)
    (isComma : comma.isPunct "," = true) :
    namesInElements isObject behind .start (part ++ .leaf comma :: inside) =
      readBefore (namesInPart isObject comma part) (namesInElements isObject behind .start inside) := by
  have hcomma : (leaf comma).isPunct "," = true := isComma
  have hdone : namesInElements isObject behind .done (.leaf comma :: inside) =
      namesInElements isObject behind .start inside := by
    rw [namesInElements, if_pos hcomma]
  rw [namesInElements_part isObject behind h (.inr ⟨comma, inside, rfl, isComma⟩), namesBefore, hdone]
  rfl

/-- An identifier that takes the rest is read alone. -/
lemma read_rest (isObject : Bool) {dots t : Token} {name : String} (isDots : dots.isPunct "..." = true)
    (isName : t.name? = some name) :
    namesInElements isObject behind .start [.leaf dots, .leaf t] = .ok [⟨name, t⟩] := by
  have hdots : (leaf dots).isPunct "..." = true := isDots
  have hfree : CommaFree [leaf dots, leaf t] :=
    commaFree_cons.mpr ⟨isPunct_other hdots (by decide),
      commaFree_cons.mpr ⟨isPunct_of_name isName ",", commaFree_nil⟩⟩
  rw [read_last isObject hfree, namesInPart, if_pos hdots]
  simp [ahead, Tree.first, nameOfToken, isName, Except.map]

/-- A pattern without a misleading colon and without a pattern for the rest of a list is read right. -/
lemma Binds.read_clear (h : Binds form names clear) (hclear : clear = true) (behind : Token) :
    form.read behind = .ok names := by
  induction h generalizing behind with
  | name isName => simp [PatternForm.read, namesOfTarget, nameOfToken, isName, Except.map]
  | @object opener closer _ _ _ isBrace elements ih =>
    rw [PatternForm.read, namesOfTarget, if_pos isBrace]
    exact ih hclear closer
  | @list opener closer _ _ _ isBracket elements ih =>
    have hbrace : opener.isPunct "\x7b" = false := isPunct_other (t := .leaf opener) isBracket (by decide)
    rw [PatternForm.read, namesOfTarget, hbrace, if_neg Bool.false_ne_true, if_pos isBracket]
    exact ih hclear closer
  | plain target ih =>
    obtain ⟨t, rest, heq, hread⟩ := (Binds.plain target).item_read behind
    obtain ⟨rfl, -⟩ := List.cons.inj heq
    exact hread.trans (ih hclear behind)
  | withDefault target isEquals default ih =>
    obtain ⟨t, rest, heq, hread⟩ := (Binds.withDefault target isEquals default).item_read behind
    obtain ⟨rfl, -⟩ := List.cons.inj heq
    exact hread.trans (ih hclear behind)
  | shorthand isName =>
    simp [PatternForm.read, namesInPart, isPunct_of_name isName, cutAt, Tree.first, nameOfToken, isName,
      Except.map]
  | @shorthandDefault t equals name value isName isEquals default =>
    have hnone : cutAt ":" (.leaf t :: .leaf equals :: value) = none := by
      have hequals : (leaf equals).isPunct ":" = false := isPunct_other isEquals (by decide)
      rw [cutAt_eq_none_iff, List.any_cons, List.any_cons, isPunct_of_name isName, hequals]
      simpa using hclear
    rw [PatternForm.read, namesInPart, isPunct_of_name isName, if_neg Bool.false_ne_true, if_pos rfl, hnone]
    simp [Tree.first, nameOfToken, isName, Except.map]
  | renamed isKey isColon value ih => exact (Binds.renamed_read isKey isColon value).trans (ih hclear behind)
  | noItem | noProperty => rw [PatternForm.read, namesInElements]
  | @hole comma _ _ _ isComma more ih =>
    have hcomma : (leaf comma).isPunct "," = true := isComma
    rw [PatternForm.read, namesInElements, if_pos hcomma]
    exact ih hclear behind
  | lastItem item ih => exact (read_last false item.item_commaFree).trans (ih hclear behind)
  | lastProperty property ih => exact (read_last true property.property_commaFree).trans (ih hclear behind)
  | @nextItem _ _ comma _ _ _ _ item isComma more ih ih' =>
    obtain ⟨hfirst, hmore⟩ := Bool.and_eq_true_iff.mp hclear
    have hitem := ih hfirst comma
    have hrest := ih' hmore behind
    simp only [PatternForm.read] at hitem hrest
    rw [PatternForm.read, read_next false item.item_commaFree isComma, hitem, hrest]
    rfl
  | @nextProperty _ _ comma _ _ _ _ property isComma more ih ih' =>
    obtain ⟨hfirst, hmore⟩ := Bool.and_eq_true_iff.mp hclear
    have hproperty := ih hfirst comma
    have hrest := ih' hmore behind
    simp only [PatternForm.read] at hproperty hrest
    rw [PatternForm.read, read_next true property.property_commaFree isComma, hproperty, hrest]
    rfl
  | restItem isDots target ih =>
    cases target with
    | name isName => exact read_rest false isDots isName
    | object | list => cases hclear
  | restProperty isDots isName => exact read_rest true isDots isName

/-! ## Misleading forms -/

/-- The names are not read, or one of them is missing. -/
def Misses (read : Except SyntaxError (List BoundName)) (names : List BoundName) : Prop :=
  ∀ found, read = .ok found → ∃ bound ∈ names, bound ∉ found

/-- A pattern that takes the rest of a list is refused. -/
lemma Binds.rest_refused {dots : Token} (h : Binds (.target t) names clear)
    (isDots : dots.isPunct "..." = true) (hname : t.name?.isSome = false) (behind : Token) :
    ∃ e, (PatternForm.items [.leaf dots, t]).read behind = .error e := by
  have hdots : (leaf dots).isPunct "..." = true := isDots
  have hfree : CommaFree [leaf dots, t] :=
    commaFree_cons.mpr ⟨isPunct_other hdots (by decide),
      commaFree_cons.mpr ⟨h.target_isPunct ",", commaFree_nil⟩⟩
  rw [PatternForm.read, read_last false hfree, namesInPart, if_pos hdots]
  have hfirst : t.first.name? = none := by
    cases h with
    | name isName => simp [Tree.name?, isName] at hname
    | @object opener _ _ _ _ isBrace =>
      have hkind : opener.kind = .punct "\x7b" := by simpa [Token.isPunct] using isBrace
      simp [Tree.first, Token.name?, hkind]
    | @list opener _ _ _ _ isBracket =>
      have hkind : opener.kind = .punct "[" := by simpa [Token.isPunct] using isBracket
      simp [Tree.first, Token.name?, hkind]
  exact ⟨unexpected t.first, by simp [ahead, nameOfToken, hfirst, Except.map]⟩

lemma namesOfTarget_mem {found : List BoundName} (h : namesOfTarget t = .ok found) :
    ∀ bound ∈ found, bound.token ∈ t.tokens := by
  have hnames : Blaming t.tokens _ (namesOfTarget t) := namesOfTarget_blaming t fun _ ht => ht
  rw [h] at hnames
  exact fun bound hbound => (hnames bound hbound).1

lemma readBefore_ok {first more : Except SyntaxError (List BoundName)} {found : List BoundName}
    (h : readBefore first more = .ok found) :
    ∃ own others, first = .ok own ∧ more = .ok others ∧ found = own ++ others := by
  obtain ⟨own, hown, h⟩ := bind_ok h
  obtain ⟨others, hothers, h⟩ := bind_ok h
  cases h
  exact ⟨own, others, hown, hothers, rfl⟩

/-- What is read behind a colon in a default stands in the default. -/
lemma shorthandDefault_found {t equals : Token} {name : String} {value : List Tree}
    {found : List BoundName} (isName : t.name? = some name) (isEquals : equals.isPunct "=" = true)
    (hclear : (!value.any fun v => v.isPunct ":") = false)
    (h : (PatternForm.property (.leaf t :: .leaf equals :: value)).read behind = .ok found) :
    ∀ bound ∈ found, bound.token ∈ tokensOfAll value := by
  have hequals : (leaf equals).isPunct ":" = false := isPunct_other isEquals (by decide)
  rw [PatternForm.read, namesInPart, isPunct_of_name isName, if_neg Bool.false_ne_true, if_pos rfl, cutAt,
    isPunct_of_name isName, if_neg Bool.false_ne_true, cutAt, hequals, if_neg Bool.false_ne_true] at h
  cases hcut : cutAt ":" value with
  | none =>
    rw [cutAt_eq_none_iff.mp hcut] at hclear
    cases hclear
  | some cut =>
    obtain ⟨before, target⟩ := cut
    obtain ⟨colon, rfl, -⟩ := cutAt_some hcut
    rw [hcut] at h
    cases target with
    | nil => cases h
    | cons target rest =>
      intro bound hbound
      have hmem := namesOfTarget_mem h bound hbound
      simp [hmem]

/-- What is read before others stands before them. -/
lemma found_next {comma : Token} {first more : Except SyntaxError (List BoundName)}
    {found : List BoundName} (h : readBefore first more = .ok found)
    (hfirst : ∀ own, first = .ok own → ∀ bound ∈ own, bound.token ∈ tokensOfAll part)
    (hmore : ∀ others, more = .ok others → ∀ bound ∈ others, bound.token ∈ tokensOfAll inside) :
    ∀ bound ∈ found, bound.token ∈ tokensOfAll (part ++ .leaf comma :: inside) := by
  obtain ⟨own, others, hown, hothers, rfl⟩ := readBefore_ok h
  intro bound hbound
  rw [tokensOfAll_append, tokensOfAll_cons]
  rcases List.mem_append.mp hbound with hbound | hbound
  · exact List.mem_append_left _ (hfirst own hown bound hbound)
  · exact List.mem_append_right _ (List.mem_append_right _ (hmore others hothers bound hbound))

/-- What is read of a pattern stands in it. -/
lemma Binds.read_mem {found : List BoundName} (h : Binds form names clear)
    (hread : form.read behind = .ok found) :
    ∀ bound ∈ found, bound.token ∈ tokensOfAll form.trees := by
  induction h generalizing behind found with
  | name isName | object isBrace elements ih | list isBracket elements ih =>
    simpa [PatternForm.trees] using namesOfTarget_mem hread
  | plain target ih =>
    obtain ⟨t, rest, heq, hitem⟩ := (Binds.plain target).item_read behind
    obtain ⟨rfl, -⟩ := List.cons.inj heq
    exact ih (hitem.symm.trans hread)
  | withDefault target isEquals default ih =>
    obtain ⟨t, rest, heq, hitem⟩ := (Binds.withDefault target isEquals default).item_read behind
    obtain ⟨rfl, -⟩ := List.cons.inj heq
    intro bound hbound
    have hmem := ih (hitem.symm.trans hread) bound hbound
    simp only [PatternForm.trees, tokensOfAll_cons, tokensOfAll_nil, List.append_nil] at hmem
    simp [PatternForm.trees, hmem]
  | shorthand isName =>
    cases ((Binds.shorthand isName).read_clear rfl behind).symm.trans hread
    exact (Binds.shorthand isName).names_mem
  | @shorthandDefault t equals name value isName isEquals default =>
    cases hclear : (!value.any fun v => v.isPunct ":") with
    | true =>
      cases ((Binds.shorthandDefault isName isEquals default).read_clear hclear behind).symm.trans hread
      exact (Binds.shorthandDefault isName isEquals default).names_mem
    | false =>
      intro bound hbound
      have hmem := shorthandDefault_found isName isEquals hclear hread bound hbound
      simp [PatternForm.trees, hmem]
  | renamed isKey isColon value ih =>
    rw [Binds.renamed_read isKey isColon value] at hread
    intro bound hbound
    have hmem := ih hread bound hbound
    simp only [PatternForm.trees] at hmem
    simp [PatternForm.trees, hmem]
  | noItem | noProperty =>
    rw [PatternForm.read, namesInElements] at hread
    cases hread
    exact List.forall_mem_nil _
  | @hole comma _ _ _ isComma more ih =>
    have hcomma : (leaf comma).isPunct "," = true := isComma
    rw [PatternForm.read, namesInElements, if_pos hcomma] at hread
    intro bound hbound
    have hmem := ih hread bound hbound
    simp only [PatternForm.trees] at hmem
    simp [PatternForm.trees, hmem]
  | lastItem item ih => exact ih ((read_last false item.item_commaFree).symm.trans hread)
  | lastProperty property ih => exact ih ((read_last true property.property_commaFree).symm.trans hread)
  | nextItem item isComma more ih ih' =>
    rw [PatternForm.read, read_next false item.item_commaFree isComma] at hread
    exact found_next hread (fun _ hown => ih hown) fun _ hothers => ih' hothers
  | nextProperty property isComma more ih ih' =>
    rw [PatternForm.read, read_next true property.property_commaFree isComma] at hread
    exact found_next hread (fun _ hown => ih hown) fun _ hothers => ih' hothers
  | @restItem dots t names clear isDots target ih =>
    cases hname : t.name?.isSome with
    | true =>
      cases ((Binds.restItem isDots target).read_clear hname behind).symm.trans hread
      exact (Binds.restItem isDots target).names_mem
    | false =>
      obtain ⟨e, herror⟩ := target.rest_refused isDots hname behind
      cases herror.symm.trans hread
  | restProperty isDots isName =>
    cases ((Binds.restProperty isDots isName).read_clear rfl behind).symm.trans hread
    exact (Binds.restProperty isDots isName).names_mem

/-- A name that is missing among the first ones is missing among all, if no token stands twice. -/
lemma Misses.before {comma : Token} {first more : Except SyntaxError (List BoundName)}
    (hmisses : Misses first names) (hplaces : (tokensOfAll (part ++ .leaf comma :: inside)).Nodup)
    (hnames : ∀ bound ∈ names, bound.token ∈ tokensOfAll part)
    (hmore : ∀ others, more = .ok others → ∀ bound ∈ others, bound.token ∈ tokensOfAll inside) :
    Misses (readBefore first more) (names ++ names') := by
  intro found hfound
  obtain ⟨own, others, hown, hothers, rfl⟩ := readBefore_ok hfound
  obtain ⟨bound, hbound, hnot⟩ := hmisses own hown
  refine ⟨bound, List.mem_append_left _ hbound, fun hmem => ?_⟩
  rcases List.mem_append.mp hmem with hmem | hmem
  · exact hnot hmem
  · rw [tokensOfAll_append, tokensOfAll_cons] at hplaces
    exact (List.nodup_append.mp hplaces).2.2 _ (hnames bound hbound) _
      (List.mem_append_right _ (hmore others hothers bound hmem)) rfl

/-- A name that is missing among the last ones is missing among all, if no token stands twice. -/
lemma Misses.after {comma : Token} {first more : Except SyntaxError (List BoundName)}
    (hmisses : Misses more names') (hplaces : (tokensOfAll (part ++ .leaf comma :: inside)).Nodup)
    (hnames : ∀ bound ∈ names', bound.token ∈ tokensOfAll inside)
    (hfirst : ∀ own, first = .ok own → ∀ bound ∈ own, bound.token ∈ tokensOfAll part) :
    Misses (readBefore first more) (names ++ names') := by
  intro found hfound
  obtain ⟨own, others, hown, hothers, rfl⟩ := readBefore_ok hfound
  obtain ⟨bound, hbound, hnot⟩ := hmisses others hothers
  refine ⟨bound, List.mem_append_right _ hbound, fun hmem => ?_⟩
  rcases List.mem_append.mp hmem with hmem | hmem
  · rw [tokensOfAll_append, tokensOfAll_cons] at hplaces
    exact (List.nodup_append.mp hplaces).2.2 _ (hfirst own hown bound hmem) _
      (List.mem_append_right _ (hnames bound hbound)) rfl
  · exact hnot hmem

lemma nodup_next {comma : Token} (h : (tokensOfAll (part ++ .leaf comma :: inside)).Nodup) :
    (tokensOfAll part).Nodup ∧ (tokensOfAll inside).Nodup := by
  rw [tokensOfAll_append, tokensOfAll_cons] at h
  exact ⟨h.of_append_left, h.of_append_right.of_append_right⟩

/-- A pattern with a misleading colon, or with a pattern for the rest of a list, is not read right: one of
its names is missing. -/
lemma Binds.read_unclear (h : Binds form names clear) (hclear : clear = false)
    (hplaces : (tokensOfAll form.trees).Nodup) (behind : Token) : Misses (form.read behind) names := by
  induction h generalizing behind with
  | name | shorthand | noItem | noProperty | restProperty => cases hclear
  | @object opener closer inside _ _ isBrace elements ih =>
    rw [PatternForm.read, namesOfTarget, if_pos isBrace]
    refine ih hclear ?_ closer
    simp only [PatternForm.trees, tokensOfAll_cons, tokens_group, tokensOfAll_nil, List.append_nil] at hplaces
    exact hplaces.of_cons.of_append_left
  | @list opener closer _ _ _ isBracket elements ih =>
    have hbrace : opener.isPunct "\x7b" = false := isPunct_other (t := .leaf opener) isBracket (by decide)
    rw [PatternForm.read, namesOfTarget, hbrace, if_neg Bool.false_ne_true, if_pos isBracket]
    refine ih hclear ?_ closer
    simp only [PatternForm.trees, tokensOfAll_cons, tokens_group, tokensOfAll_nil, List.append_nil] at hplaces
    exact hplaces.of_cons.of_append_left
  | plain target ih =>
    obtain ⟨t, rest, heq, hitem⟩ := (Binds.plain target).item_read behind
    obtain ⟨rfl, -⟩ := List.cons.inj heq
    rw [hitem]
    exact ih hclear hplaces behind
  | @withDefault t _ _ _ _ target isEquals default ih =>
    obtain ⟨t, rest, heq, hitem⟩ := (Binds.withDefault target isEquals default).item_read behind
    obtain ⟨rfl, -⟩ := List.cons.inj heq
    rw [hitem]
    refine ih hclear ?_ behind
    simp only [PatternForm.trees, tokensOfAll_cons, tokensOfAll_nil, List.append_nil] at hplaces ⊢
    exact hplaces.of_append_left
  | @shorthandDefault t equals name value isName isEquals default =>
    intro found hfound
    refine ⟨⟨name, t⟩, List.mem_singleton_self _, fun hmem => ?_⟩
    have hvalue := shorthandDefault_found isName isEquals hclear hfound _ hmem
    simp only [PatternForm.trees, tokensOfAll_cons, tokens_leaf, List.singleton_append] at hplaces
    exact (List.nodup_cons.mp hplaces).1 (List.mem_cons_of_mem _ hvalue)
  | renamed isKey isColon value ih =>
    rw [Binds.renamed_read isKey isColon value]
    refine ih hclear ?_ behind
    simp only [PatternForm.trees, tokensOfAll_cons] at hplaces ⊢
    exact hplaces.of_append_right.of_append_right
  | @hole comma _ _ _ isComma more ih =>
    have hcomma : (leaf comma).isPunct "," = true := isComma
    rw [PatternForm.read, namesInElements, if_pos hcomma]
    refine ih hclear ?_ behind
    simp only [PatternForm.trees, tokensOfAll_cons] at hplaces ⊢
    exact hplaces.of_append_right
  | lastItem item ih =>
    rw [PatternForm.read, read_last false item.item_commaFree]
    exact ih hclear hplaces behind
  | lastProperty property ih =>
    rw [PatternForm.read, read_last true property.property_commaFree]
    exact ih hclear hplaces behind
  | @nextItem _ _ comma _ _ _ _ item isComma more ih ih' =>
    obtain ⟨hpart, hinside⟩ := nodup_next hplaces
    rw [PatternForm.read, read_next false item.item_commaFree isComma]
    rcases Bool.and_eq_false_iff.mp hclear with hfirst | hrest
    · exact (ih hfirst hpart comma).before hplaces item.names_mem fun others => more.read_mem
    · exact (ih' hrest hinside behind).after hplaces more.names_mem fun own => item.read_mem
  | @nextProperty _ _ comma _ _ _ _ property isComma more ih ih' =>
    obtain ⟨hpart, hinside⟩ := nodup_next hplaces
    rw [PatternForm.read, read_next true property.property_commaFree isComma]
    rcases Bool.and_eq_false_iff.mp hclear with hfirst | hrest
    · exact (ih hfirst hpart comma).before hplaces property.names_mem fun others => more.read_mem
    · exact (ih' hrest hinside behind).after hplaces more.names_mem fun own => property.read_mem
  | restItem isDots target ih =>
    obtain ⟨e, herror⟩ := target.rest_refused isDots hclear behind
    intro found hfound
    cases herror.symm.trans hfound

/-- The names of a pattern are read right if and only if it is clear. -/
lemma Binds.read_iff (h : Binds form names clear) (hplaces : (tokensOfAll form.trees).Nodup)
    (behind : Token) : form.read behind = .ok names ↔ clear = true := by
  constructor
  · intro hread
    by_contra hclear
    rw [Bool.not_eq_true] at hclear
    obtain ⟨bound, hbound, hnot⟩ := h.read_unclear hclear hplaces behind names hread
    exact hnot hbound
  · exact fun hclear => h.read_clear hclear behind

end TaskRunner.Proofs
