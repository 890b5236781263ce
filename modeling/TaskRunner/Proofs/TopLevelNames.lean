import TaskRunner.Proofs.DeclaredPatterns
import TaskRunner.Proofs.IndexedImports
import TaskRunner.Proofs.StatementList

/-!
# Names at the top level

The bindings that a statement introduces, read off its form: what an import names, the name of a function
or a class, and the names of all declarators. How the statement is declared plays no part in it, and neither
does what has been read before.
-/

namespace TaskRunner.Proofs
open Source Tree

/-- A binding at the top level of a file. -/
structure NewName where
  bound : BoundName
  kind : Declaration
  /-- The reader takes the declaration for an expression, so it passes over the name. -/
  passedOver : Bool
deriving Repr

/-- Bindings of one kind. -/
def bindingsOf (kind : Declaration) (names : List BoundName) : List NewName :=
  names.map fun bound => ⟨bound, kind, false⟩

/-! ## The bindings of a statement -/

/-- The name at a token, if it is an identifier. -/
def namesAt (t : Token) : List BoundName :=
  (t.name?.map fun name => ⟨name, t⟩).toList

/-- The name at a token, if it is an identifier or a text. -/
def labelsAt (t : Token) : List BoundName :=
  (t.nameOrText?.map fun name => ⟨name, t⟩).toList

/-- The name of a function, behind its words. -/
def functionNames (after : Token) (trees : List Tree) : List BoundName :=
  namesAt (ahead after (dropPunct "*" (dropWord "async" trees).tail))

/-- The names of declarators, one behind the other; at most `fuel` of them. -/
def declaratorNames (after : Token) : Nat → List Tree → List BoundName
  | fuel + 1, t :: rest =>
    match namesOfTarget t with
    | .error _ => []
    | .ok names =>
      let behind := pastValue after rest
      if startsWithPunct behind "," then names ++ declaratorNames after fuel behind.tail else names
  | _, _ => []

/-- The bindings of a declaration of a function, of a class or of variables. -/
def declarationBindings (after : Token) (trees : List Tree) : List NewName :=
  if startsWithWord (dropWord "async" trees) "function" then
    bindingsOf .lexical (functionNames after trees)
  else if startsWithWord trees "class" then bindingsOf .lexical (namesAt (ahead after trees.tail))
  else if startsWithWord trees "var" then bindingsOf .var (declaratorNames after trees.length trees.tail)
  else if startsWithWord trees "const" || startsWithWord trees "let" then
    bindingsOf .lexical (declaratorNames after trees.length trees.tail)
  else []

/-- The name of the default import, if the clause has one, and the rest of the clause. -/
def defaultName : List Tree → List BoundName × List Tree
  | .leaf t :: rest => if t.name?.isSome then (namesAt t, dropPunct "," rest) else ([], .leaf t :: rest)
  | clause => ([], clause)

/-- The names in an import list: what stands last in its elements. -/
def listedNames (inside : List Tree) : List BoundName :=
  (splitAtCommas inside).flatMap fun element => element.getLast?.toList.flatMap fun t => labelsAt t.first

/-- The names of the rest of an import clause: that of the whole module, or those of a list. -/
def otherNames (after : Token) : List Tree → List BoundName
  | [] => []
  | t :: more =>
    if t.isPunct "*" then namesAt (ahead after more.tail)
    else match t.inside? "\x7b" with
      | some (inside, _) => listedNames inside
      | none => []

/-- The names that an import clause binds. -/
def importedNames (after : Token) (clause : List Tree) : List BoundName :=
  (defaultName clause).1 ++ otherNames after (defaultName clause).2

/-- The binding of a default export: the name of its function or class, if it has one. -/
def defaultBindings (after : Token) (trees : List Tree) : List NewName :=
  if startsWithWord (dropWord "async" trees) "function" then
    if startsWithWord trees "async" && startsWithPunct trees.tail.tail "*" then
      -- Behind a line end the function is a statement of its own.
      if (ahead after trees.tail).newlineBefore then []
      else (functionNames after trees).map fun bound => ⟨bound, .lexical, true⟩
    else bindingsOf .lexical (functionNames after trees)
  else if startsWithWord trees "class" && !startsWithWord trees.tail "extends" then
    bindingsOf .lexical (namesAt (ahead after trees.tail))
  else []

/-- The bindings that a statement introduces. -/
def introduced (after : Token) (trees : List Tree) : List NewName :=
  if startsPlain after trees then []
  else if startsWithWord trees "import" then bindingsOf .lexical (importedNames after trees.tail)
  else if startsWithWord trees "export" then
    if startsWithWord trees.tail "default" then defaultBindings after trees.tail.tail
    else declarationBindings after trees.tail
  else declarationBindings after trees

/-! ## Complaints of readers that declare nothing -/

/-- The computation complains about nothing but tokens in wrong places. -/
def OnlyUnexpected {α : Type} (x : Except SyntaxError α) : Prop :=
  ∀ e, x = .error e → ∃ t, e = unexpected t

section
variable {α β : Type} {after : Token} {trees : List Tree}

lemma onlyUnexpected_ok (a : α) : OnlyUnexpected (.ok a) :=
  fun _ h => nomatch h

lemma onlyUnexpected_error (t : Token) : OnlyUnexpected (α := α) (.error (unexpected t)) := by
  rintro e h
  cases h
  exact ⟨t, rfl⟩

lemma OnlyUnexpected.bind {x : Except SyntaxError α} {f : α → Except SyntaxError β}
    (h : OnlyUnexpected x) (hf : ∀ a, OnlyUnexpected (f a)) : OnlyUnexpected (x >>= f) := by
  cases x with
  | error e => exact fun e' he => h e' (congrArg Except.error (Except.error.inj he))
  | ok a => exact hf a

lemma OnlyUnexpected.map {x : Except SyntaxError α} {f : α → β} (h : OnlyUnexpected x) :
    OnlyUnexpected (x.map f) := by
  cases x with
  | error e => exact fun e' he => h e' (congrArg Except.error (Except.error.inj he))
  | ok a => exact onlyUnexpected_ok _

lemma nameOfToken_unexpected (t : Token) : OnlyUnexpected (nameOfToken t) := by
  unfold nameOfToken
  split
  · exact onlyUnexpected_ok _
  · exact onlyUnexpected_error t

lemma nameOrTextAhead_unexpected (t : Token) : OnlyUnexpected (nameOrTextAhead t) := by
  unfold nameOrTextAhead
  split
  · exact onlyUnexpected_ok _
  · exact onlyUnexpected_error t

mutual

lemma namesInElements_unexpected (isObject : Bool) (after : Token) (state : ElementState) :
    ∀ trees, OnlyUnexpected (namesInElements isObject after state trees)
  | [] => by
    cases state with
    | target =>
      rw [namesInElements]
      exact onlyUnexpected_error after
    | start | key | done =>
      rw [namesInElements]
      exact onlyUnexpected_ok _
  | t :: rest => by
    have hrest := fun state => namesInElements_unexpected isObject after state rest
    have htarget := (namesOfTarget_unexpected t).bind fun names =>
      (hrest .done).bind fun more => onlyUnexpected_ok (names ++ more)
    have hname := fun t => (nameOfToken_unexpected t).bind fun bound =>
      (hrest .done).bind fun more => onlyUnexpected_ok (bound :: more)
    cases state with
    | start =>
      simp only [namesInElements]
      split
      · exact hrest .start
      · split
        · exact hname _
        · split
          · split
            · exact hrest .target
            · split
              · exact hrest .key
              · exact hname _
          · exact htarget
    | key | done =>
      simp only [namesInElements]
      exact hrest _
    | target =>
      simp only [namesInElements]
      exact htarget

lemma namesOfTarget_unexpected : ∀ t : Tree, OnlyUnexpected (namesOfTarget t)
  | leaf t => by
    rw [namesOfTarget]
    exact (nameOfToken_unexpected t).map
  | group opener inside closer => by
    rw [namesOfTarget]
    split
    · exact namesInElements_unexpected true closer .start inside
    · split
      · exact namesInElements_unexpected false closer .start inside
      · exact onlyUnexpected_error opener

end

lemma functionTail_unexpected (after : Token) (trees : List Tree) :
    OnlyUnexpected (functionTail after trees) := by
  unfold functionTail
  split
  · exact onlyUnexpected_error _
  · split
    · exact onlyUnexpected_error _
    · split
      · exact onlyUnexpected_error _
      · split
        · exact onlyUnexpected_error _
        · exact onlyUnexpected_ok _

lemma pastClassBody_unexpected (after : Token) (trees : List Tree) :
    OnlyUnexpected (pastClassBody after trees) := by
  induction trees with
  | nil => exact onlyUnexpected_error after
  | cons t rest ih =>
    rw [pastClassBody]
    split
    · exact onlyUnexpected_ok rest
    · exact ih

lemma declaratorTarget_unexpected (after : Token) (trees : List Tree) :
    OnlyUnexpected (declaratorTarget after trees) := by
  unfold declaratorTarget
  split
  · exact onlyUnexpected_error after
  · split
    · exact (nameOfToken_unexpected _).bind fun _ => onlyUnexpected_ok _
    · exact (namesOfTarget_unexpected _).bind fun _ => onlyUnexpected_ok _

lemma listedBy_unexpected {element : List Tree → Except SyntaxError (α × List Tree)}
    (helement : ∀ trees, OnlyUnexpected (element trees)) (fuel : Nat) (trees : List Tree) :
    OnlyUnexpected (listedBy after element fuel trees) := by
  induction fuel generalizing trees with
  | zero => exact onlyUnexpected_ok []
  | succ fuel ih =>
    cases trees with
    | nil => exact onlyUnexpected_ok []
    | cons t rest =>
      rw [listedBy]
      refine (helement (t :: rest)).bind fun found => ?_
      dsimp only
      split
      · exact (ih _).bind fun _ => onlyUnexpected_ok _
      · split
        · exact onlyUnexpected_ok _
        · exact onlyUnexpected_error _

lemma importElements_unexpected (after : Token) (fuel : Nat) (trees : List Tree) :
    OnlyUnexpected (importElements after fuel trees) := by
  rw [importElements_eq]
  refine listedBy_unexpected (fun trees => (nameOrTextAhead_unexpected _).bind fun imported => ?_) _ _
  split
  · exact (nameOfToken_unexpected _).bind fun _ => onlyUnexpected_ok _
  · exact onlyUnexpected_ok _

lemma exportElements_unexpected (after : Token) (fuel : Nat) (trees : List Tree) :
    OnlyUnexpected (exportElements after fuel trees) := by
  rw [exportElements_eq]
  refine listedBy_unexpected (fun trees => (nameOrTextAhead_unexpected _).bind fun name => ?_) _ _
  split
  · exact (nameOrTextAhead_unexpected _).bind fun _ => onlyUnexpected_ok _
  · exact onlyUnexpected_ok _

lemma importClause_unexpected (after : Token) (clause : List Tree) :
    OnlyUnexpected (importClause after clause) := by
  rw [importClause_eq]
  refine OnlyUnexpected.bind ?_ fun found => ?_
  · unfold otherImports
    split
    · exact onlyUnexpected_ok _
    · split
      · split
        · exact (nameOfToken_unexpected _).bind fun _ => onlyUnexpected_ok _
        · exact onlyUnexpected_error _
      · split
        · exact (importElements_unexpected _ _ _).bind fun _ => onlyUnexpected_ok _
        · exact onlyUnexpected_ok _
  · dsimp only
    split
    · exact onlyUnexpected_error _
    · exact onlyUnexpected_ok _

end

/-! ## Names that are read -/

section
variable {after closer : Token} {trees rest clause left : List Tree} {bound : BoundName}

lemma namesAt_of_ok {t : Token} (h : nameOfToken t = .ok bound) : namesAt t = [bound] := by
  unfold nameOfToken at h
  split at h
  · rename_i name hname
    cases h
    simp [namesAt, hname]
  · cases h

lemma namesAt_of_name {t : Token} {name : String} (h : t.name? = some name) : namesAt t = [⟨name, t⟩] := by
  simp [namesAt, h]

lemma labelsAt_of_ok {t : Token} (h : nameOfToken t = .ok bound) : labelsAt t = [bound] := by
  unfold nameOfToken at h
  split at h
  · rename_i name hname
    cases h
    simp [labelsAt, nameOrText?_of_name? hname]
  · cases h

lemma ahead_nameless {t : Token} (ht : t.name? = none) {more : List Tree}
    (h : nameOfToken (ahead t more) = .ok bound) :
    ∃ u left, more = u :: left ∧ nameOfToken u.first = .ok bound := by
  cases more with
  | nil =>
    rw [ahead, nameOfToken, ht] at h
    cases h
  | cons u left => exact ⟨u, left, rfl, h⟩

lemma isPunct_of_label {t : Tree} (h : labelsAt t.first = [bound]) (mark : String) : t.isPunct mark = false := by
  cases t with
  | group opener inside closer => rfl
  | leaf token =>
    rw [Bool.eq_false_iff]
    intro hpunct
    have hkind : token.kind = .punct mark := by simpa [Tree.isPunct, Token.isPunct] using hpunct
    simp [labelsAt, Tree.first, Token.nameOrText?, hkind] at h

/-- An element of an import list has no comma, and what it binds stands last in it. -/
lemma importElement_names {t : Tree} {imported : ImportBinding} (hcloser : closer.name? = none)
    (h : importElement closer (t :: rest) = .ok ((imported, bound), left)) :
    ∃ front last, t :: rest = front ++ last :: left ∧ CommaFree (front ++ [last]) ∧
      labelsAt last.first = [bound] := by
  obtain ⟨name, hname, h⟩ := bind_ok h
  have hlabel : labelsAt t.first = [⟨name, t.first⟩] := by
    rw [ahead, nameOrTextAhead] at hname
    split at hname
    · rename_i label hlabel
      cases hname
      simp [labelsAt, hlabel]
    · cases hname
  have hplain := isPunct_of_label hlabel ","
  rw [List.tail_cons] at h
  split at h
  · rename_i has
    obtain ⟨bound', hbound, h⟩ := bind_ok h
    cases h
    obtain ⟨word, more, rfl, hword⟩ := startsWithWord_iff.mp has
    obtain ⟨last, left, rfl, hlast⟩ := ahead_nameless hcloser hbound
    have hlabel' := labelsAt_of_ok hlast
    refine ⟨[t, word], last, rfl, ?_, hlabel'⟩
    have hfree : CommaFree [t, word, last] := by
      simp [CommaFree, hplain, isPunct_of_isWord hword, isPunct_of_label hlabel']
    exact hfree
  · cases h
    exact ⟨[], t, rfl, commaFree_cons.mpr ⟨hplain, commaFree_nil⟩, hlabel⟩

lemma listedNames_last {front : List Tree} {last : Tree} (hfree : CommaFree (front ++ [last]))
    (hlabel : labelsAt last.first = [bound]) : listedNames (front ++ [last]) = [bound] := by
  rw [listedNames, splitAtCommas_part hfree, if_neg (by simp)]
  simp [hlabel]

lemma listedNames_next {front more : List Tree} {last : Tree} {comma : Token}
    (hfree : CommaFree (front ++ [last])) (hlabel : labelsAt last.first = [bound])
    (hcomma : comma.isPunct "," = true) :
    listedNames (front ++ last :: .leaf comma :: more) = bound :: listedNames more := by
  have hsplit : front ++ last :: .leaf comma :: more = (front ++ [last]) ++ .leaf comma :: more := by simp
  rw [listedNames, hsplit, splitAtCommas_comma hfree hcomma]
  simp [hlabel, listedNames]

lemma importElements_names {fuel : Nat} {elements : List (ImportBinding × BoundName)}
    (hcloser : closer.name? = none) (hfuel : trees.length < fuel)
    (h : importElements closer fuel trees = .ok elements) :
    elements.map Prod.snd = listedNames trees := by
  rw [importElements_eq] at h
  induction fuel generalizing trees elements with
  | zero => exact absurd hfuel (Nat.not_lt_zero _)
  | succ fuel ih =>
    cases trees with
    | nil =>
      cases h
      rfl
    | cons t rest =>
      obtain ⟨⟨⟨imported, bound⟩, left⟩, helement, h⟩ := bind_ok h
      obtain ⟨front, last, htrees, hfree, hlabel⟩ := importElement_names hcloser helement
      rw [htrees] at hfuel ⊢
      dsimp only at h
      split at h
      · rename_i hcomma
        obtain ⟨mark, more, rfl, hmark⟩ := startsWithPunct_iff.mp hcomma
        obtain ⟨comma, rfl, -⟩ := leaf_of_isPunct hmark
        obtain ⟨others, hothers, h⟩ := bind_ok h
        cases h
        rw [listedNames_next hfree hlabel hmark, List.map_cons]
        simp only [List.length_append, List.length_cons] at hfuel
        exact congrArg _ (ih (by omega) hothers)
      · split at h
        · rename_i hempty
          cases h
          obtain rfl := List.isEmpty_iff.mp hempty
          exact (listedNames_last hfree hlabel).symm
        · cases h

/-- The clause starts with the default import as it is read, or it is refused. -/
lemma defaultImport_cases (after : Token) (clause : List Tree) :
    ((defaultImport clause).1.map Prod.snd = (defaultName clause).1 ∧
        (defaultImport clause).2 = (defaultName clause).2) ∨
      otherImports after (defaultImport clause).2 = .ok ([], clause) := by
  cases clause with
  | nil => exact .inl ⟨rfl, rfl⟩
  | cons t rest =>
    cases t with
    | group opener inside closer => exact .inl ⟨rfl, rfl⟩
    | leaf token =>
      cases hname : token.name? with
      | none => simp [defaultImport, defaultName, hname]
      | some name =>
        by_cases hfrom : (name != "from" || startsWithWord rest "from") = true
        · simp only [defaultImport, defaultName, hname, if_pos hfrom]
          exact .inl ⟨(namesAt_of_name hname).symm, rfl⟩
        · refine .inr ?_
          have hstar : (leaf token).isPunct "*" = false := isPunct_of_name hname "*"
          simp only [defaultImport, hname, if_neg hfrom, otherImports, hstar]
          rfl

lemma ProperAll.suffix (h : ProperAll trees) (hsuffix : rest <:+ trees) : ProperAll rest := by
  obtain ⟨front, rfl⟩ := hsuffix
  exact (properAll_append.mp h).2

lemma defaultName_suffix (clause : List Tree) : (defaultName clause).2 <:+ clause := by
  unfold defaultName
  split
  · split
    · exact (dropPunct_suffix "," _).trans (List.suffix_cons _ _)
    · exact List.suffix_rfl
  · exact List.suffix_rfl

/-- The closing bracket of a group is no name. -/
lemma inside_nameless {t : Tree} {mark : String} {inside : List Tree} (hproper : Proper t)
    (h : t.inside? mark = some (inside, closer)) : closer.name? = none := by
  cases t with
  | leaf token => cases h
  | group opener trees last =>
    obtain ⟨⟨opens, closes, -, -, hkind, -⟩, -⟩ := proper_group.mp hproper
    simp only [Tree.inside?] at h
    split at h
    · cases h
      simp [Token.name?, hkind]
    · cases h

lemma otherImports_names {others : List (ImportBinding × BoundName)} (hproper : ProperAll trees)
    (h : otherImports after trees = .ok (others, left)) : others.map Prod.snd = otherNames after trees := by
  cases trees with
  | nil =>
    cases h
    rfl
  | cons t rest =>
    rw [otherNames]
    rw [otherImports] at h
    split at h
    · rename_i hstar
      rw [if_pos hstar]
      split at h
      · obtain ⟨bound, hbound, h⟩ := bind_ok h
        cases h
        exact (namesAt_of_ok hbound).symm
      · cases h
    · rename_i hstar
      rw [if_neg hstar]
      cases hinside : t.inside? "\x7b" with
      | none =>
        rw [hinside] at h
        cases h
        rfl
      | some listed =>
        obtain ⟨inside, closer⟩ := listed
        rw [hinside] at h
        obtain ⟨elements, helements, h⟩ := bind_ok h
        cases h
        exact importElements_names (inside_nameless (properAll_cons.mp hproper).1 hinside)
          (Nat.lt_succ_self _) helements

/-- The names that an import declares are those of its clause. -/
lemma importClause_names {bindings : List (ImportBinding × BoundName)} (hproper : ProperAll clause)
    (h : importClause after clause = .ok (bindings, rest)) :
    bindings.map Prod.snd = importedNames after clause := by
  rw [importClause_eq] at h
  obtain ⟨⟨others, left⟩, hothers, h⟩ := bind_ok h
  dsimp only at h
  split at h
  · cases h
  · rename_i hfits
    cases h
    obtain ⟨hnames, hrest⟩ | hnone := defaultImport_cases after clause
    · rw [hrest] at hothers
      rw [importedNames, List.map_append, hnames,
        otherImports_names (hproper.suffix (defaultName_suffix clause)) hothers]
    · rw [hnone] at hothers
      cases hothers
      simp at hfits

end

end TaskRunner.Proofs
