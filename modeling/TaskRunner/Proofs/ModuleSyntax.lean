import TaskRunner.Proofs.NestedTokens
import TaskRunner.Proofs.StatementEnds

/-!
# Module syntax

The forms of exports and imports that a script has no use for, and where the readers of a file find
them. Every reader but that of `export *` erases such a form and at most one semicolon behind it.
-/

namespace TaskRunner.Proofs
open Source

/-- Whether a tree is a text. -/
def isText : Tree → Bool
  | .leaf t => t.text?.isSome
  | .group _ _ _ => false

/-- Whether a tree is a name or a text. -/
def isNameOrText : Tree → Bool
  | .leaf t => t.nameOrText?.isSome
  | .group _ _ _ => false

/-- The default binding of an import. -/
inductive DefaultPart : List Tree → Prop
  | absent : DefaultPart []
  | alone {name : Tree} (hname : name.name?.isSome) : DefaultPart [name]
  | before {name comma : Tree} (hname : name.name?.isSome) (hcomma : comma.isPunct ",") :
      DefaultPart [name, comma]

/-- The other bindings of an import. -/
inductive OtherPart : List Tree → Prop
  | absent : OtherPart []
  | whole {star as name : Tree} (hstar : star.isPunct "*") (has : as.isWord "as")
      (hname : name.name?.isSome) : OtherPart [star, as, name]
  | members {list : Tree} (hlist : list.isGroup "\x7b") : OtherPart [list]

/-- The attributes of an import. -/
inductive Attributes : List Tree → Prop
  | absent : Attributes []
  | given {word list : Tree} (hword : word.isWord "with" ∨ word.isWord "assert")
      (hlist : list.isGroup "\x7b") : Attributes [word, list]

/-- What follows `export *` up to the module's name. -/
inductive StarClause : List Tree → Prop
  | unnamed {word source : Tree} (hword : word.isWord "from") (hsource : isText source) :
      StarClause [word, source]
  | named {as name word source : Tree} (has : as.isWord "as") (hname : isNameOrText name)
      (hword : word.isWord "from") (hsource : isText source) : StarClause [as, name, word, source]

/-- Imports, the words of exports, and the exports without a declaration. -/
inductive ModuleSyntax : List Tree → Prop
  | word {e : Tree} (he : e.isWord "export") : ModuleSyntax [e]
  | default {e d : Tree} (he : e.isWord "export") (hd : d.isWord "default") : ModuleSyntax [e, d]
  | list {e members : Tree} (he : e.isWord "export") (hmembers : members.isGroup "\x7b") :
      ModuleSyntax [e, members]
  | reexport {e members word source : Tree} (he : e.isWord "export")
      (hmembers : members.isGroup "\x7b") (hword : word.isWord "from") (hsource : isText source) :
      ModuleSyntax [e, members, word, source]
  | star {e star : Tree} {clause : List Tree} (he : e.isWord "export") (hstar : star.isPunct "*")
      (hclause : StarClause clause) : ModuleSyntax (e :: star :: clause)
  | bare {i source : Tree} {attributes : List Tree} (hi : i.isWord "import")
      (hsource : isText source) (hattributes : Attributes attributes) :
      ModuleSyntax (i :: source :: attributes)
  | import {i word source : Tree} {defaults others attributes : List Tree} (hi : i.isWord "import")
      (hdefaults : DefaultPart defaults) (hothers : OtherPart others) (hword : word.isWord "from")
      (hsource : isText source) (hattributes : Attributes attributes) :
      ModuleSyntax (i :: (defaults ++ (others ++ word :: source :: attributes)))

/-- The semicolon at the front, if there is one. -/
def semicolonOf (trees : List Tree) : List Tree :=
  if startsWithPunct trees ";" then trees.take 1 else []

lemma semicolonOf_append (trees : List Tree) : semicolonOf trees ++ pastSemicolon trees = trees := by
  cases trees with
  | nil => rfl
  | cons t rest =>
    unfold semicolonOf pastSemicolon
    by_cases hsemicolon : t.isPunct ";" = true
    · simp [startsWithPunct, hsemicolon]
    · simp [startsWithPunct, hsemicolon]

/-- The erased trees belong to module syntax that starts with them, or to the semicolon behind it. -/
def WithinSyntax (erased behind : List Tree) : Prop :=
  ∃ form tail, erased ++ behind = form ++ tail ∧ ModuleSyntax form ∧
    erased <+: form ++ semicolonOf tail

lemma withinSyntax_form {form : List Tree} (h : ModuleSyntax form) (tail : List Tree) :
    consumed (form ++ tail) (pastSemicolon tail) = form ++ semicolonOf tail ∧
      WithinSyntax (form ++ semicolonOf tail) (pastSemicolon tail) := by
  have hsplit : form ++ tail = form ++ semicolonOf tail ++ pastSemicolon tail := by
    rw [List.append_assoc, semicolonOf_append]
  refine ⟨?_, form, tail, hsplit.symm, h, List.prefix_rfl⟩
  rw [hsplit, consumed_eq]

/-! ## Tokens that come next -/

lemma text_ahead {after : Token} {trees : List Tree} (hafter : after.kind = .endOfFile)
    (hmarks : OpenedByMarks trees) (h : (ahead after trees).text?.isSome = true) :
    ∃ t rest, trees = t :: rest ∧ isText t = true := by
  cases trees with
  | nil => simp [ahead, Token.text?, hafter] at h
  | cons t rest =>
    refine ⟨t, rest, rfl, ?_⟩
    cases t with
    | leaf token => exact h
    | group opener inside closer =>
      obtain ⟨mark, hmark⟩ := hmarks opener inside closer List.mem_cons_self
      simp [ahead, Tree.first, Token.text?, hmark] at h

lemma name_ahead {after : Token} {trees : List Tree} {bound : BoundName}
    (hafter : after.kind = .endOfFile) (hmarks : OpenedByMarks trees)
    (h : nameOfToken (ahead after trees) = .ok bound) :
    ∃ t rest, trees = t :: rest ∧ t.name?.isSome = true := by
  cases trees with
  | nil => simp [ahead, nameOfToken, Token.name?, hafter] at h
  | cons t rest =>
    refine ⟨t, rest, rfl, ?_⟩
    cases t with
    | leaf token =>
      unfold nameOfToken at h
      split at h
      · rename_i hname
        exact Option.isSome_of_eq_some hname
      · cases h
    | group opener inside closer =>
      obtain ⟨mark, hmark⟩ := hmarks opener inside closer List.mem_cons_self
      simp [ahead, Tree.first, nameOfToken, Token.name?, hmark] at h

lemma OpenedByMarks.suffix {trees behind : List Tree} (h : OpenedByMarks trees)
    (hsuffix : behind <:+ trees) : OpenedByMarks behind :=
  fun opener inside closer hmem => h opener inside closer (hsuffix.subset hmem)

lemma startsWithWord_iff {trees : List Tree} {word : String} :
    startsWithWord trees word = true ↔ ∃ t rest, trees = t :: rest ∧ t.isWord word = true := by
  cases trees with
  | nil => simp [startsWithWord]
  | cons t rest => simp [startsWithWord]

lemma startsWithPunct_iff {trees : List Tree} {mark : String} :
    startsWithPunct trees mark = true ↔ ∃ t rest, trees = t :: rest ∧ t.isPunct mark = true := by
  cases trees with
  | nil => simp [startsWithPunct]
  | cons t rest => simp [startsWithPunct]

lemma leaf_of_isWord {t : Tree} {word : String} (h : t.isWord word = true) :
    ∃ token, t = .leaf token ∧ token.kind = .ident word := by
  cases t with
  | leaf token => exact ⟨token, rfl, by simpa [Tree.isWord, Token.isWord] using h⟩
  | group opener inside closer => cases h

lemma leaf_of_isPunct {t : Tree} {mark : String} (h : t.isPunct mark = true) :
    ∃ token, t = .leaf token ∧ token.kind = .punct mark := by
  cases t with
  | leaf token => exact ⟨token, rfl, by simpa [Tree.isPunct, Token.isPunct] using h⟩
  | group opener inside closer => cases h

lemma leaf_of_ident {t : Tree} (h : t.name?.isSome = true) :
    ∃ token name, t = .leaf token ∧ token.kind = .ident name := by
  cases t with
  | leaf token =>
    cases hkind : token.kind with
    | ident name => exact ⟨token, name, rfl, hkind⟩
    | _ => simp [Tree.name?, Token.name?, hkind] at h
  | group opener inside closer => cases h

lemma isPunct_of_isWord {t : Tree} {word mark : String} (h : t.isWord word = true) :
    t.isPunct mark = false := by
  obtain ⟨token, rfl, hkind⟩ := leaf_of_isWord h
  simp [Tree.isPunct, Token.isPunct, hkind]

lemma isWord_unique {t : Tree} {word other : String} (h : t.isWord word = true)
    (hother : t.isWord other = true) : word = other := by
  obtain ⟨token, rfl, hkind⟩ := leaf_of_isWord h
  simpa [Tree.isWord, Token.isWord, hkind] using hother

lemma group_of_inside? {t : Tree} {mark : String} {content : List Tree × Token}
    (h : t.inside? mark = some content) :
    ∃ opener, t = .group opener content.1 content.2 ∧ opener.isPunct mark = true := by
  cases t with
  | leaf token => cases h
  | group opener inside closer =>
    rw [Tree.inside?] at h
    split at h
    · rename_i hopener
      cases h
      exact ⟨opener, rfl, hopener⟩
    · cases h

lemma isGroup_of_inside? {t : Tree} {opener : String} {inside : List Tree} {closer : Token}
    (h : t.inside? opener = some (inside, closer)) : t.isGroup opener = true := by
  obtain ⟨o, rfl, ho⟩ := group_of_inside? h
  exact ho

/-! ## Imports -/

variable {after : Token} {o o' : Outline}

lemma defaultImport_part (clause : List Tree) :
    ∃ defaults, clause = defaults ++ (defaultImport clause).2 ∧ DefaultPart defaults := by
  unfold defaultImport
  split
  · rename_i t rest
    split
    · rename_i name hname
      split
      · have hsome : (Tree.leaf t).name?.isSome = true := Option.isSome_of_eq_some hname
        unfold dropPunct
        dsimp only
        split
        · rename_i hcomma
          obtain ⟨comma, more, rfl, hcomma⟩ := startsWithPunct_iff.mp hcomma
          exact ⟨[.leaf t, comma], rfl, .before hsome hcomma⟩
        · exact ⟨[.leaf t], rfl, .alone hsome⟩
      · exact ⟨[], rfl, .absent⟩
    · exact ⟨[], rfl, .absent⟩
  · exact ⟨[], rfl, .absent⟩

/-- The word before the module's name is checked last. -/
lemma from_checked {α : Type} {e : SyntaxError} {width : Nat} {value found : α}
    {trees rest : List Tree}
    (h : (if decide (trees.length = width) || !startsWithWord trees "from" then .error e
      else .ok (value, trees.tail)) = Except.ok (found, rest)) :
    ∃ word, trees = word :: rest ∧ word.isWord "from" = true := by
  split at h
  · cases h
  · rename_i hword
    cases h
    have hstarts : startsWithWord trees "from" = true := by
      cases hstarts : startsWithWord trees "from" with
      | true => rfl
      | false => exact absurd (by rw [hstarts, Bool.not_false, Bool.or_true]) hword
    obtain ⟨word, more, rfl, hfrom⟩ := startsWithWord_iff.mp hstarts
    exact ⟨word, rfl, hfrom⟩

lemma importClause_form {clause rest : List Tree} {bindings : List (ImportBinding × BoundName)}
    (hafter : after.kind = .endOfFile) (hmarks : OpenedByMarks clause)
    (h : importClause after clause = .ok (bindings, rest)) :
    ∃ defaults others word, clause = defaults ++ (others ++ word :: rest) ∧ DefaultPart defaults ∧
      OtherPart others ∧ word.isWord "from" = true := by
  obtain ⟨defaults, hclause, hdefaults⟩ := defaultImport_part clause
  unfold importClause at h
  rcases hpair : defaultImport clause with ⟨bound, trees⟩
  rw [hpair] at h hclause
  dsimp only at h hclause
  have hsuffix : trees <:+ clause := ⟨defaults, hclause.symm⟩
  have hmarks := hmarks.suffix hsuffix
  split at h
  · obtain ⟨word, hword, -⟩ := from_checked h
    cases hword
  · rename_i t more
    split at h
    · rename_i hstar
      split at h
      · rename_i has
        obtain ⟨as, names, rfl, has⟩ := startsWithWord_iff.mp has
        obtain ⟨name, hname, h⟩ := bind_ok h
        obtain ⟨target, tail, rfl, htarget⟩ := name_ahead hafter
          (hmarks.suffix ((List.suffix_cons _ _).trans (List.suffix_cons _ _))) hname
        obtain ⟨word, rfl, hword⟩ := from_checked h
        exact ⟨defaults, [t, as, target], word, hclause, hdefaults, .whole hstar has htarget, hword⟩
      · cases h
    · split at h
      · rename_i inside closer hinside
        obtain ⟨elements, -, h⟩ := bind_ok h
        obtain ⟨word, rfl, hword⟩ := from_checked h
        exact ⟨defaults, [t], word, hclause, hdefaults, .members (isGroup_of_inside? hinside), hword⟩
      · obtain ⟨word, htrees, hword⟩ := from_checked h
        dsimp only at htrees
        rw [htrees] at hclause
        exact ⟨defaults, [], word, hclause, hdefaults, .absent, hword⟩

lemma pastAttributes_part (trees : List Tree) :
    ∃ attributes, trees = attributes ++ pastAttributes trees ∧ Attributes attributes := by
  unfold pastAttributes
  split
  · rename_i word list rest
    split
    · rename_i hwith
      simp only [Bool.and_eq_true, Bool.or_eq_true] at hwith
      exact ⟨[word, list], rfl, .given hwith.1.1 hwith.2⟩
    · exact ⟨[], rfl, .absent⟩
  · exact ⟨[], rfl, .absent⟩

/-- Behind the name of the module nothing depends on the bindings. -/
lemma importSource_form {trees rest behind : List Tree} (bindings : List (ImportBinding × BoundName))
    (hafter : after.kind = .endOfFile) (hmarks : OpenedByMarks rest)
    (h : (match (ahead after rest).text? with
      | none => Except.error (unexpected (ahead after rest))
      | some source => do
        let behind := pastSemicolon (pastAttributes rest.tail)
        let o ← o.declareAll .lexical (bindings.map Prod.snd)
        let replacement := importReplacement source (bindings.map Prod.fst)
        .ok (o.addEdit (spanOf (consumed trees behind)) replacement, behind)) = .ok (o', behind)) :
    ∃ source attributes tail replacement, rest = source :: (attributes ++ tail) ∧
      isText source = true ∧ Attributes attributes ∧ behind = pastSemicolon tail ∧
      o'.edits = o.edits ++ [⟨spanOf (consumed trees behind), replacement⟩] := by
  split at h
  · cases h
  · rename_i name hname
    obtain ⟨o₁, hdeclare, h⟩ := bind_ok h
    cases h
    obtain ⟨source, more, rfl, hsource⟩ := text_ahead hafter hmarks (Option.isSome_of_eq_some hname)
    obtain ⟨attributes, hmore, hattributes⟩ := pastAttributes_part more
    refine ⟨source, attributes, pastAttributes more,
      importReplacement name (bindings.map Prod.fst), by rw [← hmore], hsource, hattributes, rfl, ?_⟩
    rw [addEdit_edits, declareAll_edits hdeclare]

/-- An import is one form, and its edit spans the form and the semicolon behind it. -/
lemma importDeclaration_form {i : Tree} {clause behind : List Tree} (hi : i.isWord "import" = true)
    (hafter : after.kind = .endOfFile) (hmarks : OpenedByMarks (i :: clause))
    (h : importDeclaration after o (i :: clause) = .ok (o', behind)) :
    ∃ form tail replacement, i :: clause = form ++ tail ∧ ModuleSyntax form ∧
      behind = pastSemicolon tail ∧
      o'.edits = o.edits ++ [⟨spanOf (consumed (i :: clause) behind), replacement⟩] := by
  have hclause := hmarks.suffix (List.suffix_cons i clause)
  unfold importDeclaration at h
  rw [List.tail_cons] at h
  dsimp only at h
  split at h
  · obtain ⟨source, attributes, tail, replacement, rfl, htext, hattributes, hbehind, hedits⟩ :=
      importSource_form [] hafter hclause h
    exact ⟨i :: source :: attributes, tail, replacement, rfl, .bare hi htext hattributes, hbehind, hedits⟩
  · obtain ⟨⟨bindings, rest⟩, hbindings, h⟩ := bind_ok h
    obtain ⟨defaults, others, word, rfl, hdefaults, hothers, hword⟩ :=
      importClause_form hafter hclause hbindings
    have hsuffix : rest <:+ defaults ++ (others ++ word :: rest) :=
      ((List.suffix_cons word rest).trans (List.suffix_append others _)).trans
        (List.suffix_append defaults _)
    obtain ⟨source, attributes, tail, replacement, rfl, htext, hattributes, hbehind, hedits⟩ :=
      importSource_form _ hafter (hclause.suffix hsuffix) h
    refine ⟨i :: (defaults ++ (others ++ word :: source :: attributes)), tail, replacement, ?_,
      .import hi hdefaults hothers hword htext hattributes, hbehind, hedits⟩
    simp

end TaskRunner.Proofs
