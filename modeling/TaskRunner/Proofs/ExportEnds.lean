import TaskRunner.Proofs.ModuleSyntax

/-!
# Where exports end

An export list ends behind its members or behind the name of a module. The end of an `export *` is that
of a statement of no interest, so without a semicolon it takes in what follows, up to a declaration that
starts a line.
-/

namespace TaskRunner.Proofs
open Source

variable {after : Token} {o o' : Outline}

/-- A reader that erases one form and the semicolon behind it. -/
def ErasesForm (o : Outline) (trees : List Tree) (o' : Outline) (behind : List Tree) : Prop :=
  ∃ form tail replacement, trees = form ++ tail ∧ ModuleSyntax form ∧ behind = pastSemicolon tail ∧
    o'.edits = o.edits ++ [⟨spanOf (consumed trees behind), replacement⟩]

lemma exportList_form {e members : Tree} {rest inside behind : List Tree} {closer : Token}
    (he : e.isWord "export" = true) (hmembers : members.isGroup "\x7b" = true)
    (hafter : after.kind = .endOfFile) (hmarks : OpenedByMarks rest)
    (h : exportList after o (e :: members :: rest) inside closer = .ok (o', behind)) :
    ErasesForm o (e :: members :: rest) o' behind := by
  obtain ⟨entries, -, h⟩ := bind_ok h
  dsimp only [List.drop_succ_cons, List.drop_zero] at h
  split at h
  · rename_i hfrom
    obtain ⟨word, more, rfl, hword⟩ := startsWithWord_iff.mp hfrom
    split at h
    · rename_i hsource
      cases h
      obtain ⟨source, tail, rfl, htext⟩ := text_ahead hafter
        (hmarks.suffix (List.suffix_cons word more)) hsource
      exact ⟨[e, members, word, source], tail, "", rfl, .reexport he hmembers hword htext, rfl, rfl⟩
    · cases h
  · cases h
    exact ⟨[e, members], rest, "", rfl, .list he hmembers, rfl, rfl⟩

/-! ## Exports of everything -/

/-- Whether a declaration starts a line here. -/
def newDeclaration (after : Token) (trees : List Tree) : Bool :=
  trees.head?.any (·.first.newlineBefore) && startsDeclaration after trees

/-- An `export *` ends with its clause: behind the name of the module nothing comes, or a semicolon, or a
declaration on a new line. It also ends before a name that is taken for such a declaration. -/
def EndsInClause (after : Token) (rest : List Tree) : Prop :=
  ∃ clause tail, rest = clause ++ tail ∧ StarClause clause ∧
    (tail = [] ∨ startsWithPunct tail ";" = true ∨ newDeclaration after tail = true ∨
      newDeclaration after (clause.tail ++ tail) = true)

lemma stopsAt_some {p : Token} {t : Tree} {rest : List Tree} :
    stopsAt after false (some p) (t :: rest) =
      ((newDeclaration after (t :: rest) && !leavesOpen p) || t.isPunct ";") := by
  simp [stopsAt, newDeclaration]

lemma newDeclaration_from {word : Tree} {rest : List Tree} (h : word.isWord "from" = true) :
    newDeclaration after (word :: rest) = false := by
  obtain ⟨token, rfl, hkind⟩ := leaf_of_isWord h
  simp [newDeclaration, startsDeclaration, Tree.name?, Token.name?, hkind, declarationWords]

/-- A text is no declaration, no semicolon, and it leaves nothing open. -/
lemma text_facts (after : Token) {source : Tree} (h : isText source = true) :
    (∀ rest, newDeclaration after (source :: rest) = false) ∧ source.isPunct ";" = false ∧
      leavesOpen source.last = false := by
  cases source with
  | group opener inside closer => cases h
  | leaf token =>
    obtain ⟨value, hvalue⟩ := Option.isSome_iff_exists.mp h
    have hkind : token.kind = .text value := by
      unfold Token.text? at hvalue
      split at hvalue
      · rename_i other hother
        rw [hother, Option.some.inj hvalue]
      · cases hvalue
    refine ⟨?_, ?_, ?_⟩
    · intro rest
      simp [newDeclaration, startsDeclaration, Tree.name?, Token.name?, hkind]
    · simp [Tree.isPunct, Token.isPunct, hkind]
    · simp [leavesOpen, Tree.last, hkind]

lemma isPunct_of_isNameOrText {name : Tree} {mark : String} (h : isNameOrText name = true) :
    name.isPunct mark = false := by
  cases name with
  | group opener inside closer => cases h
  | leaf token =>
    cases hkind : token.kind with
    | punct other => simp [isNameOrText, Token.nameOrText?, hkind] at h
    | _ => simp [Tree.isPunct, Token.isPunct, hkind]

/-- The module's name and the word before it are never cut apart. -/
lemma cut_source {p : Token} {word source : Tree} {tail : List Tree}
    (hword : word.isWord "from" = true) (hsource : isText source = true) :
    cutExpression after false (some p) (word :: source :: tail) =
      (word :: source :: (cutExpression after false (some source.last) tail).1,
        (cutExpression after false (some source.last) tail).2) := by
  obtain ⟨hnew, hmark, -⟩ := text_facts after hsource
  rw [cutExpression_go, cutExpression_go]
  · rw [stopsAt_some, hnew, hmark]
    rfl
  · rw [stopsAt_some, newDeclaration_from hword, isPunct_of_isWord hword]
    rfl

/-- Behind the module's name the statement ends at once, or it takes in a tree that is no semicolon. -/
lemma tail_cases (after : Token) {source : Tree} (hsource : isText source = true)
    (tail : List Tree) :
    ((tail = [] ∨ startsWithPunct tail ";" = true ∨ newDeclaration after tail = true) ∧
      cutExpression after false (some source.last) tail = ([], tail)) ∨
    (¬(tail = [] ∨ startsWithPunct tail ";" = true ∨ newDeclaration after tail = true) ∧
      semicolonOf tail = [] ∧ (cutExpression after false (some source.last) tail).1 ≠ []) := by
  obtain ⟨-, -, hopen⟩ := text_facts after hsource
  cases tail with
  | nil => exact .inl ⟨.inl rfl, rfl⟩
  | cons t rest =>
    cases hstop : stopsAt after false (some source.last) (t :: rest) with
    | true =>
      refine .inl ⟨?_, cutExpression_stop hstop⟩
      rw [stopsAt_some, hopen, Bool.not_false, Bool.and_true, Bool.or_eq_true] at hstop
      exact .inr hstop.symm
    | false =>
      rw [stopsAt_some, hopen, Bool.not_false, Bool.and_true, Bool.or_eq_false_iff] at hstop
      have hmark : startsWithPunct (t :: rest) ";" = false := hstop.2
      refine .inr ⟨by simp [hstop.1, hmark], by rw [semicolonOf, hmark]; rfl, ?_⟩
      rw [cutExpression_go (by rw [stopsAt_some, hstop.1, hstop.2]; rfl)]
      exact List.cons_ne_nil _ _

lemma prefix_behind_source (after : Token) {source : Tree} (hsource : isText source = true)
    (front tail : List Tree) :
    front ++ ((cutExpression after false (some source.last) tail).1 ++
        semicolonOf (cutExpression after false (some source.last) tail).2) <+:
      front ++ semicolonOf tail ↔
    tail = [] ∨ startsWithPunct tail ";" = true ∨ newDeclaration after tail = true := by
  rw [List.prefix_append_right_inj]
  rcases tail_cases after hsource tail with ⟨hends, hcut⟩ | ⟨hends, hnone, hcut⟩
  · rw [hcut]
    exact ⟨fun _ => hends, fun _ => List.prefix_rfl⟩
  · rw [hnone, List.prefix_nil]
    exact ⟨fun h => absurd (List.append_eq_nil_iff.mp h).1 hcut, fun h => absurd h hends⟩

/-- The part of the trees that an `export *` takes in behind its star. -/
def takenIn (after : Token) (star : Tree) (rest : List Tree) : List Tree :=
  (cutExpression after false (some star.last) rest).1 ++
    semicolonOf (cutExpression after false (some star.last) rest).2

/-- What is taken in stays in the clause if and only if the statement ends with it. -/
lemma takenIn_clause {star : Tree} (hstar : star.isPunct "*" = true) {clause : List Tree}
    (hclause : StarClause clause) (tail : List Tree) :
    takenIn after star (clause ++ tail) <+: clause ++ semicolonOf tail ↔
      tail = [] ∨ startsWithPunct tail ";" = true ∨ newDeclaration after tail = true ∨
        newDeclaration after (clause.tail ++ tail) = true := by
  obtain ⟨mark, rfl, hmark⟩ := leaf_of_isPunct hstar
  have hopen : leavesOpen (Tree.leaf mark).last = true := by simp [leavesOpen, Tree.last, hmark]
  cases hclause with
  | @unnamed word source hword hsource =>
    obtain ⟨hnew, -, -⟩ := text_facts after hsource
    rw [takenIn, List.cons_append, List.cons_append, List.nil_append, cut_source hword hsource,
      List.tail_cons, List.singleton_append, hnew]
    simpa using prefix_behind_source after hsource [word, source] tail
  | @named as name word source has hname hword hsource =>
    obtain ⟨token, rfl, hkind⟩ := leaf_of_isWord has
    have hclosed : leavesOpen (Tree.leaf token).last = false := by
      simp [leavesOpen, Tree.last, hkind, openWords]
    have hcut : cutExpression after false (some (Tree.leaf mark).last)
        (.leaf token :: name :: word :: source :: tail) =
        (.leaf token :: (cutExpression after false (some token) (name :: word :: source :: tail)).1,
          (cutExpression after false (some token) (name :: word :: source :: tail)).2) := by
      rw [cutExpression_go]
      · rfl
      · rw [stopsAt_some, hopen, isPunct_of_isWord has]
        simp
    rw [takenIn]
    simp only [List.cons_append, List.nil_append, List.tail_cons]
    rw [hcut]
    cases hname' : newDeclaration after (name :: word :: source :: tail) with
    | true =>
      have hclosed' : leavesOpen token = false := hclosed
      rw [cutExpression_stop (by rw [stopsAt_some, hname']; simp [hclosed'])]
      have hnone : semicolonOf (name :: word :: source :: tail) = [] := by
        simp [semicolonOf, startsWithPunct, isPunct_of_isNameOrText hname]
      rw [hnone]
      exact ⟨fun _ => by simp, fun _ => ⟨_, rfl⟩⟩
    | false =>
      rw [cutExpression_go (by rw [stopsAt_some, hname', isPunct_of_isNameOrText hname]; rfl),
        cut_source hword hsource]
      simpa using prefix_behind_source after hsource [.leaf token, name, word, source] tail

lemma star_withinSyntax_iff {e star : Tree} {taken behind : List Tree} (he : e.isWord "export" = true)
    (hstar : star.isPunct "*" = true) :
    WithinSyntax (e :: star :: taken) behind ↔
      ∃ clause tail, taken ++ behind = clause ++ tail ∧ StarClause clause ∧
        taken <+: clause ++ semicolonOf tail := by
  constructor
  · rintro ⟨form, tail, hsplit, hform, hprefix⟩
    obtain ⟨mark, rfl, hmark⟩ := leaf_of_isPunct hstar
    cases hform with
    | word =>
      obtain ⟨rfl, rfl⟩ := List.cons.inj hsplit
      have hnone : semicolonOf (Tree.leaf mark :: taken ++ behind) = [] := by
        simp [semicolonOf, startsWithPunct, Tree.isPunct, Token.isPunct, hmark]
      have hlength : (e :: Tree.leaf mark :: taken).length ≤
          ([e] ++ semicolonOf (Tree.leaf mark :: taken ++ behind)).length := hprefix.length_le
      rw [hnone] at hlength
      simp at hlength
    | default _ hd =>
      simp only [List.cons_append, List.nil_append, List.cons.injEq] at hsplit
      obtain ⟨-, rfl, -⟩ := hsplit
      rw [isPunct_of_isWord hd] at hstar
      cases hstar
    | list _ hmembers =>
      simp only [List.cons_append, List.nil_append, List.cons.injEq] at hsplit
      obtain ⟨-, rfl, -⟩ := hsplit
      cases hmembers
    | reexport _ hmembers =>
      simp only [List.cons_append, List.nil_append, List.cons.injEq] at hsplit
      obtain ⟨-, rfl, -⟩ := hsplit
      cases hmembers
    | @star _ _ clause _ _ hclause =>
      simp only [List.cons_append, List.cons.injEq] at hsplit hprefix
      obtain ⟨rfl, rfl, hsplit⟩ := hsplit
      exact ⟨clause, tail, hsplit, hclause, by simpa using hprefix⟩
    | bare hi =>
      simp only [List.cons_append, List.cons.injEq] at hsplit
      obtain ⟨rfl, -⟩ := hsplit
      exact absurd (isWord_unique he hi) (by decide)
    | «import» hi =>
      simp only [List.cons_append, List.cons.injEq] at hsplit
      obtain ⟨rfl, -⟩ := hsplit
      exact absurd (isWord_unique he hi) (by decide)
  · rintro ⟨clause, tail, hsplit, hclause, hprefix⟩
    refine ⟨e :: star :: clause, tail, ?_, .star he hstar hclause, ?_⟩
    · simp [hsplit]
    · simpa using hprefix

/-- What an `export *` erases belongs to its clause if and only if it ends with the clause. -/
lemma takenIn_iff {e star : Tree} {rest behind : List Tree} (he : e.isWord "export" = true)
    (hstar : star.isPunct "*" = true) (hrest : takenIn after star rest ++ behind = rest) :
    WithinSyntax (e :: star :: takenIn after star rest) behind ↔ EndsInClause after rest := by
  rw [star_withinSyntax_iff he hstar]
  constructor
  · rintro ⟨clause, tail, hsplit, hclause, hprefix⟩
    rw [hrest] at hsplit
    rw [hsplit] at hprefix
    exact ⟨clause, tail, hsplit, hclause, (takenIn_clause hstar hclause tail).mp hprefix⟩
  · rintro ⟨clause, tail, hsplit, hclause, hends⟩
    refine ⟨clause, tail, hrest.trans hsplit, hclause, ?_⟩
    rw [hsplit]
    exact (takenIn_clause hstar hclause tail).mpr hends

end TaskRunner.Proofs
