import TaskRunner.Proofs.ExportEnds

/-!
# The pieces of a file

The statements of a file cut its trees into pieces that are kept and pieces that are erased. The edits of
the outline are those of the erased pieces, in order, and every erased piece is module syntax unless it
is an `export *` that does not end with its clause.
-/

namespace TaskRunner.Proofs
open Source

/-- A stretch of a file: kept as it is, or erased in favour of a text. -/
inductive Piece where
  | kept (trees : List Tree)
  | erased (trees : List Tree) (replacement : String)

/-- The trees of a piece. -/
def Piece.trees : Piece → List Tree
  | kept trees => trees
  | erased trees _ => trees

/-- The edit of an erased piece. -/
def Piece.edits : Piece → List Edit
  | kept _ => []
  | erased trees replacement => [⟨spanOf trees, replacement⟩]

/-- The trees of pieces in order. -/
def treesOf (pieces : List Piece) : List Tree :=
  pieces.flatMap Piece.trees

/-- The edits of pieces in order. -/
def editsOf (pieces : List Piece) : List Edit :=
  pieces.flatMap Piece.edits

@[simp] lemma treesOf_nil : treesOf [] = [] := rfl

@[simp] lemma treesOf_cons (piece : Piece) (pieces : List Piece) :
    treesOf (piece :: pieces) = piece.trees ++ treesOf pieces := rfl

@[simp] lemma treesOf_append (pieces more : List Piece) :
    treesOf (pieces ++ more) = treesOf pieces ++ treesOf more :=
  List.flatMap_append

@[simp] lemma editsOf_nil : editsOf [] = [] := rfl

@[simp] lemma editsOf_cons (piece : Piece) (pieces : List Piece) :
    editsOf (piece :: pieces) = piece.edits ++ editsOf pieces := rfl

@[simp] lemma editsOf_append (pieces more : List Piece) :
    editsOf (pieces ++ more) = editsOf pieces ++ editsOf more :=
  List.flatMap_append

/-- If an `export *` starts here, it ends with its clause. -/
def ClauseEnds (after : Token) (trees : List Tree) : Prop :=
  ∀ e star rest, trees = e :: star :: rest → e.isWord "export" = true → star.isPunct "*" = true →
    EndsInClause after rest

/-- Erased trees belong to module syntax if and only if they are no `export *` or one that ends with its
clause. -/
def RightlyErased (after : Token) (trees behind : List Tree) : Prop :=
  trees ≠ [] ∧ (WithinSyntax trees behind ↔ ClauseEnds after (trees ++ behind))

/-- All erased pieces are erased rightly, with further trees behind the pieces. -/
def AllRight (after : Token) : List Piece → List Tree → Prop
  | [], _ => True
  | .kept _ :: more, behind => AllRight after more behind
  | .erased trees _ :: more, behind =>
    RightlyErased after trees (treesOf more ++ behind) ∧ AllRight after more behind

lemma AllRight.append {after : Token} {pieces more : List Piece} {behind : List Tree}
    (hpieces : AllRight after pieces (treesOf more ++ behind)) (hmore : AllRight after more behind) :
    AllRight after (pieces ++ more) behind := by
  induction pieces with
  | nil => exact hmore
  | cons piece rest ih =>
    cases piece with
    | kept trees => exact ih hpieces
    | erased trees replacement =>
      have hright := hpieces.1
      rw [← List.append_assoc, ← treesOf_append] at hright
      exact ⟨hright, ih hpieces.2⟩

/-- The pieces that a reader makes of the trees in front of what it leaves. -/
structure Cuts (after : Token) (o : Outline) (trees : List Tree) (pieces : List Piece) (o' : Outline)
    (behind : List Tree) : Prop where
  trees : trees = treesOf pieces ++ behind
  edits : o'.edits = o.edits ++ editsOf pieces
  right : AllRight after pieces behind

variable {after : Token} {o o' : Outline} {trees behind : List Tree}

lemma Reads.cuts (h : Reads o trees o' behind) :
    Cuts after o trees [.kept (consumed trees behind)] o' behind :=
  ⟨by simp [Piece.trees, consumed_append h.suffix], by simp [Piece.edits, h.edits], trivial⟩

lemma Reads.cuts_behind {form : List Tree} {replacement : String} {o₁ : Outline}
    (hne : form ≠ []) (hform : ModuleSyntax form)
    (hstar : ∀ e star rest, form ++ trees = e :: star :: rest → star.isPunct "*" = false)
    (hedits : o₁.edits = o.edits ++ [⟨spanOf form, replacement⟩]) (h : Reads o₁ trees o' behind) :
    Cuts after o (form ++ trees) [.erased form replacement, .kept (consumed trees behind)] o'
      behind := by
  have htrees := consumed_append h.suffix
  refine ⟨by simp [Piece.trees, htrees], by simp [Piece.edits, h.edits, hedits], ?_, trivial⟩
  have hbehind : treesOf [.kept (consumed trees behind)] ++ behind = trees := by
    simp [Piece.trees, htrees]
  rw [hbehind]
  refine ⟨hne, fun _ => ?_, fun _ => ⟨form, trees, rfl, hform, List.prefix_append form _⟩⟩
  intro e star rest hsplit _ hpunct
  rw [hstar e star rest hsplit] at hpunct
  cases hpunct

lemma ErasesForm.cuts (h : ErasesForm o trees o' behind)
    (hstar : ∀ e star rest, trees = e :: star :: rest → e.isWord "export" = true →
      star.isPunct "*" = false) :
    ∃ pieces, Cuts after o trees pieces o' behind := by
  obtain ⟨form, tail, replacement, rfl, hform, rfl, hedits⟩ := h
  obtain ⟨hconsumed, hwithin⟩ := withinSyntax_form hform tail
  have hsplit : form ++ semicolonOf tail ++ pastSemicolon tail = form ++ tail := by
    rw [List.append_assoc, semicolonOf_append]
  rw [hconsumed] at hedits
  refine ⟨[.erased (form ++ semicolonOf tail) replacement], ?_, ?_, ⟨?_, ?_⟩, trivial⟩
  · simp [Piece.trees, semicolonOf_append]
  · simp [Piece.edits, hedits]
  · intro hnil
    cases hform <;> simp at hnil
  · rw [treesOf_nil, List.nil_append, hsplit]
    refine ⟨fun _ => ?_, fun _ => hwithin⟩
    intro e star rest heq he hpunct
    rw [hstar e star rest heq he] at hpunct
    cases hpunct

/-! ## Statements -/

/-- An `export *` is cut off like a statement of no interest. -/
lemma star_cuts {e star : Tree} {rest : List Tree} (he : e.isWord "export" = true)
    (hstar : star.isPunct "*" = true)
    (hbehind : pastStatement after (star :: rest) = behind)
    (hedits : o'.edits = o.edits ++ [⟨spanOf (consumed (e :: star :: rest) behind), ""⟩]) :
    ∃ pieces, Cuts after o (e :: star :: rest) pieces o' behind := by
  obtain ⟨mark, rfl, hmark⟩ := leaf_of_isPunct hstar
  have hgo : stopsAt after false none (.leaf mark :: rest) = false := by
    simp [stopsAt, Tree.isPunct, Token.isPunct, hmark]
  have hpast : behind = pastSemicolon (cutExpression after false (some (Tree.leaf mark).last) rest).2 := by
    rw [← hbehind, pastStatement, cutExpression_go hgo]
    dsimp only
    cases hcut : (cutExpression after false (some (Tree.leaf mark).last) rest).2 with
    | nil => rfl
    | cons t more =>
      unfold pastSemicolon
      by_cases hsemicolon : t.isPunct ";" = true
      · simp [startsWithPunct, hsemicolon]
      · simp [startsWithPunct, hsemicolon]
  have hrest : takenIn after (.leaf mark) rest ++ behind = rest := by
    rw [takenIn, hpast, List.append_assoc, semicolonOf_append, cutExpression_append]
  have hconsumed : consumed (e :: .leaf mark :: rest) behind =
      e :: .leaf mark :: takenIn after (.leaf mark) rest := by
    have hsplit : e :: .leaf mark :: rest =
        (e :: .leaf mark :: takenIn after (.leaf mark) rest) ++ behind := by
      simp [hrest]
    rw [hsplit, consumed_eq]
  rw [hconsumed] at hedits
  refine ⟨[.erased (e :: .leaf mark :: takenIn after (.leaf mark) rest) ""], ?_, ?_,
    ⟨List.cons_ne_nil _ _, ?_⟩, trivial⟩
  · simp [Piece.trees, hrest]
  · simp [Piece.edits, hedits]
  · rw [treesOf_nil, List.nil_append, takenIn_iff he hstar hrest, List.cons_append, List.cons_append,
      hrest]
    constructor
    · intro hends e' star' rest' heq _ _
      simp only [List.cons.injEq] at heq
      rw [← heq.2.2]
      exact hends
    · intro hends
      exact hends e (.leaf mark) rest rfl he hstar

lemma word_cuts {e t : Tree} {rest : List Tree} (he : e.isWord "export" = true)
    (ht : t.isPunct "*" = false)
    (h : Reads (o.addEdit e.first.span "") (t :: rest) o' behind) :
    ∃ pieces, Cuts after o (e :: t :: rest) pieces o' behind := by
  obtain ⟨token, rfl, hkind⟩ := leaf_of_isWord he
  refine ⟨_, h.cuts_behind (List.cons_ne_nil (.leaf token) []) (.word he) ?_ rfl⟩
  intro e' star' rest' heq
  simp only [List.cons_append, List.nil_append, List.cons.injEq] at heq
  rw [← heq.2.1]
  exact ht

lemma exportDefault_cuts {leading : List Comment} {e d : Tree} {rest : List Tree}
    (he : e.isWord "export" = true) (hd : d.isWord "default" = true)
    (h : exportDefault after leading o (e :: d :: rest) = .ok (o', behind)) :
    ∃ pieces, Cuts after o (e :: d :: rest) pieces o' behind := by
  have hcuts : ∀ {replacement : String},
      Reads (o.addEdit (spanOf [e, d]) replacement) rest o' behind →
      ∃ pieces, Cuts after o ([e, d] ++ rest) pieces o' behind := by
    intro replacement hreads
    refine ⟨_, hreads.cuts_behind (List.cons_ne_nil _ _) (.default he hd) ?_ rfl⟩
    intro e' star' rest' heq
    simp only [List.cons_append, List.cons.injEq] at heq
    rw [← heq.2.1]
    exact isPunct_of_isWord hd
  unfold exportDefault at h
  dsimp only [List.drop_succ_cons, List.drop_zero, List.take_succ_cons, List.take_zero] at h
  split at h
  · exact hcuts (functionDeclaration_reads h)
  · split at h
    · exact hcuts (classDeclaration_reads h)
    · cases h
      exact hcuts ⟨pastStatement_suffix _ _, rfl⟩

lemma exportDeclaration_cuts (hafter : after.kind = .endOfFile) (hmarks : OpenedByMarks trees)
    (hword : startsWithWord trees "export" = true)
    (h : exportDeclaration after o trees = .ok (o', behind)) :
    ∃ pieces, Cuts after o trees pieces o' behind := by
  obtain ⟨e, more, rfl, he⟩ := startsWithWord_iff.mp hword
  unfold exportDeclaration at h
  split at h
  · rename_i e' t rest heq
    obtain ⟨rfl, rfl⟩ := List.cons.inj heq
    dsimp only at h
    split at h
    · exact exportDefault_cuts he ‹_› h
    · split at h
      · rename_i hfunction
        refine word_cuts he ?_ (functionDeclaration_reads h)
        simp only [Bool.or_eq_true, Bool.and_eq_true] at hfunction
        rcases hfunction with hword | ⟨hword, -⟩
        · exact isPunct_of_isWord hword
        · exact isPunct_of_isWord hword
      · split at h
        · rename_i hvariables
          refine word_cuts he ?_ (variableDeclaration_reads h)
          simp only [Bool.or_eq_true] at hvariables
          rcases hvariables with (hword | hword) | hword
          · exact isPunct_of_isWord hword
          · exact isPunct_of_isWord hword
          · exact isPunct_of_isWord hword
        · split at h
          · rename_i hclass
            exact word_cuts he (isPunct_of_isWord hclass) (classDeclaration_reads h)
          · split at h
            · rename_i hstar
              cases h
              exact star_cuts he hstar rfl rfl
            · split at h
              · rename_i inside closer hinside
                have hlist := isGroup_of_inside? hinside
                refine (exportList_form he hlist hafter (hmarks.suffix ?_) h).cuts ?_
                · exact (List.suffix_cons _ _).trans (List.suffix_cons _ _)
                · intro e' star' rest' heq _
                  simp only [List.cons.injEq] at heq
                  rw [← heq.2.1]
                  cases t with
                  | leaf token => cases hlist
                  | group opener inside closer => rfl
              · cases h
  · cases h

lemma statement_cuts (hafter : after.kind = .endOfFile) (hmarks : OpenedByMarks trees)
    (h : statement after o trees = .ok (o', behind)) :
    ∃ pieces, Cuts after o trees pieces o' behind := by
  unfold statement at h
  dsimp only at h
  split at h
  · rename_i himport
    rw [Bool.and_eq_true] at himport
    obtain ⟨i, clause, rfl, hi⟩ := startsWithWord_iff.mp himport.1
    obtain ⟨form, tail, replacement, hform⟩ := importDeclaration_form hi hafter hmarks h
    refine ErasesForm.cuts ⟨form, tail, replacement, hform⟩ ?_
    intro e star rest heq he
    obtain ⟨rfl, -⟩ := List.cons.inj heq
    exact absurd (isWord_unique hi he) (by decide)
  · split at h
    · exact exportDeclaration_cuts hafter hmarks ‹_› h
    · split at h
      · exact ⟨_, (functionDeclaration_reads h).cuts⟩
      · split at h
        · exact ⟨_, (variableDeclaration_reads h).cuts⟩
        · split at h
          · exact ⟨_, (classDeclaration_reads h).cuts⟩
          · cases h
            exact ⟨_, Reads.cuts ⟨pastStatement_suffix _ _, rfl⟩⟩

lemma Cuts.behind_openedByMarks {pieces : List Piece} (h : Cuts after o trees pieces o' behind)
    (hmarks : OpenedByMarks trees) : OpenedByMarks behind :=
  hmarks.suffix ⟨treesOf pieces, h.trees.symm⟩

/-- The statements of a file cut all its trees into pieces. -/
lemma statements_cuts {fuel : Nat} (hafter : after.kind = .endOfFile) (hmarks : OpenedByMarks trees)
    (h : statements after fuel o trees = .ok o') :
    ∃ pieces, Cuts after o trees pieces o' [] := by
  -- What is left when the fuel is used up is kept.
  have hkept : Cuts after o trees [.kept trees] o [] :=
    ⟨by simp [Piece.trees], by simp [Piece.edits], trivial⟩
  induction fuel generalizing o trees with
  | zero =>
    cases h
    exact ⟨_, hkept⟩
  | succ fuel ih =>
    cases trees with
    | nil =>
      cases h
      exact ⟨_, hkept⟩
    | cons t rest =>
      obtain ⟨⟨o₁, behind⟩, hstatement, h⟩ := bind_ok h
      obtain ⟨pieces, hpieces⟩ := statement_cuts hafter hmarks hstatement
      obtain ⟨more, hmore⟩ := ih (hpieces.behind_openedByMarks hmarks) h
        ⟨by simp [Piece.trees], by simp [Piece.edits], trivial⟩
      refine ⟨pieces ++ more, ?_, ?_, ?_⟩
      · rw [hpieces.trees, hmore.trees]
        simp
      · rw [hmore.edits, hpieces.edits]
        simp
      · refine AllRight.append ?_ hmore.right
        rw [← hmore.trees]
        exact hpieces.right

end TaskRunner.Proofs
