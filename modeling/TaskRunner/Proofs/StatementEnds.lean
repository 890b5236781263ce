import TaskRunner.Source.Outline
import TaskRunner.Proofs.ExceptSteps

/-!
# What statements leave behind

Every reader of a statement leaves some end of the trees for the next one. Declarations of functions,
classes and variables make no edits.
-/

namespace TaskRunner.Proofs
open Source

variable {after : Token} {trees behind : List Tree} {o o' : Outline}

/-! ## Ends of the trees -/

lemma dropWord_suffix (word : String) (trees : List Tree) : dropWord word trees <:+ trees := by
  unfold dropWord
  split
  · exact List.tail_suffix trees
  · exact List.suffix_rfl

lemma dropPunct_suffix (mark : String) (trees : List Tree) : dropPunct mark trees <:+ trees := by
  unfold dropPunct
  split
  · exact List.tail_suffix trees
  · exact List.suffix_rfl

lemma pastSemicolon_suffix (trees : List Tree) : pastSemicolon trees <:+ trees := by
  cases trees with
  | nil => exact List.suffix_rfl
  | cons t rest =>
    unfold pastSemicolon
    dsimp only
    split
    · exact List.suffix_cons t rest
    · exact List.suffix_rfl

/-- Whether an expression ends before these trees. -/
def stopsAt (after : Token) (commas : Bool) (previous : Option Token) : List Tree → Bool
  | [] => true
  | t :: rest =>
    (previous.any fun p =>
      t.first.newlineBefore && startsDeclaration after (t :: rest) && !leavesOpen p) ||
      t.isPunct ";" || (commas && t.isPunct ",")

lemma cutExpression_stop {commas : Bool} {previous : Option Token}
    (h : stopsAt after commas previous trees = true) :
    cutExpression after commas previous trees = ([], trees) := by
  cases trees with
  | nil => rfl
  | cons t rest =>
    rw [cutExpression.eq_def]
    cases previous with
    | none => exact if_pos h
    | some p => exact if_pos h

lemma cutExpression_go {commas : Bool} {previous : Option Token} {t : Tree} {rest : List Tree}
    (h : stopsAt after commas previous (t :: rest) = false) :
    cutExpression after commas previous (t :: rest) =
      (t :: (cutExpression after commas (some t.last) rest).1,
        (cutExpression after commas (some t.last) rest).2) := by
  rw [Bool.eq_false_iff] at h
  rw [cutExpression.eq_def]
  cases previous with
  | none => exact if_neg h
  | some p => exact if_neg h

/-- Nothing is lost where an expression is cut off. -/
lemma cutExpression_append (after : Token) (commas : Bool) (previous : Option Token)
    (trees : List Tree) :
    (cutExpression after commas previous trees).1 ++ (cutExpression after commas previous trees).2 =
      trees := by
  induction trees generalizing previous with
  | nil => rfl
  | cons t rest ih =>
    cases hstop : stopsAt after commas previous (t :: rest) with
    | true => rw [cutExpression_stop hstop, List.nil_append]
    | false => rw [cutExpression_go hstop, List.cons_append, ih]

lemma cutExpression_suffix (after : Token) (commas : Bool) (previous : Option Token)
    (trees : List Tree) : (cutExpression after commas previous trees).2 <:+ trees :=
  ⟨_, cutExpression_append after commas previous trees⟩

lemma pastStatement_suffix (after : Token) (trees : List Tree) :
    pastStatement after trees <:+ trees := by
  have hcut := cutExpression_suffix after false none trees
  unfold pastStatement
  dsimp only
  split
  · exact (List.tail_suffix _).trans hcut
  · split
    · exact List.tail_suffix trees
    · exact hcut

lemma consumed_append (h : behind <:+ trees) : consumed trees behind ++ behind = trees := by
  obtain ⟨front, rfl⟩ := h
  have hlength : (front ++ behind).length - behind.length = front.length := by
    rw [List.length_append, Nat.add_sub_cancel]
  rw [consumed, hlength, List.take_left]

lemma consumed_eq (front behind : List Tree) : consumed (front ++ behind) behind = front := by
  have happend := consumed_append (List.suffix_append front behind)
  exact List.append_cancel_right happend

/-! ## Declarations -/

lemma declare_edits {kind : Declaration} {bound : BoundName} (h : o.declare kind bound = .ok o') :
    o'.edits = o.edits := by
  unfold Outline.declare at h
  cases kind with
  | lexical =>
    dsimp only at h
    split at h
    · cases h
    · cases h
      rfl
  | var =>
    dsimp only at h
    split at h
    · cases h
    · cases h
      rfl

lemma declareAll_edits {kind : Declaration} {names : List BoundName}
    (h : o.declareAll kind names = .ok o') : o'.edits = o.edits := by
  unfold Outline.declareAll at h
  induction names generalizing o with
  | nil =>
    cases h
    rfl
  | cons bound rest ih =>
    rw [List.foldlM_cons] at h
    obtain ⟨o₁, hbound, hrest⟩ := bind_ok h
    rw [ih hrest, declare_edits hbound]

@[simp] lemma addFunction_edits (o : Outline) (f : LocalFunction) :
    (o.addFunction f).edits = o.edits := rfl

@[simp] lemma addEdit_edits (o : Outline) (span : Span) (replacement : String) :
    (o.addEdit span replacement).edits = o.edits ++ [⟨span, replacement⟩] := rfl

@[simp] lemma exportNames_edits (o : Outline) (exported : Bool) (names : List BoundName) :
    (o.exportNames exported names).edits = o.edits := by
  unfold Outline.exportNames
  split <;> rfl

/-- A reader that leaves some end of the trees and makes no edits. -/
structure Reads (o : Outline) (trees : List Tree) (o' : Outline) (behind : List Tree) : Prop where
  suffix : behind <:+ trees
  edits : o'.edits = o.edits

lemma functionTail_suffix {params : List Tree} {body : List Tree × Token}
    (h : functionTail after trees = .ok (params, body, behind)) : behind <:+ trees := by
  unfold functionTail at h
  split at h
  · cases h
  · split at h
    · cases h
    · split at h
      · cases h
      · split at h
        · cases h
        · cases h
          exact (List.suffix_cons _ _).trans (List.suffix_cons _ _)

lemma functionDeclaration_reads {leading : List Comment} {exported : Bool}
    (h : functionDeclaration after leading exported o trees = .ok (o', behind)) :
    Reads o trees o' behind := by
  unfold functionDeclaration at h
  dsimp only at h
  split at h
  · obtain ⟨bound, -, h⟩ := bind_ok h
    obtain ⟨⟨params, body, rest⟩, htail, h⟩ := bind_ok h
    obtain ⟨o₁, hdeclare, h⟩ := bind_ok h
    cases h
    refine ⟨?_, by simp [declare_edits hdeclare]⟩
    refine (functionTail_suffix htail).trans ((List.tail_suffix _).trans ?_)
    exact (dropPunct_suffix _ _).trans ((List.tail_suffix _).trans (dropWord_suffix _ _))
  · cases h

lemma pastClassBody_suffix (h : pastClassBody after trees = .ok behind) : behind <:+ trees := by
  induction trees with
  | nil => cases h
  | cons t rest ih =>
    rw [pastClassBody] at h
    split at h
    · cases h
      exact List.suffix_cons _ _
    · exact (ih h).trans (List.suffix_cons t rest)

lemma classDeclaration_reads {exported : Bool}
    (h : classDeclaration after exported o trees = .ok (o', behind)) : Reads o trees o' behind := by
  obtain ⟨bound, -, h⟩ := bind_ok h
  obtain ⟨rest, hbody, h⟩ := bind_ok h
  obtain ⟨o₁, hdeclare, h⟩ := bind_ok h
  cases h
  refine ⟨?_, by simp [declare_edits hdeclare]⟩
  exact (pastClassBody_suffix hbody).trans ((List.tail_suffix _).trans (List.tail_suffix _))

lemma declaratorTarget_suffix {single : Option String} {names : List BoundName}
    (h : declaratorTarget after trees = .ok (single, names, behind)) : behind <:+ trees := by
  unfold declaratorTarget at h
  split at h
  · cases h
  · split at h
    · obtain ⟨bound, -, h⟩ := bind_ok h
      cases h
      exact List.suffix_cons _ _
    · obtain ⟨bound, -, h⟩ := bind_ok h
      cases h
      exact List.suffix_cons _ _

lemma declarators_more {kind : Declaration} {leading : List Comment} {exported : Bool} {fuel : Nat}
    {o₁ : Outline} {rest : List Tree}
    (ih : ∀ {o trees}, declarators after kind leading exported fuel o trees = .ok (o', behind) →
      Reads o trees o' behind)
    (hread : Reads o trees o₁ rest)
    (h : (if startsWithPunct rest "," then declarators after kind leading exported fuel o₁ rest.tail
      else .ok (o₁, pastSemicolon rest)) = .ok (o', behind)) :
    Reads o trees o' behind := by
  split at h
  · obtain ⟨hsuffix, hedits⟩ := ih h
    exact ⟨(hsuffix.trans (List.tail_suffix _)).trans hread.suffix, hedits.trans hread.edits⟩
  · cases h
    exact ⟨(pastSemicolon_suffix _).trans hread.suffix, hread.edits⟩

lemma declarators_reads {kind : Declaration} {leading : List Comment} {exported : Bool} {fuel : Nat}
    (h : declarators after kind leading exported fuel o trees = .ok (o', behind)) :
    Reads o trees o' behind := by
  induction fuel generalizing o trees with
  | zero =>
    cases h
    exact ⟨List.suffix_rfl, rfl⟩
  | succ fuel ih =>
    rw [declarators] at h
    obtain ⟨⟨single, names, rest⟩, htarget, h⟩ := bind_ok h
    obtain ⟨o₁, hdeclare, h⟩ := bind_ok h
    have hsuffix := declaratorTarget_suffix htarget
    have hedits := declareAll_edits hdeclare
    dsimp only at h
    by_cases hvalue : startsWithPunct rest "=" = true
    · simp only [hvalue, if_true] at h
      refine declarators_more ih ⟨?_, ?_⟩ h
      · exact (cutExpression_suffix _ _ _ _).trans ((List.tail_suffix _).trans hsuffix)
      · split
        · simp [hedits]
        · simp [hedits]
    · simp only [hvalue] at h
      exact declarators_more ih ⟨hsuffix, by simp [hedits]⟩ h

lemma variableDeclaration_reads {leading : List Comment} {exported : Bool}
    (h : variableDeclaration after leading exported o trees = .ok (o', behind)) :
    Reads o trees o' behind := by
  obtain ⟨hsuffix, hedits⟩ := declarators_reads h
  exact ⟨hsuffix.trans (List.tail_suffix _), hedits⟩

end TaskRunner.Proofs
