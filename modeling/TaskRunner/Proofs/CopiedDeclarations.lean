import TaskRunner.Proofs.CopiedExpressions

/-!
# Declarations in front of other trees

A declaration of a function or a class ends with its body whatever follows it. A variable declaration goes
on in the script as far as what follows its last declarator lets it.
-/

namespace TaskRunner.Proofs
open Source Tree

variable {after after' : Token} {o o' q : Outline} {t u : Tree}
  {module rest own own' more' : List Tree}

/-! ## Variables -/

/-- How the declarators of a script end in front of other trees, and what they leave there. -/
inductive DeclaratorsEnd (after : Token) (own rest left : List Tree) : Prop
  | closed {front : List Tree} {mark : Tree} (split : own = front ++ [mark])
      (isMark : mark.isPunct ";" = true) (behind : left = mark :: rest)
  | value {front : List Tree} {p last : Tree} (split : own = front ++ [p, last])
      (noComma : p.isPunct "," = false) (noMark : last.isPunct ";" = false)
      (noOpen : leavesOpen last.last = false)
      (behind : left = (cutExpression after true (some last.last) rest).2)
  | lone {front : List Tree} {target : Tree} (split : own = front ++ [target])
      (alone : front = [] ∨ ∃ before comma, front = before ++ [comma] ∧ comma.isPunct "," = true)
      (noMark : target.isPunct ";" = false) (behind : left = pastValue after rest)

lemma DeclaratorsEnd.prepend {left : List Tree} {comma : Tree} (hcomma : comma.isPunct "," = true)
    (front : List Tree) (h : DeclaratorsEnd after own rest left) :
    DeclaratorsEnd after (front ++ comma :: own) rest left := by
  cases h with
  | @closed before mark split isMark behind =>
    exact .closed (show _ = (front ++ comma :: before) ++ [mark] by simp [split]) isMark behind
  | @value before p last split noComma noMark noOpen behind =>
    exact .value (show _ = (front ++ comma :: before) ++ [p, last] by simp [split]) noComma noMark
      noOpen behind
  | @lone before target split alone noMark behind =>
    refine .lone (show _ = (front ++ comma :: before) ++ [target] by simp [split]) (.inr ?_) noMark
      behind
    rcases alone with rfl | ⟨earlier, p, rfl, hp⟩
    · exact ⟨front, comma, rfl, hcomma⟩
    · exact ⟨front ++ comma :: earlier, p, by simp, hp⟩

variable {kind : Declaration} {leading leading' : List Comment} {exported exported' : Bool}
  {fuel fuel' : Nat}

lemma FunctionHead.alike {head copy : List Tree} (hhead : FunctionHead head)
    (h : List.Forall₂ Alike head copy) : FunctionHead copy := by
  cases hhead with
  | plain isFunction =>
    obtain ⟨f, _, hf, hnil, rfl⟩ := List.forall₂_cons_left_iff.mp h
    cases hnil
    exact .plain (hf.isWord _ ▸ isFunction)
  | generator isFunction isStar =>
    obtain ⟨f, _, hf, htail, rfl⟩ := List.forall₂_cons_left_iff.mp h
    obtain ⟨star, _, hstar, hnil, rfl⟩ := List.forall₂_cons_left_iff.mp htail
    cases hnil
    exact .generator (hf.isWord _ ▸ isFunction) (hstar.isPunct _ ▸ isStar)
  | async isAsync isFunction =>
    obtain ⟨a, _, ha, htail, rfl⟩ := List.forall₂_cons_left_iff.mp h
    obtain ⟨f, _, hf, hnil, rfl⟩ := List.forall₂_cons_left_iff.mp htail
    cases hnil
    exact .async (ha.isWord _ ▸ isAsync) (hf.isWord _ ▸ isFunction)
  | asyncGenerator isAsync isFunction isStar =>
    obtain ⟨a, _, ha, htail, rfl⟩ := List.forall₂_cons_left_iff.mp h
    obtain ⟨f, _, hf, htail', rfl⟩ := List.forall₂_cons_left_iff.mp htail
    obtain ⟨star, _, hstar, hnil, rfl⟩ := List.forall₂_cons_left_iff.mp htail'
    cases hnil
    exact .asyncGenerator (ha.isWord _ ▸ isAsync) (hf.isWord _ ▸ isFunction)
      (hstar.isPunct _ ▸ isStar)

end TaskRunner.Proofs
