import TaskRunner.Proofs.BareTrees
import TaskRunner.Proofs.OverlookedWords

/-!
# Statements in front of other trees

What follows a statement in a script may be different from what follows it in the file. A reader that
stops in the file before the word of a module declaration reads the same trees in the script, and where it
stops there depends on the trees that it finds behind them.
-/

namespace TaskRunner.Proofs
open Source Tree

variable {after after' : Token} {t u : Tree}

/-! ## Looking ahead -/

/-- A line ends before the first of the trees. -/
def OnNewLine (trees : List Tree) : Prop :=
  ∀ t ∈ trees.head?, t.first.newlineBefore = true

/-- The last token of trees, or the one before them. -/
def lastToken (previous : Option Token) : List Tree → Option Token
  | [] => previous
  | t :: rest => lastToken (some t.last) rest

variable {commas : Bool} {p p' : Option Token} {own own' more more' rest : List Tree}

/-- What is cut off ends where the scan stops. -/
lemma cutExpression_stops (after : Token) (commas : Bool) (p : Option Token) (trees : List Tree) :
    stopsAt after commas (lastToken p (cutExpression after commas p trees).1)
      (cutExpression after commas p trees).2 = true := by
  induction trees generalizing p with
  | nil => rfl
  | cons t rest ih =>
    cases hstop : stopsAt after commas p (t :: rest) with
    | true =>
      rw [cutExpression_stop hstop]
      exact hstop
    | false =>
      rw [cutExpression_go hstop]
      exact ih (some t.last)

lemma forall₂_append_split {R : Tree → Tree → Prop} {front behind copies : List Tree}
    (h : List.Forall₂ R (front ++ behind) copies) :
    ∃ front' behind', copies = front' ++ behind' ∧ List.Forall₂ R front front' ∧
      List.Forall₂ R behind behind' := by
  have hfront := List.forall₂_take front.length h
  have hbehind := List.forall₂_drop front.length h
  rw [List.take_left] at hfront
  rw [List.drop_left] at hbehind
  exact ⟨_, _, (List.take_append_drop front.length copies).symm, hfront, hbehind⟩

lemma copies_of_same {trees copies : List Tree} (h : List.Forall₂ Same trees copies) :
    Copies trees copies := by
  cases h with
  | nil => exact .nil
  | cons ht hmore => exact .cons ht.alike hmore

lemma Copies.alike {trees copies : List Tree} (h : Copies trees copies) :
    List.Forall₂ Alike trees copies := by
  cases h with
  | nil => exact .nil
  | cons ht hmore => exact .cons ht (hmore.imp fun _ _ hsame => hsame.alike)

lemma Copies.append_split {front behind copies : List Tree} (h : Copies (front ++ behind) copies) :
    ∃ front' behind', copies = front' ++ behind' ∧ Copies front front' ∧ Copies behind behind' ∧
      (front ≠ [] → List.Forall₂ Same behind behind') := by
  cases front with
  | nil => exact ⟨[], copies, rfl, .nil, h, fun hne => absurd rfl hne⟩
  | cons t front =>
    cases h with
    | @cons _ u _ copies ht hmore =>
      obtain ⟨front', behind', rfl, hfront, hbehind⟩ := forall₂_append_split hmore
      exact ⟨u :: front', behind', rfl, .cons ht hfront, copies_of_same hbehind, fun _ => hbehind⟩

/-! ## Statements of no interest -/

end TaskRunner.Proofs
