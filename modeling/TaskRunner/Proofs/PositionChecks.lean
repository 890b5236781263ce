import TaskRunner.Source.Token
import TaskRunner.Proofs.ExceptSteps

/-!
# Readings by positions

A reading by positions looks things up at indexes of a list or at byte offsets of a text, and it goes round
in loops. It may leave the range, and it may go round without end. `Checked` makes both an answer of their
own, so that a reading which always agrees with one by trees and characters is seen to do neither.
-/

namespace TaskRunner.Proofs
open Source

/-- Why a reading by positions gives nothing. -/
inductive Halt where
  | refused (e : SyntaxError)
  | outOfRange
  | stuck

/-- What a reading by positions gives. -/
abbrev Checked := Except Halt

variable {α β γ δ : Type}

/-- The text is refused with a complaint. -/
def refuse (e : SyntaxError) : Checked α :=
  .error (.refused e)

/-- What stands at an index, where something has to stand. -/
def reach (found : Option α) : Checked α :=
  match found with
  | some a => .ok a
  | none => .error .outOfRange

/-- The next position of a loop, which has to be a later one. -/
def onward (i next : Nat) : Checked Nat :=
  if i < next then .ok next else .error .stuck

lemma reach_some {found : Option α} {a : α} (h : found = some a) : reach found = .ok a := by
  rw [h]
  rfl

lemma onward_later {i next : Nat} (h : i < next) : onward i next = .ok next :=
  if_pos h

/-! ## Agreement -/

/-- The reading by positions gives what the other one gives, or refuses the text with the same complaint;
it neither leaves the range nor goes round without end. -/
inductive Agrees (R : α → β → Prop) : Checked α → Except SyntaxError β → Prop
  | ok {a : α} {b : β} (related : R a b) : Agrees R (.ok a) (.ok b)
  | refused (e : SyntaxError) : Agrees R (.error (.refused e)) (.error e)

variable {R : α → β → Prop} {S : γ → δ → Prop} {x : Checked α} {y : Except SyntaxError β}

lemma Agrees.bind {f : α → Checked γ} {g : β → Except SyntaxError δ} (h : Agrees R x y)
    (hmore : ∀ a b, R a b → Agrees S (f a) (g b)) : Agrees S (x >>= f) (y >>= g) := by
  cases h with
  | ok related => exact hmore _ _ related
  | refused e => exact .refused e

lemma Agrees.imp {R' : α → β → Prop} (h : Agrees R x y) (hmore : ∀ a b, R a b → R' a b) :
    Agrees R' x y := by
  cases h with
  | ok related => exact .ok (hmore _ _ related)
  | refused e => exact .refused e

lemma Agrees.of_ok {b : β} (h : Agrees R x (.ok b)) : ∃ a, x = .ok a ∧ R a b := by
  cases h with
  | ok related => exact ⟨_, rfl, related⟩

lemma Agrees.of_error {e : SyntaxError} (h : Agrees R x (.error e)) : x = .error (.refused e) := by
  cases h with
  | refused e => rfl

/-- A reading by positions of a reading by characters that gives exactly the same. -/
def lifted (y : Except SyntaxError β) : Checked β :=
  y.mapError Halt.refused

@[simp] lemma lifted_ok (b : β) : lifted (.ok b) = .ok b := rfl

lemma lifted_map (y : Except SyntaxError β) (g : β → δ) : lifted (y.map g) = (lifted y).map g := by
  cases y <;> rfl

end TaskRunner.Proofs
