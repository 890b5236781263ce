import TaskRunner.Proofs.CopiedDeclarations

/-!
# Neighbouring statements

When nothing is left of the statements between two others, the first one is followed by the second one in
the script. Whether they are still two statements there depends on the end of the first one and on the
start of the second one.
-/

namespace TaskRunner.Proofs
open Source Tree

variable {after after' : Token} {o o' q : Outline} {t u : Tree}
  {module rest own own' stmt copy : List Tree}

/-! ## Reading on -/

/-- Statements are read one behind the other until the given trees are left. -/
inductive Reaches (after : Token) : Outline → List Tree → List Tree → Prop
  | here {o : Outline} {trees : List Tree} : Reaches after o trees trees
  | next {o o₁ : Outline} {trees behind rest : List Tree}
      (read : statement after o trees = .ok (o₁, behind)) (more : Reaches after o₁ behind rest) :
      Reaches after o trees rest

lemma Reaches.suffix {trees : List Tree} (hafter : after.kind = .endOfFile)
    (hmarks : OpenedByMarks trees) (h : Reaches after o trees rest) : rest <:+ trees := by
  induction h with
  | here => exact List.suffix_rfl
  | @next o o₁ trees behind rest read more ih =>
    have hbehind : behind <:+ trees := by
      cases trees with
      | nil =>
        have hread : statement after o [] = .ok (o, []) := rfl
        cases hread.symm.trans read
        exact List.suffix_rfl
      | cons t trees => exact (statement_suffix hafter hmarks read).trans (List.suffix_cons t trees)
    exact (ih (hmarks.suffix hbehind)).trans hbehind

/-- The trees are the declaration of a function or a class, which ends with its body. -/
def declares (own : List Tree) : Bool :=
  startsWithWord own "function" ||
    (startsWithWord own "async" && startsWithWord own.tail "function") || startsWithWord own "class"

variable {kind : Declaration} {leading : List Comment} {exported : Bool} {fuel : Nat}

end TaskRunner.Proofs
