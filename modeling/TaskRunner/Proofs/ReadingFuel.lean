import Mathlib.Tactic.Lemma
import TaskRunner.Script.Reading

/-!
# Fuel of readers

A reader hands on less fuel than it has. What it reads with some fuel it also reads with more, so it makes
no difference how much there is: trees are read in at most one way.
-/

namespace TaskRunner.Proofs
open Source (Tree Token)

section Extends

variable {α β : Type}

/-- What the first gives is also what the second gives. -/
def Extends (x y : Option α) : Prop :=
  ∀ a, x = some a → y = some a

lemma Extends.refl (x : Option α) : Extends x x :=
  fun _ h => h

lemma Extends.nothing (y : Option α) : Extends none y :=
  fun _ h => nomatch h

lemma Extends.trans {x y z : Option α} (h : Extends x y) (h' : Extends y z) : Extends x z :=
  fun a ha => h' a (h a ha)

lemma Extends.bind {x y : Option α} {f g : α → Option β} (h : Extends x y)
    (hf : ∀ a, Extends (f a) (g a)) : Extends (x.bind f) (y.bind g) := by
  intro b hb
  obtain ⟨a, ha, hfa⟩ := Option.bind_eq_some_iff.mp hb
  exact Option.bind_eq_some_iff.mpr ⟨a, h a ha, hf a b hfa⟩

lemma Extends.map {x y : Option α} (h : Extends x y) (f : α → β) : Extends (x.map f) (y.map f) := by
  intro b hb
  obtain ⟨a, ha, rfl⟩ := Option.map_eq_some_iff.mp hb
  exact Option.map_eq_some_iff.mpr ⟨a, h a ha, rfl⟩

lemma Extends.branch {c : Prop} [Decidable c] {x y x' y' : Option α} (h : c → Extends x y)
    (h' : ¬ c → Extends x' y') : Extends (if c then x else x') (if c then y else y') := by
  by_cases hc : c
  · simpa only [if_pos hc] using h hc
  · simpa only [if_neg hc] using h' hc

end Extends

/-- What is read with the fuel is also read with one more. -/
structure ReadersExtend (fuel : Nat) : Prop where
  statements : ∀ p trees, Extends (Script.statements p fuel trees) (Script.statements p (fuel + 1) trees)
  statement : ∀ p trees, Extends (Script.statement p fuel trees) (Script.statement p (fuel + 1) trees)
  exprStatement : ∀ p trees,
    Extends (Script.exprStatement p fuel trees) (Script.exprStatement p (fuel + 1) trees)
  declaration : ∀ p how trees,
    Extends (Script.declaration p fuel how trees) (Script.declaration p (fuel + 1) how trees)
  declared : ∀ p how trees,
    Extends (Script.declared p fuel how trees) (Script.declared p (fuel + 1) how trees)
  ifStatement : ∀ p trees, Extends (Script.ifStatement p fuel trees) (Script.ifStatement p (fuel + 1) trees)
  forStatement : ∀ p trees,
    Extends (Script.forStatement p fuel trees) (Script.forStatement p (fuel + 1) trees)
  loopStart : ∀ p trees, Extends (Script.loopStart p fuel trees) (Script.loopStart p (fuel + 1) trees)
  optional : ∀ p trees, Extends (Script.optional p fuel trees) (Script.optional p (fuel + 1) trees)
  tryStatement : ∀ p trees,
    Extends (Script.tryStatement p fuel trees) (Script.tryStatement p (fuel + 1) trees)
  function : ∀ p isAsync trees,
    Extends (Script.function p fuel isAsync trees) (Script.function p (fuel + 1) isAsync trees)
  functionOf : ∀ p name isArrow isAsync params body,
    Extends (Script.functionOf p fuel name isArrow isAsync params body)
      (Script.functionOf p (fuel + 1) name isArrow isAsync params body)
  parameters : ∀ p parts, Extends (Script.parameters p fuel parts) (Script.parameters p (fuel + 1) parts)
  patternPart : ∀ p trees, Extends (Script.patternPart p fuel trees) (Script.patternPart p (fuel + 1) trees)
  pattern : ∀ p t, Extends (Script.pattern p fuel t) (Script.pattern p (fuel + 1) t)
  listPattern : ∀ p parts, Extends (Script.listPattern p fuel parts) (Script.listPattern p (fuel + 1) parts)
  recordPattern : ∀ p parts,
    Extends (Script.recordPattern p fuel parts) (Script.recordPattern p (fuel + 1) parts)
  whole : ∀ p trees, Extends (Script.whole p fuel trees) (Script.whole p (fuel + 1) trees)
  single : ∀ p trees, Extends (Script.single p fuel trees) (Script.single p (fuel + 1) trees)
  sequence : ∀ p trees, Extends (Script.sequence p fuel trees) (Script.sequence p (fuel + 1) trees)
  assignment : ∀ p trees, Extends (Script.assignment p fuel trees) (Script.assignment p (fuel + 1) trees)
  arrow : ∀ p isAsync head trees,
    Extends (Script.arrow p fuel isAsync head trees) (Script.arrow p (fuel + 1) isAsync head trees)
  assigned : ∀ p trees, Extends (Script.assigned p fuel trees) (Script.assigned p (fuel + 1) trees)
  conditional : ∀ p trees, Extends (Script.conditional p fuel trees) (Script.conditional p (fuel + 1) trees)
  infixes : ∀ p level trees,
    Extends (Script.infixes p fuel level trees) (Script.infixes p (fuel + 1) level trees)
  infixTail : ∀ p level left trees,
    Extends (Script.infixTail p fuel level left trees) (Script.infixTail p (fuel + 1) level left trees)
  unary : ∀ p trees, Extends (Script.unary p fuel trees) (Script.unary p (fuel + 1) trees)
  counted : ∀ p trees, Extends (Script.counted p fuel trees) (Script.counted p (fuel + 1) trees)
  reached : ∀ p trees, Extends (Script.reached p fuel trees) (Script.reached p (fuel + 1) trees)
  steps : ∀ p mayCall e skips trees,
    Extends (Script.steps p fuel mayCall e skips trees) (Script.steps p (fuel + 1) mayCall e skips trees)
  template : ∀ p token, Extends (Script.template p fuel token) (Script.template p (fuel + 1) token)
  holesOf : ∀ p holes, Extends (Script.holesOf p fuel holes) (Script.holesOf p (fuel + 1) holes)
  items : ∀ p parts, Extends (Script.items p fuel parts) (Script.items p (fuel + 1) parts)
  entries : ∀ p parts, Extends (Script.entries p fuel parts) (Script.entries p (fuel + 1) parts)
  entry : ∀ p part, Extends (Script.entry p fuel part) (Script.entry p (fuel + 1) part)
  primary : ∀ p trees, Extends (Script.primary p fuel trees) (Script.primary p (fuel + 1) trees)
  creation : ∀ p trees, Extends (Script.creation p fuel trees) (Script.creation p (fuel + 1) trees)

variable {fuel : Nat}

/-- A function declaration has a name. -/
lemma ReadersExtend.nextDeclaration (h : ReadersExtend fuel) (p : Script.Place) (isAsync : Bool)
    (trees : List Tree) : Extends
      (match Script.function p fuel isAsync trees with
        | some (f, rest) => if f.name.isEmpty then none else some (Script.Stmt.function f, rest)
        | none => none)
      (match Script.function p (fuel + 1) isAsync trees with
        | some (f, rest) => if f.name.isEmpty then none else some (Script.Stmt.function f, rest)
        | none => none) := by
  cases hread : Script.function p fuel isAsync trees with
  | none => exact .nothing _
  | some found =>
    rw [h.function p isAsync trees found hread]
    exact .refl _

lemma ReadersExtend.nextStatement (h : ReadersExtend fuel) (p : Script.Place) (trees : List Tree) :
    Extends (Script.statement p (fuel + 1) trees) (Script.statement p (fuel + 2) trees) := by
  cases trees with
  | nil => exact .refl _
  | cons t rest =>
    unfold Script.statement
    dsimp only
    repeat' first
      | with_reducible exact .refl _
      | exact h.nextDeclaration p _ _
      | with_reducible first
        | apply h.statements | apply h.statement | apply h.exprStatement | apply h.declaration
        | apply h.ifStatement | apply h.forStatement | apply h.tryStatement | apply h.whole
        | apply h.sequence
      | refine .bind ?_ fun _ => ?_
      | refine .map ?_ _
      | refine .branch (fun _ => ?_) fun _ => ?_
      | split

lemma readersExtend (fuel : Nat) : ReadersExtend fuel := by
  induction fuel with
  | zero => constructor <;> intros <;> exact .nothing _
  | succ fuel ih =>
    -- Both sides of a reader have the same steps, and each step hands on to a reader with less fuel.
    constructor
    case statement => exact fun p trees => ih.nextStatement p trees
    all_goals
      intros
      rename_i last
      cases last
    all_goals
      first
        | unfold Script.statements | unfold Script.exprStatement | unfold Script.declaration
        | unfold Script.declared | unfold Script.ifStatement | unfold Script.forStatement
        | unfold Script.loopStart | unfold Script.optional | unfold Script.tryStatement
        | unfold Script.function | unfold Script.functionOf | unfold Script.parameters
        | unfold Script.patternPart | unfold Script.pattern | unfold Script.listPattern
        | unfold Script.recordPattern | unfold Script.whole | unfold Script.single
        | unfold Script.sequence | unfold Script.assignment | unfold Script.arrow
        | unfold Script.assigned | unfold Script.conditional | unfold Script.infixes
        | unfold Script.infixTail | unfold Script.unary | unfold Script.counted | unfold Script.reached
        | unfold Script.steps | unfold Script.template | unfold Script.holesOf | unfold Script.items
        | unfold Script.entries | unfold Script.entry | unfold Script.primary | unfold Script.creation
      try dsimp only
    all_goals
      repeat' first
        | with_reducible exact .refl _
        | with_reducible exact .nothing _
        | with_reducible_and_instances refine .bind ?_ fun _ => ?_
        | with_reducible refine .map ?_ _
        | with_reducible refine .branch (fun _ => ?_) fun _ => ?_
        | with_reducible first
          | apply ih.statements | apply ih.statement | apply ih.exprStatement | apply ih.declaration
          | apply ih.declared | apply ih.ifStatement | apply ih.forStatement | apply ih.loopStart
          | apply ih.optional | apply ih.tryStatement | apply ih.function | apply ih.functionOf
          | apply ih.parameters | apply ih.patternPart | apply ih.pattern | apply ih.listPattern
          | apply ih.recordPattern | apply ih.whole | apply ih.single | apply ih.sequence
          | apply ih.assignment | apply ih.arrow | apply ih.assigned | apply ih.conditional
          | apply ih.infixes | apply ih.infixTail | apply ih.unary | apply ih.counted | apply ih.reached
          | apply ih.steps | apply ih.template | apply ih.holesOf | apply ih.items | apply ih.entries
          | apply ih.entry | apply ih.primary | apply ih.creation
        | split

section Gives

variable {α β : Type}

/-- Each step of fuel gives at least what the one before gives. -/
def Grows (f : Nat → Option α) : Prop :=
  ∀ fuel, Extends (f fuel) (f (fuel + 1))

/-- Some fuel is enough for the result. -/
def Gives (f : Nat → Option α) (a : α) : Prop :=
  ∃ fuel, f fuel = some a

variable {f : Nat → Option α}

lemma Grows.extends (h : Grows f) {fuel fuel' : Nat} (hle : fuel ≤ fuel') :
    Extends (f fuel) (f fuel') := by
  induction hle with
  | refl => exact .refl _
  | step _ ih => exact ih.trans (h _)

/-- There is at most one result. -/
lemma Gives.unique {a b : α} (h : Gives f a) (h' : Gives f b) (hgrows : Grows f) : a = b := by
  obtain ⟨fuel, ha⟩ := h
  obtain ⟨fuel', hb⟩ := h'
  have ha' := hgrows.extends (Nat.le_max_left fuel fuel') a ha
  have hb' := hgrows.extends (Nat.le_max_right fuel fuel') b hb
  exact Option.some.inj (ha'.symm.trans hb')

/-- What a reader makes of what another one gives. -/
lemma gives_bind {r : Nat → Option β} (next : Nat → α → Option β) (hstart : r 0 = none)
    (hstep : ∀ fuel, r (fuel + 1) = (f fuel).bind (next fuel)) (hf : Grows f)
    (hnext : ∀ a, Grows fun fuel => next fuel a) (b : β) :
    Gives r b ↔ ∃ a, Gives f a ∧ Gives (fun fuel => next fuel a) b := by
  constructor
  · rintro ⟨fuel, hread⟩
    cases fuel with
    | zero => rw [hstart] at hread; cases hread
    | succ fuel =>
      rw [hstep] at hread
      obtain ⟨a, ha, hb⟩ := Option.bind_eq_some_iff.mp hread
      exact ⟨a, ⟨fuel, ha⟩, ⟨fuel, hb⟩⟩
  · rintro ⟨a, ⟨fuel, ha⟩, ⟨fuel', hb⟩⟩
    refine ⟨max fuel fuel' + 1, ?_⟩
    rw [hstep]
    exact Option.bind_eq_some_iff.mpr ⟨a, hf.extends (Nat.le_max_left fuel fuel') a ha,
      (hnext a).extends (Nat.le_max_right fuel fuel') b hb⟩

end Gives

end TaskRunner.Proofs
