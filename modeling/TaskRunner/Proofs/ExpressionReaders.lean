import TaskRunner.Proofs.ModuleSyntax
import TaskRunner.Proofs.ReadingFuel

/-!
# Expressions by what is read first

What a reader gives is what it makes of what the readers before it give, whatever the fuel is. Behind two
unary expressions the same operators are read. What stands in front of an arrow, or of the equals sign behind
a pattern, is read up to there and no further.
-/

namespace TaskRunner.Proofs
open Script
open Source (Tree Token startsWithPunct startsWithWord splitAtCommas)

variable {p : Script.Place} {v t head mark : Tree} {trees trees' rest rest' behind more : List Tree}
  {e e' x x' : Expr} {level : Nat}

/-! ## Readers as relations -/

lemma unary_grows (p : Script.Place) (trees : List Tree) : Grows fun fuel => unary p fuel trees :=
  fun fuel => (readersExtend fuel).unary p trees

lemma infixTail_grows (p : Script.Place) (level : Nat) (left : Expr) (trees : List Tree) :
    Grows fun fuel => infixTail p fuel level left trees :=
  fun fuel => (readersExtend fuel).infixTail p level left trees

lemma infixes_grows (p : Script.Place) (level : Nat) (trees : List Tree) :
    Grows fun fuel => infixes p fuel level trees :=
  fun fuel => (readersExtend fuel).infixes p level trees

lemma conditional_grows (p : Script.Place) (trees : List Tree) : Grows fun fuel => conditional p fuel trees :=
  fun fuel => (readersExtend fuel).conditional p trees

lemma assigned_grows (p : Script.Place) (trees : List Tree) : Grows fun fuel => assigned p fuel trees :=
  fun fuel => (readersExtend fuel).assigned p trees

lemma assignment_grows (p : Script.Place) (trees : List Tree) : Grows fun fuel => assignment p fuel trees :=
  fun fuel => (readersExtend fuel).assignment p trees

lemma grows_const {α : Type} (a : Option α) : Grows fun _ => a :=
  fun _ => .refl a

lemma gives_const {α : Type} {a : Option α} {b : α} : Gives (fun _ => a) b ↔ a = some b :=
  ⟨fun ⟨_, h⟩ => h, fun h => ⟨0, h⟩⟩

/-- Operators are read behind the value in front of them. -/
lemma gives_infixes {b : Expr × List Tree} :
    Gives (fun fuel => infixes p fuel level trees) b ↔
      ∃ e rest, Gives (fun fuel => unary p fuel trees) (e, rest) ∧
        Gives (fun fuel => infixTail p fuel level e rest) b := by
  rw [gives_bind (fun fuel (a : Expr × List Tree) => infixTail p fuel level a.1 a.2) rfl (fun _ => rfl)
    (unary_grows p trees) fun a => infixTail_grows p level a.1 a.2]
  exact Prod.exists

/-- What is made of a test. -/
def choiceTail (p : Script.Place) (fuel : Nat) (test : Expr) (rest : List Tree) : Option (Expr × List Tree) :=
  if startsWithPunct rest "?" then do
    let (a, rest) ← assignment p fuel (rest.drop 1)
    if startsWithPunct rest ":" then do
      let (b, rest) ← assignment p fuel (rest.drop 1)
      some (.choose test a b, rest)
    else none
  else some (test, rest)

lemma choiceTail_grows (p : Script.Place) (test : Expr) (rest : List Tree) :
    Grows fun fuel => choiceTail p fuel test rest := by
  intro fuel
  refine .branch (fun _ => .bind (assignment_grows p _ fuel) fun _ => ?_) fun _ => .refl _
  exact .branch (fun _ => .bind (assignment_grows p _ fuel) fun _ => .refl _) fun _ => .refl _

lemma gives_conditional {b : Expr × List Tree} :
    Gives (fun fuel => conditional p fuel trees) b ↔
      ∃ e rest, Gives (fun fuel => infixes p fuel 1 trees) (e, rest) ∧
        Gives (fun fuel => choiceTail p fuel e rest) b := by
  rw [gives_bind (fun fuel (a : Expr × List Tree) => choiceTail p fuel a.1 a.2) rfl (fun _ => rfl)
    (infixes_grows p 1 trees) fun a => choiceTail_grows p a.1 a.2]
  exact Prod.exists

lemma conditional_unary (h : Gives (fun fuel => conditional p fuel trees) (e, rest)) :
    ∃ e' r, Gives (fun fuel => unary p fuel trees) (e', r) := by
  obtain ⟨y, behind', hinfixes, -⟩ := gives_conditional.mp h
  obtain ⟨first, r, hunary, -⟩ := gives_infixes.mp hinfixes
  exact ⟨first, r, hunary⟩

/-- An assignment mark, or the mark of an update. -/
def isAssigning (mark : String) : Bool :=
  mark == "=" || (updateOperators.lookup mark).isSome || (logicUpdates.lookup mark).isSome

/-- Nothing is assigned to what stands in front of the trees. -/
def NotAssigned (trees : List Tree) : Prop :=
  ∀ mark, trees.head?.bind markOf? = some mark → isAssigning mark = false

/-- What is made of the left side of an assignment. -/
def assignedTail (p : Script.Place) (fuel : Nat) (left : Expr) (rest : List Tree) :
    Option (Expr × List Tree) :=
  match rest.head?.bind markOf? with
  | none => some (left, rest)
  | some mark =>
    if mark == "=" then do
      let target ← Target.ofExpr? left
      let (e, rest) ← assignment p fuel (rest.drop 1)
      some (.assign target (target.value e), rest)
    else
      match updateOperators.lookup mark, logicUpdates.lookup mark with
      | some op, _ => do
        let target ← Target.ofExpr? left
        let (e, rest) ← assignment p fuel (rest.drop 1)
        some (.update target op e, rest)
      | none, some op => do
        let target ← Target.ofExpr? left
        let (e, rest) ← assignment p fuel (rest.drop 1)
        some (.logic op left (.assign target (target.value e)), rest)
      | none, none => some (left, rest)

lemma assignedTail_grows (p : Script.Place) (left : Expr) (rest : List Tree) :
    Grows fun fuel => assignedTail p fuel left rest := by
  intro fuel
  unfold assignedTail
  dsimp only
  split
  · exact .refl _
  · refine .branch (fun _ => ?_) fun _ => ?_
    · exact .bind (.refl _) fun _ => .bind (assignment_grows p _ fuel) fun _ => .refl _
    · split
      · exact .bind (.refl _) fun _ => .bind (assignment_grows p _ fuel) fun _ => .refl _
      · exact .bind (.refl _) fun _ => .bind (assignment_grows p _ fuel) fun _ => .refl _
      · exact .refl _

lemma gives_assigned {b : Expr × List Tree} :
    Gives (fun fuel => assigned p fuel trees) b ↔
      ∃ e rest, Gives (fun fuel => conditional p fuel trees) (e, rest) ∧
        Gives (fun fuel => assignedTail p fuel e rest) b := by
  rw [gives_bind (fun fuel (a : Expr × List Tree) => assignedTail p fuel a.1 a.2) rfl (fun _ => rfl)
    (conditional_grows p trees) fun a => assignedTail_grows p a.1 a.2]
  exact Prod.exists

lemma assignedTail_notAssigned (h : NotAssigned rest) (fuel : Nat) :
    assignedTail p fuel e rest = some (e, rest) := by
  unfold assignedTail
  cases hmark : rest.head?.bind markOf? with
  | none => rfl
  | some mark =>
    have hother := h mark hmark
    simp only [isAssigning, Bool.or_eq_false_iff, beq_eq_false_iff_ne, ne_eq, Option.isSome_eq_false_iff,
      Option.isNone_iff_eq_none] at hother
    obtain ⟨⟨hne, hupdate⟩, hlogic⟩ := hother
    simp [hne, hupdate, hlogic]

/-- What is assigned to a target is itself no target. -/
lemma assignedTail_cases {fuel : Nat} (h : assignedTail p fuel e rest = some (x, rest')) :
    (x = e ∧ rest' = rest ∧ NotAssigned rest) ∨
      (¬ NotAssigned rest ∧ (Target.ofExpr? e).isSome ∧ Target.ofExpr? x = none) := by
  have hassigned : ∀ mark, rest.head?.bind markOf? = some mark → isAssigning mark = true →
      ¬ NotAssigned rest := by
    intro mark hmark hassigning hnot
    rw [hnot mark hmark] at hassigning
    cases hassigning
  cases hmark : rest.head?.bind markOf? with
  | none =>
    have hnot : NotAssigned rest := fun mark hsome => by rw [hmark] at hsome; cases hsome
    rw [assignedTail_notAssigned hnot] at h
    cases h
    exact .inl ⟨rfl, rfl, hnot⟩
  | some mark =>
    cases hassigning : isAssigning mark with
    | false =>
      have hnot : NotAssigned rest := fun mark' hsome => by
        rw [hmark] at hsome
        cases hsome
        exact hassigning
      rw [assignedTail_notAssigned hnot] at h
      cases h
      exact .inl ⟨rfl, rfl, hnot⟩
    | true =>
      refine .inr ⟨hassigned mark hmark hassigning, ?_⟩
      rw [assignedTail, hmark] at h
      dsimp only at h
      split at h
      · obtain ⟨target, htarget, h⟩ := Option.bind_eq_some_iff.mp h
        obtain ⟨value, -, h⟩ := Option.bind_eq_some_iff.mp h
        cases h
        exact ⟨by rw [htarget]; rfl, rfl⟩
      · rename_i hne
        split at h
        · obtain ⟨target, htarget, h⟩ := Option.bind_eq_some_iff.mp h
          obtain ⟨value, -, h⟩ := Option.bind_eq_some_iff.mp h
          cases h
          exact ⟨by rw [htarget]; rfl, rfl⟩
        · obtain ⟨target, htarget, h⟩ := Option.bind_eq_some_iff.mp h
          obtain ⟨value, -, h⟩ := Option.bind_eq_some_iff.mp h
          cases h
          exact ⟨by rw [htarget]; rfl, rfl⟩
        · rename_i hupdate hlogic
          simp [isAssigning, hne, hupdate, hlogic] at hassigning

/-- The operator takes the unary expression behind it, unless that is raised to a power. -/
lemma gives_unary_void (hv : v.isWord "void" = true) {b : Expr × List Tree} :
    Gives (fun fuel => unary p fuel (v :: trees)) b ↔
      ∃ e, Gives (fun fuel => unary p fuel trees) (e, b.2) ∧ startsWithPunct b.2 "**" = false ∧
        b.1 = .unary .discard e := by
  have hmark : markOf? v = some "void" := by
    obtain ⟨token, rfl, hkind⟩ := leaf_of_isWord hv
    simp [markOf?, hkind]
  have hstep : ∀ fuel, unary p (fuel + 1) (v :: trees) = (unary p fuel trees).bind fun a =>
      if startsWithPunct a.2 "**" then none else some (.unary .discard a.1, a.2) := by
    intro fuel
    rw [unary]
    simp only [hmark]
    rfl
  rw [gives_bind (fun _ (a : Expr × List Tree) =>
    if startsWithPunct a.2 "**" then none else some (Expr.unary .discard a.1, a.2)) rfl hstep
    (unary_grows p trees) fun a => grows_const _]
  simp only [gives_const]
  constructor
  · rintro ⟨⟨e, rest⟩, hread, h⟩
    split at h
    · cases h
    · rename_i hpower
      cases h
      exact ⟨e, hread, Bool.eq_false_iff.mpr hpower, rfl⟩
  · rintro ⟨e, hread, hpower, hvalue⟩
    refine ⟨(e, b.2), hread, ?_⟩
    rw [hpower, if_neg Bool.false_ne_true, ← hvalue]

/-! ## Operators behind a value -/

/-- An expression of several operands. -/
inductive Compound : Expr → Prop
  | binary (op : BinaryOp) (a b : Expr) : Compound (.binary op a b)
  | logic (op : LogicOp) (a b : Expr) : Compound (.logic op a b)
  | choose (test a b : Expr) : Compound (.choose test a b)

lemma Compound.target (h : Compound e) : Target.ofExpr? e = none := by
  cases h <;> rfl

lemma Infix.compound (op : Infix) (a b : Expr) :
    Compound (op.join a b) ∧ sizeOf a < sizeOf (op.join a b) := by
  cases op with
  | plain op => exact ⟨.binary op a b, by simp [Infix.join]; omega⟩
  | lazy op => exact ⟨.logic op a b, by simp [Infix.join]; omega⟩

/-- No operator of two sides comes next. -/
def NoOperator (trees : List Tree) : Prop :=
  ∀ t ∈ trees.head?, infixOf? t = none

/-- Two values are read on alike: nothing is added to them, or operands are added to both. -/
inductive ReadOn (e e' : Expr) (trees : List Tree) : Expr → Expr → List Tree → Prop
  | same (stops : NoOperator trees) : ReadOn e e' trees e e' trees
  | more {x x' : Expr} {rest : List Tree} (compound : Compound x) (compound' : Compound x')
      (larger : sizeOf e < sizeOf x) (larger' : sizeOf e' < sizeOf x') : ReadOn e e' trees x x' rest

lemma infixOf?_pos {own : Nat} {op : Infix} (h : infixOf? t = some (own, op)) : 1 ≤ own := by
  have hbinary : ∀ entry ∈ binaryOperators, 1 ≤ entry.2.1 := by decide
  have hlogic : ∀ entry ∈ logicOperators, 1 ≤ entry.2.1 := by decide
  obtain ⟨mark, -, h⟩ := Option.bind_eq_some_iff.mp h
  split at h
  · rename_i op hfound
    cases h
    obtain ⟨front, back, heq, -⟩ := List.lookup_eq_some_iff.mp hfound
    exact hbinary (mark, own, op) (by rw [heq]; simp)
  · rename_i op _ hfound
    cases h
    obtain ⟨front, back, heq, -⟩ := List.lookup_eq_some_iff.mp hfound
    exact hlogic (mark, own, op) (by rw [heq]; simp)
  · cases h

lemma infixTail_other {fuel : Nat} (h : infixTail p fuel 1 e trees = some (x, rest)) (e' : Expr) :
    ∃ x', infixTail p fuel 1 e' trees = some (x', rest) ∧ ReadOn e e' trees x x' rest := by
  induction fuel generalizing e e' x trees with
  | zero => cases h
  | succ fuel ih =>
    cases trees with
    | nil =>
      cases h
      exact ⟨e', rfl, .same fun t ht => by cases ht⟩
    | cons t more =>
      rw [infixTail] at h ⊢
      cases hop : infixOf? t with
      | none =>
        rw [hop] at h
        cases h
        refine ⟨e', rfl, .same fun t' ht => ?_⟩
        cases ht
        exact hop
      | some found =>
        obtain ⟨own, op⟩ := found
        have hlevel : ¬ own < 1 := by have := infixOf?_pos hop; omega
        rw [hop] at h
        simp only [if_neg hlevel] at h ⊢
        obtain ⟨⟨right, behind⟩, hright, h⟩ := Option.bind_eq_some_iff.mp h
        obtain ⟨x', hread, hmore⟩ := ih h (op.join e' right)
        refine ⟨x', Option.bind_eq_some_iff.mpr ⟨_, hright, hread⟩, ?_⟩
        obtain ⟨hcompound, hsize⟩ := Infix.compound op e right
        obtain ⟨hcompound', hsize'⟩ := Infix.compound op e' right
        cases hmore with
        | same stops => exact .more hcompound hcompound' hsize hsize'
        | more compound compound' larger larger' =>
          exact .more compound compound' (Nat.lt_trans hsize larger)
            (Nat.lt_trans hsize' larger')

lemma choiceTail_other {fuel : Nat} (h : choiceTail p fuel e trees = some (x, rest)) (e' : Expr) :
    ∃ x', choiceTail p fuel e' trees = some (x', rest) ∧
      ((x = e ∧ x' = e' ∧ rest = trees ∧ startsWithPunct trees "?" = false) ∨
        (Compound x ∧ Compound x' ∧ sizeOf e < sizeOf x ∧ sizeOf e' < sizeOf x')) := by
  unfold choiceTail at h ⊢
  cases hmark : startsWithPunct trees "?" with
  | false =>
    rw [hmark, if_neg Bool.false_ne_true] at h
    cases h
    exact ⟨e', rfl, .inl ⟨rfl, rfl, rfl, rfl⟩⟩
  | true =>
    rw [hmark, if_pos rfl] at h
    obtain ⟨⟨a, behind⟩, ha, h⟩ := Option.bind_eq_some_iff.mp h
    rw [if_pos rfl]
    simp only [ha, Option.bind_eq_bind, Option.bind_some] at h ⊢
    split at h
    · rename_i hcolon
      obtain ⟨⟨b, behind'⟩, hb, h⟩ := Option.bind_eq_some_iff.mp h
      cases h
      rw [if_pos hcolon, hb]
      exact ⟨_, rfl, .inr ⟨.choose e a b, .choose e' a b, by simp; omega, by simp; omega⟩⟩
    · cases h

/-- Behind two unary expressions that are followed by the same trees, these are read on alike. -/
lemma conditional_other {r : List Tree} (hread : Gives (fun fuel => unary p fuel trees) (e, r))
    (hother : Gives (fun fuel => unary p fuel trees') (e', r))
    (h : Gives (fun fuel => conditional p fuel trees) (x, rest)) :
    ∃ x', Gives (fun fuel => conditional p fuel trees') (x', rest) ∧ ReadOn e e' r x x' rest := by
  obtain ⟨y, behind, hinfixes, fuel, hchoice⟩ := gives_conditional.mp h
  obtain ⟨first, left, hunary, fuel', htail⟩ := gives_infixes.mp hinfixes
  cases hunary.unique hread (unary_grows p trees)
  obtain ⟨y', htail', hmore⟩ := infixTail_other htail e'
  obtain ⟨x', hchoice', hmore'⟩ := choiceTail_other hchoice y'
  refine ⟨x', gives_conditional.mpr ⟨y', behind, gives_infixes.mpr ⟨e', _, hother, fuel', htail'⟩,
    fuel, hchoice'⟩, ?_⟩
  cases hmore with
  | same stops =>
    obtain ⟨rfl, rfl, rfl, -⟩ | ⟨hcompound, hcompound', hsize, hsize'⟩ := hmore'
    · exact .same stops
    · exact .more hcompound hcompound' hsize hsize'
  | more compound compound' larger larger' =>
    obtain ⟨rfl, rfl, rfl, -⟩ | ⟨hcompound, hcompound', hsize, hsize'⟩ := hmore'
    · exact .more compound compound' larger larger'
    · exact .more hcompound hcompound' (Nat.lt_trans larger hsize) (Nat.lt_trans larger' hsize')

/-! ## Heads of arrow functions -/

/-- What stands in front of an arrow: a name, or parameters in parentheses. -/
inductive IsHead : Tree → Prop
  | name {token : Token} {name : String} (kind : token.kind = .ident name)
      (free : name ∉ reservedWords) : IsHead (.leaf token)
  | group {opener closer : Token} {inside : List Tree} (isRound : opener.isPunct "(" = true) :
      IsHead (.group opener inside closer)

/-- The trees start with an arrow function, plain or async, with a list of parameters or with a name. -/
inductive StartsArrow : List Tree → Prop
  | plain {head mark : Tree} {more : List Tree} (isHead : IsHead head)
      (isArrow : mark.isPunct "=>" = true) (line : mark.first.newlineBefore = false) :
      StartsArrow (head :: mark :: more)
  | async {word head mark : Tree} {more : List Tree} (isAsync : word.isWord "async" = true)
      (isHead : IsHead head) (headLine : head.first.newlineBefore = false)
      (isArrow : mark.isPunct "=>" = true) (line : mark.first.newlineBefore = false) :
      StartsArrow (word :: head :: mark :: more)

/-- What is left of an arrow function behind a unary expression: an arrow, or a name and an arrow. -/
inductive Dangling : List Tree → Prop
  | arrow {mark : Tree} {more : List Tree} (isArrow : mark.isPunct "=>" = true)
      (line : mark.first.newlineBefore = false) : Dangling (mark :: more)
  | name {token : Token} {mark : Tree} {more : List Tree} {name : String} (kind : token.kind = .ident name)
      (line : token.newlineBefore = false) (isArrow : mark.isPunct "=>" = true) :
      Dangling (.leaf token :: mark :: more)

/-- No expression starts with an arrow. -/
lemma unary_arrow (h : mark.isPunct "=>" = true) (fuel : Nat) : unary p fuel (mark :: more) = none := by
  obtain ⟨token, rfl, hkind⟩ := leaf_of_isPunct h
  have hmark : markOf? (.leaf token) = some "=>" := by simp [markOf?, hkind]
  have hprimary : ∀ fuel, primary p fuel (.leaf token :: more) = none := by
    intro fuel
    cases fuel with
    | zero => rfl
    | succ fuel => simp [primary, hkind]
  have hreached : ∀ fuel, reached p fuel (.leaf token :: more) = none := by
    intro fuel
    cases fuel with
    | zero => rfl
    | succ fuel => simp [reached, hprimary]
  have hcounted : ∀ fuel, counted p fuel (.leaf token :: more) = none := by
    intro fuel
    cases fuel with
    | zero => rfl
    | succ fuel => simp [counted, hreached]
  cases fuel with
  | zero => rfl
  | succ fuel =>
    have hlookup : unaryOperators.lookup "=>" = none := by decide
    simp [unary, hmark, hlookup, hcounted]

lemma Dangling.ends (h : Dangling trees) :
    statementEnd? trees = none ∧ startsWithPunct trees "," = false := by
  cases h with
  | arrow isArrow line =>
    obtain ⟨token, rfl, hkind⟩ := leaf_of_isPunct isArrow
    simp [statementEnd?, startsWithPunct, Tree.isPunct, Token.isPunct, hkind, line]
  | name kind line isArrow =>
    simp [statementEnd?, startsWithPunct, Tree.isPunct, Token.isPunct, kind, Tree.first, line]

lemma Dangling.infixTail {fuel : Nat} (h : Dangling trees)
    (hread : Script.infixTail p fuel level e trees = some (x, rest)) : rest = trees := by
  cases fuel with
  | zero => cases hread
  | succ fuel =>
    cases h with
    | arrow isArrow line =>
      obtain ⟨token, rfl, hkind⟩ := leaf_of_isPunct isArrow
      have hop : infixOf? (.leaf token) = none := by
        rw [infixOf?, markOf?, hkind]
        decide
      rw [Script.infixTail, hop] at hread
      cases hread
      rfl
    | @name token mark more name kind line isArrow =>
      rw [Script.infixTail] at hread
      cases hop : infixOf? (.leaf token) with
      | none =>
        rw [hop] at hread
        cases hread
        rfl
      | some found =>
        obtain ⟨own, op⟩ := found
        rw [hop] at hread
        dsimp only at hread
        split at hread
        · cases hread
          rfl
        · obtain ⟨right, hright, -⟩ := Option.bind_eq_some_iff.mp hread
          cases fuel with
          | zero => cases hright
          | succ fuel =>
            rw [infixes, unary_arrow isArrow] at hright
            cases hright

lemma Dangling.noMark (h : Dangling trees) {text : String} (hne : text ≠ "=>") :
    startsWithPunct trees text = false := by
  cases h with
  | arrow isArrow line =>
    obtain ⟨token, rfl, hkind⟩ := leaf_of_isPunct isArrow
    simp [startsWithPunct, Tree.isPunct, Token.isPunct, hkind, hne.symm]
  | name kind line isArrow => simp [startsWithPunct, Tree.isPunct, Token.isPunct, kind]

/-- A unary expression in front of what is left of an arrow function is not read on. -/
lemma Dangling.conditional (h : Dangling rest) (hread : Gives (fun fuel => unary p fuel trees) (e, rest))
    (hconditional : Gives (fun fuel => Script.conditional p fuel trees) (x, rest')) : rest' = rest := by
  obtain ⟨y, behind, hinfixes, fuel, hchoice⟩ := gives_conditional.mp hconditional
  obtain ⟨first, left, hunary, fuel', htail⟩ := gives_infixes.mp hinfixes
  cases hunary.unique hread (unary_grows p trees)
  obtain rfl := h.infixTail htail
  dsimp only at hchoice
  rw [choiceTail, h.noMark (by decide), if_neg Bool.false_ne_true] at hchoice
  cases hchoice
  rfl

/-- An arrow, an equals sign or a name is no step into a value, and no count. -/
structure StopsSteps (token : Token) : Prop where
  kind : token.kind = .punct "=>" ∨ token.kind = .punct "=" ∨ ∃ name, token.kind = .ident name

lemma StopsSteps.steps {token : Token} (h : StopsSteps token) {fuel : Nat} {mayCall skips skips' : Bool}
    (hread : Script.steps p fuel mayCall e skips (.leaf token :: more) = some (x, skips', rest)) :
    x = e ∧ skips' = skips ∧ rest = .leaf token :: more := by
  cases fuel with
  | zero => cases hread
  | succ fuel =>
    obtain hkind | hkind | ⟨name, hkind⟩ := h.kind <;>
    · simp only [Script.steps, hkind] at hread
      cases hread
      exact ⟨rfl, rfl, rfl⟩

lemma StopsSteps.noCount {token : Token} (h : StopsSteps token) :
    ((Tree.leaf token).isPunct "++" || (Tree.leaf token).isPunct "--") = false := by
  obtain hkind | hkind | ⟨name, hkind⟩ := h.kind <;>
    simp [Tree.isPunct, Token.isPunct, hkind]

/-- A value is read up to where the steps into it stop. -/
lemma StopsSteps.counted {token : Token} {left : List Tree} (h : StopsSteps token)
    (hprimary : ∀ fuel e r, primary p fuel trees = some (e, r) → r = left)
    (hsteps : ∀ fuel e x skips r, Script.steps p fuel true e false left = some (x, skips, r) →
      r = .leaf token :: more) {fuel : Nat} (hread : Script.counted p fuel trees = some (x, rest)) :
    rest = .leaf token :: more ∧ ∃ fuel e fuel' y skips, primary p fuel trees = some (e, left) ∧
      Script.steps p fuel' true e false left = some (y, skips, rest) ∧ x = if skips then .chain y else y := by
  cases fuel with
  | zero => cases hread
  | succ fuel =>
    rw [Script.counted] at hread
    obtain ⟨⟨y, behind⟩, hreached, hread⟩ := Option.bind_eq_some_iff.mp hread
    cases fuel with
    | zero => cases hreached
    | succ fuel =>
      rw [reached] at hreached
      obtain ⟨⟨e, r⟩, hfirst, hreached⟩ := Option.bind_eq_some_iff.mp hreached
      obtain ⟨⟨z, skips, r'⟩, hmore, hreached⟩ := Option.bind_eq_some_iff.mp hreached
      cases hreached
      obtain rfl := hprimary _ _ _ hfirst
      obtain rfl := hsteps _ _ _ _ _ hmore
      dsimp only at hread
      rw [h.noCount, Bool.false_and, if_neg Bool.false_ne_true] at hread
      cases hread
      exact ⟨rfl, _, _, _, _, _, hfirst, hmore, rfl⟩

/-- A name is read alone, unless a function comes behind it. -/
lemma primary_name {token : Token} {name : String} (hkind : token.kind = .ident name)
    (hfree : name ∉ reservedWords) (hfunction : startsWithWord trees "function" = false) {fuel : Nat}
    (hread : primary p fuel (.leaf token :: trees) = some (e, rest)) : rest = trees := by
  have hne : ∀ word ∈ reservedWords, name ≠ word := fun word hword heq => hfree (heq ▸ hword)
  cases fuel with
  | zero => cases hread
  | succ fuel =>
    simp only [primary, hkind] at hread
    split at hread
    case h_8 heq => exact absurd (Source.Kind.ident.inj heq) (hne _ (by decide))
    case h_9 heq => exact absurd (Source.Kind.ident.inj heq) (hne _ (by decide))
    case h_10 =>
      rw [hfunction, Bool.and_false, if_neg Bool.false_ne_true] at hread
      obtain ⟨n, -, hread⟩ := Option.map_eq_some_iff.mp hread
      cases hread
      rfl
    case h_3 heq => cases heq
    all_goals cases hread <;> rfl

/-- Behind a group in parentheses stands what the group is read in front of. -/
lemma primary_round {opener closer : Token} {inside : List Tree} (isRound : opener.isPunct "(" = true)
    {fuel : Nat} (hread : primary p fuel (.group opener inside closer :: trees) = some (e, rest)) :
    rest = trees := by
  cases fuel with
  | zero => cases hread
  | succ fuel =>
    rw [primary, if_pos isRound] at hread
    obtain ⟨y, -, hread⟩ := Option.map_eq_some_iff.mp hread
    cases hread
    rfl

/-- A call is one step. -/
lemma StopsSteps.call {token opener closer : Token} {inside : List Tree} (h : StopsSteps token)
    (isRound : opener.isPunct "(" = true) {fuel : Nat} {skips skips' : Bool}
    (hread : Script.steps p fuel true e skips (.group opener inside closer :: .leaf token :: more) =
      some (x, skips', rest)) : rest = .leaf token :: more := by
  have hsquare : opener.isPunct "[" = false := by
    have hkind : opener.kind = .punct "(" := by simpa [Token.isPunct] using isRound
    simp [Token.isPunct, hkind]
  cases fuel with
  | zero => cases hread
  | succ fuel =>
    rw [Script.steps] at hread
    simp only [hsquare, isRound, if_neg Bool.false_ne_true, Bool.and_self, if_pos] at hread
    obtain ⟨args, -, hread⟩ := Option.bind_eq_some_iff.mp hread
    exact (h.steps hread).2.2

/-- An operator in front of an arrow has nothing to take. -/
lemma unary_name {token : Token} {name : String} (hkind : token.kind = .ident name)
    (h : unaryOperators.lookup name = none ∧ name ≠ "await" ∧ name ≠ "++" ∧ name ≠ "--" ∨
      ∀ fuel, unary p fuel trees = none) {fuel : Nat}
    (hread : unary p (fuel + 1) (.leaf token :: trees) = some (e, rest)) :
    counted p fuel (.leaf token :: trees) = some (e, rest) := by
  have hmark : markOf? (.leaf token) = some name := by simp [markOf?, hkind]
  rw [unary, hmark] at hread
  dsimp only at hread
  obtain ⟨hlookup, hawait, hup, hdown⟩ | hnone := h
  · simpa [hlookup, hawait, hup, hdown] using hread
  · split at hread
    · simp [hnone] at hread
    · split at hread
      · simp [hnone] at hread
      · split at hread
        · simp [hnone] at hread
        · exact hread

/-- Behind a unary expression at the head of an arrow function dangles the rest of that function. -/
lemma StartsArrow.dangling (h : StartsArrow trees) (hread : Gives (fun fuel => unary p fuel trees) (e, rest)) :
    Dangling rest := by
  obtain ⟨fuel, hread⟩ := hread
  cases fuel with
  | zero => cases hread
  | succ fuel =>
    cases h with
    | @plain head mark more isHead isArrow line =>
      obtain ⟨arrow, rfl, hkind⟩ := leaf_of_isPunct isArrow
      have hstop : StopsSteps arrow := ⟨.inl hkind⟩
      have hnone : ∀ fuel, unary p fuel (.leaf arrow :: more) = none := unary_arrow isArrow
      suffices hrest : rest = .leaf arrow :: more by
        rw [hrest]
        exact .arrow isArrow line
      cases isHead with
      | @name token name kind free =>
        have hfunction : startsWithWord (.leaf arrow :: more) "function" = false := by
          simp [startsWithWord, Tree.isWord, Token.isWord, hkind]
        exact (hstop.counted (fun _ _ _ => primary_name kind free hfunction)
          (fun _ _ _ _ _ hmore => (hstop.steps hmore).2.2) (unary_name kind (.inr hnone) hread)).1
      | @group opener closer inside isRound =>
        simp only [unary, markOf?] at hread
        exact (hstop.counted (fun _ _ _ => primary_round isRound)
          (fun _ _ _ _ _ hmore => (hstop.steps hmore).2.2) hread).1
    | @async word head mark more isAsync isHead headLine isArrow line =>
      obtain ⟨arrow, rfl, hkind⟩ := leaf_of_isPunct isArrow
      have hstop : StopsSteps arrow := ⟨.inl hkind⟩
      obtain ⟨async, rfl, hasync⟩ := leaf_of_isWord isAsync
      have hcounted := unary_name hasync (.inl (by decide)) hread
      cases isHead with
      | @name token name kind free =>
        have hfunction : startsWithWord (.leaf token :: .leaf arrow :: more) "function" = false := by
          have hne : name ≠ "function" := fun heq => free (heq ▸ by decide)
          simp [startsWithWord, Tree.isWord, Token.isWord, kind, hne]
        have hname : StopsSteps token := ⟨.inr (.inr ⟨name, kind⟩)⟩
        rw [(hname.counted (fun _ _ _ => primary_name hasync (by decide) hfunction)
          (fun _ _ _ _ _ hmore => (hname.steps hmore).2.2) hcounted).1]
        exact .name kind headLine isArrow
      | @group opener closer inside isRound =>
        rw [(hstop.counted (fun _ _ _ => primary_name hasync (by decide) rfl)
          (fun _ _ _ _ _ => hstop.call isRound) hcounted).1]
        exact .arrow isArrow line

/-! ## Assignments and statements -/

lemma patternPart_leaf {token : Token} {fuel : Nat} {q : Script.Pattern}
    (h : patternPart p fuel [.leaf token] = some q) :
    ∃ name, token.kind = .ident name ∧ name ∉ reservedWords := by
  cases fuel with
  | zero => cases h
  | succ fuel =>
    obtain ⟨target, htarget, -⟩ := Option.bind_eq_some_iff.mp h
    cases fuel with
    | zero => cases htarget
    | succ fuel =>
      obtain ⟨name, hname, -⟩ := Option.map_eq_some_iff.mp htarget
      obtain ⟨hname, hfree⟩ := Option.filter_eq_some_iff.mp hname
      refine ⟨name, ?_, ?_⟩
      · cases hkind : token.kind <;> simp [Tree.name?, Token.name?, hkind] at hname
        rw [hname]
      · intro hmem
        simp [hmem] at hfree

lemma parameters_leaf {token : Token} {fuel : Nat} {b : List Script.Pattern × Option Script.Pattern}
    (h : parameters p fuel (splitAtCommas [.leaf token]) = some b) :
    ∃ name, token.kind = .ident name ∧ name ∉ reservedWords := by
  have hparts : splitAtCommas [.leaf token] = [[]] ∨ splitAtCommas [.leaf token] = [[.leaf token]] := by
    unfold splitAtCommas
    split
    · exact .inl rfl
    · exact .inr rfl
  cases fuel with
  | zero => cases h
  | succ fuel =>
    obtain hparts | hparts := hparts <;>
    · simp only [hparts, parameters] at h
      obtain ⟨q, hq, -⟩ := Option.bind_eq_some_iff.mp h
      first
        | exact patternPart_leaf hq
        | cases fuel <;> cases hq

lemma arrow_head {isAsync : Bool} {fuel : Nat} {b : Expr × List Tree}
    (h : arrow p fuel isAsync head trees = some b) : IsHead head := by
  cases fuel with
  | zero => cases h
  | succ fuel =>
    unfold arrow at h
    cases head with
    | group opener inside closer =>
      dsimp only at h
      split at h
      · rename_i isRound
        exact .group isRound
      · cases h
    | leaf token =>
      dsimp only [Option.bind_eq_bind, Option.bind_some] at h
      suffices hname : ∃ name, token.kind = .ident name ∧ name ∉ reservedWords by
        obtain ⟨name, kind, free⟩ := hname
        exact .name kind free
      cases trees with
      | nil => cases h
      | cons t trees =>
        dsimp only at h
        split at h
        · obtain ⟨f, hf, -⟩ := Option.bind_eq_some_iff.mp h
          cases fuel with
          | zero => cases hf
          | succ fuel =>
            obtain ⟨params, hparams, -⟩ := Option.bind_eq_some_iff.mp hf
            exact parameters_leaf hparams
        · obtain ⟨params, hparams, -⟩ := Option.bind_eq_some_iff.mp h
          exact parameters_leaf hparams

/-- An expression starts with an arrow function, or assigns to a pattern, or is neither. -/
lemma assignment_cases (h : Gives (fun fuel => assignment p fuel trees) (x, rest)) :
    StartsArrow trees ∨
      (∃ t mark more target value, trees = t :: mark :: more ∧
        (t.isGroup "[" || t.isGroup "\x7b") = true ∧ mark.isPunct "=" = true ∧
        x = .assign (.pattern target) value) ∨
      Gives (fun fuel => assigned p fuel trees) (x, rest) := by
  obtain ⟨fuel, h⟩ := h
  cases fuel with
  | zero => cases h
  | succ fuel =>
    cases trees with
    | nil => cases h
    | cons t trees =>
      cases trees with
      | nil => exact .inr (.inr ⟨fuel, h⟩)
      | cons next more =>
        unfold assignment at h
        simp only [List.head?_cons, Option.any_some] at h
        by_cases harrow : (next.isPunct "=>" && !next.first.newlineBefore) = true
        · rw [if_pos harrow] at h
          rw [Bool.and_eq_true, Bool.not_eq_true'] at harrow
          exact .inl (.plain (arrow_head h) harrow.1 harrow.2)
        rw [if_neg harrow] at h
        by_cases hasync : (t.isWord "async" && !next.first.newlineBefore &&
            more.head?.any fun a => a.isPunct "=>" && !a.first.newlineBefore) = true
        · rw [if_pos hasync] at h
          simp only [Bool.and_eq_true, Bool.not_eq_true'] at hasync
          obtain ⟨⟨hword, hline⟩, hmore⟩ := hasync
          cases more with
          | nil => cases hmore
          | cons mark more =>
            simp only [List.head?_cons, Option.any_some, Bool.and_eq_true, Bool.not_eq_true'] at hmore
            exact .inl (.async hword (arrow_head h) hline hmore.1 hmore.2)
        rw [if_neg hasync] at h
        by_cases hpattern : ((t.isGroup "[" || t.isGroup "\x7b") && next.isPunct "=") = true
        · rw [if_pos hpattern] at h
          rw [Bool.and_eq_true] at hpattern
          obtain ⟨target, -, h⟩ := Option.bind_eq_some_iff.mp h
          obtain ⟨value, -, h⟩ := Option.bind_eq_some_iff.mp h
          cases h
          exact .inr (.inl ⟨t, next, more, target, value.1, rfl, hpattern.1, hpattern.2, rfl⟩)
        · rw [if_neg hpattern] at h
          exact .inr (.inr ⟨fuel, h⟩)

lemma assigned_of_void (hv : v.isWord "void" = true) {b : Expr × List Tree}
    (h : Gives (fun fuel => assignment p fuel (v :: trees)) b) :
    Gives (fun fuel => assigned p fuel (v :: trees)) b := by
  obtain ⟨token, rfl, hkind⟩ := leaf_of_isWord hv
  obtain harrow | ⟨t, mark, more, target, value, heq, hgroup, -⟩ | h := assignment_cases h
  · cases harrow with
    | plain isHead =>
      cases isHead with
      | name kind free =>
        rw [hkind] at kind
        cases kind
        exact absurd (by decide) free
    | async isAsync => simp [Tree.isWord, Token.isWord, hkind] at isAsync
  · cases heq
    cases hgroup
  · exact h

lemma assignment_of_void (hv : v.isWord "void" = true) {b c : Expr × List Tree}
    (hread : Gives (fun fuel => unary p fuel trees) c)
    (h : Gives (fun fuel => assigned p fuel (v :: trees)) b) :
    Gives (fun fuel => assignment p fuel (v :: trees)) b := by
  obtain ⟨token, rfl, hkind⟩ := leaf_of_isWord hv
  obtain ⟨fuel, h⟩ := h
  refine ⟨fuel + 1, ?_⟩
  cases trees with
  | nil => exact h
  | cons next more =>
    have hnext : next.isPunct "=>" = false := by
      rw [Bool.eq_false_iff]
      intro harrow
      obtain ⟨fuel', hread⟩ := hread
      cases hread.symm.trans (unary_arrow harrow fuel')
    have hasync : (Tree.leaf token).isWord "async" = false := by
      simp [Tree.isWord, Token.isWord, hkind]
    unfold assignment
    simpa [hnext, hasync, Tree.isGroup] using h

/-- What is made of the first expression of a sequence. -/
def sequenceTail (p : Script.Place) (fuel : Nat) (a : Expr) (rest : List Tree) : Option (Expr × List Tree) :=
  if startsWithPunct rest "," then do
    let (b, rest) ← sequence p fuel (rest.drop 1)
    some (.sequence a b, rest)
  else some (a, rest)

lemma gives_sequence {b : Expr × List Tree} :
    Gives (fun fuel => sequence p fuel trees) b ↔
      ∃ e rest, Gives (fun fuel => assignment p fuel trees) (e, rest) ∧
        Gives (fun fuel => sequenceTail p fuel e rest) b := by
  rw [gives_bind (fun fuel (a : Expr × List Tree) => sequenceTail p fuel a.1 a.2) rfl (fun _ => rfl)
    (assignment_grows p trees)]
  · exact Prod.exists
  · intro a fuel
    exact .branch (fun _ => .bind ((readersExtend fuel).sequence p _) fun _ => .refl _) fun _ => .refl _

/-- A statement that starts with the operator is an expression up to the end of the statement. -/
lemma gives_statement_void (hv : v.isWord "void" = true) {s : Stmt} :
    Gives (fun fuel => statement p fuel (v :: trees)) (s, behind) ↔
      ∃ e rest, Gives (fun fuel => sequence p fuel (v :: trees)) (e, rest) ∧
        statementEnd? rest = some behind ∧ s = .expr e := by
  obtain ⟨token, rfl, hkind⟩ := leaf_of_isWord hv
  have hstatement : ∀ fuel, statement p (fuel + 1) (.leaf token :: trees) =
      exprStatement p fuel (.leaf token :: trees) := by
    intro fuel
    simp only [statement, hkind]
    rfl
  constructor
  · rintro ⟨fuel, h⟩
    cases fuel with
    | zero => cases h
    | succ fuel =>
      dsimp only at h
      rw [hstatement] at h
      cases fuel with
      | zero => cases h
      | succ fuel =>
        obtain ⟨⟨e, rest⟩, hsequence, h⟩ := Option.bind_eq_some_iff.mp h
        obtain ⟨left, hend, h⟩ := Option.bind_eq_some_iff.mp h
        cases h
        exact ⟨e, rest, ⟨fuel, hsequence⟩, hend, rfl⟩
  · rintro ⟨e, rest, ⟨fuel, hsequence⟩, hend, rfl⟩
    refine ⟨fuel + 2, ?_⟩
    dsimp only at hsequence ⊢
    rw [hstatement, exprStatement, hsequence]
    simp [hend]

/-! ### Patterns that are assigned to -/

/-- A list or a record in front of an equals sign is read alone. -/
lemma unary_assigned (hgroup : (t.isGroup "[" || t.isGroup "\x7b") = true) (hmark : mark.isPunct "=" = true)
    (hread : Gives (fun fuel => unary p fuel (t :: mark :: more)) (e, rest)) :
    rest = mark :: more ∧ ∀ target value, e ≠ .assign target value := by
  obtain ⟨fuel, hread⟩ := hread
  obtain ⟨equals, rfl, hkind⟩ := leaf_of_isPunct hmark
  have hstop : StopsSteps equals := ⟨.inr (.inl hkind)⟩
  cases t with
  | leaf token => cases hgroup
  | group opener inside closer =>
    have hround : opener.isPunct "(" = false := by
      simp only [Tree.isGroup, Token.isPunct, Bool.or_eq_true, beq_iff_eq] at hgroup
      obtain hgroup | hgroup := hgroup <;> simp [Token.isPunct, hgroup]
    have hprimary : ∀ fuel e r, primary p fuel (.group opener inside closer :: .leaf equals :: more) =
        some (e, r) → r = .leaf equals :: more ∧
          ((∃ items, e = .list items) ∨ ∃ entries, e = .record entries) := by
      intro fuel e r hread
      cases fuel with
      | zero => cases hread
      | succ fuel =>
        rw [primary, hround, if_neg Bool.false_ne_true] at hread
        split at hread
        · obtain ⟨items, -, hread⟩ := Option.map_eq_some_iff.mp hread
          cases hread
          exact ⟨rfl, .inl ⟨items, rfl⟩⟩
        · obtain ⟨entries, -, hread⟩ := Option.map_eq_some_iff.mp hread
          cases hread
          exact ⟨rfl, .inr ⟨entries, rfl⟩⟩
    cases fuel with
    | zero => cases hread
    | succ fuel =>
      simp only [unary, markOf?] at hread
      obtain ⟨hrest, _, first, _, y, skips, hfirst, hsteps, rfl⟩ :=
        hstop.counted (fun _ _ _ h => (hprimary _ _ _ h).1)
          (fun _ _ _ _ _ hmore => (hstop.steps hmore).2.2) hread
      obtain ⟨rfl, rfl, -⟩ := hstop.steps hsteps
      refine ⟨hrest, ?_⟩
      obtain ⟨-, ⟨items, rfl⟩ | ⟨entries, rfl⟩⟩ := hprimary _ _ _ hfirst <;>
      · intro target value heq
        cases heq

lemma conditional_assigned (hmark : mark.isPunct "=" = true)
    (hread : Gives (fun fuel => unary p fuel trees) (e, mark :: more))
    (hconditional : Gives (fun fuel => conditional p fuel trees) (x, rest)) :
    x = e ∧ rest = mark :: more := by
  obtain ⟨equals, rfl, hkind⟩ := leaf_of_isPunct hmark
  obtain ⟨y, behind, hinfixes, fuel, hchoice⟩ := gives_conditional.mp hconditional
  obtain ⟨first, left, hunary, fuel', htail⟩ := gives_infixes.mp hinfixes
  cases hunary.unique hread (unary_grows p trees)
  have hop : infixOf? (.leaf equals) = none := by
    rw [infixOf?, markOf?, hkind]
    decide
  have hchoose : startsWithPunct (.leaf equals :: more) "?" = false := by
    simp [startsWithPunct, Tree.isPunct, Token.isPunct, hkind]
  cases fuel' with
  | zero => cases htail
  | succ fuel' =>
    dsimp only at htail hchoice
    rw [infixTail, hop] at htail
    cases htail
    rw [choiceTail, hchoose, if_neg Bool.false_ne_true] at hchoice
    cases hchoice
    exact ⟨rfl, rfl⟩

lemma assigned_equals (hmark : mark.isPunct "=" = true) : ¬ NotAssigned (mark :: more) := by
  obtain ⟨equals, rfl, hkind⟩ := leaf_of_isPunct hmark
  intro h
  have hassigning := h "=" (by simp [markOf?, hkind])
  exact absurd hassigning (by decide)

end TaskRunner.Proofs
