import TaskRunner.Proofs.CopiedExpressions
import TaskRunner.Proofs.ExpressionReaders
import TaskRunner.Proofs.HiddenFiles
import TaskRunner.Proofs.RecordedFunctions

/-!
# Variables that are recorded as functions

A variable whose value starts with a function expression is recorded as that function, whatever comes behind
the body. The function expression is the whole value if and only if the tree behind the body is no call,
index, member or template, no operator of two sides and no question mark.
-/

namespace TaskRunner.Proofs
open Script (assignment assigned conditional infixes infixTail unary counted reached primary steps infixOf?
  markOf? nameOf? Target.ofExpr?)
open Source Tree

variable {after : Token} {fn params behind rest trees : List Tree} {body : List Tree × Token}
  {p : Script.Place} {e x : Script.Expr}

/-! ## Function expressions -/

/-- A function from its word on; a star and a name may stand behind the word. -/
inductive PlainFunction (params : List Tree) (body : List Tree × Token) : List Tree → Prop
  | mk {word parameters block : Tree} {star name : List Tree} {closer : Token}
      (isFunction : word.isWord "function" = true)
      (isStar : star = [] ∨ ∃ mark, star = [mark] ∧ mark.isPunct "*" = true)
      (isName : name = [] ∨ ∃ t, name = [t] ∧ t.name?.isSome = true)
      (isParameters : parameters.inside? "(" = some (params, closer))
      (isBlock : block.inside? "\x7b" = some body) :
      PlainFunction params body (word :: (star ++ (name ++ [parameters, block])))

/-- A function expression, plain or with `async` on the line of its word. -/
inductive FunctionExpression (params : List Tree) (body : List Tree × Token) : List Tree → Prop
  | plain {fn : List Tree} (isPlain : PlainFunction params body fn) : FunctionExpression params body fn
  | async {word : Tree} {fn : List Tree} (isAsync : word.isWord "async" = true)
      (line : ∀ t ∈ fn.head?, t.first.newlineBefore = false) (isPlain : PlainFunction params body fn) :
      FunctionExpression params body (word :: fn)

/-- The trees start with `function`, or with `async` and `function`. -/
def StartsFunction (trees : List Tree) : Prop :=
  startsWithWord (dropWord "async" trees) "function" = true

/-- What is behind the star and the name of a function, if it has them. -/
def fromParameters (trees : List Tree) : List Tree :=
  let trees := dropPunct "*" trees.tail
  if startsWithName trees then trees.tail else trees

/-- The parameters and the body of a function from its word on. -/
def plainFunction? (trees : List Tree) : Option (List Tree × Option (List Tree × Token)) :=
  match fromParameters trees with
  | t :: b :: _ =>
    match t.inside? "(", b.inside? "\x7b" with
    | some (params, _), some body => some (params, some body)
    | _, _ => none
  | _ => none

lemma functionValue_plain {width : Nat} (h : startsWithWord trees "function" = true) :
    functionValue trees width = plainFunction? trees := by
  obtain ⟨t, rest, rfl, ht⟩ := startsWithWord_iff.mp h
  have hasync : startsWithWord (t :: rest) "async" = false := isWord_other ht (by decide)
  unfold functionValue
  simp only [hasync, Bool.false_and, Bool.false_eq_true, if_false, List.drop_zero, h, if_true]
  rfl

lemma functionValue_async {word : Tree} {width : Nat} (hword : word.isWord "async" = true)
    (h : startsWithWord trees "function" = true) :
    functionValue (word :: trees) width = if 1 < width then plainFunction? trees else none := by
  have hasync : startsWithWord (word :: trees) "async" = true := hword
  obtain ⟨t, rest, rfl, ht⟩ := startsWithWord_iff.mp h
  have hword' : startsWithWord (word :: t :: rest) "function" = false := isWord_other hword (by decide)
  have harrow : t.isPunct "=>" = false := isPunct_of_isWord ht
  unfold functionValue
  by_cases hwidth : 1 < width
  · simp only [hasync, hwidth, decide_true, Bool.and_self, if_true, List.drop_succ_cons, List.drop_zero, h]
    rfl
  · simp only [hasync, hwidth, decide_false, Bool.and_false, Bool.false_eq_true, if_false, List.drop_zero,
      hword', harrow]
    split <;> rfl

/-- A star is dropped in front of what is none. -/
lemma dropPunct_star {star : List Tree} (hstar : star = [] ∨ ∃ mark, star = [mark] ∧ mark.isPunct "*" = true)
    (h : startsWithPunct trees "*" = false) : dropPunct "*" (star ++ trees) = trees := by
  obtain rfl | ⟨mark, rfl, hmark⟩ := hstar
  · exact if_neg (Bool.eq_false_iff.mp h)
  · exact if_pos hmark

lemma dropPunct_append (trees : List Tree) : ∃ star, trees = star ++ dropPunct "*" trees ∧
    (star = [] ∨ ∃ mark, star = [mark] ∧ mark.isPunct "*" = true) := by
  rw [dropPunct]
  split
  · rename_i hstar
    obtain ⟨mark, rest, rfl, hmark⟩ := startsWithPunct_iff.mp hstar
    exact ⟨[mark], rfl, .inr ⟨mark, rfl, hmark⟩⟩
  · exact ⟨[], rfl, .inl rfl⟩

/-- What stands between the word of a function and its parameters is skipped. -/
lemma fromParameters_plain {word parameters : Tree} {star name : List Tree} {content : List Tree × Token}
    (hstar : star = [] ∨ ∃ mark, star = [mark] ∧ mark.isPunct "*" = true)
    (hname : name = [] ∨ ∃ t, name = [t] ∧ t.name?.isSome = true)
    (hparameters : parameters.inside? "(" = some content) :
    fromParameters (word :: (star ++ (name ++ parameters :: rest))) = parameters :: rest := by
  obtain ⟨opener, rfl, -⟩ := group_of_inside? hparameters
  have hnone : startsWithPunct (name ++ .group opener content.1 content.2 :: rest) "*" = false := by
    obtain rfl | ⟨t, rfl, ht⟩ := hname
    · rfl
    · obtain ⟨token, name, rfl, hkind⟩ := leaf_of_ident ht
      simp [startsWithPunct, Tree.isPunct, Token.isPunct, hkind]
  rw [fromParameters, List.tail_cons, dropPunct_star hstar hnone]
  obtain rfl | ⟨t, rfl, ht⟩ := hname
  · rfl
  · exact if_pos ht

/-- A function from its word on is one of which the parts are found. -/
lemma plainFunction?_iff {content : Option (List Tree × Token)} (h : startsWithWord trees "function" = true) :
    plainFunction? trees = some (params, content) ↔
      ∃ fn behind body, trees = fn ++ behind ∧ PlainFunction params body fn ∧ content = some body := by
  constructor
  · intro hparts
    obtain ⟨word, rest, rfl, hword⟩ := startsWithWord_iff.mp h
    obtain ⟨star, hsplit, hstar⟩ := dropPunct_append rest
    obtain ⟨name, hsplit', hname⟩ : ∃ name, dropPunct "*" rest = name ++ fromParameters (word :: rest) ∧
        (name = [] ∨ ∃ t, name = [t] ∧ t.name?.isSome = true) := by
      rw [fromParameters, List.tail_cons]
      split
      · rename_i hname
        cases hrest : dropPunct "*" rest with
        | nil =>
          rw [hrest] at hname
          cases hname
        | cons t more =>
          rw [hrest] at hname
          exact ⟨[t], rfl, .inr ⟨t, rfl, hname⟩⟩
      · exact ⟨[], rfl, .inl rfl⟩
    rw [plainFunction?] at hparts
    split at hparts
    · rename_i t b behind hfrom
      split at hparts
      · rename_i closer body hparameters hblock
        cases hparts
        refine ⟨word :: (star ++ (name ++ [t, b])), behind, body, ?_,
          .mk hword hstar hname hparameters hblock, rfl⟩
        rw [hsplit, hsplit', hfrom]
        simp
      · cases hparts
    · cases hparts
  · rintro ⟨fn, behind, body, rfl, ⟨isFunction, isStar, isName, isParameters, isBlock⟩, rfl⟩
    simp only [List.cons_append, List.append_assoc, List.nil_append]
    rw [plainFunction?, fromParameters_plain isStar isName isParameters]
    simp only [isParameters, isBlock]

/-- The word of a function behind `async` is taken with it, unless it starts a line. -/
lemma cutExpression_async {word : Tree} (hword : word.isWord "async" = true)
    (h : startsWithWord trees "function" = true) :
    1 < (cutExpression after true none (word :: trees)).1.length ↔
      ∀ t ∈ trees.head?, t.first.newlineBefore = false := by
  obtain ⟨t, rest, rfl, ht⟩ := startsWithWord_iff.mp h
  obtain ⟨token, rfl, hkind⟩ := leaf_of_isWord hword
  obtain ⟨token', rfl, hkind'⟩ := leaf_of_isWord ht
  have hstop : stopsAt after true none (.leaf token :: .leaf token' :: rest) = false := by
    simp [stopsAt, Tree.isPunct, Token.isPunct, hkind]
  have hnext : stopsAt after true (some token) (.leaf token' :: rest) = token'.newlineBefore := by
    have hmark : ∀ mark, (Tree.leaf token').isPunct mark = false := fun mark => isPunct_of_isWord ht
    simp [stopsAt, hmark, Tree.first, startsDeclaration, Tree.name?, Token.name?, declarationWords, leavesOpen,
      openWords, hkind, hkind']
  rw [cutExpression_go hstop]
  cases hline : token'.newlineBefore with
  | true =>
    have hcut : cutExpression after true (some (Tree.leaf token).last) (.leaf token' :: rest) =
        ([], .leaf token' :: rest) := cutExpression_stop (hnext.trans hline)
    simp [hcut, Tree.first, hline]
  | false =>
    have hcut := cutExpression_go (hnext.trans hline)
    simp [Tree.last, hcut, Tree.first, hline]

lemma PlainFunction.starts (h : PlainFunction params body fn) (behind : List Tree) :
    (fn ++ behind).head? = fn.head? ∧ startsWithWord (fn ++ behind) "function" = true := by
  cases h with
  | mk isFunction => exact ⟨rfl, isFunction⟩

/-- The value of a variable is recorded as a function that stands in front if and only if a function
expression stands there. -/
lemma functionValue_iff {content : Option (List Tree × Token)} :
    StartsFunction trees ∧
        functionValue trees (cutExpression after true none trees).1.length = some (params, content) ↔
      ∃ fn behind body, trees = fn ++ behind ∧ FunctionExpression params body fn ∧ content = some body := by
  constructor
  · rintro ⟨hstarts, hvalue⟩
    cases hasync : startsWithWord trees "async" with
    | false =>
      rw [StartsFunction, dropWord, if_neg (Bool.eq_false_iff.mp hasync)] at hstarts
      rw [functionValue_plain hstarts, plainFunction?_iff hstarts] at hvalue
      obtain ⟨fn, behind, body, heq, hplain, hbody⟩ := hvalue
      exact ⟨fn, behind, body, heq, .plain hplain, hbody⟩
    | true =>
      rw [StartsFunction, dropWord, if_pos hasync] at hstarts
      obtain ⟨word, trees, rfl, hword⟩ := startsWithWord_iff.mp hasync
      rw [List.tail_cons] at hstarts
      rw [functionValue_async hword hstarts] at hvalue
      split at hvalue
      · rename_i hwidth
        obtain ⟨fn, behind, body, rfl, hplain, hbody⟩ := (plainFunction?_iff hstarts).mp hvalue
        have hline := (cutExpression_async hword hstarts).mp hwidth
        rw [(hplain.starts behind).1] at hline
        exact ⟨word :: fn, behind, body, rfl, .async hword hline hplain, hbody⟩
      · cases hvalue
  · rintro ⟨fn, behind, body, rfl, hfn, rfl⟩
    cases hfn with
    | plain hplain =>
      have hstarts := (hplain.starts behind).2
      have hother : startsWithWord (fn ++ behind) "async" = false := by
        obtain ⟨t, rest, heq, ht⟩ := startsWithWord_iff.mp hstarts
        rw [heq]
        exact isWord_other ht (by decide)
      refine ⟨?_, ?_⟩
      · rw [StartsFunction, dropWord, if_neg (Bool.eq_false_iff.mp hother)]
        exact hstarts
      · rw [functionValue_plain hstarts]
        exact (plainFunction?_iff hstarts).mpr ⟨fn, behind, body, rfl, hplain, rfl⟩
    | @async word fn hword hline hplain =>
      have hstarts := (hplain.starts behind).2
      have hasync : startsWithWord (word :: (fn ++ behind)) "async" = true := hword
      rw [← (hplain.starts behind).1] at hline
      refine ⟨?_, ?_⟩
      · rw [StartsFunction, List.cons_append, dropWord, if_pos hasync]
        exact hstarts
      · rw [List.cons_append, functionValue_async hword hstarts,
          if_pos ((cutExpression_async hword hstarts).mpr hline)]
        exact (plainFunction?_iff hstarts).mpr ⟨fn, behind, body, rfl, hplain, rfl⟩

/-! ## What goes on behind a body -/

/-- A step into the value in front: a call, an index, a member or a template. -/
def isStep : Tree → Bool
  | .leaf token =>
    match token.kind with
    | .punct mark => mark == "." || mark == "?."
    | .template => true
    | _ => false
  | .group opener _ _ => opener.isPunct "[" || opener.isPunct "("

/-- Whether the tree goes on with the expression in front of it. -/
def goesOn (t : Tree) : Bool :=
  isStep t || (infixOf? t).isSome || t.isPunct "?"

lemma goesOn_mark {token : Token} {mark : String} (hkind : token.kind = .punct mark)
    (hmark : mark = ";" ∨ mark = ",") : goesOn (.leaf token) = false := by
  obtain rfl | rfl := hmark
  all_goals
    have hnone : infixOf? (.leaf token) = none := by
      rw [infixOf?, markOf?, hkind]
      rfl
    simp [goesOn, isStep, hkind, hnone, Tree.isPunct, Token.isPunct]

/-- No word that starts a declaration is an operator. -/
lemma goesOn_declaration {t : Tree} (h : startsDeclaration after (t :: rest) = true) : goesOn t = false := by
  cases hname : t.name? with
  | none => simp [startsDeclaration, hname] at h
  | some name =>
    obtain ⟨token, name', rfl, hkind⟩ := leaf_of_ident (hname ▸ rfl : t.name?.isSome = true)
    cases hname.symm.trans (show (Tree.leaf token).name? = some name' by simp [Tree.name?, Token.name?, hkind])
    have hword : name ∈ "async" :: declarationWords := by
      simp only [startsDeclaration, hname, beq_iff_eq] at h
      split at h
      · rename_i himport
        rw [himport]
        decide
      · split at h
        · rename_i hasync
          rw [hasync]
          decide
        · exact .tail _ (List.contains_iff_mem.mp h)
    have hwords : ∀ word ∈ "async" :: declarationWords, Script.binaryOperators.lookup word = none ∧
        Script.logicOperators.lookup word = none := by
      decide
    have hnone : infixOf? (.leaf token) = none := by
      rw [infixOf?, markOf?, hkind]
      simp [hwords name hword]
    simp [goesOn, isStep, hkind, hnone, Tree.isPunct, Token.isPunct]

/-- Where the value of a variable is cut off, nothing goes on with it. -/
lemma stopsAt_goesOn {previous : Option Token} (h : stopsAt after true previous behind = true) :
    behind.head?.any goesOn = false := by
  cases behind with
  | nil => rfl
  | cons t rest =>
    rw [List.head?_cons, Option.any_some]
    rw [stopsAt, Bool.or_eq_true, Bool.or_eq_true, Bool.true_and] at h
    obtain (h | h) | h := h
    · cases previous with
      | none => cases h
      | some previous =>
        rw [Option.any_some, Bool.and_eq_true, Bool.and_eq_true] at h
        exact goesOn_declaration h.1.2
    · obtain ⟨token, rfl, hkind⟩ := leaf_of_isPunct h
      exact goesOn_mark hkind (.inl rfl)
    · obtain ⟨token, rfl, hkind⟩ := leaf_of_isPunct h
      exact goesOn_mark hkind (.inr rfl)

/-- Whether the expression is a function. -/
def isFunction : Script.Expr → Bool
  | .function _ => true
  | _ => false

/-- The tree behind a value is no step into it, or it is one and what is made of it is no function. -/
lemma steps_cases {fuel : Nat} {mayCall skips skips' : Bool} {t : Tree}
    (h : steps p (fuel + 1) mayCall e skips (t :: trees) = some (x, skips', rest)) :
    (x = e ∧ skips' = skips ∧ rest = t :: trees ∧ (mayCall = true → isStep t = false)) ∨
      (isStep t = true ∧ ∃ e' skips'' trees', isFunction e' = false ∧
        steps p fuel mayCall e' skips'' trees' = some (x, skips', rest)) := by
  unfold steps at h
  dsimp only at h
  cases t with
  | leaf token =>
    dsimp only at h
    split at h
    · rename_i hkind
      have hstep : isStep (.leaf token) = true := by simp [isStep, hkind]
      split at h
      · obtain ⟨key, -, h⟩ := Option.bind_eq_some_iff.mp h
        exact .inr ⟨hstep, _, _, _, rfl, h⟩
      · cases h
    · rename_i hkind
      have hstep : isStep (.leaf token) = true := by simp [isStep, hkind]
      split at h
      · split at h
        · obtain ⟨key, -, h⟩ := Option.bind_eq_some_iff.mp h
          exact .inr ⟨hstep, _, _, _, rfl, h⟩
        · split at h
          · obtain ⟨key, -, h⟩ := Option.bind_eq_some_iff.mp h
            exact .inr ⟨hstep, _, _, _, rfl, h⟩
          · split at h
            · obtain ⟨args, -, h⟩ := Option.bind_eq_some_iff.mp h
              exact .inr ⟨hstep, _, _, _, rfl, h⟩
            · cases h
      · cases h
    · rename_i hkind
      have hstep : isStep (.leaf token) = true := by simp [isStep, hkind]
      obtain ⟨parts, -, h⟩ := Option.bind_eq_some_iff.mp h
      exact .inr ⟨hstep, _, _, _, rfl, h⟩
    · rename_i hpoint hoptional htemplate
      cases h
      refine .inl ⟨rfl, rfl, rfl, fun _ => ?_⟩
      unfold isStep
      dsimp only
      split
      · rename_i mark hkind
        have hne : mark ≠ "." := fun heq => hpoint (heq ▸ hkind)
        have hne' : mark ≠ "?." := fun heq => hoptional (heq ▸ hkind)
        simp [hne, hne']
      · rename_i hkind
        exact absurd hkind htemplate
      · rfl
  | group opener inside closer =>
    dsimp only at h
    split at h
    · rename_i hsquare
      obtain ⟨key, -, h⟩ := Option.bind_eq_some_iff.mp h
      exact .inr ⟨by simp [isStep, hsquare], _, _, _, rfl, h⟩
    · rename_i hsquare
      split at h
      · rename_i hround
        obtain ⟨args, -, h⟩ := Option.bind_eq_some_iff.mp h
        rw [Bool.and_eq_true] at hround
        exact .inr ⟨by simp [isStep, hround.1], _, _, _, rfl, h⟩
      · rename_i hround
        cases h
        exact .inl ⟨rfl, rfl, rfl, fun hcall => by simpa [isStep, hsquare, hcall] using hround⟩

/-- Steps into a value that is no function do not make one of it. -/
lemma steps_isFunction {fuel : Nat} {mayCall skips skips' : Bool} (he : isFunction e = false)
    (h : steps p fuel mayCall e skips trees = some (x, skips', rest)) : isFunction x = false := by
  induction fuel generalizing e skips trees with
  | zero =>
    unfold steps at h
    cases h
  | succ fuel ih =>
    cases trees with
    | nil =>
      unfold steps at h
      cases h
      exact he
    | cons t trees =>
      obtain ⟨rfl, -⟩ | ⟨-, e', _, _, he', hmore⟩ := steps_cases h
      · exact he
      · exact ih he' hmore

/-- A function stays one if and only if no step comes behind it. -/
lemma steps_function {g : Script.Function} {fuel : Nat} {skips' : Bool}
    (h : steps p fuel true (.function g) false trees = some (x, skips', rest)) :
    (trees.head?.any isStep = false ∧ x = .function g ∧ skips' = false ∧ rest = trees) ∨
      (trees.head?.any isStep = true ∧ isFunction x = false) := by
  cases fuel with
  | zero =>
    unfold steps at h
    cases h
  | succ fuel =>
    cases trees with
    | nil =>
      unfold steps at h
      cases h
      exact .inl ⟨rfl, rfl, rfl, rfl⟩
    | cons t trees =>
      obtain ⟨hx, hskips, hrest, hstep⟩ | ⟨hstep, e', _, _, he', hmore⟩ := steps_cases h
      · exact .inl ⟨hstep rfl, hx, hskips, hrest⟩
      · exact .inr ⟨hstep, steps_isFunction he' hmore⟩

lemma isFunction_target {e : Script.Expr} (h : isFunction e = true) : Target.ofExpr? e = none := by
  cases e <;> first | rfl | cases h

lemma nameOf?_mark {mark : Tree} {text : String} (h : mark.isPunct text = true) : nameOf? p mark = none := by
  obtain ⟨token, rfl, hkind⟩ := leaf_of_isPunct h
  simp [nameOf?, Tree.name?, Token.name?, hkind]

/-- The name of a function, empty if it has none, and what is behind it. -/
def functionName (p : Script.Place) : List Tree → Option (String × List Tree)
  | [] => none
  | t :: rest =>
    match nameOf? { p with inAsync := false } t with
    | some name => some (name, rest)
    | none => some ("", t :: rest)

/-- What is made of a function's name and of what is behind it. -/
def functionBehind (p : Script.Place) (fuel : Nat) (isAsync : Bool) :
    String × List Tree → Option (Script.Function × List Tree)
  | (name, params :: body :: rest) => do
    let (params, _) ← params.inside? "("
    let (body, _) ← body.inside? "\x7b"
    let f ← Script.functionOf p fuel name false isAsync params body
    some (f, rest)
  | _ => none

lemma function_succ (p : Script.Place) (fuel : Nat) (isAsync : Bool) (trees : List Tree) :
    Script.function p (fuel + 1) isAsync trees =
      (functionName p trees).bind (functionBehind p fuel isAsync) := by
  rw [Script.function.eq_def]
  dsimp only
  cases trees with
  | nil => rfl
  | cons t rest =>
    rw [functionName]
    dsimp only
    cases nameOf? { p with inAsync := false } t with
    | none =>
      cases rest <;> rfl
    | some name =>
      obtain _ | ⟨_, _ | _⟩ := rest <;> rfl

/-- A function is read up to the end of its body. -/
lemma PlainFunction.read (h : PlainFunction params body fn) {fuel : Nat} {isAsync : Bool} {g : Script.Function}
    (hread : Script.function p fuel isAsync (fn ++ behind).tail = some (g, rest)) : rest = behind := by
  obtain @⟨word, parameters, block, star, name, closer, isFunction, isStar, isName, isParameters, isBlock⟩ := h
  obtain ⟨opener, rfl, -⟩ := group_of_inside? isParameters
  cases fuel with
  | zero =>
    rw [Script.function.eq_def] at hread
    cases hread
  | succ fuel =>
    rw [function_succ] at hread
    obtain ⟨⟨own, trees⟩, hname, hread⟩ := Option.bind_eq_some_iff.mp hread
    simp only [List.cons_append, List.tail_cons, List.append_assoc, List.nil_append] at hname
    obtain ⟨t, b, rfl, hinside⟩ : ∃ t b, trees = t :: b :: rest ∧ (t.inside? "(").isSome = true := by
      unfold functionBehind at hread
      split at hread
      · rename_i heq
        obtain ⟨inside, hinside, hread⟩ := Option.bind_eq_some_iff.mp hread
        obtain ⟨content, -, hread⟩ := Option.bind_eq_some_iff.mp hread
        obtain ⟨f, -, hread⟩ := Option.bind_eq_some_iff.mp hread
        cases hread
        cases heq
        exact ⟨_, _, rfl, hinside ▸ rfl⟩
      · cases hread
    -- A star or a reserved word in front of the parameters is taken for them.
    obtain rfl | ⟨mark, rfl, hmark⟩ := isStar
    · obtain rfl | ⟨n, rfl, hn⟩ := isName
      · cases hname
        rfl
      · obtain ⟨token, name, rfl, -⟩ := leaf_of_ident hn
        rw [List.nil_append, List.singleton_append, functionName] at hname
        split at hname
        · cases hname
          rfl
        · cases hname
          cases hinside
    · obtain ⟨token, rfl, -⟩ := leaf_of_isPunct hmark
      rw [List.singleton_append, functionName, nameOf?_mark hmark] at hname
      obtain ⟨-, rfl, -⟩ : own = "" ∧ t = .leaf token ∧ _ := by simpa [eq_comm] using hname
      cases hinside

/-- A function expression is read as a function, up to the end of its body. -/
lemma FunctionExpression.read (h : FunctionExpression params body fn) {fuel : Nat}
    (hread : primary p fuel (fn ++ behind) = some (e, rest)) : (∃ g, e = .function g) ∧ rest = behind := by
  cases fuel with
  | zero => cases hread
  | succ fuel =>
    cases h with
    | plain hplain =>
      obtain ⟨t, more, htrees, ht⟩ := startsWithWord_iff.mp (hplain.starts behind).2
      obtain ⟨token, rfl, hkind⟩ := leaf_of_isWord ht
      rw [htrees, primary] at hread
      simp only [hkind] at hread
      obtain ⟨⟨g, left⟩, hg, hread⟩ := Option.map_eq_some_iff.mp hread
      cases hread
      have hbehind : Script.function p fuel false (fn ++ behind).tail = some (g, left) := by
        rw [htrees]
        exact hg
      exact ⟨⟨g, rfl⟩, hplain.read hbehind⟩
    | @async word fn hword hline hplain =>
      obtain ⟨token, rfl, hkind⟩ := leaf_of_isWord hword
      rw [List.cons_append, primary] at hread
      simp only [hkind, (hplain.starts behind).2] at hread
      obtain ⟨⟨g, left⟩, hg, hread⟩ := Option.map_eq_some_iff.mp hread
      cases hread
      rw [List.drop_one] at hg
      exact ⟨⟨g, rfl⟩, hplain.read hg⟩

/-- A function expression stays a function where no step comes behind it. -/
lemma FunctionExpression.counted (h : FunctionExpression params body fn) {fuel : Nat}
    (hread : Script.counted p fuel (fn ++ behind) = some (x, rest)) :
    (behind.head?.any isStep = false ∧ isFunction x = true ∧ rest = behind) ∨
      (behind.head?.any isStep = true ∧ isFunction x = false) := by
  cases fuel with
  | zero => cases hread
  | succ fuel =>
    rw [Script.counted] at hread
    obtain ⟨⟨y, left⟩, hreached, hread⟩ := Option.bind_eq_some_iff.mp hread
    -- Nothing is counted up or down to a function.
    have hcounted : (isFunction y = true → x = y ∧ rest = left) ∧ (isFunction y = false → isFunction x = false) := by
      dsimp only at hread
      split at hread
      · split at hread
        · obtain ⟨target, htarget, hread⟩ := Option.bind_eq_some_iff.mp hread
          cases hread
          refine ⟨fun hy => ?_, fun _ => rfl⟩
          cases (isFunction_target hy).symm.trans htarget
        · cases hread
          exact ⟨fun _ => ⟨rfl, rfl⟩, id⟩
      · cases hread
        exact ⟨fun _ => ⟨rfl, rfl⟩, id⟩
    cases fuel with
    | zero => cases hreached
    | succ fuel =>
      rw [reached] at hreached
      obtain ⟨⟨e, r⟩, hfirst, hreached⟩ := Option.bind_eq_some_iff.mp hreached
      obtain ⟨⟨z, skips, r'⟩, hmore, hreached⟩ := Option.bind_eq_some_iff.mp hreached
      cases hreached
      obtain ⟨⟨g, rfl⟩, rfl⟩ := h.read hfirst
      obtain ⟨hstep, rfl, rfl, rfl⟩ | ⟨hstep, hz⟩ := steps_function hmore
      · obtain ⟨rfl, rfl⟩ := hcounted.1 rfl
        exact .inl ⟨hstep, rfl, rfl⟩
      · refine .inr ⟨hstep, hcounted.2 ?_⟩
        split
        · rfl
        · exact hz

/-- The word in front is no operator. -/
lemma FunctionExpression.unary (h : FunctionExpression params body fn) {fuel : Nat}
    (hread : Script.unary p (fuel + 1) (fn ++ behind) = some (x, rest)) :
    Script.counted p fuel (fn ++ behind) = some (x, rest) := by
  cases h with
  | plain hplain =>
    obtain ⟨t, more, htrees, ht⟩ := startsWithWord_iff.mp (hplain.starts behind).2
    obtain ⟨token, rfl, hkind⟩ := leaf_of_isWord ht
    rw [htrees] at hread ⊢
    exact unary_name hkind (.inl (by decide)) hread
  | async hword =>
    obtain ⟨token, rfl, hkind⟩ := leaf_of_isWord hword
    exact unary_name hkind (.inl (by decide)) hread

lemma Compound.noFunction (h : Compound x) : isFunction x = false := by
  cases h <;> rfl

lemma infixTail_isFunction {fuel : Nat} (he : isFunction e = false)
    (h : infixTail p fuel 1 e trees = some (x, rest)) : isFunction x = false := by
  obtain ⟨x', -, hread⟩ := infixTail_other h e
  cases hread with
  | same => exact he
  | more compound => exact compound.noFunction

lemma choiceTail_isFunction {fuel : Nat} (he : isFunction e = false)
    (h : choiceTail p fuel e trees = some (x, rest)) : isFunction x = false := by
  obtain ⟨x', -, ⟨rfl, -⟩ | ⟨compound, -⟩⟩ := choiceTail_other h e
  · exact he
  · exact compound.noFunction

lemma assignedTail_isFunction {fuel : Nat} (he : isFunction e = false)
    (h : assignedTail p fuel e trees = some (x, rest)) : isFunction x = false := by
  unfold assignedTail at h
  split at h
  · cases h
    exact he
  · split at h
    · obtain ⟨target, -, h⟩ := Option.bind_eq_some_iff.mp h
      obtain ⟨value, -, h⟩ := Option.bind_eq_some_iff.mp h
      cases h
      rfl
    · split at h
      · obtain ⟨target, -, h⟩ := Option.bind_eq_some_iff.mp h
        obtain ⟨value, -, h⟩ := Option.bind_eq_some_iff.mp h
        cases h
        rfl
      · obtain ⟨target, -, h⟩ := Option.bind_eq_some_iff.mp h
        obtain ⟨value, -, h⟩ := Option.bind_eq_some_iff.mp h
        cases h
        rfl
      · cases h
        exact he

/-- Operators are read behind a value if and only if one comes next. -/
lemma infixTail_operator {fuel : Nat} (h : infixTail p fuel 1 e trees = some (x, rest)) :
    (trees.head?.any (fun t => (infixOf? t).isSome) = false ∧ x = e ∧ rest = trees) ∨
      (trees.head?.any (fun t => (infixOf? t).isSome) = true ∧ Compound x) := by
  cases hnext : trees.head?.any fun t => (infixOf? t).isSome with
  | false =>
    refine .inl ⟨rfl, ?_⟩
    cases fuel with
    | zero => cases h
    | succ fuel =>
      cases trees with
      | nil =>
        cases h
        exact ⟨rfl, rfl⟩
      | cons t trees =>
        have hnone : infixOf? t = none := by simpa using hnext
        rw [infixTail, hnone] at h
        cases h
        exact ⟨rfl, rfl⟩
  | true =>
    obtain ⟨x', -, hread⟩ := infixTail_other h e
    cases hread with
    | same stops =>
      cases rest with
      | nil => cases hnext
      | cons t rest =>
        have hsome : (infixOf? t).isSome = true := hnext
        rw [stops t rfl] at hsome
        cases hsome
    | more compound => exact .inr ⟨rfl, compound⟩

lemma goesOn_next : behind.head?.any goesOn = (behind.head?.any isStep ||
    behind.head?.any (fun t => (infixOf? t).isSome) || startsWithPunct behind "?") := by
  cases behind <;> rfl

/-- A function expression is the whole condition if and only if nothing goes on with it. -/
lemma FunctionExpression.conditional (h : FunctionExpression params body fn)
    (hread : Gives (fun fuel => Script.conditional p fuel (fn ++ behind)) (x, rest)) :
    (behind.head?.any goesOn = false ∧ isFunction x = true ∧ rest = behind) ∨
      (behind.head?.any goesOn = true ∧ isFunction x = false) := by
  obtain ⟨y, left, hinfixes, fuel, hchoice⟩ := gives_conditional.mp hread
  obtain ⟨e, r, ⟨fuel₁, hunary⟩, fuel₂, htail⟩ := gives_infixes.mp hinfixes
  cases fuel₁ with
  | zero => cases hunary
  | succ fuel₁ =>
    rw [goesOn_next]
    obtain ⟨hstep, he, rfl⟩ | ⟨hstep, he⟩ := h.counted (h.unary hunary)
    · rw [hstep, Bool.false_or]
      obtain ⟨hnext, rfl, rfl⟩ | ⟨hnext, compound⟩ := infixTail_operator htail
      · rw [hnext, Bool.false_or]
        unfold choiceTail at hchoice
        split at hchoice
        · rename_i hmark
          obtain ⟨⟨a, left⟩, -, hchoice⟩ := Option.bind_eq_some_iff.mp hchoice
          dsimp only at hchoice
          split at hchoice
          · obtain ⟨⟨b, left'⟩, -, hchoice⟩ := Option.bind_eq_some_iff.mp hchoice
            cases hchoice
            exact .inr ⟨hmark, rfl⟩
          · cases hchoice
        · rename_i hmark
          cases hchoice
          exact .inl ⟨Bool.eq_false_iff.mpr hmark, he, rfl⟩
      · rw [hnext, Bool.true_or]
        exact .inr ⟨rfl, choiceTail_isFunction compound.noFunction hchoice⟩
    · rw [hstep, Bool.true_or, Bool.true_or]
      exact .inr ⟨rfl, choiceTail_isFunction (infixTail_isFunction he htail) hchoice⟩

lemma IsHead.noFunction {t : Tree} (h : IsHead t) : t.isWord "function" = false := by
  cases h with
  | group => rfl
  | @name token name kind free =>
    have hne : name ≠ "function" := fun heq => free (heq ▸ by decide)
    simp [Tree.isWord, Token.isWord, kind, hne]

/-- No arrow function starts with a function expression. -/
lemma FunctionExpression.noArrow (h : FunctionExpression params body fn) : ¬ StartsArrow (fn ++ behind) := by
  intro harrow
  cases h with
  | plain hplain =>
    obtain ⟨t, more, htrees, ht⟩ := startsWithWord_iff.mp (hplain.starts behind).2
    rw [htrees] at harrow
    cases harrow with
    | plain isHead => cases ht.symm.trans isHead.noFunction
    | async isAsync => cases isAsync.symm.trans (isWord_other ht (by decide))
  | async hword hline hplain =>
    obtain ⟨t, more, htrees, ht⟩ := startsWithWord_iff.mp (hplain.starts behind).2
    rw [List.cons_append, htrees] at harrow
    cases harrow with
    | plain isHead isArrow => cases isArrow.symm.trans (isPunct_of_isWord ht)
    | async isAsync isHead => cases ht.symm.trans isHead.noFunction

/-- A function expression is no arrow function, and no pattern. -/
lemma FunctionExpression.assigned (h : FunctionExpression params body fn)
    (hread : Gives (fun fuel => assignment p fuel (fn ++ behind)) (x, rest)) :
    Gives (fun fuel => Script.assigned p fuel (fn ++ behind)) (x, rest) := by
  obtain harrow | ⟨t, mark, more, target, value, htrees, hgroup, -⟩ | hassigned := assignment_cases hread
  · exact absurd harrow h.noArrow
  · exfalso
    cases h with
    | plain hplain =>
      obtain ⟨word, more', htrees', hword⟩ := startsWithWord_iff.mp (hplain.starts behind).2
      cases htrees.symm.trans htrees'
      obtain ⟨token, rfl, -⟩ := leaf_of_isWord hword
      cases hgroup
    | async hword =>
      cases (List.cons.inj htrees).1
      obtain ⟨token, rfl, -⟩ := leaf_of_isWord hword
      cases hgroup
  · exact hassigned

/-- A function expression is the whole value that is read if and only if nothing goes on with it. -/
theorem FunctionExpression.whole_iff (h : FunctionExpression params body fn)
    (hread : Gives (fun fuel => assignment p fuel (fn ++ behind)) (x, rest)) :
    (isFunction x = true ∧ rest = behind) ↔ behind.head?.any goesOn = false := by
  obtain ⟨y, left, hconditional, fuel, htail⟩ := gives_assigned.mp (h.assigned hread)
  obtain ⟨hnext, hy, rfl⟩ | ⟨hnext, hy⟩ := h.conditional hconditional
  · refine iff_of_true ?_ hnext
    obtain ⟨rfl, rfl, -⟩ | ⟨-, htarget, -⟩ := assignedTail_cases htail
    · exact ⟨hy, rfl⟩
    · rw [isFunction_target hy] at htarget
      cases htarget
  · refine iff_of_false ?_ (by simp [hnext])
    rw [assignedTail_isFunction hy htail]
    exact fun hx => Bool.false_ne_true hx.1

/-! ## Values of a file -/

/-- What is recorded of the value of a variable, and what that value is. -/
structure RecordsValue (after : Token) (leading : List Comment) (t : Tree) (value : List Tree) : Prop where
  /-- A function is recorded if and only if a function expression is bound to a name, whatever is behind it. -/
  recorded : ∀ g : LocalFunction, StartsFunction value ∧ valueFunction after leading (t, value) = some g ↔
    ∃ fn behind name params body, value = fn ++ behind ∧ FunctionExpression params body fn ∧
      t.name? = some name ∧ g = ⟨name, params, some body, leading⟩
  /-- The function expression is the whole value that is read if and only if nothing goes on with it. -/
  whole : ∀ fn behind params body, value = fn ++ behind → FunctionExpression params body fn →
    ∀ p x rest, Gives (fun fuel => assignment p fuel value) (x, rest) →
      ((isFunction x = true ∧ rest = behind) ↔ behind.head?.any goesOn = false)
  /-- Nothing goes on with a function expression that is all that is cut off as the value. -/
  cut : ∀ fn behind params body, value = fn ++ behind → FunctionExpression params body fn →
    (cutExpression after true none value).1 = fn → behind.head?.any goesOn = false

lemma recordsValue (after : Token) (leading : List Comment) (t : Tree) (value : List Tree) :
    RecordsValue after leading t value where
  recorded g := by
    constructor
    · rintro ⟨hstarts, hvalue⟩
      obtain ⟨name, hname, hvalue⟩ := Option.bind_eq_some_iff.mp hvalue
      obtain ⟨⟨params, content⟩, hparts, hvalue⟩ := Option.bind_eq_some_iff.mp hvalue
      obtain ⟨fn, behind, body, rfl, hfn, rfl⟩ := functionValue_iff.mp ⟨hstarts, hparts⟩
      cases hvalue
      exact ⟨fn, behind, name, params, body, rfl, hfn, hname, rfl⟩
    · rintro ⟨fn, behind, name, params, body, rfl, hfn, hname, rfl⟩
      obtain ⟨hstarts, hparts⟩ := functionValue_iff.mpr ⟨fn, behind, body, rfl, hfn, rfl⟩
      refine ⟨hstarts, ?_⟩
      rw [valueFunction, hname, hparts]
      rfl
  whole := by
    rintro fn behind params body rfl hfn p x rest hread
    exact hfn.whole_iff hread
  cut := by
    rintro fn behind params body rfl hfn hcut
    have hbehind : (cutExpression after true none (fn ++ behind)).2 = behind := by
      have happend := cutExpression_append after true none (fn ++ behind)
      rw [hcut] at happend
      exact List.append_cancel_left happend
    have hstops := cutExpression_stops after true none (fn ++ behind)
    rw [hbehind] at hstops
    exact stopsAt_goesOn hstops

/-- The functions of every accepted file are those of its statements, one behind the other. A variable whose
value starts with a function expression is recorded as that function; the function expression is its whole
value if and only if nothing goes on with it. -/
theorem function_value_whole_iff {text : String} {f : File} (h : File.ofText text = .ok f) :
    ∃ nested stmts, (tokenize text >>= nest) = .ok nested ∧ nested.trees = stmts.flatten ∧
      Sequence nested.ending .empty stmts f.outline ∧
      f.outline.functions = stmts.tails.flatMap (fun more => functionsOf nested.ending more.flatten) ∧
      ∀ more ∈ stmts.tails, ∀ binding ∈ variableValues nested.ending more.flatten,
        RecordsValue nested.ending (ahead nested.ending more.flatten).comments binding.1 binding.2 := by
  obtain ⟨stmts, -, nested, hnested, htrees, hsequence⟩ := hasStatements_ofText h
  exact ⟨nested, stmts, hnested, htrees, hsequence, sequence_functions hsequence,
    fun more _ binding _ => recordsValue _ _ _ _⟩

/-- A function that is the value of a variable. -/
def doubling : String :=
  "const twice = function (n) \x7b return n + n \x7d\n"

/-- The function expression of the file. -/
def doublingTrees : List Tree :=
  [.leaf (lineWord "function" 14), .group (lineMark "(" 23) [.leaf (lineWord "n" 24)] (lineMark ")" 25),
    .group (lineMark "\x7b" 27) [.leaf (lineWord "return" 29), .leaf (lineWord "n" 36), .leaf (lineMark "+" 38),
      .leaf (lineWord "n" 40)] (lineMark "\x7d" 42)]

/-- Nothing is behind the body, and all of the value is read as a function. -/
theorem function_value_whole_iff_doubling :
    ∃ f, File.ofText doubling = .ok f ∧ f.outline.functions.map (·.name) = ["twice"] ∧
      (∃ x rest, Gives (fun fuel => assignment (.top doubling) fuel doublingTrees) (x, rest)) ∧
      ∀ x rest, Gives (fun fuel => assignment (.top doubling) fuel doublingTrees) (x, rest) →
        isFunction x = true ∧ rest = [] := by
  have hread : (File.ofText doubling).toOption.map (fun f => f.outline.functions.map (·.name)) =
      some ["twice"] := by
    decide +kernel
  obtain ⟨f, hf, hnames⟩ := Option.map_eq_some_iff.mp hread
  have hsum : Gives (fun fuel => assignment (.top doubling) fuel doublingTrees)
      (.function (.mk "" [.name "n"] none [.give (some (.binary .add (.name "n") (.name "n")))] false false),
        []) :=
    ⟨40, rfl⟩
  refine ⟨f, ok_of_toOption hf, hnames, ⟨_, _, hsum⟩, ?_⟩
  obtain ⟨nested, stmts, hnested, htrees, -, -, hvalues⟩ := function_value_whole_iff (ok_of_toOption hf)
  have htokens : tokenize doubling = .ok [lineWord "const" 0, lineWord "twice" 6, lineMark "=" 12,
      lineWord "function" 14, lineMark "(" 23, lineWord "n" 24, lineMark ")" 25, lineMark "\x7b" 27,
      lineWord "return" 29, lineWord "n" 36, lineMark "+" 38, lineWord "n" 40, lineMark "\x7d" 42,
      ⟨.endOfFile, ⟨44, 44⟩, ⟨2, 1⟩, true, []⟩] := by
    decide +kernel
  rw [htokens] at hnested
  cases hnested
  have hvalue := hvalues stmts ((List.mem_tails _ _).mpr List.suffix_rfl) (.leaf (lineWord "twice" 6), doublingTrees)
    (by rw [← htrees]; exact List.mem_singleton.mpr rfl)
  have hplain : PlainFunction [.leaf (lineWord "n" 24)]
      ([.leaf (lineWord "return" 29), .leaf (lineWord "n" 36), .leaf (lineMark "+" 38),
        .leaf (lineWord "n" 40)], lineMark "\x7d" 42) doublingTrees :=
    @PlainFunction.mk _ _ _ _ _ [] [] _ rfl (.inl rfl) (.inl rfl) rfl rfl
  intro x rest hgives
  exact (hvalue.whole doublingTrees [] _ _ rfl (.plain hplain) _ x rest hgives).mpr rfl

/-- An exported value that is what a function gives. -/
def calledAtOnce : String :=
  "export const x = function () \x7b return 1 \x7d()\n"

/-- The value is a call and no function, but it is recorded and listed as one. -/
theorem called_function_is_recorded :
    ((File.ofText calledAtOnce).toOption.map fun f =>
      (f.outline.functions.map (·.name), f.signatures)) = some (["x"], [⟨"x", [], none⟩]) ∧
    ((tokenize calledAtOnce >>= nest).toOption.map fun nested =>
      (variableValues nested.ending nested.trees).map fun binding => (binding.2.drop 3).head?.any goesOn) =
        some [true] ∧
    (Script.expression? "function () \x7b return 1 \x7d()").map isFunction = some false := by
  decide +kernel

end TaskRunner.Proofs
