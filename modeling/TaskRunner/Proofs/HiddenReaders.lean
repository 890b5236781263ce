import TaskRunner.Proofs.HiddenTrees
import TaskRunner.Proofs.IndexedImports

/-!
# Reading hidden trees

Readers of patterns, expressions and lists find the same in hidden trees: what they read is hidden as the
trees are, and they go on behind the same trees. They fail on hidden trees if and only if they fail on the
trees themselves.
-/

namespace TaskRunner.Proofs
open Source Tree

/-! ## Hidden results -/

section
variable {α β γ δ : Type} {m : α → β} {n : γ → δ}

/-- The second computation has the hidden result of the first one, or both fail. -/
def Matches (m : α → β) (x : Except SyntaxError α) (y : Except SyntaxError β) : Prop :=
  y.toOption = x.toOption.map m

lemma matches_ok (m : α → β) (a : α) : Matches m (.ok a) (.ok (m a)) := rfl

lemma matches_error (m : α → β) (e e' : SyntaxError) : Matches m (.error e) (.error e') := rfl

lemma Matches.bind {x : Except SyntaxError α} {y : Except SyntaxError β} {f : α → Except SyntaxError γ}
    {g : β → Except SyntaxError δ} (h : Matches m x y)
    (hf : ∀ a, x = .ok a → Matches n (f a) (g (m a))) : Matches n (x >>= f) (y >>= g) := by
  cases x with
  | error e =>
    cases y with
    | error e' => exact matches_error n e e'
    | ok b => cases h
  | ok a =>
    cases y with
    | error e' => cases h
    | ok b =>
      obtain rfl : b = m a := Option.some.inj h
      exact hf a rfl

lemma Matches.map {x : Except SyntaxError α} {y : Except SyntaxError β} {f : α → γ} {g : β → δ}
    (h : Matches m x y) (hf : ∀ a, g (m a) = n (f a)) : Matches n (x.map f) (y.map g) := by
  cases x with
  | error e =>
    cases y with
    | error e' => exact matches_error n e e'
    | ok b => cases h
  | ok a =>
    cases y with
    | error e' => cases h
    | ok b =>
      obtain rfl : b = m a := Option.some.inj h
      exact congrArg some (hf a)

end

variable {keep : Bool} {standIn : Tree → List Tree → String} {behindPoint : Bool} {after : Token}
  {trees : List Tree}

/-! ## Patterns -/

/-- A bound name, its token without place. -/
def hideBound (keep : Bool) (bound : BoundName) : BoundName :=
  ⟨bound.name, placeless keep bound.token⟩

lemma nameOfToken_hidden (t : Token) :
    Matches (hideBound keep) (nameOfToken t) (nameOfToken (placeless keep t)) := by
  unfold nameOfToken
  rw [placeless_name?]
  cases t.name? <;> rfl

lemma colonInElement_hidden :
    colonInElement (hideLevel keep standIn behindPoint trees) = colonInElement trees := by
  induction trees generalizing behindPoint with
  | nil => simp
  | cons t rest ih => simp [colonInElement, ih]

/-- A name of an element is read only behind a comma or a colon. -/
def ReadsName (state : ElementState) : Prop :=
  state = .start ∨ state = .target

section
variable {x : Except SyntaxError (List BoundName)} {y : Except SyntaxError (List BoundName)}

lemma matches_cons (t : Token) (h : Matches (List.map (hideBound keep)) x y) :
    Matches (List.map (hideBound keep)) (do let bound ← nameOfToken t; let more ← x; .ok (bound :: more))
      (do let bound ← nameOfToken (placeless keep t); let more ← y; .ok (bound :: more)) :=
  (nameOfToken_hidden t).bind fun bound _ => h.bind fun more _ =>
    matches_ok (List.map (hideBound keep)) (bound :: more)

lemma matches_append {first first' : Except SyntaxError (List BoundName)}
    (hfirst : Matches (List.map (hideBound keep)) first first')
    (h : Matches (List.map (hideBound keep)) x y) :
    Matches (List.map (hideBound keep)) (do let bound ← first; let more ← x; .ok (bound ++ more))
      (do let bound ← first'; let more ← y; .ok (bound ++ more)) := by
  refine hfirst.bind fun bound _ => h.bind fun more _ => ?_
  rw [← List.map_append]
  exact matches_ok _ _

end

mutual

lemma namesInElements_hidden (isObject : Bool) (after : Token) (standIn : Tree → List Tree → String) :
    ∀ (state : ElementState) (behindPoint : Bool) (trees : List Tree),
      (ReadsName state → behindPoint = false) →
      Matches (List.map (hideBound keep)) (namesInElements isObject after state trees)
        (namesInElements isObject (placeless keep after) state
          (hideLevel keep standIn behindPoint trees))
  | state, behindPoint, [], _ => by
    rw [hideLevel_nil]
    cases state <;> simp only [namesInElements] <;> rfl
  | state, behindPoint, t :: rest, hname => by
    have hrest := fun state => namesInElements_hidden isObject after standIn state (isPoint t) rest
    have hdone := hrest .done (by rintro (h | h) <;> cases h)
    have htarget := matches_append (namesOfTarget_hidden t) hdone
    rw [hideLevel_cons]
    cases state with
    | start =>
      obtain rfl := hname (.inl rfl)
      simp only [namesInElements, nameBehind_false, hideTree_isPunct, colonInElement_hidden,
        hideTree_first]
      split
      · exact hrest .start fun _ => isPoint_other ‹_› (by decide)
      · split
        · rw [isPoint_other ‹_› (by decide)] at hdone ⊢
          rw [ahead_hideLevel]
          exact matches_cons _ hdone
        · split
          · split
            · exact hrest .target fun _ => isPoint_other ‹_› (by decide)
            · split
              · exact hrest .key (by rintro (h | h) <;> cases h)
              · exact matches_cons _ hdone
          · exact htarget
    | key =>
      simp only [namesInElements, hideTree_isPunct]
      by_cases hcolon : t.isPunct ":" = true
      · rw [if_pos hcolon]
        exact hrest .target fun _ => isPoint_other hcolon (by decide)
      · rw [if_neg hcolon]
        exact hrest .key (by rintro (h | h) <;> cases h)
    | target =>
      obtain rfl := hname (.inr rfl)
      simp only [namesInElements]
      exact htarget
    | done =>
      simp only [namesInElements, hideTree_isPunct]
      by_cases hcomma : t.isPunct "," = true
      · rw [if_pos hcomma]
        exact hrest .start fun _ => isPoint_other hcomma (by decide)
      · rw [if_neg hcomma]
        exact hdone

lemma namesOfTarget_hidden :
    ∀ t, Matches (List.map (hideBound keep)) (namesOfTarget t) (namesOfTarget (hideTree keep none t))
  | leaf t => by
    rw [hideTree_leaf, hideToken_none, namesOfTarget, namesOfTarget]
    exact (nameOfToken_hidden t).map fun _ => rfl
  | group opener inside closer => by
    rw [hideTree_group, namesOfTarget, namesOfTarget, placeless_isPunct, placeless_isPunct, hideTrees_eq]
    split
    · exact namesInElements_hidden true closer _ .start false inside fun _ => rfl
    · split
      · exact namesInElements_hidden false closer _ .start false inside fun _ => rfl
      · exact matches_error _ _ _

end

/-! ## Expressions -/

lemma isPoint_of_name? {t : Tree} (h : t.name?.isSome = true) : isPoint t = false := by
  cases t with
  | leaf token => exact noPoint_name (nameOrText?_name h)
  | group opener inside closer => cases h

lemma noPoint_named (h : startsWithName trees = true) : NoPoint trees := by
  intro t ht
  cases trees with
  | nil => cases ht
  | cons u rest =>
    obtain rfl := Option.mem_some.mp ht
    exact isPoint_of_name? h

lemma startsDeclaration_hidden :
    startsDeclaration (placeless keep after) (hideLevel keep standIn false trees) =
      startsDeclaration after trees := by
  cases trees with
  | nil => simp [startsDeclaration]
  | cons t rest =>
    simp only [startsDeclaration, hideLevel_cons, nameBehind_false, hideTree_name?]
    split
    · rfl
    · rename_i hname
      rw [isPoint_of_name? (by rw [hname]; rfl), ahead_hideLevel]
      simp only [placeless_isPunct, placeless_isWord, placeless_newlineBefore]

lemma newDeclaration_hidden :
    newDeclaration (placeless keep after) (hideLevel keep standIn false trees) =
      newDeclaration after trees := by
  rw [newDeclaration, newDeclaration, startsDeclaration_hidden]
  cases trees <;> simp

/-- Before a declaration on a new line the name that stands for a property leaves an expression open if the
property does. -/
def KeepsOpen (after : Token) (standIn : Tree → List Tree → String) : Prop :=
  ∀ (t : Token) (rest : List Tree), t.name?.isSome = true → newDeclaration after rest = true →
    openWords.contains (standIn (leaf t) rest) = leavesOpen t

/-- The tokens before the trees and before the hidden trees. -/
inductive Before (after : Token) (trees : List Tree) : Bool → Option Token → Option Token → Prop
  | start : Before after trees false none none
  | token {behindPoint : Bool} {p p' : Token}
      (point : behindPoint = true → leavesOpen p = true ∧ leavesOpen p' = true)
      (same : newDeclaration after trees = true → leavesOpen p' = leavesOpen p) :
      Before after trees behindPoint (some p) (some p')

variable {previous previous' : Option Token} {commas : Bool}

lemma stopsAt_token {p : Token} {t : Tree} {rest : List Tree} :
    stopsAt after commas (some p) (t :: rest) =
      ((newDeclaration after (t :: rest) && !leavesOpen p) || t.isPunct ";" ||
        (commas && t.isPunct ",")) := by
  simp [stopsAt, newDeclaration]

lemma stopsAt_hidden (h : Before after trees behindPoint previous previous') :
    stopsAt (placeless keep after) commas previous' (hideLevel keep standIn behindPoint trees) =
      stopsAt after commas previous trees := by
  cases trees with
  | nil => simp [stopsAt]
  | cons t rest =>
    cases h with
    | start => simp [stopsAt]
    | @token _ p p' point same =>
      rw [hideLevel_cons, stopsAt_token, stopsAt_token, hideTree_isPunct, hideTree_isPunct, ← hideLevel_cons]
      cases behindPoint with
      | true =>
        obtain ⟨hp, hp'⟩ := point rfl
        rw [hp, hp', Bool.not_true, Bool.and_false, Bool.and_false]
      | false =>
        rw [newDeclaration_hidden]
        cases hnew : newDeclaration after (t :: rest) with
        | false => rfl
        | true => rw [same hnew]

lemma hideTree_punct {t : Tree} {mark : String} (h : t.isPunct mark = true) (name : Option String) :
    hideTree keep name t = hideTree keep none t := by
  obtain ⟨token, rfl, hkind⟩ := leaf_of_isPunct h
  rw [hideTree_leaf, hideTree_leaf, hideToken_other, hideToken_none]
  simp [Token.name?, hkind]

/-- Where an expression ends no property stands. -/
lemma hideLevel_stop (h : Before after trees behindPoint previous previous')
    (hstop : stopsAt after commas previous trees = true) :
    hideLevel keep standIn behindPoint trees = hideLevel keep standIn false trees := by
  cases trees with
  | nil => simp
  | cons t rest =>
    cases h with
    | start => rfl
    | @token _ p p' point _ =>
      cases behindPoint with
      | false => rfl
      | true =>
        rw [stopsAt_token, (point rfl).1, Bool.not_true, Bool.and_false, Bool.false_or] at hstop
        rw [hideLevel_cons, hideLevel_cons]
        rcases Bool.or_eq_true_iff.mp hstop with hmark | hmark
        · rw [hideTree_punct hmark, nameBehind_false]
        · rw [hideTree_punct (Bool.and_eq_true_iff.mp hmark).2, nameBehind_false]

lemma leavesOpen_placeless (t : Token) : leavesOpen (placeless keep t) = leavesOpen t := rfl

lemma leavesOpen_point {t : Tree} (h : isPoint t = true) : leavesOpen t.last = true := by
  have hmark : ∃ mark, t.isPunct mark = true ∧ (mark = "." ∨ mark = "?.") := by
    rcases Bool.or_eq_true_iff.mp h with h | h
    · exact ⟨_, h, .inl rfl⟩
    · exact ⟨_, h, .inr rfl⟩
  obtain ⟨mark, hpunct, hmark⟩ := hmark
  obtain ⟨token, rfl, hkind⟩ := leaf_of_isPunct hpunct
  rcases hmark with rfl | rfl <;> simp [Tree.last, leavesOpen, hkind]

/-- A tree is read, and its hidden form. -/
lemma before_next (hopen : KeepsOpen after standIn) (t : Tree) (rest : List Tree) :
    Before after rest (isPoint t) (some t.last)
      (some (hideTree keep (nameBehind behindPoint (standIn t rest)) t).last) := by
  refine .token (fun hpoint => ⟨leavesOpen_point hpoint, leavesOpen_point (by simpa using hpoint)⟩) ?_
  intro hnew
  cases t with
  | group opener inside closer => rfl
  | leaf token =>
    cases behindPoint with
    | false => rw [nameBehind_false, hideTree_last, leavesOpen_placeless]
    | true =>
      cases hname : token.name? with
      | none =>
        rw [hideTree_leaf, hideToken_other hname]
        rfl
      | some own =>
        have hkind : token.kind = .ident own := by
          unfold Token.name? at hname
          split at hname
          · rename_i hkind
            rw [hkind, Option.some.inj hname]
          · cases hname
        have hkeeps := hopen token rest (by rw [hname]; rfl) hnew
        simp only [nameBehind_true, hideTree_leaf, Tree.last, leavesOpen, hideToken, hkind, renamed,
          Option.getD_some] at hkeeps ⊢
        exact hkeeps

/-- An expression in hidden trees is as long, and ends before the same trees. -/
lemma cutExpression_hidden (hopen : KeepsOpen after standIn)
    (h : Before after trees behindPoint previous previous') :
    ∃ taken, cutExpression (placeless keep after) commas previous'
        (hideLevel keep standIn behindPoint trees) =
        (taken, hideLevel keep standIn false (cutExpression after commas previous trees).2) ∧
      taken.length = (cutExpression after commas previous trees).1.length := by
  induction trees generalizing behindPoint previous previous' with
  | nil => exact ⟨[], by simp [cutExpression], rfl⟩
  | cons t rest ih =>
    have hstops : stopsAt (placeless keep after) commas previous'
        (hideLevel keep standIn behindPoint (t :: rest)) = stopsAt after commas previous (t :: rest) :=
      stopsAt_hidden h
    cases hstop : stopsAt after commas previous (t :: rest) with
    | true =>
      rw [hstop] at hstops
      rw [cutExpression_stop hstop, cutExpression_stop hstops]
      exact ⟨[], by rw [hideLevel_stop h hstop], rfl⟩
    | false =>
      rw [hstop, hideLevel_cons] at hstops
      have hnext : Before after rest (isPoint t) (some t.last)
          (some (hideTree keep (nameBehind behindPoint (standIn t rest)) t).last) :=
        before_next hopen t rest
      obtain ⟨taken, hcut, hlength⟩ := ih hnext
      rw [hideLevel_cons, cutExpression_go hstop, cutExpression_go hstops, hcut]
      exact ⟨_, rfl, by simp [hlength]⟩

lemma pastSemicolon_hidden :
    pastSemicolon (hideLevel keep standIn false trees) =
      hideLevel keep standIn false (pastSemicolon trees) := by
  have htail : startsWithPunct trees ";" = true →
      (hideLevel keep standIn false trees).tail = hideLevel keep standIn false trees.tail :=
    fun h => hideLevel_tail (noPoint_punct h (by decide))
  cases trees with
  | nil => simp [pastSemicolon]
  | cons t rest =>
    rw [hideLevel_cons] at htail ⊢
    simp only [pastSemicolon, nameBehind_false, hideTree_isPunct]
    split
    · exact htail ‹_›
    · rw [hideLevel_cons, nameBehind_false]

/-- At the start of an expression only a semicolon stops it. -/
lemma cutExpression_nothing {own behind : List Tree}
    (h : cutExpression after false none trees = (own, behind))
    (hmark : ¬ startsWithPunct behind ";" = true) (hempty : own.isEmpty = true) : trees = [] := by
  cases trees with
  | nil => rfl
  | cons t rest =>
    cases hstop : stopsAt after false none (t :: rest) with
    | true =>
      rw [cutExpression_stop hstop] at h
      obtain ⟨-, rfl⟩ := Prod.mk.inj h
      exact absurd (by simpa [stopsAt, startsWithPunct] using hstop) hmark
    | false =>
      rw [cutExpression_go hstop] at h
      obtain ⟨rfl, -⟩ := Prod.mk.inj h
      cases hempty

/-- A statement of no interest ends before the same trees. -/
lemma pastStatement_hidden (hopen : KeepsOpen after standIn) :
    pastStatement (placeless keep after) (hideLevel keep standIn false trees) =
      hideLevel keep standIn false (pastStatement after trees) := by
  obtain ⟨taken, hcut, hlength⟩ :
      ∃ taken, cutExpression (placeless keep after) false none (hideLevel keep standIn false trees) =
          (taken, hideLevel keep standIn false (cutExpression after false none trees).2) ∧
        taken.length = (cutExpression after false none trees).1.length :=
    cutExpression_hidden hopen .start
  unfold pastStatement
  rw [hcut]
  generalize hown : cutExpression after false none trees = own at hlength
  obtain ⟨own, behind⟩ := own
  have hempty : taken.isEmpty = own.isEmpty := by
    rw [Bool.eq_iff_iff, List.isEmpty_iff_length_eq_zero, List.isEmpty_iff_length_eq_zero, hlength]
  dsimp only
  rw [startsWithPunct_hideLevel, hempty]
  split
  · exact hideLevel_tail (noPoint_punct ‹_› (by decide))
  · split
    · rw [cutExpression_nothing hown ‹_› ‹_›, hideLevel_nil]
      rfl
    · rfl

/-! ## Functions and classes -/

lemma dropWord_hidden (word : String) :
    dropWord word (hideLevel keep standIn false trees) = hideLevel keep standIn false (dropWord word trees) := by
  unfold dropWord
  rw [startsWithWord_hideLevel]
  split
  · exact hideLevel_tail (noPoint_word ‹_›)
  · rfl

lemma dropPunct_hidden {mark : String} (hmark : mark ≠ "." ∧ mark ≠ "?.") :
    dropPunct mark (hideLevel keep standIn false trees) =
      hideLevel keep standIn false (dropPunct mark trees) := by
  unfold dropPunct
  rw [startsWithPunct_hideLevel]
  split
  · exact hideLevel_tail (noPoint_punct ‹_› hmark)
  · rfl

/-- The parameters, the body and the rest of a function, hidden. -/
def hideTail (keep : Bool) (standIn : Tree → List Tree → String)
    (found : List Tree × (List Tree × Token) × List Tree) : List Tree × (List Tree × Token) × List Tree :=
  (hideTrees keep false found.1, hideInside keep found.2.1, hideLevel keep standIn false found.2.2)

lemma functionTail_hidden :
    Matches (hideTail keep standIn) (functionTail after trees)
      (functionTail (placeless keep after) (hideLevel keep standIn false trees)) := by
  unfold functionTail
  cases trees with
  | nil => exact matches_error _ _ _
  | cons t rest =>
    rw [hideLevel_cons]
    dsimp only
    rw [hideTree_inside?]
    cases ht : t.inside? "(" with
    | none => exact matches_error _ _ _
    | some params =>
      cases rest with
      | nil => exact matches_error _ _ _
      | cons b rest =>
        rw [hideLevel_cons]
        simp only [Option.map_some, hideTree_inside?]
        cases hb : b.inside? "\x7b" with
        | none => exact matches_error _ _ _
        | some body =>
          rw [isPoint_of_inside? hb]
          exact matches_ok (hideTail keep standIn) (params.1, body, rest)

lemma pastClassBody_hidden :
    Matches (hideLevel keep standIn false) (pastClassBody after trees)
      (pastClassBody (placeless keep after) (hideLevel keep standIn behindPoint trees)) := by
  induction trees generalizing behindPoint with
  | nil => exact matches_error _ _ _
  | cons t rest ih =>
    rw [hideLevel_cons, pastClassBody, pastClassBody, hideTree_isGroup]
    split
    · have hpoint : isPoint t = false := by
        cases t with
        | leaf token => rename_i hgroup; cases hgroup
        | group opener inside closer => rfl
      rw [hpoint]
      exact matches_ok (hideLevel keep standIn false) rest
    · exact ih

/-- The parameters and the body of a function, hidden. -/
def hideValue (keep : Bool) (found : List Tree × Option (List Tree × Token)) :
    List Tree × Option (List Tree × Token) :=
  (hideTrees keep false found.1, found.2.map (hideInside keep))

lemma dropName_hidden :
    dropName (hideLevel keep standIn false trees) = hideLevel keep standIn false (dropName trees) := by
  unfold dropName
  rw [startsWithName_hideLevel]
  split
  · exact hideLevel_tail (noPoint_named ‹_›)
  · rfl

lemma functionAhead_hidden (h : startsWithWord trees "function" = true) :
    functionAhead (hideLevel keep standIn false trees) = (functionAhead trees).map (hideValue keep) := by
  unfold functionAhead
  rw [hideLevel_tail (noPoint_word h), dropPunct_hidden (by decide), dropName_hidden]
  generalize dropName (dropPunct "*" trees.tail) = left
  cases left with
  | nil => simp
  | cons t rest =>
    cases rest with
    | nil => simp
    | cons b rest =>
      simp only [hideLevel_cons, hideTree_inside?]
      cases t.inside? "(" with
      | none => rfl
      | some params =>
        cases b.inside? "\x7b" with
        | none => rfl
        | some body => rfl

lemma head_inside?_hidden (opener : String) :
    (hideLevel keep standIn behindPoint trees).head?.bind (·.inside? opener) =
      (trees.head?.bind (·.inside? opener)).map (hideInside keep) := by
  cases trees <;> simp

lemma arrowParams_hidden (t : Tree) :
    arrowParams (hideTree keep none t) = (arrowParams t).map (hideTrees keep false) := by
  have hlone : [hideTree keep none t] = hideTrees keep false [t] := by simp [hideTrees]
  unfold arrowParams
  rw [hideTree_inside?, hideTree_name?, hlone]
  cases t.inside? "(" with
  | some params => rfl
  | none => cases t.name?.isSome <;> rfl

lemma arrowAhead_hidden (belongs : Bool) :
    arrowAhead (hideLevel keep standIn false trees) belongs =
      (arrowAhead trees belongs).map (hideValue keep) := by
  cases trees with
  | nil => simp [arrowAhead]
  | cons t rest =>
    cases rest with
    | nil => simp [arrowAhead]
    | cons arrow rest =>
      simp only [arrowAhead, hideLevel_cons, nameBehind_false, hideTree_isPunct, arrowParams_hidden,
        head_inside?_hidden]
      cases arrowParams t with
      | none => rfl
      | some params =>
        simp only [Option.map_some]
        split <;> rfl

lemma functionValue_hidden (width : Nat) :
    functionValue (hideLevel keep standIn false trees) width =
      (functionValue trees width).map (hideValue keep) := by
  have hfront : ∀ skipped, (skipped = 1 → NoPoint trees) → skipped = 0 ∨ skipped = 1 →
      (hideLevel keep standIn false trees).drop skipped = hideLevel keep standIn false (trees.drop skipped) := by
    rintro skipped hpoint (rfl | rfl)
    · rfl
    · rw [List.drop_one, List.drop_one, hideLevel_tail (hpoint rfl)]
  rw [functionValue_eq, functionValue_eq]
  dsimp only
  rw [startsWithWord_hideLevel]
  by_cases hasync : (startsWithWord trees "async" && decide (1 < width)) = true
  · rw [if_pos hasync, hfront 1 (fun _ => noPoint_word (Bool.and_eq_true_iff.mp hasync).1) (.inr rfl),
      startsWithWord_hideLevel]
    split
    · exact functionAhead_hidden ‹_›
    · exact arrowAhead_hidden _
  · rw [if_neg hasync, hfront 0 (fun h => absurd h (by decide)) (.inl rfl), startsWithWord_hideLevel]
    split
    · exact functionAhead_hidden ‹_›
    · exact arrowAhead_hidden _

/-! ## Targets and lists -/

/-- What a declarator binds and what is behind its target, hidden. -/
def hideTarget (keep : Bool) (standIn : Tree → List Tree → String)
    (found : Option String × List BoundName × List Tree) : Option String × List BoundName × List Tree :=
  (found.1, found.2.1.map (hideBound keep), hideLevel keep standIn false found.2.2)

lemma nameOfToken_ok {t : Token} {bound : BoundName} (h : nameOfToken t = .ok bound) :
    t.name?.isSome = true := by
  unfold nameOfToken at h
  split at h
  · rename_i hname
    rw [hname]
    rfl
  · cases h

lemma declaratorTarget_hidden :
    Matches (hideTarget keep standIn) (declaratorTarget after trees)
      (declaratorTarget (placeless keep after) (hideLevel keep standIn false trees)) := by
  cases trees with
  | nil => exact matches_error _ _ _
  | cons t rest =>
    rw [hideLevel_cons, nameBehind_false]
    cases t with
    | leaf token =>
      rw [hideTree_leaf, hideToken_none]
      refine (nameOfToken_hidden token).bind fun bound hbound => ?_
      rw [noPoint_name (nameOrText?_name (nameOfToken_ok hbound))]
      exact matches_ok (hideTarget keep standIn) (some bound.name, [bound], rest)
    | group opener inside closer =>
      have hnames : Matches (List.map (hideBound keep)) (namesOfTarget (group opener inside closer))
          (namesOfTarget (hideTree keep none (group opener inside closer))) := namesOfTarget_hidden _
      rw [hideTree_group] at hnames ⊢
      exact hnames.bind fun names _ => matches_ok (hideTarget keep standIn) (none, names, rest)

/-- A name of an import list and what it is bound to, hidden. -/
def hideImport (keep : Bool) (element : ImportBinding × BoundName) : ImportBinding × BoundName :=
  (element.1, hideBound keep element.2)

lemma nameOrTextAhead_hidden (t : Token) :
    Matches id (nameOrTextAhead t) (nameOrTextAhead (placeless keep t)) := by
  unfold nameOrTextAhead
  rw [placeless_nameOrText?]
  cases t.nameOrText? <;> rfl

lemma nameOrTextAhead_ok {t : Token} {name : String} (h : nameOrTextAhead t = .ok name) :
    t.nameOrText?.isSome = true := by
  unfold nameOrTextAhead at h
  split at h
  · rename_i hname
    rw [hname]
    rfl
  · cases h

lemma tail_named {name : String} (h : nameOrTextAhead (ahead after trees) = .ok name) :
    (hideLevel keep standIn false trees).tail = hideLevel keep standIn false trees.tail :=
  hideLevel_tail (noPoint_ahead (nameOrTextAhead_ok h))

/-- A result and what is behind it, hidden. -/
def hideBehind {α β : Type} (m : α → β) (keep : Bool) (standIn : Tree → List Tree → String)
    (found : α × List Tree) : β × List Tree :=
  (m found.1, hideLevel keep standIn false found.2)

lemma importElement_hidden :
    Matches (hideBehind (hideImport keep) keep standIn) (importElement after trees)
      (importElement (placeless keep after) (hideLevel keep standIn false trees)) := by
  unfold importElement
  rw [ahead_hideLevel]
  refine (nameOrTextAhead_hidden _).bind fun imported himported => ?_
  rw [tail_named himported, startsWithWord_hideLevel]
  split
  · rw [hideLevel_tail (noPoint_word ‹_›), ahead_hideLevel]
    refine (nameOfToken_hidden _).bind fun bound hbound => ?_
    rw [hideLevel_tail (noPoint_ahead (nameOrText?_name (nameOfToken_ok hbound)))]
    exact matches_ok (hideBehind (hideImport keep) keep standIn)
      ((.member imported bound.name, bound), trees.tail.tail.tail)
  · exact matches_ok (hideBehind (hideImport keep) keep standIn)
      ((.member imported imported, ⟨imported, ahead after trees⟩), trees.tail)

lemma exportElement_hidden :
    Matches (hideBehind id keep standIn) (exportElement after trees)
      (exportElement (placeless keep after) (hideLevel keep standIn false trees)) := by
  unfold exportElement
  rw [ahead_hideLevel]
  refine (nameOrTextAhead_hidden _).bind fun name hname => ?_
  rw [tail_named hname, startsWithWord_hideLevel]
  split
  · rw [hideLevel_tail (noPoint_word ‹_›), ahead_hideLevel]
    refine (nameOrTextAhead_hidden _).bind fun exported hexported => ?_
    rw [tail_named hexported]
    exact matches_ok (hideBehind id keep standIn) (Export.mk exported name, trees.tail.tail.tail)
  · exact matches_ok (hideBehind id keep standIn) (Export.mk name name, trees.tail)

lemma listedBy_hidden {α β : Type} {m : α → β}
    {element : List Tree → Except SyntaxError (α × List Tree)}
    {element' : List Tree → Except SyntaxError (β × List Tree)}
    (helement : ∀ trees, Matches (hideBehind m keep standIn) (element trees)
      (element' (hideLevel keep standIn false trees))) (fuel : Nat) :
    Matches (List.map m) (listedBy after element fuel trees)
      (listedBy (placeless keep after) element' fuel (hideLevel keep standIn false trees)) := by
  induction fuel generalizing trees with
  | zero => exact matches_ok (List.map m) []
  | succ fuel ih =>
    cases trees with
    | nil =>
      rw [hideLevel_nil]
      exact matches_ok (List.map m) []
    | cons t rest =>
      have hfirst := helement (t :: rest)
      rw [hideLevel_cons] at hfirst ⊢
      refine hfirst.bind fun found _ => ?_
      simp only [hideBehind, startsWithPunct_hideLevel, hideLevel_isEmpty, ahead_hideLevel]
      split
      · rw [hideLevel_tail (noPoint_punct ‹_› (by decide))]
        exact ih.bind fun more _ => matches_ok (List.map m) (found.1 :: more)
      · split
        · exact matches_ok (List.map m) [found.1]
        · exact matches_error _ _ _

lemma importElements_hidden (fuel : Nat) :
    Matches (List.map (hideImport keep)) (importElements after fuel trees)
      (importElements (placeless keep after) fuel (hideLevel keep standIn false trees)) := by
  rw [importElements_eq, importElements_eq]
  exact listedBy_hidden (fun _ => importElement_hidden) fuel

lemma exportElements_hidden (fuel : Nat) :
    Matches id (exportElements after fuel trees)
      (exportElements (placeless keep after) fuel (hideLevel keep standIn false trees)) := by
  have hlist : Matches (List.map id) (listedBy after (exportElement after) fuel trees)
      (listedBy (placeless keep after) (exportElement (placeless keep after)) fuel
        (hideLevel keep standIn false trees)) :=
    listedBy_hidden (fun _ => exportElement_hidden) fuel
  rwa [List.map_id_fun, ← exportElements_eq, ← exportElements_eq] at hlist

lemma defaultImport_hidden :
    defaultImport (hideLevel keep standIn false trees) =
      hideBehind (List.map (hideImport keep)) keep standIn (defaultImport trees) := by
  cases trees with
  | nil => simp [defaultImport, hideBehind]
  | cons t rest =>
    cases t with
    | group opener inside closer => simp [defaultImport, hideBehind]
    | leaf token =>
      simp only [hideLevel_cons, nameBehind_false, hideTree_leaf, hideToken_none, defaultImport,
        placeless_name?]
      cases hname : token.name? with
      | none => simp [hideBehind]
      | some name =>
        dsimp only
        rw [noPoint_name (nameOrText?_name (by rw [hname]; rfl)), startsWithWord_hideLevel,
          dropPunct_hidden (by decide)]
        split
        · simp [hideBehind, hideImport, hideBound]
        · have hpoint := noPoint_name (nameOrText?_name (by rw [hname]; rfl : token.name?.isSome = true))
          simp [hideBehind, hpoint]

lemma otherImports_hidden :
    Matches (hideBehind (List.map (hideImport keep)) keep standIn) (otherImports after trees)
      (otherImports (placeless keep after) (hideLevel keep standIn false trees)) := by
  cases trees with
  | nil =>
    rw [hideLevel_nil]
    exact matches_ok (hideBehind (List.map (hideImport keep)) keep standIn) ([], [])
  | cons t rest =>
    unfold otherImports
    rw [hideLevel_cons, nameBehind_false]
    dsimp only
    rw [hideTree_isPunct, hideTree_inside?]
    split
    · rw [isPoint_other ‹_› (by decide), startsWithWord_hideLevel]
      split
      · rw [hideLevel_tail (noPoint_word ‹_›), ahead_hideLevel]
        refine (nameOfToken_hidden _).bind fun bound hbound => ?_
        rw [hideLevel_tail (noPoint_ahead (nameOrText?_name (nameOfToken_ok hbound)))]
        exact matches_ok (hideBehind (List.map (hideImport keep)) keep standIn)
          ([(.whole bound.name, bound)], rest.tail.tail)
      · exact matches_error _ _ _
    · cases hinside : t.inside? "\x7b" with
      | some group =>
        obtain ⟨inside, closer⟩ := group
        rw [isPoint_of_inside? hinside]
        simp only [Option.map_some, hideInside]
        rw [hideTrees_eq, hideLevel_length]
        exact (importElements_hidden _).bind fun elements _ =>
          matches_ok (hideBehind (List.map (hideImport keep)) keep standIn) (elements, rest)
      | none =>
        have hrest := matches_ok (hideBehind (List.map (hideImport keep)) keep standIn) ([], t :: rest)
        rwa [hideBehind, hideLevel_cons, nameBehind_false] at hrest

lemma importClause_hidden :
    Matches (hideBehind (List.map (hideImport keep)) keep standIn) (importClause after trees)
      (importClause (placeless keep after) (hideLevel keep standIn false trees)) := by
  rw [importClause_eq, importClause_eq, defaultImport_hidden]
  refine otherImports_hidden.bind fun found _ => ?_
  simp only [hideBehind, hideLevel_length, startsWithWord_hideLevel, ahead_hideLevel]
  split
  · exact matches_error _ _ _
  · rename_i hfrom
    have hword : startsWithWord found.2 "from" = true := by
      simp only [Bool.or_eq_true, not_or, Bool.not_eq_true', Bool.not_eq_false] at hfrom
      exact hfrom.2
    rw [hideLevel_tail (noPoint_word hword), ← List.map_append]
    exact matches_ok (hideBehind (List.map (hideImport keep)) keep standIn)
      ((defaultImport trees).1 ++ found.1, found.2.tail)

lemma isPoint_of_isGroup {t : Tree} {opener : String} (h : t.isGroup opener = true) : isPoint t = false := by
  cases t with
  | leaf token => cases h
  | group o inside closer => rfl

lemma isPoint_of_isWord {t : Tree} {word : String} (h : t.isWord word = true) : isPoint t = false := by
  simp [isPoint, isPunct_of_isWord h]

lemma pastAttributes_hidden :
    pastAttributes (hideLevel keep standIn false trees) =
      hideLevel keep standIn false (pastAttributes trees) := by
  cases trees with
  | nil => simp [pastAttributes]
  | cons t rest =>
    cases rest with
    | nil => simp [pastAttributes]
    | cons group rest =>
      have hall : hideTree keep none t ::
          hideTree keep (nameBehind (isPoint t) (standIn group rest)) group ::
          hideLevel keep standIn (isPoint group) rest =
          hideLevel keep standIn false (t :: group :: rest) := by simp
      rw [← hall]
      simp only [pastAttributes, hideTree_isWord, hideTree_newline, hideTree_isGroup]
      split
      · rename_i hattributes
        rw [isPoint_of_isGroup (Bool.and_eq_true_iff.mp hattributes).2]
      · exact hall

end TaskRunner.Proofs
