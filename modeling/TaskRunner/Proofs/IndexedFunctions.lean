import TaskRunner.Proofs.IndexedFindings

/-!
# Functions, classes and variables by indexes

A function is found by jumps over its parameters and its body, as a declaration or as the value of a
variable; a class by a scan for its body. Declarations leave a later index, and the parts of a function
stand where they have been found.

The loop over the declarators of a variable declaration goes on behind every comma. A value ends before the
next comma, or at the end of the group or of the file, so the loop moves on and ends.
-/

namespace TaskRunner.Proofs
open Source Tree

variable {s : Sheet} {i : Nat} {t : Tree} {after token : Token} {trees rest : List Tree}
variable {found : Findings} {o : Outline}

/-! ## Functions -/

/-- A group of parentheses holds parameters. -/
lemma GroupAt.partAt {opener closer : Token} {inside : List Tree}
    (h : GroupAt s i opener inside closer) : PartAt s (i + 1, i + 1 + widthOfAll inside) inside := by
  obtain ⟨_, mark, -, -, hkind, hclosing, -⟩ := h.fit
  refine ⟨h.insideAt, rfl, closer, h.closerAt, ?_⟩
  rw [isPunct_of_punct hkind, beq_eq_false_iff_ne]
  rintro rfl
  cases hclosing

/-- A block of statements is a body. -/
lemma Lies.bodyAt (h : Lies s i trees after) :
    BodyAt s (if (s.tok i).isPunct "\x7b" then some i else none)
      (trees.head?.bind (·.inside? "\x7b")) := by
  by_cases hbrace : (s.tok i).isPunct "\x7b" = true
  · obtain ⟨opener, inside, closer, rest, rfl, hopener, hgroup, -⟩ := h.of_group rfl hbrace
    rw [if_pos hbrace, List.head?_cons, Option.bind_some, inside?_of_group hopener]
    exact .some ⟨opener, hgroup⟩
  · rw [if_neg hbrace]
    cases trees with
    | nil => exact .none
    | cons t rest =>
      have hnot : t.isGroup "\x7b" = false := by
        rw [h.head.isGroup _ rfl]
        exact eq_false_of_ne_true hbrace
      rw [List.head?_cons, Option.bind_some, inside?_of_not_group hnot]
      exact .none

namespace Sheet

variable (s : Sheet)

/-- The closing brackets of a function's parameters and of its body, from its parameter list on. -/
def functionTail (i : Nat) : Checked (Nat × Nat) :=
  if (s.tok i).isPunct "(" then do
    let close ← s.partner i
    if (s.tok (close + 1)).isPunct "\x7b" then do
      let stop ← s.partner (close + 1)
      .ok (close, stop)
    else refuse (unexpected (s.tok (close + 1)))
  else refuse (unexpected (s.tok i))

/-- Reads a function declaration. -/
def functionDeclaration (found : Findings) (i anchor : Nat) (exported : Bool) :
    Checked (Findings × Nat) := do
  let i := s.pastWord "async" i
  if (s.tok i).isWord "function" then do
    let i := s.pastPunct "*" (i + 1)
    let bound ← s.nameAt i
    let (close, stop) ← s.functionTail (i + 1)
    let found ← found.declare .lexical [bound]
    let found := found.addFunction ⟨bound.name, (i + 2, close), some (close + 1), anchor⟩
    .ok (found.exportNames exported [bound], stop + 1)
  else refuse (unexpected (s.tok i))

end Sheet

/-- The parts of a function stand where they have been found. -/
structure TailAt (s : Sheet) (i : Nat) (after : Token) (here : Nat × Nat)
    (there : List Tree × (List Tree × Token) × List Tree) : Prop where
  params : PartAt s (i + 1, here.1) there.1
  body : BodyAt s (some (here.1 + 1)) (some there.2.1)
  later : i < here.2
  lies : Lies s (here.2 + 1) there.2.2 after

/-- A bracket that has to be here is missing from the trees as well. -/
lemma Lies.not_group (h : Lies s i trees after) {mark : String} (hopen : isOpener mark = true)
    (hmark : ¬(s.tok i).isPunct mark = true) :
    trees = [] ∧ s.tok i = after ∨
      ∃ t rest, trees = t :: rest ∧ t.inside? mark = none ∧ s.tok i = t.first := by
  cases trees with
  | nil => exact .inl ⟨rfl, h.ahead⟩
  | cons t rest =>
    refine .inr ⟨t, rest, rfl, inside?_of_not_group ?_, h.head.tok⟩
    rw [h.head.isGroup mark hopen]
    exact eq_false_of_ne_true hmark

lemma Lies.functionTail (h : Lies s i trees after) :
    Agrees (TailAt s i after) (s.functionTail i) (Source.functionTail after trees) := by
  rw [Sheet.functionTail]
  by_cases hparen : (s.tok i).isPunct "(" = true
  · obtain ⟨opener, params, closer, rest, rfl, hopener, hgroup, hrest⟩ := h.of_group rfl hparen
    rw [if_pos hparen, Sheet.partner_eq hgroup.partner, Source.functionTail, inside?_of_group hopener]
    dsimp only [bind, Except.bind]
    by_cases hbrace : (s.tok (i + 1 + widthOfAll params + 1)).isPunct "\x7b" = true
    · obtain ⟨brace, inside, last, more, rfl, hbraceMark, hbody, hmore⟩ := hrest.of_group rfl hbrace
      rw [if_pos hbrace, Sheet.partner_eq hbody.partner]
      dsimp only
      rw [inside?_of_group hbraceMark]
      exact .ok ⟨hgroup.partAt, .some ⟨brace, hbody⟩, by dsimp only; omega, hmore⟩
    · rw [if_neg hbrace]
      rcases hrest.not_group rfl hbrace with ⟨rfl, htok⟩ | ⟨t, more, rfl, hinside, htok⟩
      · rw [htok]
        exact .refused _
      · rw [htok]
        dsimp only
        rw [hinside]
        exact .refused _
  · rw [if_neg hparen]
    rcases h.not_group rfl hparen with ⟨rfl, htok⟩ | ⟨t, rest, rfl, hinside, htok⟩
    · rw [htok]
      exact .refused _
    · rw [htok, Source.functionTail, hinside]
      exact .refused _

/-- A declaration of a function is read by indexes as it is by trees. -/
lemma Lies.functionDeclaration (h : Lies s i trees after) (hfinds : Finds s found o) {anchor : Nat}
    {leading : List Comment} (hanchor : AnchorAt s anchor leading)
    (exported : Bool) : Agrees (Leaves s i after) (s.functionDeclaration found i anchor exported)
      (Source.functionDeclaration after leading exported o trees) := by
  have hasync := h.pastWord "async"
  have hstart := hasync.le
  have hword := (hasync.lies h).word "function"
  rw [Sheet.functionDeclaration, Source.functionDeclaration]
  generalize s.pastWord "async" i = j at hasync hstart hword ⊢
  dsimp only
  rw [hword]
  by_cases hfunction : (s.tok j).isWord "function" = true
  · obtain ⟨token, rest, htrees, -⟩ := (hasync.lies h).of_word hfunction
    rw [htrees] at hasync ⊢
    have hrest := (hasync.lies h).leafTail
    have hstar := hrest.pastPunct "*" rfl rfl
    have hstarLe := hstar.le
    rw [if_pos hfunction, if_pos hfunction, List.tail_cons]
    generalize s.pastPunct "*" (j + 1) = k at hstar hstarLe ⊢
    apply (hstar.lies hrest).nameAt.bind
    rintro bound _ ⟨rfl, name, more, hmore⟩
    rw [hmore] at hstar ⊢
    apply (hstar.lies hrest).leafTail.functionTail.bind
    rintro ⟨close, stop⟩ ⟨params, body, behind⟩ hparts
    rw [← declareAll_one]
    apply (hfinds.declare .lexical [bound]).bind
    intro found' o' hfinds'
    obtain ⟨hparams, hbody, hlater, hlies⟩ := hparts
    have hplaced : Placed s ⟨bound.name, (k + 2, close), some (close + 1), anchor⟩
        ⟨bound.name, params, some body, leading⟩ := ⟨rfl, hparams, hbody, hanchor⟩
    dsimp only at hlater
    refine .ok ⟨(hfinds'.addFunction hplaced).exportNames exported [bound], ?_, hlies⟩
    dsimp only
    omega
  · rw [if_neg hfunction, if_neg hfunction, (hasync.lies h).ahead]
    exact .refused _

/-! ## Classes -/

namespace Sheet

variable (s : Sheet)

/-- The index of the bracket that opens a class body. -/
def classBody : Nat → Nat → Checked Nat
  | 0, _ => .error .stuck
  | fuel + 1, i =>
    if (s.tok i).isPunct "\x7b" then .ok i
    else if (s.tok i).kind == .endOfFile then refuse (unexpected (s.tok i))
    else do
      let next ← onward i (s.step i)
      classBody fuel next

/-- Reads a class declaration. -/
def classDeclaration (found : Findings) (i : Nat) (exported : Bool) : Checked (Findings × Nat) := do
  let bound ← s.nameAt (i + 1)
  let body ← s.classBody (s.tokens.length + 1) (i + 2)
  let stop ← s.partner body
  let found ← found.declare .lexical [bound]
  .ok (found.exportNames exported [bound], stop + 1)

end Sheet

/-- A class body is found in what is left of the file, or its lack is noticed at the end. -/
lemma Lies.classBody (h : Lies s i trees after) (hafter : after.kind = .endOfFile) {fuel : Nat}
    (hfuel : trees.length < fuel) :
    Agrees (fun body behind =>
        ∃ stop, s.partner body = .ok stop ∧ i < stop ∧ Lies s (stop + 1) behind after)
      (s.classBody fuel i) (pastClassBody after trees) := by
  induction trees generalizing i fuel with
  | nil =>
    obtain ⟨fuel, rfl⟩ := Nat.exists_eq_succ_of_ne_zero (Nat.ne_of_gt hfuel)
    have hbrace : after.isPunct "\x7b" = false := h.ends.isPunct rfl
    rw [Sheet.classBody, h.nil_tok, hbrace, if_neg Bool.false_ne_true, if_pos (by simp [hafter])]
    exact .refused _
  | cons t rest ih =>
    obtain ⟨fuel, rfl⟩ := Nat.exists_eq_succ_of_ne_zero (Nat.ne_of_gt (Nat.zero_lt_of_lt hfuel))
    have hgroup := h.head.isGroup "\x7b" rfl
    have hpos := width_pos t
    rw [Sheet.classBody, pastClassBody, hgroup]
    by_cases hbrace : (s.tok i).isPunct "\x7b" = true
    · obtain ⟨opener, inside, closer, more, heq, -, hbody, hmore⟩ := h.of_group rfl hbrace
      cases heq
      rw [if_pos hbrace, if_pos hbrace]
      exact .ok ⟨_, Sheet.partner_eq hbody.partner, by omega, hmore⟩
    · have hnext := ih h.tail (Nat.lt_of_succ_lt_succ hfuel)
      rw [if_neg hbrace, if_neg hbrace, h.head.not_ends.1, if_neg Bool.false_ne_true, h.head.step,
        onward_later (by omega)]
      apply hnext.imp
      rintro body behind ⟨stop, hstop, hlater, hbehind⟩
      exact ⟨stop, hstop, by omega, hbehind⟩

/-- A declaration of a class is read by indexes as it is by trees. -/
lemma Lies.classDeclaration (h : Lies s i (leaf token :: rest) after) (hafter : after.kind = .endOfFile)
    (hfinds : Finds s found o) (exported : Bool) :
    Agrees (Leaves s i after) (s.classDeclaration found i exported)
      (Source.classDeclaration after exported o (leaf token :: rest)) := by
  have hrest := h.leafTail
  rw [Sheet.classDeclaration, Source.classDeclaration, List.tail_cons]
  apply hrest.nameAt.bind
  rintro bound _ ⟨rfl, name, more, rfl⟩
  have hmore := hrest.leafTail
  have hbody := hmore.classBody hafter (Nat.lt_succ_of_le hmore.stand.length_le)
  rw [List.tail_cons]
  apply hbody.bind
  rintro body behind ⟨stop, hstop, hlater, hbehind⟩
  rw [hstop, ← declareAll_one]
  apply (hfinds.declare .lexical [bound]).bind
  intro found' o' hfinds'
  refine .ok ⟨hfinds'.exportNames exported [bound], ?_, hbehind⟩
  dsimp only
  omega

/-! ## Values that are functions -/

namespace Sheet

variable (s : Sheet)

/-- The parts of a function expression, from the word on. -/
def functionAhead (i : Nat) : Option ((Nat × Nat) × Option Nat) :=
  let i := s.pastName (s.pastPunct "*" (i + 1))
  if (s.tok i).isPunct "(" then
    (s.partner? i).bind fun close =>
      if (s.tok (close + 1)).isPunct "\x7b" then some ((i + 1, close), some (close + 1)) else none
  else none

/-- The parameters in front of an arrow and the index of the arrow. -/
def arrowParams (i : Nat) : Option ((Nat × Nat) × Nat) :=
  if (s.tok i).isPunct "(" then (s.partner? i).map fun close => ((i + 1, close), close + 1)
  else if (s.tok i).name?.isSome then some ((i, i + 1), i + 1)
  else none

/-- The parts of an arrow function whose arrow stands before an index. -/
def arrowAhead (i stop : Nat) : Option ((Nat × Nat) × Option Nat) :=
  (s.arrowParams i).bind fun (params, arrow) =>
    if (s.tok arrow).isPunct "=>" && decide (arrow < stop) then
      some (params, if (s.tok (arrow + 1)).isPunct "\x7b" then some (arrow + 1) else none)
    else none

/-- The parts of a function that stands between two indexes. -/
def functionValue (start stop : Nat) : Option ((Nat × Nat) × Option Nat) :=
  let i := if (s.tok start).isWord "async" && decide (start + 1 < stop) then start + 1 else start
  if (s.tok i).isWord "function" then s.functionAhead i else s.arrowAhead i stop

end Sheet

/-- The parameters and the body of a function expression. -/
def functionAhead (trees : List Tree) : Option (List Tree × Option (List Tree × Token)) :=
  match dropName (dropPunct "*" trees.tail) with
  | t :: b :: _ =>
    match t.inside? "(", b.inside? "\x7b" with
    | some (params, _), some body => some (params, some body)
    | _, _ => none
  | _ => none

/-- The parameters in front of an arrow. -/
def arrowParams (t : Tree) : Option (List Tree) :=
  match t.inside? "(" with
  | some (params, _) => some params
  | none => if t.name?.isSome then some [t] else none

/-- The parameters and the body of an arrow function, if the arrow belongs to the expression. -/
def arrowAhead (trees : List Tree) (belongs : Bool) : Option (List Tree × Option (List Tree × Token)) :=
  match trees with
  | t :: arrow :: rest =>
    match arrowParams t with
    | none => none
    | some params =>
      if arrow.isPunct "=>" && belongs then some (params, rest.head?.bind (·.inside? "\x7b")) else none
  | _ => none

lemma functionValue_eq (trees : List Tree) (size : Nat) : functionValue trees size =
    let skipped := if startsWithWord trees "async" && decide (1 < size) then 1 else 0
    let trees := trees.drop skipped
    if startsWithWord trees "function" then functionAhead trees
    else arrowAhead trees (decide (skipped + 1 < size)) :=
  rfl

/-- The parts of a function stand at the indexes that have been found. -/
structure PartsAt (s : Sheet) (here : (Nat × Nat) × Option Nat)
    (there : List Tree × Option (List Tree × Token)) : Prop where
  params : PartAt s here.1 there.1
  body : BodyAt s here.2 there.2

lemma Lies.functionAhead (h : Lies s i (leaf token :: rest) after) :
    Option.Rel (PartsAt s) (s.functionAhead i) (functionAhead (leaf token :: rest)) := by
  have hrest := h.leafTail
  have hstar := hrest.pastPunct "*" rfl rfl
  have hname := (hstar.trans (hstar.lies hrest).pastName).lies hrest
  rw [Sheet.functionAhead, Proofs.functionAhead, List.tail_cons]
  generalize s.pastName (s.pastPunct "*" (i + 1)) = j at hname ⊢
  generalize dropName (dropPunct "*" rest) = trees at hname ⊢
  by_cases hparen : (s.tok j).isPunct "(" = true
  · obtain ⟨opener, params, closer, more, rfl, hopener, hgroup, hmore⟩ := hname.of_group rfl hparen
    have hbody := hmore.bodyAt
    rw [if_pos hparen, Sheet.partner?_eq hgroup.partner, Option.bind_some]
    by_cases hbrace : (s.tok (j + 1 + widthOfAll params + 1)).isPunct "\x7b" = true
    · obtain ⟨brace, inside, last, tail, rfl, hmark, hblock, -⟩ := hmore.of_group rfl hbrace
      rw [if_pos hbrace]
      dsimp only
      rw [inside?_of_group hopener, inside?_of_group hmark]
      exact .some ⟨hgroup.partAt, .some ⟨brace, hblock⟩⟩
    · rw [if_neg hbrace]
      rcases hmore.not_group rfl hbrace with ⟨rfl, -⟩ | ⟨t, tail, rfl, hinside, -⟩
      · exact .none
      · dsimp only
        rw [inside?_of_group hopener, hinside]
        exact .none
  · rw [if_neg hparen]
    rcases hname.not_group rfl hparen with ⟨rfl, -⟩ | ⟨t, more, rfl, hinside, -⟩
    · exact .none
    · cases more with
      | nil => exact .none
      | cons b tail =>
        dsimp only
        rw [hinside]
        exact .none

/-- In front of an arrow stands a list of parameters or a lone name. -/
lemma At.arrowParams (h : At s i t) :
    s.arrowParams i = none ∧ arrowParams t = none ∨
      ∃ place params, s.arrowParams i = some (place, i + width t) ∧ arrowParams t = some params ∧
        ∀ arrow, s.tokens[i + width t]? = some arrow → arrow.isPunct "\x7b" = false →
          PartAt s place params := by
  rw [Sheet.arrowParams, Proofs.arrowParams, ← h.isGroup "(" rfl, ← h.name?]
  cases t with
  | leaf token =>
    have hgroup : ¬(leaf token).isGroup "(" = true := Bool.false_ne_true
    rw [if_neg hgroup]
    by_cases hname : (leaf token).name?.isSome = true
    · refine .inr ⟨(i, i + 1), [leaf token], ?_, if_pos hname, ?_⟩
      · rw [if_pos hname, width_leaf]
      · intro arrow harrow hmark
        rw [width_leaf] at harrow
        exact ⟨by simpa using h, by simp, arrow, harrow, hmark⟩
    · exact .inl ⟨if_neg hname, if_neg hname⟩
  | group opener inside closer =>
    have hgroup := at_group.mp h
    by_cases hparen : opener.isPunct "(" = true
    · refine .inr ⟨(i + 1, i + 1 + widthOfAll inside), inside, ?_, ?_, fun _ _ _ => hgroup.partAt⟩
      · rw [if_pos (show (Tree.group opener inside closer).isGroup "(" = true from hparen),
          Sheet.partner?_eq hgroup.partner, Option.map_some, width_group]
        congr 2
        omega
      · rw [inside?_of_group hparen]
    · have hnot : (Tree.group opener inside closer).isGroup "(" = false := eq_false_of_ne_true hparen
      refine .inl ⟨?_, ?_⟩
      · rw [hnot]
        rfl
      · rw [inside?_of_not_group hnot]
        rfl

lemma Lies.arrowAhead (h : Lies s i trees after) {stop : Nat} {belongs : Bool}
    (hstop : ∀ t arrow rest, trees = t :: arrow :: rest → decide (i + width t < stop) = belongs) :
    Option.Rel (PartsAt s) (s.arrowAhead i stop) (arrowAhead trees belongs) := by
  rw [Sheet.arrowAhead]
  cases trees with
  | nil =>
    have hbare := h.ends.bare
    have hparen : after.isPunct "(" = false := h.ends.isPunct rfl
    rw [Sheet.arrowParams, h.nil_tok, hparen, hbare.name]
    exact .none
  | cons t more =>
    rcases h.head.arrowParams with ⟨hhere, hthere⟩ | ⟨place, params, hhere, hthere, hparams⟩
    · rw [hhere]
      cases more with
      | nil => exact .none
      | cons arrow rest =>
        rw [Proofs.arrowAhead, hthere]
        exact .none
    · have hmore := h.tail
      rw [hhere, Option.bind_some]
      dsimp only
      rw [← hmore.punct "=>" rfl rfl]
      cases more with
      | nil => exact .none
      | cons arrow rest =>
        rw [hstop t arrow rest rfl, Proofs.arrowAhead, hthere]
        change Option.Rel _ (if (arrow.isPunct "=>" && belongs) = true then _ else _) _
        dsimp only
        by_cases harrow : (arrow.isPunct "=>" && belongs) = true
        · obtain ⟨token, rfl, hkind⟩ := leaf_of_isPunct (Bool.and_eq_true_iff.mp harrow).1
          rw [if_pos harrow, if_pos harrow]
          exact .some ⟨hparams token hmore.head.first (by simp [Token.isPunct, hkind]),
            hmore.leafTail.bodyAt⟩
        · rw [if_neg harrow, if_neg harrow]
          exact .none

/-- Of two fronts of the same trees the shorter one has fewer tokens. -/
lemma widthOfAll_lt_iff {front more taken left : List Tree} (h : front ++ more = taken ++ left) :
    widthOfAll front < widthOfAll taken ↔ front.length < taken.length := by
  rcases List.append_eq_append_iff.mp h with ⟨other, rfl, -⟩ | ⟨other, rfl, -⟩
  · have hlength := length_le_widthOfAll other
    cases other with
    | nil => simp
    | cons t other =>
      rw [List.length_cons] at hlength
      rw [widthOfAll_append, List.length_append, List.length_cons]
      omega
  · rw [widthOfAll_append, List.length_append]
    omega

/-- A function is recognised by indexes as it is by trees. -/
lemma Lies.functionValue {taken left : List Tree} (h : Lies s i (taken ++ left) after) :
    Option.Rel (PartsAt s) (s.functionValue i (i + widthOfAll taken))
      (Source.functionValue (taken ++ left) taken.length) := by
  generalize htrees : taken ++ left = trees at h ⊢
  -- Behind `async` the arrow is one token further on, and one tree.
  have hgo : ∀ front more, front ++ more = trees → Lies s (i + widthOfAll front) more after →
      Option.Rel (PartsAt s)
        (if (s.tok (i + widthOfAll front)).isWord "function" then s.functionAhead (i + widthOfAll front)
          else s.arrowAhead (i + widthOfAll front) (i + widthOfAll taken))
        (if startsWithWord more "function" then Proofs.functionAhead more
          else Proofs.arrowAhead more (decide (front.length + 1 < taken.length))) := by
    intro front more hsplit hmore
    rw [hmore.word]
    by_cases hfunction : (s.tok (i + widthOfAll front)).isWord "function" = true
    · obtain ⟨token, rest, rfl, -⟩ := hmore.of_word hfunction
      rw [if_pos hfunction, if_pos hfunction]
      exact hmore.functionAhead
    · rw [if_neg hfunction, if_neg hfunction]
      apply hmore.arrowAhead
      rintro t arrow rest rfl
      have hfronts : front ++ [t] ++ arrow :: rest = taken ++ left := by
        rw [htrees, ← hsplit, List.append_assoc, List.singleton_append]
      have hiff := widthOfAll_lt_iff hfronts
      rw [widthOfAll_append, widthOfAll_cons, widthOfAll_nil, List.length_append,
        List.length_singleton, Nat.add_zero] at hiff
      rw [decide_eq_decide, ← hiff]
      omega
  have hskip : ((s.tok i).isWord "async" && decide (i + 1 < i + widthOfAll taken)) =
      (startsWithWord trees "async" && decide (1 < taken.length)) := by
    rw [h.word]
    by_cases hasync : (s.tok i).isWord "async" = true
    · obtain ⟨token, rest, rfl, -⟩ := h.of_word hasync
      have hsplit : [leaf token] ++ rest = taken ++ left := htrees.symm
      have hiff := widthOfAll_lt_iff hsplit
      rw [widthOfAll_cons, widthOfAll_nil, width_leaf, List.length_singleton] at hiff
      rw [hasync, Bool.true_and, Bool.true_and, decide_eq_decide, ← hiff]
      omega
    · rw [eq_false_of_ne_true hasync, Bool.false_and, Bool.false_and]
  rw [Sheet.functionValue, functionValue_eq, hskip]
  by_cases hasync : (startsWithWord trees "async" && decide (1 < taken.length)) = true
  · obtain ⟨t, rest, rfl, ht⟩ := startsWithWord_iff.mp (Bool.and_eq_true_iff.mp hasync).1
    obtain ⟨token, rfl, -⟩ := leaf_of_isWord ht
    have hrest := h.leafTail
    rw [if_pos hasync, if_pos hasync]
    exact hgo [leaf token] rest rfl hrest
  · rw [if_neg hasync, if_neg hasync]
    exact hgo [] trees rfl (by simpa using h)

/-! ## Variables -/

namespace Sheet

variable (s : Sheet)

/-- What a declarator binds at an index, and the index behind that. -/
def declaratorTarget (i : Nat) : Checked (Option String × List BoundName × Nat) :=
  match (s.tok i).name? with
  | some name => .ok (some name, [⟨name, s.tok i⟩], i + 1)
  | none =>
    if (s.tok i).isPunct "\x7b" || (s.tok i).isPunct "[" then do
      let close ← s.partner i
      let names ← s.targetNames (s.tokens.length + 1) i
      .ok (none, names, close + 1)
    else refuse (unexpected (s.tok i))

/-- Reads the declarators of a variable declaration. -/
def declarators (kind : Declaration) (anchor : Nat) (exported : Bool) :
    Nat → Findings → Nat → Checked (Findings × Nat)
  | 0, _, _ => .error .stuck
  | fuel + 1, found, i => do
    let (single, names, j) ← s.declaratorTarget i
    let found ← found.declare kind names
    let found := found.exportNames exported names
    let (found, j) ←
      if (s.tok j).isPunct "=" then do
        let stop ← s.expressionEnd true (s.tokens.length + 1) none (j + 1)
        let found := match single, s.functionValue (j + 1) stop with
          | some name, some (params, body) => found.addFunction ⟨name, params, body, anchor⟩
          | _, _ => found
        .ok (found, stop)
      else .ok (found, j)
    if (s.tok j).isPunct "," then do
      let next ← onward i (j + 1)
      declarators kind anchor exported fuel found next
    else .ok (found, s.consumeSemicolon j)

/-- Reads a variable declaration. -/
def variableDeclaration (found : Findings) (i anchor : Nat) (exported : Bool) : Checked (Findings × Nat) :=
  let kind : Declaration := if (s.tok i).isWord "var" then .var else .lexical
  s.declarators kind anchor exported (s.tokens.length + 1) found (i + 1)

end Sheet

/-- A declarator's target is read, and what is left stands behind it. -/
structure TargetAt (s : Sheet) (i : Nat) (trees : List Tree) (here : Option String × List BoundName × Nat)
    (there : Option String × List BoundName × List Tree) : Prop where
  single : here.1 = there.1
  names : here.2.1 = there.2.1
  past : Past i trees here.2.2 there.2.2
  later : i < here.2.2

lemma Lies.declaratorTarget (h : Lies s i trees after) : Agrees (TargetAt s i trees)
    (s.declaratorTarget i) (Source.declaratorTarget after trees) := by
  rw [Sheet.declaratorTarget]
  cases trees with
  | nil =>
    have hbare := h.ends.bare
    rw [h.nil_tok, hbare.name]
    dsimp only
    rw [hbare.object, hbare.array, Bool.or_self, if_neg Bool.false_ne_true]
    exact .refused _
  | cons t rest =>
    have hread := readsTargets s (s.tokens.length + 1) t i h.head (by have := h.head.width_le; omega)
    have htok := h.head.tok
    cases t with
    | leaf token =>
      have hplain := (at_leaf.mp h.head).1
      dsimp only [Tree.first] at htok
      rw [htok, Source.declaratorTarget, nameOfToken]
      cases hname : token.name? with
      | none =>
        dsimp only
        rw [hplain.not_opener "\x7b" rfl, hplain.not_opener "[" rfl, Bool.or_self, if_neg Bool.false_ne_true]
        exact .refused _
      | some name => exact .ok ⟨rfl, rfl, .leaf i token rest, Nat.lt_succ_self i⟩
    | group opener inside closer =>
      have hgroup := at_group.mp h.head
      dsimp only [Tree.first] at htok
      rw [htok, Source.declaratorTarget, hgroup.fit.noWord.name?]
      dsimp only
      by_cases hpattern : (opener.isPunct "\x7b" || opener.isPunct "[") = true
      · rw [if_pos hpattern, Sheet.partner_eq hgroup.partner]
        dsimp only [bind, Except.bind]
        rw [hread]
        cases namesOfTarget (Tree.group opener inside closer) with
        | error e => exact .refused e
        | ok names => exact .ok ⟨rfl, rfl, .group i opener closer inside rest, by dsimp only; omega⟩
      · rw [if_neg hpattern]
        rw [Bool.or_eq_true, not_or] at hpattern
        rw [namesOfTarget, if_neg hpattern.1, if_neg hpattern.2]
        exact .refused _

lemma Past.shorter {j : Nat} {left : List Tree} (h : Past i trees j left) (hij : i < j) :
    left.length < trees.length := by
  obtain ⟨front, rfl, rfl⟩ := h.split
  cases front with
  | nil => simp at hij
  | cons t front =>
    rw [List.length_append, List.length_cons]
    omega

/-- A value behind a declarator adds at most one function. -/
lemma Finds.addValue (h : Finds s found o) {anchor : Nat} {leading : List Comment}
    (hanchor : AnchorAt s anchor leading) (single : Option String)
    (here : Option ((Nat × Nat) × Option Nat)) (there : Option (List Tree × Option (List Tree × Token))) :
    Option.Rel (PartsAt s) here there → Finds s
      (match single, here with
        | some name, some (params, body) => found.addFunction ⟨name, params, body, anchor⟩
        | _, _ => found)
      (match single, there with
        | some name, some (params, body) => o.addFunction ⟨name, params, body, leading⟩
        | _, _ => o) := by
  intro hvalue
  cases single with
  | none => exact h
  | some name =>
    cases hvalue with
    | none => exact h
    | some hparts => exact h.addFunction ⟨rfl, hparts.params, hparts.body, hanchor⟩

/-- Declarators are read by indexes as they are by trees, and their loop ends. -/
lemma Lies.declarators (h : Lies s i trees after) (hfinds : Finds s found o) (kind : Declaration)
    {anchor : Nat} {leading : List Comment}
    (hanchor : AnchorAt s anchor leading) (exported : Bool)
    {fuel size : Nat} (hfuel : trees.length < fuel) (hsize : trees.length < size) :
    Agrees (Leaves s i after) (s.declarators kind anchor exported fuel found i)
      (Source.declarators after kind leading exported size o trees) := by
  induction fuel generalizing i trees found o size with
  | zero => exact absurd hfuel (Nat.not_lt_zero _)
  | succ fuel ih =>
    obtain ⟨size, rfl⟩ := Nat.exists_eq_succ_of_ne_zero (Nat.ne_of_gt (Nat.zero_lt_of_lt hsize))
    rw [Sheet.declarators, Source.declarators]
    apply h.declaratorTarget.bind
    rintro ⟨single, names, j⟩ ⟨_, _, left⟩ ⟨rfl, rfl, hpast, hlater⟩
    dsimp only at hpast hlater ⊢
    apply (hfinds.declare kind names).bind
    intro found₁ o₁ hfinds₁
    have hexported := hfinds₁.exportNames exported names
    have hleft := hpast.lies h
    -- The loop goes on behind a comma, and the trees have become fewer.
    have hgo : ∀ found₂ o₂ k rest, Finds s found₂ o₂ → Past j left k rest →
        Agrees (Leaves s i after)
          (if (s.tok k).isPunct "," then do
              let next ← onward i (k + 1)
              s.declarators kind anchor exported fuel found₂ next
            else .ok (found₂, s.consumeSemicolon k))
          (if startsWithPunct rest "," then
              Source.declarators after kind leading exported size o₂ rest.tail
            else .ok (o₂, pastSemicolon rest)) := by
      intro found₂ o₂ k rest hfinds₂ hrest
      have hall := hpast.trans hrest
      have hle := hrest.le
      have hlies := hall.lies h
      rw [hlies.punct "," rfl rfl]
      by_cases hcomma : (s.tok k).isPunct "," = true
      · obtain ⟨token, more, rfl, -⟩ := hlies.of_punct rfl rfl hcomma
        have hshorter := hall.shorter (by omega)
        rw [List.length_cons] at hshorter
        have hcount : more.length < size := by omega
        have hmore := ih hlies.leafTail hfinds₂ (by omega) hcount
        rw [if_pos hcomma, if_pos hcomma, onward_later (by omega)]
        exact hmore.imp fun _ _ hleaves => hleaves.from (by omega)
      · have hsemicolon := hlies.consumeSemicolon
        have hbehind := hsemicolon.le
        rw [if_neg hcomma, if_neg hcomma]
        refine .ok ⟨hfinds₂, ?_, hsemicolon.lies hlies⟩
        dsimp only
        omega
    rw [hleft.punct "=" rfl rfl]
    by_cases hvalue : (s.tok j).isPunct "=" = true
    · obtain ⟨token, value, rfl, -⟩ := hleft.of_punct rfl rfl hvalue
      have hbehind := hleft.leafTail
      have hstop := hbehind.expressionEnd true none (Nat.lt_succ_of_le hbehind.stand.length_le)
      have hcut := cutPast (j + 1) after true none value
      have happend := cutExpression_append after true none value
      rw [Option.map_none] at hstop
      rw [if_pos hvalue, if_pos hvalue, hstop, List.tail_cons]
      generalize cutExpression after true none value = cut at hcut happend ⊢
      obtain ⟨taken, behind⟩ := cut
      dsimp only at hcut happend ⊢
      subst happend
      exact hgo _ _ _ _ (hexported.addValue hanchor single _ _ hbehind.functionValue)
        ((Past.leaf j token (taken ++ behind)).trans hcut)
    · rw [if_neg hvalue, if_neg hvalue]
      exact hgo _ _ _ _ hexported (.refl j left)

/-- A declaration of variables is read by indexes as it is by trees. -/
lemma Lies.variableDeclaration (h : Lies s i (leaf token :: rest) after) (hfinds : Finds s found o)
    {anchor : Nat} {leading : List Comment}
    (hanchor : AnchorAt s anchor leading) (exported : Bool) :
    Agrees (Leaves s i after) (s.variableDeclaration found i anchor exported)
      (Source.variableDeclaration after leading exported o (leaf token :: rest)) := by
  have hrest := h.leafTail
  rw [Sheet.variableDeclaration, Source.variableDeclaration, h.word, List.tail_cons]
  have hread := hrest.declarators hfinds (if (s.tok i).isWord "var" then .var else .lexical) hanchor
    exported (Nat.lt_succ_of_le hrest.stand.length_le)
    (show rest.length < (leaf token :: rest).length by simp)
  exact hread.imp fun _ _ hleaves => hleaves.from (by omega)

end TaskRunner.Proofs
