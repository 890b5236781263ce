import TaskRunner.Proofs.IndexedFunctions

/-!
# Imports by indexes

The lists of imports and exports are read by one loop, which stops only at the closing bracket. An import
looks up to two tokens ahead of every index, and behind the end of the file stands the end.
-/

namespace TaskRunner.Proofs
open Source Tree

variable {s : Sheet} {i : Nat} {after : Token} {trees rest : List Tree}
variable {found : Findings} {o : Outline}

/-! ## Names and texts ahead -/

lemma Lies.of_nameOrText (h : Lies s i trees after) {name : String}
    (hname : (s.tok i).nameOrText? = some name) :
    ∃ token rest, trees = leaf token :: rest ∧ s.tok i = token := by
  cases trees with
  | nil =>
    rw [h.nil_tok, h.ends.noWord.nameOrText?] at hname
    cases hname
  | cons t rest =>
    cases t with
    | leaf token => exact ⟨token, rest, rfl, h.head.tok⟩
    | group opener inside closer =>
      rw [h.head.tok, Tree.first, (at_group.mp h.head).fit.noWord.nameOrText?] at hname
      cases hname

lemma nameOrText?_of_text? {token : Token} {text : String} (h : token.text? = some text) :
    token.nameOrText? = some text := by
  unfold Token.text? at h
  split at h
  · rename_i value hkind
    simpa [Token.nameOrText?, hkind] using h
  · cases h

lemma Lies.of_text (h : Lies s i trees after) {text : String} (htext : (s.tok i).text? = some text) :
    ∃ token rest, trees = leaf token :: rest ∧ s.tok i = token :=
  h.of_nameOrText (nameOrText?_of_text? htext)

/-! ## Lists of elements -/

/-- An element of a list and the index behind it. -/
abbrev ReadsElement (α : Type) := Nat → Checked (α × Nat)

namespace Sheet

variable (s : Sheet)

/-- The elements of a list in braces, up to the closing one. -/
def listElements {α : Type} (element : ReadsElement α) (close : Nat) : Nat → Nat → Checked (List α)
  | 0, _ => .error .stuck
  | fuel + 1, i =>
    if i < close then do
      let (found, j) ← element i
      if (s.tok j).isPunct "," then do
        let next ← onward i (j + 1)
        let more ← listElements element close fuel next
        .ok (found :: more)
      else if j = close then .ok [found]
      else refuse (unexpected (s.tok j))
    else .ok []

/-- The name or text at an index, or a complaint about the token there. -/
def nameOrTextAt (i : Nat) : Checked String :=
  match (s.tok i).nameOrText? with
  | some name => .ok name
  | none => refuse (unexpected (s.tok i))

/-- An element of an import list. -/
def importElement : ReadsElement (ImportBinding × BoundName) := fun i => do
  let imported ← s.nameOrTextAt i
  if (s.tok (i + 1)).isWord "as" then do
    let bound ← s.nameAt (i + 2)
    .ok ((.member imported bound.name, bound), i + 3)
  else .ok ((.member imported imported, ⟨imported, s.tok i⟩), i + 1)

/-- An element of an export list. -/
def exportElement : ReadsElement Export := fun i => do
  let name ← s.nameOrTextAt i
  if (s.tok (i + 1)).isWord "as" then do
    let exported ← s.nameOrTextAt (i + 2)
    .ok (⟨exported, name⟩, i + 3)
  else .ok (⟨name, name⟩, i + 1)

end Sheet

/-- The elements of a list, at most `fuel` of them. -/
def listedBy {α : Type} (after : Token) (element : List Tree → Except SyntaxError (α × List Tree)) :
    Nat → List Tree → Except SyntaxError (List α)
  | 0, _ => .ok []
  | _, [] => .ok []
  | fuel + 1, t :: rest => do
    let (found, rest) ← element (t :: rest)
    if startsWithPunct rest "," then do
      let more ← listedBy after element fuel rest.tail
      .ok (found :: more)
    else if rest.isEmpty then .ok [found]
    else .error (unexpected (ahead after rest))

/-- The name or text of the token ahead. -/
def nameOrTextAhead (token : Token) : Except SyntaxError String :=
  match token.nameOrText? with
  | some name => .ok name
  | none => .error (unexpected token)

/-- An element of an import list and what is behind it. -/
def importElement (after : Token) (trees : List Tree) :
    Except SyntaxError ((ImportBinding × BoundName) × List Tree) := do
  let imported ← nameOrTextAhead (ahead after trees)
  if startsWithWord trees.tail "as" then do
    let bound ← nameOfToken (ahead after trees.tail.tail)
    .ok ((.member imported bound.name, bound), trees.tail.tail.tail)
  else .ok ((.member imported imported, ⟨imported, ahead after trees⟩), trees.tail)

/-- An element of an export list and what is behind it. -/
def exportElement (after : Token) (trees : List Tree) : Except SyntaxError (Export × List Tree) := do
  let name ← nameOrTextAhead (ahead after trees)
  if startsWithWord trees.tail "as" then do
    let exported ← nameOrTextAhead (ahead after trees.tail.tail)
    .ok (⟨exported, name⟩, trees.tail.tail.tail)
  else .ok (⟨name, name⟩, trees.tail)

lemma importElements_eq (after : Token) (fuel : Nat) (trees : List Tree) :
    importElements after fuel trees = listedBy after (importElement after) fuel trees := by
  induction fuel generalizing trees with
  | zero => rfl
  | succ fuel ih =>
    cases trees with
    | nil => rfl
    | cons t rest =>
      rw [importElements, listedBy, importElement, nameOrTextAhead, List.tail_cons, ahead]
      cases t.first.nameOrText? with
      | none => rfl
      | some imported =>
        dsimp only [bind, Except.bind]
        by_cases has : startsWithWord rest "as" = true
        · rw [if_pos has, if_pos has]
          cases nameOfToken (ahead after rest.tail) with
          | error e => rfl
          | ok bound =>
            dsimp only
            rw [ih]
        · rw [if_neg has, if_neg has]
          dsimp only
          rw [ih]

lemma exportElements_eq (after : Token) (fuel : Nat) (trees : List Tree) :
    exportElements after fuel trees = listedBy after (exportElement after) fuel trees := by
  induction fuel generalizing trees with
  | zero => rfl
  | succ fuel ih =>
    cases trees with
    | nil => rfl
    | cons t rest =>
      rw [exportElements, listedBy, exportElement, nameOrTextAhead, List.tail_cons, ahead]
      cases t.first.nameOrText? with
      | none => rfl
      | some name =>
        dsimp only [bind, Except.bind]
        by_cases has : startsWithWord rest "as" = true
        · rw [if_pos has, if_pos has, nameOrTextAhead]
          cases (ahead after rest.tail).nameOrText? with
          | none => rfl
          | some exported =>
            dsimp only
            rw [ih]
        · rw [if_neg has, if_neg has]
          dsimp only
          rw [ih]

/-- An element is the same, and what is left stands behind it. -/
structure ElementAt {α : Type} (i : Nat) (trees : List Tree) (here : α × Nat) (there : α × List Tree) :
    Prop where
  same : here.1 = there.1
  past : Past i trees here.2 there.2
  later : i < here.2

/-- An element is read by indexes as it is by trees, wherever it stands. -/
def ReadsAlike {α : Type} (s : Sheet) (after : Token) (element : ReadsElement α)
    (element' : List Tree → Except SyntaxError (α × List Tree)) : Prop :=
  ∀ i trees, Lies s i trees after → Agrees (ElementAt i trees) (element i) (element' trees)

/-- What trees are left ends where all of them end. -/
lemma Past.close {j : Nat} {left : List Tree} (h : Past i trees j left) :
    i + widthOfAll trees = j + widthOfAll left := by
  obtain ⟨front, rfl, rfl⟩ := h.split
  rw [widthOfAll_append, Nat.add_assoc]

/-- The loop over a list stops at the closing bracket. -/
lemma Lies.listElements {α : Type} {element : ReadsElement α}
    {element' : List Tree → Except SyntaxError (α × List Tree)}
    (hread : ReadsAlike s after element element') (h : Lies s i trees after) {fuel size : Nat}
    (hfuel : trees.length < fuel) (hsize : trees.length < size) :
    Agrees Eq (s.listElements element (i + widthOfAll trees) fuel i)
      (listedBy after element' size trees) := by
  induction fuel generalizing i trees size with
  | zero => exact absurd hfuel (Nat.not_lt_zero _)
  | succ fuel ih =>
    obtain ⟨size, rfl⟩ := Nat.exists_eq_succ_of_ne_zero (Nat.ne_of_gt (Nat.zero_lt_of_lt hsize))
    rw [Sheet.listElements]
    cases trees with
    | nil =>
      rw [widthOfAll_nil, if_neg (by omega)]
      exact .ok rfl
    | cons t rest =>
      have hpos := width_pos t
      rw [if_pos (by rw [widthOfAll_cons]; omega), listedBy]
      apply (hread i (t :: rest) h).bind
      rintro ⟨found, j⟩ ⟨_, left⟩ ⟨rfl, hpast, hlater⟩
      have hclose := hpast.close
      have hshorter := hpast.shorter hlater
      have hleft := hpast.lies h
      dsimp only at hclose hlater hleft hshorter ⊢
      rw [hclose, hleft.punct "," rfl rfl]
      by_cases hcomma : (s.tok j).isPunct "," = true
      · obtain ⟨comma, more, rfl, -⟩ := hleft.of_punct rfl rfl hcomma
        rw [List.length_cons] at hshorter
        have hcount : more.length < size := by omega
        have hmore := ih hleft.leafTail (by omega) hcount
        rw [widthOfAll_cons, width_leaf, ← Nat.add_assoc, if_pos hcomma, if_pos hcomma,
          onward_later (by omega)]
        apply hmore.bind
        rintro found' _ rfl
        exact .ok rfl
      · rw [if_neg hcomma, if_neg hcomma]
        cases left with
        | nil =>
          rw [widthOfAll_nil, if_pos (by omega)]
          exact .ok rfl
        | cons u more =>
          have hwidth := width_pos u
          rw [widthOfAll_cons, if_neg (by omega), hleft.ahead]
          exact .refused _

lemma Lies.nameOrTextAt (h : Lies s i trees after) :
    Agrees (fun name name' => name = name' ∧ ∃ token rest, trees = leaf token :: rest) (s.nameOrTextAt i)
      (nameOrTextAhead (Source.ahead after trees)) := by
  rw [Sheet.nameOrTextAt, nameOrTextAhead, ← h.ahead]
  cases hname : (s.tok i).nameOrText? with
  | none => exact .refused _
  | some name =>
    obtain ⟨token, rest, htrees, -⟩ := h.of_nameOrText hname
    exact .ok ⟨rfl, token, rest, htrees⟩

lemma Past.leaves (i : Nat) (first second third : Token) (rest : List Tree) :
    Past i (Tree.leaf first :: Tree.leaf second :: Tree.leaf third :: rest) (i + 3) rest :=
  ⟨[Tree.leaf first, Tree.leaf second, Tree.leaf third], rfl, by simp⟩

lemma readsAlike_importElement (s : Sheet) (after : Token) :
    ReadsAlike s after s.importElement (importElement after) := by
  intro i trees h
  apply h.nameOrTextAt.bind
  rintro imported _ ⟨rfl, token, rest, rfl⟩
  have hrest := h.leafTail
  rw [List.tail_cons, hrest.word]
  by_cases has : (s.tok (i + 1)).isWord "as" = true
  · obtain ⟨word, more, rfl, -⟩ := hrest.of_word has
    rw [if_pos has, if_pos has]
    apply hrest.leafTail.nameAt.bind
    rintro bound _ ⟨rfl, name, tail, rfl⟩
    exact .ok ⟨rfl, .leaves i token word name tail, by dsimp only; omega⟩
  · rw [if_neg has, if_neg has, h.ahead]
    exact .ok ⟨rfl, .leaf i token rest, Nat.lt_succ_self i⟩

lemma readsAlike_exportElement (s : Sheet) (after : Token) :
    ReadsAlike s after s.exportElement (exportElement after) := by
  intro i trees h
  apply h.nameOrTextAt.bind
  rintro name _ ⟨rfl, token, rest, rfl⟩
  have hrest := h.leafTail
  rw [List.tail_cons, hrest.word]
  by_cases has : (s.tok (i + 1)).isWord "as" = true
  · obtain ⟨word, more, rfl, -⟩ := hrest.of_word has
    rw [if_pos has, if_pos has]
    apply hrest.leafTail.nameOrTextAt.bind
    rintro exported _ ⟨rfl, last, tail, rfl⟩
    exact .ok ⟨rfl, .leaves i token word last tail, by dsimp only; omega⟩
  · rw [if_neg has, if_neg has]
    exact .ok ⟨rfl, .leaf i token rest, Nat.lt_succ_self i⟩

/-! ## Imports -/

namespace Sheet

variable (s : Sheet)

/-- The name bound to the default export, if a clause starts with one, and the index behind it. -/
def defaultImport (i : Nat) : List (ImportBinding × BoundName) × Nat :=
  match (s.tok i).name? with
  | some name =>
    if name != "from" || (s.tok (i + 1)).isWord "from" then
      ([(.whole name, ⟨name, s.tok i⟩)], s.pastPunct "," (i + 1))
    else ([], i)
  | none => ([], i)

/-- The other names of a clause, and the index behind them. -/
def otherImports (i : Nat) : Checked (List (ImportBinding × BoundName) × Nat) :=
  if (s.tok i).isPunct "*" then
    if (s.tok (i + 1)).isWord "as" then do
      let bound ← s.nameAt (i + 2)
      .ok ([(.whole bound.name, bound)], i + 3)
    else refuse (unexpected (s.tok (i + 1)))
  else if (s.tok i).isPunct "\x7b" then do
    let close ← s.partner i
    let elements ← s.listElements s.importElement close (s.tokens.length + 1) (i + 1)
    .ok (elements, close + 1)
  else .ok ([], i)

/-- The names bound by the clause before `from`, and the index behind `from`. -/
def importClause (clause : Nat) : Checked (List (ImportBinding × BoundName) × Nat) := do
  let (others, i) ← s.otherImports (s.defaultImport clause).2
  if i = clause || !(s.tok i).isWord "from" then refuse (unexpected (s.tok i))
  else .ok ((s.defaultImport clause).1 ++ others, i + 1)

/-- The index behind the attributes of an import. -/
def pastAttributes (i : Nat) : Nat :=
  if ((s.tok i).isWord "with" || (s.tok i).isWord "assert") && !(s.tok i).newlineBefore &&
      (s.tok (i + 1)).isPunct "\x7b" then s.step (i + 1)
  else i

/-- Reads an import declaration. -/
def importDeclaration (found : Findings) (i : Nat) : Checked (Findings × Nat) := do
  let (bindings, j) ←
    if (s.tok (i + 1)).text?.isSome then .ok ([], i + 1) else s.importClause (i + 1)
  match (s.tok j).text? with
  | none => refuse (unexpected (s.tok j))
  | some source => do
    let stop := s.consumeSemicolon (s.pastAttributes (j + 1))
    let found ← found.declare .lexical (bindings.map (·.2))
    .ok (found.addEdit (s.spanBetween i stop) (importReplacement source (bindings.map (·.1))), stop)

end Sheet

/-- The other names of a clause, and what is behind them. -/
def otherImports (after : Token) (trees : List Tree) :
    Except SyntaxError (List (ImportBinding × BoundName) × List Tree) :=
  match trees with
  | [] => .ok ([], [])
  | t :: rest =>
    if t.isPunct "*" then
      if startsWithWord rest "as" then do
        let bound ← nameOfToken (ahead after rest.tail)
        .ok ([(ImportBinding.whole bound.name, bound)], rest.tail.tail)
      else .error (unexpected (ahead after rest))
    else
      match t.inside? "\x7b" with
      | some (inside, closer) => do
        let elements ← importElements closer (inside.length + 1) inside
        .ok (elements, rest)
      | none => .ok ([], t :: rest)

lemma importClause_eq (after : Token) (clause : List Tree) : importClause after clause = (do
    let (others, trees) ← otherImports after (defaultImport clause).2
    if trees.length = clause.length || !startsWithWord trees "from" then
      .error (unexpected (ahead after trees))
    else .ok ((defaultImport clause).1 ++ others, trees.tail)) := by
  unfold importClause otherImports
  obtain ⟨defaults, trees⟩ := defaultImport clause
  cases trees with
  | nil => rfl
  | cons t rest =>
    dsimp only
    by_cases hstar : t.isPunct "*" = true
    · rw [if_pos hstar, if_pos hstar]
      by_cases has : startsWithWord rest "as" = true
      · rw [if_pos has, if_pos has]
        cases nameOfToken (ahead after rest.tail) <;> rfl
      · rw [if_neg has, if_neg has]
    · rw [if_neg hstar, if_neg hstar]
      cases t.inside? "\x7b" with
      | none => rfl
      | some group =>
        obtain ⟨inside, closer⟩ := group
        dsimp only
        cases importElements closer (inside.length + 1) inside <;> rfl

/-- What is bound is the same, and what is left stands where the reading goes on. -/
structure BindingsAt (i : Nat) (trees : List Tree) (here : List (ImportBinding × BoundName) × Nat)
    (there : List (ImportBinding × BoundName) × List Tree) : Prop where
  same : here.1 = there.1
  past : Past i trees here.2 there.2

lemma Lies.defaultImport (h : Lies s i trees after) :
    BindingsAt i trees (s.defaultImport i) (Source.defaultImport trees) := by
  rw [Sheet.defaultImport]
  cases trees with
  | nil =>
    rw [h.nil_tok, h.ends.noWord.name?]
    exact ⟨rfl, .refl i []⟩
  | cons t rest =>
    cases t with
    | group opener inside closer =>
      rw [h.head.tok, Tree.first, (at_group.mp h.head).fit.noWord.name?]
      exact ⟨rfl, .refl i _⟩
    | leaf token =>
      have hrest := h.leafTail
      rw [h.head.tok, Tree.first, Source.defaultImport, hrest.word]
      cases token.name? with
      | none => exact ⟨rfl, .refl i _⟩
      | some name =>
        dsimp only
        by_cases hdefault : (name != "from" || (s.tok (i + 1)).isWord "from") = true
        · rw [if_pos hdefault, if_pos hdefault]
          exact ⟨rfl, (Past.leaf i token rest).trans (hrest.pastPunct "," rfl rfl)⟩
        · rw [if_neg hdefault, if_neg hdefault]
          exact ⟨rfl, .refl i _⟩

lemma Lies.otherImports (h : Lies s i trees after) :
    Agrees (BindingsAt i trees) (s.otherImports i) (otherImports after trees) := by
  rw [Sheet.otherImports]
  cases trees with
  | nil =>
    have hbare := h.ends.bare
    have hstar : after.isPunct "*" = false := h.ends.isPunct rfl
    rw [h.nil_tok, hstar, if_neg Bool.false_ne_true, hbare.object, if_neg Bool.false_ne_true]
    exact .ok ⟨rfl, .refl i []⟩
  | cons t rest =>
    rw [Proofs.otherImports, h.head.isPunct "*" rfl]
    by_cases hstar : (s.tok i).isPunct "*" = true
    · obtain ⟨star, more, heq, -⟩ := h.of_punct rfl rfl hstar
      obtain ⟨rfl, rfl⟩ := List.cons.inj heq
      have hrest := h.leafTail
      rw [if_pos hstar, if_pos hstar, hrest.word]
      by_cases has : (s.tok (i + 1)).isWord "as" = true
      · obtain ⟨word, tail, rfl, -⟩ := hrest.of_word has
        rw [if_pos has, if_pos has]
        apply hrest.leafTail.nameAt.bind
        rintro bound _ ⟨rfl, name, behind, rfl⟩
        exact .ok ⟨rfl, .leaves i star word name behind⟩
      · rw [if_neg has, if_neg has, hrest.ahead]
        exact .refused _
    · rw [if_neg hstar, if_neg hstar]
      by_cases hbrace : (s.tok i).isPunct "\x7b" = true
      · obtain ⟨opener, inside, closer, more, heq, hopener, hgroup, -⟩ := h.of_group rfl hbrace
        obtain ⟨rfl, rfl⟩ := List.cons.inj heq
        have hinside := hgroup.lies
        rw [if_pos hbrace, Sheet.partner_eq hgroup.partner, inside?_of_group hopener]
        dsimp only
        rw [importElements_eq]
        apply (hinside.listElements (readsAlike_importElement s closer)
          (Nat.lt_succ_of_le hinside.stand.length_le) (Nat.lt_succ_self _)).bind
        rintro elements _ rfl
        exact .ok ⟨rfl, .group i opener closer inside rest⟩
      · have hnot : t.isGroup "\x7b" = false := by
          rw [h.head.isGroup _ rfl]
          exact eq_false_of_ne_true hbrace
        rw [if_neg hbrace, inside?_of_not_group hnot]
        exact .ok ⟨rfl, .refl i _⟩

lemma Past.same_iff {j : Nat} {left : List Tree} (h : Past i trees j left) :
    left.length = trees.length ↔ j = i := by
  obtain ⟨front, rfl, rfl⟩ := h.split
  have hlength := length_le_widthOfAll front
  cases front with
  | nil => simp
  | cons t front =>
    rw [List.length_cons] at hlength
    rw [List.length_append, List.length_cons]
    omega

lemma Lies.importClause (h : Lies s i trees after) :
    Agrees (BindingsAt i trees) (s.importClause i) (Source.importClause after trees) := by
  have hdefault := h.defaultImport
  rw [Sheet.importClause, importClause_eq]
  apply (hdefault.past.lies h).otherImports.bind
  rintro ⟨others, j⟩ ⟨_, left⟩ ⟨rfl, hpast⟩
  have hall := hdefault.past.trans hpast
  have hleft := hall.lies h
  dsimp only at hall hleft ⊢
  have hcond : (decide (j = i) || !(s.tok j).isWord "from") =
      (decide (left.length = trees.length) || !startsWithWord left "from") := by
    rw [hleft.word, decide_eq_decide.mpr hall.same_iff]
  rw [hcond]
  by_cases hbad : (decide (left.length = trees.length) || !startsWithWord left "from") = true
  · rw [if_pos hbad, if_pos hbad, hleft.ahead]
    exact .refused _
  · rw [if_neg hbad, if_neg hbad]
    have hfrom : (s.tok j).isWord "from" = true := by
      rw [← hleft.word]
      rw [Bool.or_eq_true, not_or] at hbad
      simpa using hbad.2
    obtain ⟨word, rest, rfl, -⟩ := hleft.of_word hfrom
    exact .ok ⟨by rw [hdefault.same], hall.trans (.leaf j word rest)⟩

lemma Lies.pastAttributes (h : Lies s i trees after) :
    Past i trees (s.pastAttributes i) (Source.pastAttributes trees) := by
  rw [Sheet.pastAttributes]
  cases trees with
  | nil =>
    rw [h.nil_tok, h.ends.noWord.isWord, h.ends.noWord.isWord]
    exact .refl i []
  | cons t rest =>
    rw [← h.head.isWord, ← h.head.isWord, h.head.tok]
    cases t with
    | group opener inside closer => cases rest <;> exact .refl i _
    | leaf token =>
      rw [← h.leafTail.group "\x7b" rfl]
      cases rest with
      | nil =>
        rw [if_neg (by simp [startsWithGroup])]
        exact .refl i _
      | cons block more =>
        have hblock : startsWithGroup (block :: more) "\x7b" = block.isGroup "\x7b" := rfl
        rw [Source.pastAttributes, hblock]
        by_cases hattributes : (((Tree.leaf token).isWord "with" || (Tree.leaf token).isWord "assert") &&
            !(Tree.leaf token).first.newlineBefore && block.isGroup "\x7b") = true
        · rw [if_pos hattributes, if_pos hattributes, h.leafTail.head.step]
          exact (Past.leaf i token _).trans (.tree (i + 1) block more)
        · rw [if_neg hattributes, if_neg hattributes]
          exact .refl i _

/-- An import declaration is read by indexes as it is by trees. -/
lemma Lies.importDeclaration {token : Token} (h : Lies s i (leaf token :: rest) after)
    (hfinds : Finds s found o) : Agrees (Leaves s i after) (s.importDeclaration found i)
      (Source.importDeclaration after o (leaf token :: rest)) := by
  have hrest := h.leafTail
  -- What is done behind the clause, wherever that ends.
  have hgo : ∀ (bindings : List (ImportBinding × BoundName)) j left, Past (i + 1) rest j left →
      Agrees (Leaves s i after)
        (match (s.tok j).text? with
          | none => refuse (unexpected (s.tok j))
          | some source => do
            let stop := s.consumeSemicolon (s.pastAttributes (j + 1))
            let found ← found.declare .lexical (bindings.map (·.2))
            .ok (found.addEdit (s.spanBetween i stop)
              (importReplacement source (bindings.map (·.1))), stop))
        (match (Source.ahead after left).text? with
          | none => .error (unexpected (Source.ahead after left))
          | some source => do
            let behind := pastSemicolon (Source.pastAttributes left.tail)
            let o ← o.declareAll .lexical (bindings.map (·.2))
            .ok (o.addEdit (spanOf (consumed (Tree.leaf token :: rest) behind))
              (importReplacement source (bindings.map (·.1))), behind)) := by
    intro bindings j left hpast
    have hleft := hpast.lies hrest
    rw [← hleft.ahead]
    cases htext : (s.tok j).text? with
    | none => exact .refused _
    | some source =>
      obtain ⟨text, more, rfl, -⟩ := hleft.of_text htext
      have hattributes := hleft.leafTail.pastAttributes
      have hsemicolon := (hattributes.lies hleft.leafTail).consumeSemicolon
      have htail := (Past.leaf j text more).trans (hattributes.trans hsemicolon)
      have hall := (Past.leaf i token rest).trans (hpast.trans htail)
      have hlater : i < s.consumeSemicolon (s.pastAttributes (j + 1)) := by
        have hle := hpast.le
        have hle' := (hattributes.trans hsemicolon).le
        omega
      apply (hfinds.declare .lexical (bindings.map (·.2))).bind
      intro found' o' hfinds'
      rw [hall.spanBetween h hlater]
      exact .ok ⟨hfinds'.addEdit _ _, hlater, hall.lies h⟩
  rw [Sheet.importDeclaration, Source.importDeclaration, List.tail_cons, hrest.ahead]
  by_cases htext : (Source.ahead after rest).text?.isSome = true
  · rw [if_pos htext, if_pos htext]
    exact hgo [] (i + 1) rest (.refl _ _)
  · rw [if_neg htext, if_neg htext]
    apply hrest.importClause.bind
    rintro ⟨bindings, j⟩ ⟨_, left⟩ ⟨rfl, hpast⟩
    exact hgo bindings j left hpast

end TaskRunner.Proofs
