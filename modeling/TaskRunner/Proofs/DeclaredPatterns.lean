import TaskRunner.Proofs.BindingPatterns
import TaskRunner.Proofs.StatementList

/-!
# Declarations with patterns

A declaration whose patterns are read right declares the names of its patterns, one behind the other, and
exports them if it is exported. Nothing but a name that is declared already makes it fail.
-/

namespace TaskRunner.Proofs
open Source Tree

variable {after : Token} {trees behind : List Tree} {o o' o₁ q : Outline} {kind : Declaration}
  {names names' front : List BoundName} {bound bound' : BoundName} {exported : Bool} {leading : List Comment}

/-! ## Declared names -/

/-- An outline that declares more names. -/
def withNames (kind : Declaration) (names : List BoundName) (o : Outline) : Outline :=
  match kind with
  | .lexical => { o with lexicalNames := (names.map BoundName.name).reverse ++ o.lexicalNames }
  | .var => { o with varNames := (names.map BoundName.name).reverse ++ o.varNames }

/-- A name that may not be declared behind others. -/
def Clashes (kind : Declaration) (o : Outline) (front : List BoundName) (bound : BoundName) : Prop :=
  bound.name ∈ o.lexicalNames ∨
    kind = .lexical ∧ (bound.name ∈ o.varNames ∨ bound.name ∈ front.map BoundName.name)

/-- The complaint about a name that is declared already. -/
def declaredTwice (bound : BoundName) : SyntaxError :=
  ⟨.duplicateDeclaration bound.name, bound.token.place⟩

lemma withNames_cons (bound : BoundName) (names : List BoundName) :
    withNames kind names (withNames kind [bound] o) = withNames kind (bound :: names) o := by
  cases kind <;> simp [withNames]

lemma clashes_withNames (h : Clashes kind (withNames kind [bound] o) front bound') :
    Clashes kind o (bound :: front) bound' := by
  cases kind <;> grind [Clashes, withNames]

lemma declare_eq (kind : Declaration) (o : Outline) (bound : BoundName) [Decidable (Clashes kind o [] bound)] :
    o.declare kind bound = if Clashes kind o [] bound then .error (declaredTwice bound)
      else .ok (withNames kind [bound] o) := by
  cases kind <;> simp [Outline.declare, Clashes, withNames, declaredTwice]

/-- Names are declared unless one of them may not be declared behind those before it. -/
lemma declareAll_cases (kind : Declaration) (o : Outline) (names : List BoundName) :
    o.declareAll kind names = .ok (withNames kind names o) ∨
      ∃ front bound back, names = front ++ bound :: back ∧ Clashes kind o front bound ∧
        o.declareAll kind names = .error (declaredTwice bound) := by
  classical
  unfold Outline.declareAll
  induction names generalizing o with
  | nil => cases kind <;> exact .inl rfl
  | cons bound rest ih =>
    rw [List.foldlM_cons, declare_eq]
    by_cases hclash : Clashes kind o [] bound
    · rw [if_pos hclash]
      exact .inr ⟨[], bound, rest, rfl, hclash, rfl⟩
    · rw [if_neg hclash]
      obtain hok | ⟨front, bound', back, rfl, hclash', herror⟩ := ih (withNames kind [bound] o)
      · exact .inl (hok.trans (by rw [withNames_cons]))
      · exact .inr ⟨bound :: front, bound', back, rfl, clashes_withNames hclash', herror⟩

/-- The same names clash in outlines with the same names. -/
lemma SameNames.clash (h : SameNames o q) : Clashes kind o front bound ↔ Clashes kind q front bound := by
  unfold Clashes
  rw [h.lexical, h.var]

/-- Names that are all new and all different do not clash. -/
lemma not_clashes {back : List BoundName} (hnames : names = front ++ bound :: back)
    (hdifferent : (names.map BoundName.name).Nodup)
    (hnew : ∀ b ∈ names, b.name ∉ o.lexicalNames ∧ b.name ∉ o.varNames) :
    ¬ Clashes kind o front bound := by
  subst hnames
  obtain ⟨hlexical, hvar⟩ := hnew bound (by simp)
  rw [List.map_append, List.map_cons] at hdifferent
  rintro (hold | ⟨-, hold | hfront⟩)
  · exact hlexical hold
  · exact hvar hold
  · exact (List.nodup_append.mp hdifferent).2.2 _ hfront _ List.mem_cons_self rfl

/-! ## Declarators -/

/-- Declarators whose patterns are read right, with the names they bind and what stands behind them. The
value of a declarator ends before a comma or where an expression ends. -/
inductive Declarators (after : Token) : List Tree → List BoundName → List Tree → Prop
  | last {t : Tree} {left : List Tree} {names : List BoundName} (target : Binds (.target t) names true)
      (alone : startsWithPunct (pastValue after left) "," = false) :
      Declarators after (t :: left) names (pastSemicolon (pastValue after left))
  | next {t : Tree} {comma : Token} {left more behind : List Tree} {names names' : List BoundName}
      (target : Binds (.target t) names true) (value : pastValue after left = .leaf comma :: more)
      (isComma : comma.isPunct "," = true) (tail : Declarators after more names' behind) :
      Declarators after (t :: left) (names ++ names') behind

/-- The exports of names that are exported as they are. -/
def exportsOf (exported : Bool) (names : List BoundName) : List Export :=
  if exported then names.map fun bound => ⟨bound.name, bound.name⟩ else []

/-- An outline with the names of a declaration, and its exports. -/
structure Declares (kind : Declaration) (exported : Bool) (names : List BoundName) (o o' : Outline) :
    Prop where
  declared : SameNames (withNames kind names o) o'
  exports : o'.exports = o.exports ++ exportsOf exported names

lemma withNames_exports (kind : Declaration) (names : List BoundName) (o : Outline) :
    (withNames kind names o).exports = o.exports := by
  cases kind <;> rfl

lemma exportNames_exports (o : Outline) (exported : Bool) (names : List BoundName) :
    (o.exportNames exported names).exports = o.exports ++ exportsOf exported names := by
  cases exported
  · exact (List.append_nil _).symm
  · rfl

lemma withNames_append (o : Outline) (names names' : List BoundName) :
    withNames kind names' (withNames kind names o) = withNames kind (names ++ names') o := by
  cases kind <;> simp [withNames]

lemma SameNames.withNames (h : SameNames o q) :
    SameNames (withNames kind names o) (withNames kind names q) := by
  cases kind <;> exact ⟨by simp [Proofs.withNames, h.lexical], by simp [Proofs.withNames, h.var]⟩

lemma Declares.append (h : Declares kind exported names o o₁) (h' : Declares kind exported names' o₁ o') :
    Declares kind exported (names ++ names') o o' := by
  refine ⟨?_, ?_⟩
  · rw [← withNames_append]
    exact h.declared.withNames.trans h'.declared
  · rw [h'.exports, h.exports, List.append_assoc]
    cases exported <;> simp [exportsOf]

lemma declaratorTarget_eq {t : Tree} (h : namesOfTarget t = .ok names) (after : Token) (left : List Tree) :
    ∃ single, declaratorTarget after (t :: left) = .ok (single, names, left) := by
  cases t with
  | leaf t =>
    rw [namesOfTarget] at h
    obtain ⟨bound, hbound, rfl⟩ := map_ok h
    rw [declaratorTarget, hbound]
    exact ⟨some bound.name, rfl⟩
  | group opener inside closer =>
    rw [declaratorTarget, h]
    exact ⟨none, rfl⟩

/-- A declarator is refused if and only if its names are. -/
lemma declarators_cases {t : Tree} (h : namesOfTarget t = .ok names) (kind : Declaration)
    (exported : Bool) (leading : List Comment) (fuel : Nat) (o : Outline) (left : List Tree) :
    (∃ o₁, Declares kind exported names o o₁ ∧
      declarators after kind leading exported (fuel + 1) o (t :: left) =
        moreDeclarators after kind leading exported fuel o₁ (pastValue after left)) ∨
      ∃ front bound back, names = front ++ bound :: back ∧ Clashes kind o front bound ∧
        declarators after kind leading exported (fuel + 1) o (t :: left) =
          .error (declaredTwice bound) := by
  obtain ⟨single, htarget⟩ := declaratorTarget_eq h after left
  obtain hok | ⟨front, bound, back, hnames, hclash, herror⟩ := declareAll_cases kind o names
  · obtain ⟨o₂, hdeclared, hexports, heq⟩ := declarators_eq htarget hok
    refine .inl ⟨o₂, ⟨hdeclared, ?_⟩, heq⟩
    rw [hexports, exportNames_exports, withNames_exports]
  · refine .inr ⟨front, bound, back, hnames, hclash, ?_⟩
    rw [declarators, htarget]
    dsimp only [bind, Except.bind]
    rw [herror]

/-- A name that clashes behind a declaration clashes behind the names of that declaration. -/
lemma Declares.clash (h : Declares kind exported names o o₁) (hclash : Clashes kind o₁ front bound) :
    Clashes kind o (names ++ front) bound := by
  have hfound : Clashes kind (Proofs.withNames kind names o) front bound := h.declared.clash.mpr hclash
  cases kind <;> grind [Clashes, Proofs.withNames]

/-- Declarators declare the names of their patterns, or one of the names is declared already. -/
lemma Declarators.read {fuel : Nat} (h : Declarators after trees names behind) (hfuel : trees.length ≤ fuel)
    (kind : Declaration) (exported : Bool) (leading : List Comment) (o : Outline) :
    (∃ o', declarators after kind leading exported fuel o trees = .ok (o', behind) ∧
      Declares kind exported names o o') ∨
      ∃ front bound back, names = front ++ bound :: back ∧ Clashes kind o front bound ∧
        declarators after kind leading exported fuel o trees = .error (declaredTwice bound) := by
  induction h generalizing fuel o with
  | @last t left names target alone =>
    obtain ⟨fuel, rfl⟩ : ∃ more, fuel = more + 1 := ⟨fuel - 1, by simp at hfuel; omega⟩
    obtain ⟨o₁, hdeclares, heq⟩ | hclash :=
      declarators_cases (target.read_clear rfl after) kind exported leading fuel o left
    · refine .inl ⟨o₁, ?_, hdeclares⟩
      rw [heq, moreDeclarators, alone, if_neg Bool.false_ne_true]
    · exact .inr hclash
  | @next t comma left more behind names names' target value isComma tail ih =>
    obtain ⟨fuel, rfl⟩ : ∃ more, fuel = more + 1 := ⟨fuel - 1, by simp at hfuel; omega⟩
    have hmore : more.length ≤ fuel := by
      have hsuffix := (pastValue_suffix after left).length_le
      rw [value] at hsuffix
      simp only [List.length_cons] at hsuffix hfuel
      omega
    obtain ⟨o₁, hdeclares, heq⟩ | ⟨front, bound, back, rfl, hclash, herror⟩ :=
      declarators_cases (target.read_clear rfl after) kind exported leading fuel o left
    · have hcomma : startsWithPunct (.leaf comma :: more) "," = true := isComma
      rw [heq, value, moreDeclarators, if_pos hcomma, List.tail_cons]
      obtain ⟨o', hread, hothers⟩ | ⟨front, bound, back, rfl, hclash, herror⟩ := ih hmore o₁
      · exact .inl ⟨o', hread, hdeclares.append hothers⟩
      · exact .inr ⟨names ++ front, bound, back, by simp, hdeclares.clash hclash, herror⟩
    · exact .inr ⟨front, bound, back ++ names', by simp, hclash, herror⟩

/-- How the keyword of a declaration declares names. -/
def declarationKind (word : Tree) : Declaration :=
  if word.isWord "var" then .var else .lexical

/-- A pattern binds tokens of its own, in the order of the source and each once. Its names are read right
if no default behind a bare name has a colon outside of brackets and only identifiers take the rest of
lists, and never otherwise. A declaration of such patterns declares exactly their names, and exports
exactly these if it is exported; it is refused only because of a name that is declared already. -/
theorem clear_patterns_bind_names (after : Token) :
    (∀ t names clear, Binds (.target t) names clear →
      (names.map BoundName.token).Sublist t.tokens ∧
        (clear = true → namesOfTarget t = .ok names) ∧
        (clear = false → t.tokens.Nodup → namesOfTarget t ≠ .ok names)) ∧
    ∀ word trees names behind, Declarators after trees names behind → ∀ leading exported o,
      (∃ o', variableDeclaration after leading exported o (word :: trees) = .ok (o', behind) ∧
        Declares (declarationKind word) exported names o o') ∨
      ∃ front bound back, names = front ++ bound :: back ∧ Clashes (declarationKind word) o front bound ∧
        variableDeclaration after leading exported o (word :: trees) = .error (declaredTwice bound) := by
  refine ⟨fun t names clear h => ⟨?_, fun hclear => h.read_clear hclear after, ?_⟩, ?_⟩
  · simpa [PatternForm.trees] using h.names_sublist
  · intro hclear hplaces hread
    have hnodup : (tokensOfAll (PatternForm.target t).trees).Nodup := by simpa [PatternForm.trees] using hplaces
    exact Bool.eq_false_iff.mp hclear ((h.read_iff hnodup after).mp hread)
  · intro word trees names behind h leading exported o
    exact h.read (by simp) (declarationKind word) exported leading o

/-- The choice in a default. -/
def choice (start : Nat) : List Tree :=
  [.leaf (lineWord "b" start), .leaf (lineMark "?" (start + 2)), .leaf (lineWord "c" (start + 4)),
    .leaf (lineMark ":" (start + 6)), .leaf (lineWord "d" (start + 8))]

/-- The pattern of `const \x7b a = (b ? c : d), [k]: [e, , ...f] = [], ...g \x7d = o`. -/
def unpacking : Tree :=
  .group (lineMark "\x7b" 6)
    [.leaf (lineWord "a" 8), .leaf (lineMark "=" 10), .group (lineMark "(" 12) (choice 13) (lineMark ")" 22),
      .leaf (lineMark "," 23), .group (lineMark "[" 25) [.leaf (lineWord "k" 26)] (lineMark "]" 27),
      .leaf (lineMark ":" 28), .group (lineMark "[" 30)
        [.leaf (lineWord "e" 31), .leaf (lineMark "," 32), .leaf (lineMark "," 34), .leaf (lineMark "..." 36),
          .leaf (lineWord "f" 39)] (lineMark "]" 40),
      .leaf (lineMark "=" 42), .group (lineMark "[" 44) [] (lineMark "]" 45), .leaf (lineMark "," 46),
      .leaf (lineMark "..." 48), .leaf (lineWord "g" 51)] (lineMark "\x7d" 53)

def unpackedNames : List BoundName :=
  [⟨"a", lineWord "a" 8⟩, ⟨"e", lineWord "e" 31⟩, ⟨"f", lineWord "f" 39⟩, ⟨"g", lineWord "g" 51⟩]

lemma binds_unpacking : Binds (.target unpacking) unpackedNames true := by
  have hlist : Binds (.items [.leaf (lineWord "e" 31), .leaf (lineMark "," 32), .leaf (lineMark "," 34),
      .leaf (lineMark "..." 36), .leaf (lineWord "f" 39)])
      [⟨"e", lineWord "e" 31⟩, ⟨"f", lineWord "f" 39⟩] true :=
    .nextItem (.plain (.name rfl)) rfl (.hole rfl (.restItem rfl (.name rfl)))
  have hshorthand : Binds (.property [.leaf (lineWord "a" 8), .leaf (lineMark "=" 10),
      .group (lineMark "(" 12) (choice 13) (lineMark ")" 22)]) [⟨"a", lineWord "a" 8⟩] true :=
    .shorthandDefault rfl rfl ⟨List.cons_ne_nil _ _, commaFree_cons.mpr ⟨rfl, commaFree_nil⟩⟩
  have hkeyed : Binds (.property [.group (lineMark "[" 25) [.leaf (lineWord "k" 26)] (lineMark "]" 27),
      .leaf (lineMark ":" 28), .group (lineMark "[" 30) [.leaf (lineWord "e" 31), .leaf (lineMark "," 32),
        .leaf (lineMark "," 34), .leaf (lineMark "..." 36), .leaf (lineWord "f" 39)] (lineMark "]" 40),
      .leaf (lineMark "=" 42), .group (lineMark "[" 44) [] (lineMark "]" 45)])
      [⟨"e", lineWord "e" 31⟩, ⟨"f", lineWord "f" 39⟩] true :=
    .renamed rfl rfl (.withDefault (.list rfl hlist) rfl
      ⟨List.cons_ne_nil _ _, commaFree_cons.mpr ⟨rfl, commaFree_nil⟩⟩)
  exact .object rfl (.nextProperty hshorthand rfl (.nextProperty hkeyed rfl (.restProperty rfl rfl)))

/-- The declaration declares `a`, `e`, `f` and `g`. -/
theorem clear_patterns_bind_names_unpacking :
    Binds (.target unpacking) unpackedNames true ∧ namesOfTarget unpacking = .ok unpackedNames ∧
      ∃ o', variableDeclaration (lineWord "" 58) [] true .empty
          [.leaf (lineWord "const" 0), unpacking, .leaf (lineMark "=" 55), .leaf (lineWord "o" 57)] =
          .ok (o', []) ∧
        Declares .lexical true unpackedNames .empty o' := by
  obtain ⟨hpatterns, hdeclarations⟩ := clear_patterns_bind_names (lineWord "" 58)
  have hdeclarators : Declarators (lineWord "" 58) [unpacking, .leaf (lineMark "=" 55), .leaf (lineWord "o" 57)]
      unpackedNames [] := .last binds_unpacking (by decide)
  refine ⟨binds_unpacking, (hpatterns _ _ _ binds_unpacking).2.1 rfl, ?_⟩
  obtain hread | ⟨front, bound, back, hnames, hclash, -⟩ :=
    hdeclarations (.leaf (lineWord "const" 0)) _ _ _ hdeclarators [] true .empty
  · exact hread
  · exact absurd hclash (not_clashes hnames (by decide) fun _ _ => ⟨List.not_mem_nil, List.not_mem_nil⟩)

/-- A default whose choice is not in brackets. -/
def misleading : String :=
  "export const \x7b a = b ? c : d \x7d = o\n"

/-- The pattern of the default, as it is read. -/
def misleadingPattern : Tree :=
  .group (lineMark "\x7b" 13) (.leaf (lineWord "a" 15) :: .leaf (lineMark "=" 17) :: choice 19)
    (lineMark "\x7d" 29)

/-- The pattern binds `a`, and `d` is exported: the colon of the choice is taken for that of a key. -/
theorem choice_in_default_misleads :
    (∃ nested, (tokenize misleading >>= nest) = .ok nested ∧ nested.trees =
      [.leaf (lineWord "export" 0), .leaf (lineWord "const" 7), misleadingPattern, .leaf (lineMark "=" 31),
        .leaf (lineWord "o" 33)]) ∧
      Binds (.target misleadingPattern) [⟨"a", lineWord "a" 15⟩] false ∧
      namesOfTarget misleadingPattern = .ok [⟨"d", lineWord "d" 27⟩] ∧
      ∃ f, File.ofText misleading = .ok f ∧ f.exports = [⟨"d", "d"⟩] := by
  have htokens : tokenize misleading = .ok
      ([lineWord "export" 0, lineWord "const" 7, lineMark "\x7b" 13, lineWord "a" 15, lineMark "=" 17,
        lineWord "b" 19, lineMark "?" 21, lineWord "c" 23, lineMark ":" 25, lineWord "d" 27, lineMark "\x7d" 29, lineMark "=" 31,
        lineWord "o" 33, ⟨.endOfFile, ⟨35, 35⟩, ⟨2, 1⟩, true, []⟩]) := by
    decide +kernel
  refine ⟨⟨_, by rw [htokens]; rfl, rfl⟩, ?_, ?_, ?_⟩
  · have hfree : CommaFree (choice 19) := by
      unfold CommaFree
      decide
    exact .object rfl (.lastProperty (.shorthandDefault rfl rfl ⟨List.cons_ne_nil _ _, hfree⟩))
  · rfl
  · have hread : (File.ofText misleading).toOption.map File.exports = some [⟨"d", "d"⟩] := by
      decide +kernel
    obtain ⟨f, hf, hexports⟩ := Option.map_eq_some_iff.mp hread
    exact ⟨f, ok_of_toOption hf, hexports⟩

end TaskRunner.Proofs
