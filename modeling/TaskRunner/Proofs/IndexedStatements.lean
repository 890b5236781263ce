import TaskRunner.Proofs.IndexedImports
import TaskRunner.Proofs.StatementList

/-!
# Statements by indexes

The index behind `export default` may be that of the end of the file, and a value is looked for from there
on. Every form of an export leaves a later index, and its edit spans what the trees span.

Every statement leaves a later index, so the loop over a file ends, and it finds the outline of the file.
-/

namespace TaskRunner.Proofs
open Source Tree

/-! ## Exports -/

section Exports

variable {s : Sheet} {i : Nat} {after : Token} {trees rest : List Tree}
variable {found : Findings} {o : Outline}

namespace Sheet

variable (s : Sheet)

/-- Whether a function declaration with a name starts at an index. -/
def startsNamedFunction (i : Nat) : Bool :=
  ((s.tok i).isWord "function" && ((s.tok (i + 1)).name?.isSome ||
      ((s.tok (i + 1)).isPunct "*" && (s.tok (i + 2)).name?.isSome))) ||
    ((s.tok i).isWord "async" && (s.tok (i + 1)).isWord "function" && (s.tok (i + 2)).name?.isSome)

/-- Reads an `export default`. -/
def exportDefault (found : Findings) (i : Nat) : Checked (Findings × Nat) :=
  let start := i + 2
  let span := s.spanBetween i start
  if s.startsNamedFunction start then s.functionDeclaration (found.addEdit span "") start i false
  else if (s.tok start).isWord "class" && (s.tok (start + 1)).name?.isSome &&
      !(s.tok (start + 1)).isWord "extends" then
    s.classDeclaration (found.addEdit span "") start false
  else do
    let stop ← s.skipStatement start
    .ok (found.addEdit span "void", stop)

/-- Reads an export list, or a re-export when `from` follows. -/
def exportList (found : Findings) (i : Nat) : Checked (Findings × Nat) := do
  let close ← s.partner (i + 1)
  let entries ← s.listElements s.exportElement close (s.tokens.length + 1) (i + 2)
  let (found, j) ←
    if (s.tok (close + 1)).isWord "from" then
      if (s.tok (close + 2)).text?.isSome then .ok (found, close + 3)
      else refuse (unexpected (s.tok (close + 2)))
    else .ok (found.addExports entries, close + 1)
  let stop := s.consumeSemicolon j
  .ok (found.addEdit (s.spanBetween i stop) "", stop)

/-- Reads an export declaration. -/
def exportDeclaration (found : Findings) (i : Nat) : Checked (Findings × Nat) :=
  let t := s.tok (i + 1)
  let blanked := found.addEdit (s.tok i).span ""
  if t.isWord "default" then s.exportDefault found i
  else if t.isWord "function" || (t.isWord "async" && (s.tok (i + 2)).isWord "function") then
    s.functionDeclaration blanked (i + 1) i true
  else if t.isWord "const" || t.isWord "let" || t.isWord "var" then
    s.variableDeclaration blanked (i + 1) i true
  else if t.isWord "class" then s.classDeclaration blanked (i + 1) true
  else if t.isPunct "*" then do
    let stop ← s.skipStatement (i + 1)
    .ok (found.addEdit (s.spanBetween i stop) "", stop)
  else if t.isPunct "\x7b" then s.exportList found i
  else refuse (unexpected t)

end Sheet

lemma Lies.startsNamedFunction (h : Lies s i trees after) :
    s.startsNamedFunction i = Source.startsNamedFunction trees := by
  rw [Sheet.startsNamedFunction, Source.startsNamedFunction, h.word, h.word]
  by_cases hfunction : (s.tok i).isWord "function" = true
  · obtain ⟨token, rest, rfl, hword⟩ := h.of_word hfunction
    have hrest := h.leafTail
    have hasync : (s.tok i).isWord "async" = false := by
      rw [h.head.tok]
      exact isWord_other (t := leaf token) hword (by decide)
    rw [hfunction, if_pos rfl, hasync, Bool.true_and, Bool.false_and, Bool.false_and, Bool.or_false,
      List.tail_cons, hrest.name, hrest.punct "*" rfl rfl]
    congr 1
    by_cases hstar : (s.tok (i + 1)).isPunct "*" = true
    · obtain ⟨star, more, rfl, -⟩ := hrest.of_punct rfl rfl hstar
      rw [List.tail_cons, hrest.leafTail.name]
    · rw [eq_false_of_ne_true hstar, Bool.false_and, Bool.false_and]
  · rw [eq_false_of_ne_true hfunction, if_neg Bool.false_ne_true, Bool.false_and, Bool.false_or]
    by_cases hasync : (s.tok i).isWord "async" = true
    · obtain ⟨token, rest, rfl, -⟩ := h.of_word hasync
      have hrest := h.leafTail
      rw [List.tail_cons, hrest.word]
      by_cases hnext : (s.tok (i + 1)).isWord "function" = true
      · obtain ⟨word, more, rfl, -⟩ := hrest.of_word hnext
        rw [List.tail_cons, hrest.leafTail.name]
      · rw [eq_false_of_ne_true hnext, Bool.and_false, Bool.false_and, Bool.false_and]
    · rw [eq_false_of_ne_true hasync, Bool.false_and, Bool.false_and, Bool.false_and, Bool.false_and]

/-- A statement of no interest leaves what has been found. -/
lemma Lies.skipped (h : Lies s i trees after) (hafter : after.kind = .endOfFile)
    (hfinds : Finds s found o) : Agrees (Leaves s i after)
      (do
        let stop ← s.skipStatement i
        .ok (found, stop))
      (.ok (o, pastStatement after trees)) := by
  obtain ⟨stop, hstop, hlater, hlies, -⟩ := h.skipStatement hafter
  rw [hstop]
  exact .ok ⟨hfinds, hlater, hlies⟩

/-- An `export default` is read by indexes as it is by trees, at the end of a file as well. -/
lemma Lies.exportDefault {keyword word : Token} (h : Lies s i (leaf keyword :: leaf word :: rest) after)
    (hafter : after.kind = .endOfFile) (hfinds : Finds s found o) :
    Agrees (Leaves s i after) (s.exportDefault found i)
      (Source.exportDefault after keyword.comments o (leaf keyword :: leaf word :: rest)) := by
  have hpast : Past i (leaf keyword :: leaf word :: rest) (i + 2) rest :=
    (Past.leaf i keyword _).trans (.leaf (i + 1) word rest)
  have hrest := hpast.lies h
  have hspan : s.spanBetween i (i + 2) = spanOf [leaf keyword, leaf word] := by
    rw [hpast.spanBetween h (by omega)]
    exact congrArg spanOf (consumed_eq [leaf keyword, leaf word] rest)
  have hanchor : AnchorAt s i keyword.comments := ⟨keyword, h.head.first, rfl⟩
  have hedited := fun replacement => hfinds.addEdit (spanOf [leaf keyword, leaf word]) replacement
  have hlater : ∀ here there, Leaves s (i + 2) after here there → Leaves s i after here there :=
    fun _ _ hleaves => hleaves.from (by omega)
  rw [Sheet.exportDefault, Source.exportDefault, hspan]
  dsimp only [List.take_succ_cons, List.take_zero]
  rw [List.drop_succ_cons, List.drop_succ_cons, List.drop_zero, hrest.startsNamedFunction, hrest.word]
  by_cases hfunction : Source.startsNamedFunction rest = true
  · rw [if_pos hfunction, if_pos hfunction]
    exact (hrest.functionDeclaration (hedited "") hanchor false).imp hlater
  · rw [if_neg hfunction, if_neg hfunction]
    have hvalue := (hrest.skipped hafter (hedited "void")).imp hlater
    by_cases hclass : (s.tok (i + 2)).isWord "class" = true
    · obtain ⟨token, more, rfl, -⟩ := hrest.of_word hclass
      have hmore := hrest.leafTail
      rw [hclass, Bool.true_and, Bool.true_and, List.tail_cons, hmore.name, hmore.word]
      by_cases hnamed : ((s.tok (i + 2 + 1)).name?.isSome && !(s.tok (i + 2 + 1)).isWord "extends") = true
      · rw [if_pos hnamed, if_pos hnamed]
        exact (hrest.classDeclaration hafter (hedited "") false).imp hlater
      · rw [if_neg hnamed, if_neg hnamed]
        exact hvalue
    · rw [eq_false_of_ne_true hclass, Bool.false_and, Bool.false_and, if_neg Bool.false_ne_true,
        Bool.false_and, Bool.false_and, if_neg Bool.false_ne_true]
      exact hvalue

/-- An export list is read by indexes as it is by trees. -/
lemma Lies.exportList {keyword opener closer : Token} {inside : List Tree}
    (h : Lies s i (leaf keyword :: Tree.group opener inside closer :: rest) after)
    (hfinds : Finds s found o) :
    Agrees (Leaves s i after) (s.exportList found i)
      (Source.exportList after o (leaf keyword :: Tree.group opener inside closer :: rest) inside
        closer) := by
  have hgroup := at_group.mp h.leafTail.head
  have hinside := hgroup.lies
  have hpast : Past i (leaf keyword :: Tree.group opener inside closer :: rest)
      (i + 2 + widthOfAll inside + 1) rest := by
    exact (Past.leaf i keyword _).trans (.group (i + 1) opener closer inside rest)
  have hrest := hpast.lies h
  -- What is done behind the list, wherever that ends.
  have hgo : ∀ found' o' j left, Finds s found' o' → Past (i + 2 + widthOfAll inside + 1) rest j left →
      Agrees (Leaves s i after)
        (.ok (found'.addEdit (s.spanBetween i (s.consumeSemicolon j)) "", s.consumeSemicolon j))
        (.ok (o'.addEdit (spanOf (consumed (leaf keyword :: Tree.group opener inside closer :: rest)
          (pastSemicolon left))) "", pastSemicolon left)) := by
    intro found' o' j left hfinds' hleft
    have hbehind := hleft.trans (hleft.lies hrest).consumeSemicolon
    have hall := hpast.trans hbehind
    have hle := hbehind.le
    have hlater : i < s.consumeSemicolon j := by omega
    rw [hall.spanBetween h hlater]
    exact .ok ⟨hfinds'.addEdit _ _, hlater, hall.lies h⟩
  rw [Sheet.exportList, Source.exportList, Sheet.partner_eq hgroup.partner]
  dsimp only [bind, Except.bind]
  rw [exportElements_eq]
  apply (hinside.listElements (readsAlike_exportElement s closer)
    (Nat.lt_succ_of_le hinside.stand.length_le) (Nat.lt_succ_self _)).bind
  rintro entries _ rfl
  rw [List.drop_succ_cons, List.drop_succ_cons, List.drop_zero, hrest.word]
  by_cases hfrom : (s.tok (i + 2 + widthOfAll inside + 1)).isWord "from" = true
  · obtain ⟨word, more, rfl, -⟩ := hrest.of_word hfrom
    have hmore := hrest.leafTail
    rw [if_pos hfrom, if_pos hfrom, List.tail_cons, ← hmore.ahead]
    cases htext : (s.tok (i + 2 + widthOfAll inside + 1 + 1)).text? with
    | none => exact .refused _
    | some source =>
      obtain ⟨text, tail, rfl, -⟩ := hmore.of_text htext
      exact hgo found o _ tail hfinds ((Past.leaf _ word _).trans (.leaf _ text tail))
  · rw [if_neg hfrom, if_neg hfrom]
    exact hgo _ _ _ rest (hfinds.addExports entries) (.refl _ rest)

/-- An export declaration is read by indexes as it is by trees. -/
lemma Lies.exportDeclaration {keyword : Token} (h : Lies s i (leaf keyword :: rest) after)
    (hafter : after.kind = .endOfFile) (hfinds : Finds s found o) :
    Agrees (Leaves s i after) (s.exportDeclaration found i)
      (Source.exportDeclaration after o (leaf keyword :: rest)) := by
  have hrest := h.leafTail
  have hblanked := hfinds.addEdit keyword.span ""
  have hanchor : AnchorAt s i keyword.comments := ⟨keyword, h.head.first, rfl⟩
  have hlater : ∀ here there, Leaves s (i + 1) after here there → Leaves s i after here there :=
    fun _ _ hleaves => hleaves.from (by omega)
  rw [Sheet.exportDeclaration, h.head.tok]
  cases rest with
  | nil =>
    have hends := hrest.ends
    have hbare := hends.bare
    have hstar : after.isPunct "*" = false := hends.isPunct rfl
    rw [hrest.nil_tok]
    simp only [hends.noWord.isWord, hstar, hbare.object, Bool.false_and, Bool.or_self,
      Bool.false_eq_true, if_false]
    exact .refused _
  | cons t more =>
    have hmore := hrest.tail
    rw [Source.exportDeclaration, ← hrest.head.isWord, ← hrest.head.isWord, ← hrest.head.isWord,
      ← hrest.head.isWord, ← hrest.head.isWord, ← hrest.head.isWord, ← hrest.head.isWord,
      ← hrest.head.isPunct "*" rfl, ← hrest.head.isGroup "\x7b" rfl]
    dsimp only [Tree.first]
    by_cases hdefault : t.isWord "default" = true
    · obtain ⟨word, rfl, -⟩ := leaf_of_isWord hdefault
      rw [if_pos hdefault, if_pos hdefault]
      exact h.exportDefault hafter hfinds
    · rw [if_neg hdefault, if_neg hdefault]
      have hfunction : (t.isWord "function" || (t.isWord "async" && (s.tok (i + 2)).isWord "function")) =
          (t.isWord "function" || (t.isWord "async" && startsWithWord more "function")) := by
        by_cases hasync : t.isWord "async" = true
        · obtain ⟨word, rfl, -⟩ := leaf_of_isWord hasync
          rw [hrest.leafTail.word]
        · rw [eq_false_of_ne_true hasync, Bool.false_and, Bool.false_and]
      rw [hfunction]
      by_cases hword : (t.isWord "function" || (t.isWord "async" && startsWithWord more "function")) = true
      · rw [if_pos hword, if_pos hword]
        exact (hrest.functionDeclaration hblanked hanchor true).imp hlater
      · rw [if_neg hword, if_neg hword]
        by_cases hvariable : (t.isWord "const" || t.isWord "let" || t.isWord "var") = true
        · have hleaf : ∃ token, t = leaf token := by
            cases t with
            | leaf token => exact ⟨token, rfl⟩
            | group opener inside closer => cases hvariable
          obtain ⟨word, rfl⟩ := hleaf
          rw [if_pos hvariable, if_pos hvariable]
          exact (hrest.variableDeclaration hblanked hanchor true).imp hlater
        · rw [if_neg hvariable, if_neg hvariable]
          by_cases hclass : t.isWord "class" = true
          · obtain ⟨word, rfl, -⟩ := leaf_of_isWord hclass
            rw [if_pos hclass, if_pos hclass]
            exact (hrest.classDeclaration hafter hblanked true).imp hlater
          · rw [if_neg hclass, if_neg hclass]
            by_cases hstar : t.isPunct "*" = true
            · obtain ⟨stop, hstop, hlater, hlies, hpast⟩ := hrest.skipStatement hafter
              have hall := (Past.leaf i keyword (t :: more)).trans (hpast (List.cons_ne_nil t more))
              rw [if_pos hstar, if_pos hstar, hstop]
              dsimp only [bind, Except.bind]
              rw [hall.spanBetween h (by omega)]
              exact .ok ⟨hfinds.addEdit _ _, by dsimp only; omega, hlies⟩
            · rw [if_neg hstar, if_neg hstar]
              cases t with
              | leaf token =>
                rw [hrest.head.tok]
                exact .refused _
              | group opener inside closer =>
                by_cases hbrace : opener.isPunct "\x7b" = true
                · rw [if_pos (show (Tree.group opener inside closer).isGroup "\x7b" = true from hbrace),
                    inside?_of_group hbrace]
                  exact h.exportList hfinds
                · have hnot : (Tree.group opener inside closer).isGroup "\x7b" = false :=
                    eq_false_of_ne_true hbrace
                  rw [hnot, if_neg Bool.false_ne_true, inside?_of_not_group hnot, hrest.head.tok]
                  exact .refused _

end Exports

/-! ## Statements -/

section Statements

variable {s : Sheet} {i : Nat} {after : Token} {trees : List Tree}
variable {found : Findings} {o : Outline}

namespace Sheet

variable (s : Sheet)

/-- Whether a variable declaration starts at an index. -/
def startsVariables (i : Nat) : Bool :=
  ((s.tok i).isWord "const" || (s.tok i).isWord "let" || (s.tok i).isWord "var") &&
    ((s.tok (i + 1)).name?.isSome || (s.tok (i + 1)).isPunct "\x7b" || (s.tok (i + 1)).isPunct "[")

/-- Reads one statement. -/
def statement (found : Findings) (i : Nat) : Checked (Findings × Nat) :=
  if (s.tok i).isWord "import" && s.startsDeclaration i then s.importDeclaration found i
  else if (s.tok i).isWord "export" then s.exportDeclaration found i
  else if (s.tok i).isWord "function" || ((s.tok i).isWord "async" && s.startsDeclaration i) then
    s.functionDeclaration found i i false
  else if s.startsVariables i then s.variableDeclaration found i i false
  else if (s.tok i).isWord "class" then s.classDeclaration found i false
  else do
    let stop ← s.skipStatement i
    .ok (found, stop)

/-- Reads statements up to the end of the file. -/
def statements : Nat → Findings → Nat → Checked Findings
  | 0, _, _ => .error .stuck
  | fuel + 1, found, i =>
    if (s.tok i).kind == .endOfFile then .ok found
    else do
      let (found, stop) ← s.statement found i
      let next ← onward i stop
      statements fuel found next

/-- What the file has at its top level. -/
def outline : Checked Findings :=
  s.statements (s.tokens.length + 1) .empty 0

end Sheet

lemma Lies.startsVariables (h : Lies s i trees after) :
    s.startsVariables i = Source.startsVariables trees := by
  rw [Sheet.startsVariables, Source.startsVariables, h.word, h.word, h.word]
  by_cases hword : ((s.tok i).isWord "const" || (s.tok i).isWord "let" || (s.tok i).isWord "var") = true
  · have hleaf : ∃ token rest, trees = leaf token :: rest := by
      rw [Bool.or_eq_true, Bool.or_eq_true] at hword
      rcases hword with (hword | hword) | hword
      all_goals
        obtain ⟨token, rest, htrees, -⟩ := h.of_word hword
        exact ⟨token, rest, htrees⟩
    obtain ⟨token, rest, rfl⟩ := hleaf
    have hrest := h.leafTail
    rw [List.tail_cons, hrest.name, hrest.group _ rfl, hrest.group _ rfl]
  · rw [eq_false_of_ne_true hword, Bool.false_and, Bool.false_and]

/-- A statement is read by indexes as it is by trees, and it ends at a later index. -/
lemma Lies.statement (h : Lies s i trees after) (hne : trees ≠ []) (hafter : after.kind = .endOfFile)
    (hfinds : Finds s found o) :
    Agrees (Leaves s i after) (s.statement found i) (Source.statement after o trees) := by
  have hanchor : AnchorAt s i (Source.ahead after trees).comments := by
    obtain ⟨t, rest, rfl⟩ := List.exists_cons_of_ne_nil hne
    exact ⟨t.first, h.head.first, rfl⟩
  rw [Sheet.statement, Source.statement, h.word, h.word, h.word, h.word, h.word, ← h.startsDeclaration,
    h.startsVariables]
  by_cases himport : ((s.tok i).isWord "import" && s.startsDeclaration i) = true
  · obtain ⟨token, rest, rfl, -⟩ := h.of_word (Bool.and_eq_true_iff.mp himport).1
    rw [if_pos himport, if_pos himport]
    exact h.importDeclaration hfinds
  · rw [if_neg himport, if_neg himport]
    by_cases hexport : (s.tok i).isWord "export" = true
    · obtain ⟨token, rest, rfl, -⟩ := h.of_word hexport
      rw [if_pos hexport, if_pos hexport]
      exact h.exportDeclaration hafter hfinds
    · rw [if_neg hexport, if_neg hexport]
      by_cases hfunction : ((s.tok i).isWord "function" ||
          ((s.tok i).isWord "async" && s.startsDeclaration i)) = true
      · rw [if_pos hfunction, if_pos hfunction]
        exact h.functionDeclaration hfinds hanchor false
      · rw [if_neg hfunction, if_neg hfunction]
        by_cases hvariables : Source.startsVariables trees = true
        · have hleaf : ∃ token rest, trees = leaf token :: rest := by
            obtain ⟨t, rest, rfl⟩ := List.exists_cons_of_ne_nil hne
            cases t with
            | leaf token => exact ⟨token, rest, rfl⟩
            | group opener inside closer => cases hvariables
          rw [if_pos hvariables, if_pos hvariables]
          obtain ⟨token, rest, rfl⟩ := hleaf
          exact h.variableDeclaration hfinds hanchor false
        · rw [if_neg hvariables, if_neg hvariables]
          by_cases hclass : (s.tok i).isWord "class" = true
          · obtain ⟨token, rest, rfl, -⟩ := h.of_word hclass
            rw [if_pos hclass, if_pos hclass]
            exact h.classDeclaration hafter hfinds false
          · rw [if_neg hclass, if_neg hclass]
            exact h.skipped hafter hfinds

/-- The loop over the statements of a file ends, for every statement leaves a later index. -/
lemma Lies.statements (h : Lies s i trees after) (hafter : after.kind = .endOfFile)
    (hmarks : OpenedByMarks trees) (hfinds : Finds s found o) {fuel size : Nat} (hpos : 0 < fuel)
    (hfuel : s.tokens.length < i + fuel) (hsize : trees.length ≤ size) :
    Agrees (Finds s) (s.statements fuel found i) (Source.statements after size o trees) := by
  induction fuel generalizing i trees found o size with
  | zero => exact absurd hpos (Nat.lt_irrefl 0)
  | succ fuel ih =>
    rw [Sheet.statements]
    cases trees with
    | nil =>
      have hend : ((s.tok i).kind == .endOfFile) = true := by simp [h.nil_tok, hafter]
      have hnothing : Source.statements after size o [] = .ok o := by cases size <;> rfl
      rw [if_pos hend, hnothing]
      exact .ok hfinds
    | cons t rest =>
      obtain ⟨size, rfl⟩ := Nat.exists_eq_succ_of_ne_zero (Nat.ne_of_gt (Nat.lt_of_lt_of_le
        (Nat.succ_pos _) hsize))
      have hread := h.statement (List.cons_ne_nil t rest) hafter hfinds
      have hshort : ∀ o' behind, Source.statement after o (t :: rest) = .ok (o', behind) → behind <:+ rest :=
        fun o' behind => statement_suffix hafter hmarks
      have hwidth := h.head.width_le
      have htree := width_pos t
      rw [h.head.not_ends.1, if_neg Bool.false_ne_true, Source.statements]
      cases hstatement : Source.statement after o (t :: rest) with
      | error e =>
        rw [hstatement] at hread
        rw [hread.of_error]
        exact .refused e
      | ok there =>
        rw [hstatement] at hread
        obtain ⟨⟨found', stop⟩, hhere, hfinds', hlater, hlies⟩ := hread.of_ok
        obtain ⟨o', behind⟩ := there
        have hsuffix := hshort o' behind hstatement
        have hlength := hsuffix.length_le
        rw [List.length_cons] at hsize
        dsimp only at hfinds' hlater hlies
        rw [hhere]
        dsimp only [bind, Except.bind]
        rw [onward_later hlater]
        -- the index is later and the trees are fewer, so neither fuel is used up
        exact ih hlies (hmarks.suffix (hsuffix.trans (List.suffix_cons t rest))) hfinds' (by omega)
          (by omega) (by omega)

lemma Carries.lies {nested : Nested} (h : Carries s nested) : Lies s 0 nested.trees nested.ending := by
  refine ⟨h.trees, .ending h.isEnd ?_⟩
  intro j hj
  have hlast := s.tokens_clamped j
  have hmin : min j (s.tokens.length - 1) = widthOfAll nested.trees := by
    have := h.last
    omega
  rw [hmin, h.ending] at hlast
  exact (Option.some.inj hlast).symm

/-- The outline of a file is found by indexes as it is by trees. -/
lemma Carries.outline {nested : Nested} (h : Carries s nested) (hmarks : OpenedByMarks nested.trees) :
    Agrees (Finds s) s.outline (outlineOf nested) :=
  h.lies.statements h.isEnd hmarks (.empty s) (Nat.succ_pos _) (by omega) (Nat.le_refl _)

end Statements

end TaskRunner.Proofs
