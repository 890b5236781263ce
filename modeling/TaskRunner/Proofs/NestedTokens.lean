import TaskRunner.Source.Tree
import TaskRunner.Proofs.TokenSpans

/-!
# Nothing is lost by nesting

The trees of a file hold its tokens in order, and the end of the file comes behind them.
-/

namespace TaskRunner.Proofs
open Source Tree

@[simp] lemma tokensOfAll_nil : tokensOfAll [] = [] := by
  rw [tokensOfAll]

@[simp] lemma tokensOfAll_cons (t : Tree) (trees : List Tree) :
    tokensOfAll (t :: trees) = t.tokens ++ tokensOfAll trees := by
  rw [tokensOfAll]

@[simp] lemma tokensOfAll_append (trees more : List Tree) :
    tokensOfAll (trees ++ more) = tokensOfAll trees ++ tokensOfAll more := by
  induction trees with
  | nil => simp
  | cons t rest ih => simp [ih]

@[simp] lemma tokens_leaf (t : Token) : (leaf t).tokens = [t] := by
  rw [tokens]

@[simp] lemma tokens_group (opener closer : Token) (inside : List Tree) :
    (group opener inside closer).tokens = opener :: (tokensOfAll inside ++ [closer]) := by
  rw [tokens]

/-- The tokens before the innermost open group, its bracket included. -/
def openTokens : List (Token × List Tree) → List Token
  | [] => []
  | (opener, before) :: further => openTokens further ++ tokensOfAll before.reverse ++ [opener]

/-- The tokens of the open groups and those still ahead are the tokens of the trees. -/
lemma nestFrom_tokens {outer : List (Token × List Tree)} {level : List Tree} {before : List Token}
    {ending : Token} {nested : Nested} (hending : ending.kind = .endOfFile)
    (hbefore : ∀ t ∈ before, t.kind ≠ .endOfFile)
    (h : nestFrom outer level (before ++ [ending]) = .ok nested) :
    openTokens outer ++ tokensOfAll level.reverse ++ before = tokensOfAll nested.trees ∧
      nested.ending = ending := by
  induction before generalizing outer level with
  | nil =>
    rw [List.nil_append] at h
    unfold nestFrom at h
    rw [hending] at h
    dsimp only at h
    cases outer with
    | nil =>
      cases h
      exact ⟨by simp [openTokens], rfl⟩
    | cons group further => cases h
  | cons t rest ih =>
    have hkind := hbefore t List.mem_cons_self
    have hrest : ∀ t ∈ rest, t.kind ≠ .endOfFile := fun t ht =>
      hbefore t (List.mem_cons_of_mem _ ht)
    have hleaf : ∀ {outer level}, nestFrom outer (.leaf t :: level) (rest ++ [ending]) = .ok nested →
        openTokens outer ++ tokensOfAll level.reverse ++ t :: rest = tokensOfAll nested.trees ∧
          nested.ending = ending := by
      intro outer level h
      obtain ⟨htokens, hend⟩ := ih hrest h
      exact ⟨by simpa using htokens, hend⟩
    rw [List.cons_append] at h
    unfold nestFrom at h
    split at h
    · exact absurd ‹_› hkind
    · split at h
      · obtain ⟨htokens, hend⟩ := ih hrest h
        exact ⟨by simpa [openTokens] using htokens, hend⟩
      · split at h
        · exact hleaf h
        · split at h
          · cases h
          · split at h
            · obtain ⟨htokens, hend⟩ := ih hrest h
              exact ⟨by simpa [openTokens] using htokens, hend⟩
            · cases h
    · exact hleaf h

/-- The trees of a file hold all its tokens. -/
lemma nest_tokens {offset : Nat} {chars : List Char} {tokens : List Token} {nested : Nested}
    (htiles : Tiles offset chars tokens) (h : nest tokens = .ok nested) :
    tokens = tokensOfAll nested.trees ++ [nested.ending] ∧ nested.ending.kind = .endOfFile := by
  obtain ⟨before, ending, rfl, hending, hbefore⟩ := htiles.ends
  obtain ⟨htokens, hend⟩ := nestFrom_tokens hending hbefore h
  rw [hend, ← htokens]
  exact ⟨by simp [openTokens], hending⟩

/-- Groups among the trees are opened by punctuation marks. -/
def OpenedByMarks (trees : List Tree) : Prop :=
  ∀ opener inside closer, .group opener inside closer ∈ trees → ∃ mark, opener.kind = .punct mark

lemma OpenedByMarks.leaf {trees : List Tree} (h : OpenedByMarks trees) (t : Token) :
    OpenedByMarks (.leaf t :: trees) := by
  intro opener inside closer hmem
  rcases List.mem_cons.mp hmem with heq | hmem
  · cases heq
  · exact h opener inside closer hmem

lemma nestFrom_openedByMarks {outer : List (Token × List Tree)} {level : List Tree}
    {tokens : List Token} {nested : Nested} (hlevel : OpenedByMarks level)
    (houter : ∀ group ∈ outer, (∃ mark, group.1.kind = .punct mark) ∧ OpenedByMarks group.2)
    (h : nestFrom outer level tokens = .ok nested) : OpenedByMarks nested.trees := by
  have hdone : ∀ {level : List Tree}, OpenedByMarks level → OpenedByMarks level.reverse := by
    intro level hlevel opener inside closer hmem
    exact hlevel opener inside closer (List.mem_reverse.mp hmem)
  induction tokens generalizing outer level with
  | nil =>
    cases h
    exact hdone hlevel
  | cons t rest ih =>
    unfold nestFrom at h
    split at h
    · split at h
      · cases h
        exact hdone hlevel
      · cases h
    · rename_i mark hmark
      split at h
      · refine ih (fun _ _ _ hmem => absurd hmem List.not_mem_nil) ?_ h
        intro group hgroup
        rcases List.mem_cons.mp hgroup with rfl | hgroup
        · exact ⟨⟨mark, hmark⟩, hlevel⟩
        · exact houter group hgroup
      · split at h
        · exact ih (hlevel.leaf t) houter h
        · split at h
          · cases h
          · rename_i opener before further
            split at h
            · obtain ⟨hopener, hbefore⟩ := houter (opener, before) List.mem_cons_self
              refine ih ?_ (fun group hgroup => houter group (List.mem_cons_of_mem _ hgroup)) h
              intro opener' inside closer hmem
              rcases List.mem_cons.mp hmem with heq | hmem
              · cases heq
                exact hopener
              · exact hbefore opener' inside closer hmem
            · cases h
    · exact ih (hlevel.leaf t) houter h

lemma nest_openedByMarks {tokens : List Token} {nested : Nested} (h : nest tokens = .ok nested) :
    OpenedByMarks nested.trees :=
  nestFrom_openedByMarks (fun _ _ _ hmem => absurd hmem List.not_mem_nil)
    (fun _ hgroup => absurd hgroup List.not_mem_nil) h

/-! ## Tokens of the first line -/

/-- A word of the first line. -/
def lineWord (name : String) (start : Nat) : Token :=
  ⟨.ident name, ⟨start, start + name.length⟩, ⟨1, start + 1⟩, false, []⟩

/-- A mark of the first line. -/
def lineMark (mark : String) (start : Nat) : Token :=
  ⟨.punct mark, ⟨start, start + mark.length⟩, ⟨1, start + 1⟩, false, []⟩

end TaskRunner.Proofs
