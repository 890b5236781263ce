import TaskRunner.Proofs.LoweredText
import TaskRunner.Proofs.OverlookedWords

/-!
# Module syntax that a script still holds

The word of an import or an export is erased if and only if a statement starts with it or the whole
statement is erased. What the reader of a statement overlooks stays in the script.
-/

namespace TaskRunner.Proofs
open Source Tree

/-! ## Places of tokens -/

/-- The span of trees holds the spans of all their tokens. -/
lemma spanOf_holds {trees : List Tree} (h : Ordered (tokensOfAll trees)) {t : Token}
    (ht : t ∈ tokensOfAll trees) :
    (spanOf trees).start ≤ t.span.start ∧ t.span.stop ≤ (spanOf trees).stop := by
  cases trees with
  | nil => simp at ht
  | cons tree rest =>
    obtain ⟨hpairs, hwidths⟩ := h
    refine ⟨?_, ?_⟩
    · obtain ⟨more, hfirst⟩ := tokens_first tree
      rw [tokensOfAll_cons, hfirst, List.cons_append] at ht hpairs hwidths
      rcases List.mem_cons.mp ht with rfl | hmem
      · exact Nat.le_refl _
      · exact Nat.le_trans (hwidths _ List.mem_cons_self) ((List.pairwise_cons.mp hpairs).1 t hmem)
    · have hlast : (tree :: rest).getLast? = some (rest.getLastD tree) := by
        rw [List.getLast?_cons, List.getLastD_eq_getLast?]
      obtain ⟨before, hbefore⟩ := tokensOfAll_last hlast
      rw [hbefore] at ht hpairs hwidths
      rcases List.mem_append.mp ht with hmem | hmem
      · have hle := (List.pairwise_append.mp hpairs).2.2 t hmem _ (List.mem_singleton_self _)
        exact Nat.le_trans hle (hwidths _ (List.mem_append_right _ (List.mem_singleton_self _)))
      · rw [List.mem_singleton.mp hmem]
        exact Nat.le_refl _

/-- A span lies inside an edit. -/
def Inside (edits : List Edit) (span : Span) : Prop :=
  ∃ e ∈ edits, e.span.start ≤ span.start ∧ span.stop ≤ e.span.stop

lemma mem_keptTokens {pieces : List Piece} {trees : List Tree} (h : .kept trees ∈ pieces) {t : Token}
    (ht : t ∈ tokensOfAll trees) : t ∈ keptTokens pieces := by
  induction pieces with
  | nil => exact absurd h List.not_mem_nil
  | cons piece more ih =>
    cases piece with
    | kept others =>
      rw [keptTokens]
      rcases List.mem_cons.mp h with heq | h
      · cases heq
        exact List.mem_append_left _ ht
      · exact List.mem_append_right _ (ih h)
    | erased others replacement =>
      rw [keptTokens]
      rcases List.mem_cons.mp h with heq | h
      · cases heq
      · exact ih h

/-- Tokens of erased pieces lie inside edits, tokens of kept ones do not. -/
lemma pieces_inside {pieces : List Piece} {ending : Token} {chars : List Char} (hne : NoneEmpty pieces)
    (htiles : Tiles 0 chars (tokensOfAll (treesOf pieces) ++ [ending])) :
    (∀ trees replacement, .erased trees replacement ∈ pieces → ∀ t ∈ tokensOfAll trees,
      Inside (editsOf pieces) t.span) ∧
    ∀ trees, .kept trees ∈ pieces → ∀ t ∈ tokensOfAll trees, t.kind ≠ .endOfFile →
      ¬ Inside (editsOf pieces) t.span := by
  have hpart : ∀ piece ∈ pieces,
      tokensOfAll piece.trees <:+: tokensOfAll (treesOf pieces) ++ [ending] := by
    intro piece hpiece
    obtain ⟨before, behind, rfl⟩ := List.append_of_mem hpiece
    exact ⟨tokensOfAll (treesOf before), tokensOfAll (treesOf behind) ++ [ending], by simp⟩
  refine ⟨?_, ?_⟩
  · intro trees replacement hpiece t ht
    have hholds := spanOf_holds (htiles.ordered.within (hpart _ hpiece)) ht
    refine ⟨⟨spanOf trees, replacement⟩, ?_, hholds⟩
    exact List.mem_flatMap.mpr ⟨_, hpiece, List.mem_singleton_self _⟩
  · rintro trees hpiece t ht hkind ⟨e, he, hstart, hstop⟩
    obtain ⟨out, hlowered, -⟩ := lowered_applyFrom hne htiles
    have hwide := htiles.wide t ((hpart _ hpiece).subset ht) hkind
    rcases hlowered.outside t (mem_keptTokens hpiece ht) e he with hbefore | hbehind
    · omega
    · omega

/-! ## Statements -/

variable {after : Token} {o o' : Outline}

lemma noneEmpty_nil : NoneEmpty [] :=
  fun _ _ hmem => absurd hmem List.not_mem_nil

lemma noneEmpty_kept (trees : List Tree) : NoneEmpty [.kept trees] := by
  intro others replacement hmem
  cases List.mem_singleton.mp hmem

lemma noneEmpty_erased {trees : List Tree} (hne : trees ≠ []) (replacement : String)
    {more : List Piece} (h : NoneEmpty more) : NoneEmpty (.erased trees replacement :: more) := by
  intro others other hmem
  rcases List.mem_cons.mp hmem with heq | hmem
  · obtain ⟨rfl, -⟩ := Piece.erased.inj heq
    exact hne
  · exact h others other hmem

lemma Effect.pieces {stmt behind : List Tree} (hne : stmt ≠ [])
    (h : Effect after o stmt behind o') :
    ∃ pieces, treesOf pieces = stmt ∧ NoneEmpty pieces ∧ o'.edits = o.edits ++ editsOf pieces := by
  cases h with
  | @whole replacement edits =>
    exact ⟨[.erased stmt replacement], by simp [Piece.trees],
      noneEmpty_erased hne replacement noneEmpty_nil, by simp [Piece.edits, edits]⟩
  | @words form body replacement split nonempty edits _ =>
    exact ⟨[.erased form replacement, .kept body], by simp [Piece.trees, split],
      noneEmpty_erased nonempty replacement (noneEmpty_kept body), by simp [Piece.edits, edits]⟩
  | kept edits _ =>
    exact ⟨[.kept stmt], by simp [Piece.trees], noneEmpty_kept stmt, by simp [Piece.edits, edits]⟩

lemma NoneEmpty.append {pieces more : List Piece} (h : NoneEmpty pieces) (hmore : NoneEmpty more) :
    NoneEmpty (pieces ++ more) := by
  intro trees replacement hmem
  rcases List.mem_append.mp hmem with hmem | hmem
  · exact h trees replacement hmem
  · exact hmore trees replacement hmem

lemma OpenedByMarks.behind {trees more : List Tree} (h : OpenedByMarks (trees ++ more)) :
    OpenedByMarks more :=
  h.suffix (List.suffix_append trees more)

lemma Sequence.pieces {stmts : List (List Tree)} (hafter : after.kind = .endOfFile)
    (hmarks : OpenedByMarks stmts.flatten) (h : Sequence after o stmts o') :
    ∃ pieces, treesOf pieces = stmts.flatten ∧ NoneEmpty pieces ∧
      o'.edits = o.edits ++ editsOf pieces := by
  induction h with
  | ending => exact ⟨[], rfl, noneEmpty_nil, by simp⟩
  | next nonempty read tail ih =>
    rw [List.flatten_cons] at hmarks
    obtain ⟨pieces, htrees, hne, hedits⟩ := (statement_effect hafter hmarks read).pieces nonempty
    obtain ⟨more, htrees', hne', hedits'⟩ := ih hmarks.behind
    exact ⟨pieces ++ more, by simp [htrees, htrees'], hne.append hne', by simp [hedits, hedits']⟩

/-- A statement of a list, with the pieces before it and behind it. -/
lemma Sequence.cut {earlier later : List (List Tree)} {stmt : List Tree}
    (hafter : after.kind = .endOfFile) (hmarks : OpenedByMarks (earlier ++ stmt :: later).flatten)
    (h : Sequence after o (earlier ++ stmt :: later) o') :
    ∃ o₁ o₂ before behind, Effect after o₁ stmt later.flatten o₂ ∧
      treesOf before = earlier.flatten ∧ treesOf behind = later.flatten ∧
      NoneEmpty before ∧ NoneEmpty behind ∧ o₁.edits = o.edits ++ editsOf before ∧
      o'.edits = o₂.edits ++ editsOf behind := by
  induction earlier generalizing o with
  | nil =>
    cases h with
    | next nonempty read tail =>
      rw [List.nil_append, List.flatten_cons] at hmarks
      obtain ⟨behind, htrees, hne, hedits⟩ := tail.pieces hafter hmarks.behind
      exact ⟨o, _, [], behind, statement_effect hafter hmarks read, rfl, htrees,
        noneEmpty_nil, hne, by simp, hedits⟩
  | cons first earlier ih =>
    cases h with
    | next nonempty read tail =>
      rw [List.cons_append, List.flatten_cons] at hmarks
      obtain ⟨pieces, htrees, hne, hedits⟩ := (statement_effect hafter hmarks read).pieces nonempty
      obtain ⟨o₁, o₂, before, behind, heffect, hbefore, hbehind, hne', hne'', hedits', hedits''⟩ :=
        ih hmarks.behind tail
      exact ⟨o₁, o₂, pieces ++ before, behind, heffect, by simp [htrees, hbefore], hbehind,
        hne.append hne', hne'', by simp [hedits, hedits'], hedits''⟩

/-- The statement is erased by one edit. -/
def ErasedWhole (f : File) (stmt : List Tree) : Prop :=
  ∃ e ∈ f.outline.edits, e.span = spanOf stmt

lemma first_mem {own rest : List Tree} {k : Tree} : k.first ∈ tokensOfAll (own ++ k :: rest) := by
  obtain ⟨more, hfirst⟩ := tokens_first k
  simp [hfirst]

/-- In the statements of a file the word of an import or an export is erased if and only if its statement
starts with it or is erased as a whole. A word that is kept is overlooked by the reader of its
statement. -/
theorem module_word_erased_iff {text : String} {f : File} (h : File.ofText text = .ok f) :
    ∃ nested stmts, (tokenize text >>= nest) = .ok nested ∧ nested.trees = stmts.flatten ∧
      Sequence nested.ending .empty stmts f.outline ∧
      ∀ earlier own k rest later, stmts = earlier ++ (own ++ k :: rest) :: later →
        startsModule nested.ending (k :: (rest ++ later.flatten)) = true →
        (Inside f.outline.edits k.first.span ↔ own = [] ∨ ErasedWhole f (own ++ k :: rest)) ∧
        (Inside f.outline.edits k.first.span ∨ Overlooked own k) := by
  obtain ⟨tokens, htokenize, h⟩ := bind_ok h
  obtain ⟨nested, hnest, h⟩ := bind_ok h
  obtain ⟨outline, houtline, h⟩ := bind_ok h
  cases h
  have htiles := tokenize_tiles htokenize
  obtain ⟨htokens, hending⟩ := nest_tokens htiles hnest
  have hmarks := nest_openedByMarks hnest
  obtain ⟨stmts, htrees, hsequence⟩ := outlineOf_sequence hending hmarks houtline
  refine ⟨nested, stmts, by rw [htokenize]; exact hnest, htrees, hsequence, ?_⟩
  rintro earlier own k rest later rfl hk
  rw [htrees] at hmarks htokens
  rw [htokens] at htiles
  obtain ⟨o₁, o₂, before, behind, heffect, hbefore, hbehind, hne, hne', hedits, hedits'⟩ :=
    hsequence.cut hending hmarks
  have hkind : k.first.kind ≠ .endOfFile := by
    obtain ⟨word, -, hword⟩ := startsModule_word hk
    obtain ⟨token, rfl, hkind⟩ := leaf_of_isWord hword
    exact hkind ▸ Kind.noConfusion
  have hwhole : ErasedWhole ⟨text, outline⟩ (own ++ k :: rest) → Inside outline.edits k.first.span := by
    rintro ⟨e, he, hspan⟩
    have hstmt : tokensOfAll (own ++ k :: rest) <:+:
        tokensOfAll (earlier ++ (own ++ k :: rest) :: later).flatten ++ [nested.ending] :=
      ⟨tokensOfAll earlier.flatten, tokensOfAll later.flatten ++ [nested.ending], by simp⟩
    have hholds := spanOf_holds (htiles.ordered.within hstmt) first_mem
    rw [← hspan] at hholds
    exact ⟨e, he, hholds⟩
  -- The pieces of the statement stand among those of the file.
  have hinside : ∀ pieces, treesOf pieces = own ++ k :: rest → NoneEmpty pieces →
      o₂.edits = o₁.edits ++ editsOf pieces →
      (∀ trees replacement, .erased trees replacement ∈ pieces → k.first ∈ tokensOfAll trees →
        Inside outline.edits k.first.span) ∧
      ∀ trees, .kept trees ∈ pieces → k.first ∈ tokensOfAll trees →
        ¬ Inside outline.edits k.first.span := by
    intro pieces hpieces hnone hmade
    have hall : outline.edits = editsOf (before ++ pieces ++ behind) := by
      rw [hedits', hmade, hedits]
      simp [Outline.empty]
    have hflat : (earlier ++ (own ++ k :: rest) :: later).flatten =
        treesOf (before ++ pieces ++ behind) := by
      simp [hpieces, hbefore, hbehind]
    rw [hflat] at htiles
    obtain ⟨herased, hkept⟩ := pieces_inside ((hne.append hnone).append hne') htiles
    rw [hall]
    refine ⟨fun trees replacement hmem ht => herased trees replacement ?_ _ ht,
      fun trees hmem ht => hkept trees ?_ _ ht hkind⟩
    · exact List.mem_append_left _ (List.mem_append_right _ hmem)
    · exact List.mem_append_left _ (List.mem_append_right _ hmem)
  have hstays : ¬ Inside outline.edits k.first.span → own ≠ [] → Overlooked own k →
      (Inside outline.edits k.first.span ↔ own = [] ∨ ErasedWhole ⟨text, outline⟩ (own ++ k :: rest)) ∧
        (Inside outline.edits k.first.span ∨ Overlooked own k) := by
    intro hnot hown hover
    refine ⟨⟨fun hin => absurd hin hnot, ?_⟩, .inr hover⟩
    rintro (hnil | herased)
    · exact absurd hnil hown
    · exact hwhole herased
  cases heffect with
  | @whole replacement edits =>
    obtain ⟨herased, -⟩ := hinside [.erased (own ++ k :: rest) replacement] (by simp [Piece.trees])
      (noneEmpty_erased (by simp) replacement noneEmpty_nil) (by simp [Piece.edits, edits])
    have hin := herased _ replacement (List.mem_singleton_self _) first_mem
    have hedit : ErasedWhole ⟨text, outline⟩ (own ++ k :: rest) :=
      ⟨⟨spanOf (own ++ k :: rest), replacement⟩, by simp [hedits', edits], rfl⟩
    exact ⟨⟨fun _ => .inr hedit, fun _ => hin⟩, .inl hin⟩
  | @words form body replacement split nonempty edits overlooked =>
    obtain ⟨herased, hkept⟩ := hinside [.erased form replacement, .kept body]
      (by simp [Piece.trees, split]) (noneEmpty_erased nonempty replacement (noneEmpty_kept body))
      (by simp [Piece.edits, edits])
    rcases overlooked own k rest rfl hk with rfl | ⟨hlength, hover⟩
    · obtain ⟨t, form, rfl⟩ := List.exists_cons_of_ne_nil nonempty
      obtain ⟨rfl, -⟩ := List.cons.inj split
      have hmem : k.first ∈ tokensOfAll ([] ++ k :: form) := first_mem
      have hin := herased (k :: form) replacement List.mem_cons_self hmem
      exact ⟨⟨fun _ => .inl rfl, fun _ => hin⟩, .inl hin⟩
    · obtain ⟨own', rfl⟩ : form <+: own :=
        List.prefix_of_prefix_length_le ⟨body, split.symm⟩ (List.prefix_append own _) hlength
      have hbody : body = own' ++ k :: rest := by
        rw [List.append_assoc] at split
        exact (List.append_cancel_left split).symm
      have hnot := hkept body (by simp) (hbody ▸ first_mem)
      exact hstays hnot (by simp [nonempty]) hover
  | kept edits overlooked =>
    obtain ⟨-, hkept⟩ := hinside [.kept (own ++ k :: rest)] (by simp [Piece.trees])
      (noneEmpty_kept _) (by simp [Piece.edits, edits])
    obtain ⟨hown, hover⟩ := overlooked own k rest rfl hk
    exact hstays (hkept _ (List.mem_singleton_self _) first_mem) hown hover

/-- A file with words of declarations at the start of statements and inside them. -/
def exporting : String :=
  "import 'x'\nlet a = b.export\nexport const c = a\n"

theorem module_word_erased_iff_exporting :
    ∃ f, File.ofText exporting = .ok f ∧
      ∃ nested stmts, (tokenize exporting >>= nest) = .ok nested ∧ nested.trees = stmts.flatten ∧
        Sequence nested.ending .empty stmts f.outline ∧
        ∀ earlier own k rest later, stmts = earlier ++ (own ++ k :: rest) :: later →
          startsModule nested.ending (k :: (rest ++ later.flatten)) = true →
          (Inside f.outline.edits k.first.span ↔ own = [] ∨ ErasedWhole f (own ++ k :: rest)) ∧
          (Inside f.outline.edits k.first.span ∨ Overlooked own k) := by
  have hread : (File.ofText exporting).isOk = true := by decide +kernel
  cases hf : File.ofText exporting with
  | error e =>
    rw [hf] at hread
    cases hread
  | ok f => exact ⟨f, rfl, module_word_erased_iff hf⟩

/-- A file whose export starts a line behind a property named like an operator. -/
def behindProperty : String :=
  "const o = \x7b of: 1 \x7d\nconst x = o.of\nexport function main() \x7b return 1 \x7d\n"

/-- The word stands outside all brackets and is no property, but nothing is exported or erased. -/
theorem export_behind_property_is_kept :
    ((File.ofText behindProperty).toOption.map fun f => (f.exports, f.outline.edits)) =
      some ([], []) ∧
    ((tokenize behindProperty >>= nest).toOption.map fun nested =>
      (nested.trees.drop 9).map (·.first.kind)) =
      some [.ident "of", .ident "export", .ident "function", .ident "main", .punct "(",
        .punct "\x7b"] := by
  decide +kernel

end TaskRunner.Proofs
