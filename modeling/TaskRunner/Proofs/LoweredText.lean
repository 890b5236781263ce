import TaskRunner.Source.File
import TaskRunner.Proofs.ErasedPieces

/-!
# The text of a script

The edits of a file are made in its text from left to right. What stands between them is copied, so the
tokens that are kept appear in the script as they are, with everything around them.
-/

namespace TaskRunner.Proofs
open Source Tree

/-- Tokens stand on their spans in a stretch of text from a byte offset on, which ends with the last one. -/
inductive Stands : Nat → List Char → List Token → Prop
  | nothing {offset : Nat} : Stands offset [] []
  | token {offset : Nat} {gap lexeme rest : List Char} {t : Token} {more : List Token}
      (span : t.span = ⟨offset + byteCount gap, offset + byteCount gap + byteCount lexeme⟩)
      (tail : Stands (offset + byteCount gap + byteCount lexeme) rest more) :
      Stands offset (gap ++ (lexeme ++ rest)) (t :: more)

/-- What becomes of a text from a byte offset on: kept stretches with their tokens are copied, and so are
the gaps before erased ones. -/
inductive Lowered : Nat → List Char → List Piece → List Char → Prop
  | ending {offset : Nat} {rest : List Char} : Lowered offset rest [] rest
  | kept {offset : Nat} {stretch rest out : List Char} {trees : List Tree} {more : List Piece}
      (tokens : Stands offset stretch (tokensOfAll trees))
      (tail : Lowered (offset + byteCount stretch) rest more out) :
      Lowered offset (stretch ++ rest) (.kept trees :: more) (stretch ++ out)
  | erased {offset : Nat} {gap original rest out : List Char} {trees : List Tree}
      {replacement : String} {more : List Piece}
      (span : spanOf trees = ⟨offset + byteCount gap, offset + byteCount gap + byteCount original⟩)
      (tail : Lowered (offset + byteCount gap + byteCount original) rest more out) :
      Lowered offset (gap ++ (original ++ rest)) (.erased trees replacement :: more)
        (gap ++ (replacement.toList ++ filling original replacement ++ out))

/-! ## Stretches of tokens -/

/-- The tokens in front of further ones fill a stretch of the text. -/
lemma Tiles.split {offset : Nat} {chars : List Char} {tokens more : List Token} (hmore : more ≠ [])
    (h : Tiles offset chars (tokens ++ more)) :
    ∃ stretch rest, chars = stretch ++ rest ∧ Stands offset stretch tokens ∧
      Tiles (offset + byteCount stretch) rest more := by
  induction tokens generalizing offset chars with
  | nil => exact ⟨[], chars, rfl, .nothing, h⟩
  | cons t rest ih =>
    rw [List.cons_append] at h
    generalize hall : t :: (rest ++ more) = all at h
    cases h with
    | ending kind span =>
      simp only [List.cons.injEq, List.append_eq_nil_iff] at hall
      exact absurd hall.2.2 hmore
    | @token _ gap lexeme behind u others kind nonempty span tail =>
      obtain ⟨rfl, rfl⟩ := List.cons.inj hall
      obtain ⟨stretch, left, rfl, hstands, htiles⟩ := ih tail
      refine ⟨gap ++ (lexeme ++ stretch), left, by simp, .token span hstands, ?_⟩
      rw [byteCount_append, byteCount_append, ← Nat.add_assoc, ← Nat.add_assoc]
      exact htiles

lemma tokens_first (t : Tree) : ∃ more, t.tokens = t.first :: more := by
  cases t with
  | leaf token => exact ⟨[], tokens_leaf token⟩
  | group opener inside closer => exact ⟨_, tokens_group opener closer inside⟩

lemma tokens_last (t : Tree) : ∃ before, t.tokens = before ++ [t.last] := by
  cases t with
  | leaf token => exact ⟨[], tokens_leaf token⟩
  | group opener inside closer => exact ⟨opener :: tokensOfAll inside, tokens_group opener closer inside⟩

lemma tokensOfAll_last {trees : List Tree} {last : Tree} (h : trees.getLast? = some last) :
    ∃ before, tokensOfAll trees = before ++ [last.last] := by
  obtain ⟨front, rfl⟩ := List.getLast?_eq_some_iff.mp h
  obtain ⟨before, hbefore⟩ := tokens_last last
  exact ⟨tokensOfAll front ++ before, by simp [hbefore]⟩

lemma Stands.stop {offset : Nat} {stretch : List Char} {before : List Token} {t : Token}
    (h : Stands offset stretch (before ++ [t])) : t.span.stop = offset + byteCount stretch := by
  induction before generalizing offset stretch with
  | nil =>
    cases h with
    | token span tail =>
      cases tail
      rw [span]
      simp [Nat.add_assoc]
  | cons u rest ih =>
    cases h with
    | token span tail =>
      rw [ih tail]
      simp [Nat.add_assoc]

/-- Trees that are not empty span a part of their stretch that starts behind a gap. -/
lemma Stands.span {offset : Nat} {stretch : List Char} {trees : List Tree} (hne : trees ≠ [])
    (h : Stands offset stretch (tokensOfAll trees)) :
    ∃ gap original, stretch = gap ++ original ∧
      spanOf trees = ⟨offset + byteCount gap, offset + byteCount gap + byteCount original⟩ := by
  cases trees with
  | nil => exact absurd rfl hne
  | cons t rest =>
    have hlast : (t :: rest).getLast? = some (rest.getLastD t) := by
      rw [List.getLast?_cons, List.getLastD_eq_getLast?]
    obtain ⟨before, hbefore⟩ := tokensOfAll_last hlast
    have hstop : (rest.getLastD t).last.span.stop = offset + byteCount stretch := by
      rw [hbefore] at h
      exact h.stop
    obtain ⟨more, hfirst⟩ := tokens_first t
    rw [tokensOfAll_cons, hfirst, List.cons_append] at h
    cases h with
    | @token _ gap lexeme behind _ _ span tail =>
      refine ⟨gap, lexeme ++ behind, rfl, ?_⟩
      rw [spanOf, hstop, span, byteCount_append, ← Nat.add_assoc]

/-! ## Edits -/

lemma splitBytes_append (before behind : List Char) :
    splitBytes (byteCount before) (before ++ behind) = (before, behind) := by
  induction before with
  | nil =>
    cases behind with
    | nil => rfl
    | cons c rest => rfl
  | cons c rest ih =>
    have hpos : c.utf8Size + byteCount rest ≠ 0 := Nat.ne_of_gt (Nat.add_pos_left c.utf8Size_pos _)
    rw [byteCount_cons, List.cons_append, splitBytes, if_neg hpos, Nat.add_sub_cancel_left, ih]

lemma applyFrom_edit {cursor : Nat} {e : Edit} {copied original : List Char}
    (hspan : e.span = ⟨cursor + byteCount copied, cursor + byteCount copied + byteCount original⟩)
    (rest : List Char) (edits : List Edit) :
    applyFrom cursor (copied ++ (original ++ rest)) (e :: edits) =
      copied ++ (e.replacement.toList ++ filling original e.replacement ++
        applyFrom e.span.stop rest edits) := by
  have hstart : ¬ e.span.start < cursor := by
    rw [hspan]
    exact Nat.not_lt.mpr (Nat.le_add_right _ _)
  have hcopied : e.span.start - cursor = byteCount copied := by
    rw [hspan]
    exact Nat.add_sub_cancel_left ..
  have horiginal : e.span.stop - e.span.start = byteCount original := by
    rw [hspan]
    exact Nat.add_sub_cancel_left ..
  rw [applyFrom, if_neg hstart, hcopied, splitBytes_append, horiginal]
  dsimp only
  rw [splitBytes_append]
  simp [List.append_assoc]

/-- All erased pieces have trees. -/
def NoneEmpty (pieces : List Piece) : Prop :=
  ∀ trees replacement, .erased trees replacement ∈ pieces → trees ≠ []

/-- The edits of pieces lower their text. -/
lemma lowered_applyFrom {ending : Token} {pieces : List Piece} (hne : NoneEmpty pieces) {offset : Nat}
    {chars : List Char} (h : Tiles offset chars (tokensOfAll (treesOf pieces) ++ [ending])) :
    ∃ out, Lowered offset chars pieces out ∧
      ∀ cursor pending, cursor + byteCount pending = offset →
        applyFrom cursor (pending ++ chars) (editsOf pieces) = pending ++ out := by
  -- Kept pieces make no edit, so what they copy is pending until the next edit is made.
  induction pieces generalizing offset chars with
  | nil => exact ⟨chars, .ending, fun _ _ _ => rfl⟩
  | cons piece more ih =>
    have hmore : NoneEmpty more := fun trees replacement hmem =>
      hne trees replacement (List.mem_cons_of_mem _ hmem)
    rw [treesOf_cons, tokensOfAll_append, List.append_assoc] at h
    obtain ⟨stretch, rest, rfl, hstands, htiles⟩ := h.split (by simp)
    obtain ⟨out, hlowered, happly⟩ := ih hmore htiles
    cases piece with
    | kept trees =>
      refine ⟨stretch ++ out, .kept hstands hlowered, ?_⟩
      intro cursor pending hcursor
      have hpending := happly cursor (pending ++ stretch) (by
        rw [byteCount_append, ← Nat.add_assoc, hcursor])
      simpa [Piece.edits] using hpending
    | erased trees replacement =>
      obtain ⟨gap, original, rfl, hspan⟩ :=
        hstands.span (hne trees replacement List.mem_cons_self)
      rw [byteCount_append, ← Nat.add_assoc] at hlowered happly
      refine ⟨gap ++ (replacement.toList ++ filling original replacement ++ out), ?_, ?_⟩
      · rw [List.append_assoc]
        exact .erased hspan hlowered
      · intro cursor pending hcursor
        have hedit : (⟨spanOf trees, replacement⟩ : Edit).span =
            ⟨cursor + byteCount (pending ++ gap),
              cursor + byteCount (pending ++ gap) + byteCount original⟩ := by
          rw [byteCount_append, ← Nat.add_assoc, hcursor]
          exact hspan
        have hstop := happly (spanOf trees).stop [] (by rw [hspan]; rfl)
        have hmade := applyFrom_edit hedit rest (editsOf more)
        rw [List.nil_append, List.nil_append] at hstop
        rw [hstop] at hmade
        simpa [Piece.edits] using hmade

/-- The tokens of the pieces that are kept. -/
def keptTokens : List Piece → List Token
  | [] => []
  | .kept trees :: more => tokensOfAll trees ++ keptTokens more
  | .erased _ _ :: more => keptTokens more

lemma Stands.bounds {offset : Nat} {stretch : List Char} {tokens : List Token}
    (h : Stands offset stretch tokens) :
    ∀ t ∈ tokens, offset ≤ t.span.start ∧ t.span.stop ≤ offset + byteCount stretch := by
  induction h with
  | nothing => simp
  | @token offset gap lexeme rest t more span tail ih =>
    intro u hu
    rw [byteCount_append, byteCount_append]
    rcases List.mem_cons.mp hu with rfl | hu
    · rw [span]
      dsimp only
      omega
    · have hbounds := ih u hu
      omega

lemma Lowered.starts {offset : Nat} {chars out : List Char} {pieces : List Piece}
    (h : Lowered offset chars pieces out) :
    (∀ t ∈ keptTokens pieces, offset ≤ t.span.start) ∧ ∀ e ∈ editsOf pieces, offset ≤ e.span.start := by
  induction h with
  | ending => simp [keptTokens]
  | @kept offset stretch rest out trees more tokens tail ih =>
    refine ⟨?_, ?_⟩
    · intro t ht
      rcases List.mem_append.mp ht with ht | ht
      · exact (tokens.bounds t ht).1
      · have hstart := ih.1 t ht
        omega
    · intro e he
      have hstart := ih.2 e he
      omega
  | @erased offset gap original rest out trees replacement more span tail ih =>
    refine ⟨?_, ?_⟩
    · intro t ht
      have hstart := ih.1 t ht
      omega
    · intro e he
      rcases List.mem_cons.mp he with rfl | he
      · rw [span]
        exact Nat.le_add_right _ _
      · have hstart := ih.2 e he
        omega

lemma Lowered.sorted {offset : Nat} {chars out : List Char} {pieces : List Piece}
    (h : Lowered offset chars pieces out) :
    (editsOf pieces).Pairwise fun a b => a.span.start ≤ b.span.start := by
  induction h with
  | ending => exact List.Pairwise.nil
  | kept tokens tail ih => exact ih
  | @erased offset gap original rest out trees replacement more span tail ih =>
    refine List.Pairwise.cons ?_ ih
    intro e he
    have hstart := tail.starts.2 e he
    rw [span]
    dsimp only
    omega

lemma Lowered.outside {offset : Nat} {chars out : List Char} {pieces : List Piece}
    (h : Lowered offset chars pieces out) :
    ∀ t ∈ keptTokens pieces, ∀ e ∈ editsOf pieces,
      t.span.stop ≤ e.span.start ∨ e.span.stop ≤ t.span.start := by
  induction h with
  | ending => simp [keptTokens]
  | @kept offset stretch rest out trees more tokens tail ih =>
    intro t ht e he
    rcases List.mem_append.mp ht with ht | ht
    · exact .inl (Nat.le_trans (tokens.bounds t ht).2 (tail.starts.2 e he))
    · exact ih t ht e he
  | @erased offset gap original rest out trees replacement more span tail ih =>
    intro t ht e he
    rcases List.mem_cons.mp he with rfl | he
    · rw [span]
      exact .inr (tail.starts.1 t ht)
    · exact ih t ht e he

/-! ## Files -/

lemma AllRight.noneEmpty {after : Token} {pieces : List Piece} {behind : List Tree}
    (h : AllRight after pieces behind) : NoneEmpty pieces := by
  induction pieces with
  | nil => exact fun _ _ hmem => absurd hmem List.not_mem_nil
  | cons piece rest ih =>
    intro trees replacement hmem
    cases piece with
    | kept kept => exact ih h trees replacement (by simpa using hmem)
    | erased others other =>
      rcases List.mem_cons.mp hmem with heq | hmem
      · cases heq
        exact h.1.1
      · exact ih h.2 trees replacement hmem

lemma AllRight.erased {after : Token} {before more : List Piece} {trees behind : List Tree}
    {replacement : String} (h : AllRight after (before ++ .erased trees replacement :: more) behind) :
    RightlyErased after trees (treesOf more ++ behind) := by
  induction before with
  | nil => exact h.1
  | cons piece rest ih =>
    cases piece with
    | kept kept => exact ih h
    | erased others other => exact ih h.2

/-- The script of a file is its text with the erased pieces replaced, and everything else is copied; no
token outside them is touched. An erased piece belongs to module syntax and the semicolon behind it if and
only if it is no `export *` or one that ends with its clause. -/
theorem script_keeps_tokens {text : String} {f : File} (h : File.ofText text = .ok f) :
    ∃ pieces ending, tokenize text = .ok (tokensOfAll (treesOf pieces) ++ [ending]) ∧
      ending.kind = .endOfFile ∧ f.outline.edits = editsOf pieces ∧
      Lowered 0 text.toList pieces f.script.toList ∧
      (∀ t ∈ keptTokens pieces, ∀ e ∈ f.outline.edits,
        t.span.stop ≤ e.span.start ∨ e.span.stop ≤ t.span.start) ∧
      ∀ before trees replacement more, pieces = before ++ .erased trees replacement :: more →
        (WithinSyntax trees (treesOf more) ↔ ClauseEnds ending (trees ++ treesOf more)) := by
  obtain ⟨tokens, htokenize, h⟩ := bind_ok h
  obtain ⟨nested, hnest, h⟩ := bind_ok h
  obtain ⟨outline, houtline, h⟩ := bind_ok h
  cases h
  have htiles := tokenize_tiles htokenize
  obtain ⟨htokens, hending⟩ := nest_tokens htiles hnest
  obtain ⟨pieces, hcuts⟩ := statements_cuts hending (nest_openedByMarks hnest) houtline
  have htrees : nested.trees = treesOf pieces := by rw [hcuts.trees, List.append_nil]
  have hedits : outline.edits = editsOf pieces := hcuts.edits
  rw [htrees] at htokens
  rw [htokens] at htiles htokenize
  obtain ⟨out, hlowered, happly⟩ := lowered_applyFrom hcuts.right.noneEmpty htiles
  have hsorted : outline.edits.mergeSort (fun a b => a.span.start ≤ b.span.start) = editsOf pieces := by
    rw [hedits]
    exact List.mergeSort_of_pairwise (hlowered.sorted.imp decide_eq_true)
  have hscript : (File.script ⟨text, outline⟩).toList = out := by
    rw [File.script, applyEdits, String.toList_ofList, hsorted]
    exact happly 0 [] rfl
  refine ⟨pieces, nested.ending, htokenize, hending, hedits, by rw [hscript]; exact hlowered, ?_, ?_⟩
  · rw [hedits]
    exact hlowered.outside
  · intro before trees replacement more hpieces
    have hright := hcuts.right
    rw [hpieces] at hright
    have herased := hright.erased.2
    rw [List.append_nil] at herased
    exact herased

/-- A file with an export of everything that ends with its clause. -/
def reexporting : String :=
  "export function a() \x7b\x7d\nexport * from './x.js'; a()\n"

theorem script_keeps_tokens_reexporting :
    ∃ f, File.ofText reexporting = .ok f ∧
      ∃ pieces ending, tokenize reexporting = .ok (tokensOfAll (treesOf pieces) ++ [ending]) ∧
        Lowered 0 reexporting.toList pieces f.script.toList := by
  have hread : (File.ofText reexporting).isOk = true := by decide +kernel
  cases hf : File.ofText reexporting with
  | error e =>
    rw [hf] at hread
    cases hread
  | ok f =>
    obtain ⟨pieces, ending, htokens, -, -, hlowered, -⟩ := script_keeps_tokens hf
    exact ⟨f, rfl, pieces, ending, htokens, hlowered⟩

/-- A file whose export of everything has no semicolon. -/
def unterminated : String :=
  "export * from './x.js'\nfoo()\n"

/-- The statement on the next line is erased together with the export. -/
theorem next_statement_is_erased :
    ((File.ofText unterminated).toOption.map fun f => (f.outline.edits, f.script)) =
      some ([⟨⟨0, 28⟩, ""⟩], "\n\n") ∧
    ((tokenize unterminated).toOption.bind fun tokens =>
      (tokens.find? (·.isWord "foo")).map Token.span) = some ⟨23, 26⟩ := by
  decide +kernel

end TaskRunner.Proofs
