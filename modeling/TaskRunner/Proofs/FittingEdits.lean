import TaskRunner.Proofs.ModuleWords

/-!
# Edits that fit together

An edit that starts in front of the place that the script has reached is left out without a word, and the module
syntax that it stands for stays in the script. No file has such an edit: every statement records one edit at most,
which spans some of its tokens, from the start of one to the end of another. So the edits follow each other in the
text without a common byte, and all of them are made.
-/

namespace TaskRunner.Proofs
open Source Tree

/-- The span of an edit starts with a token of the trees and ends with one. It is not empty, and it lies inside the
span of the trees. -/
structure SpansTokens (trees : List Tree) (e : Edit) : Prop where
  ends : ∃ first ∈ tokensOfAll trees, ∃ last ∈ tokensOfAll trees, e.span = ⟨first.span.start, last.span.stop⟩
  nonempty : e.span.start < e.span.stop
  within : (spanOf trees).start ≤ e.span.start ∧ e.span.stop ≤ (spanOf trees).stop

/-- The reading of statements, each with the edits that it records. -/
inductive Records (after : Token) : Outline → List (List Tree × List Edit) → Outline → Prop
  | ending {o : Outline} : Records after o [] o
  | next {o o₁ o₂ : Outline} {stmt : List Tree} {edits : List Edit} {more : List (List Tree × List Edit)}
      (nonempty : stmt ≠ [])
      (read : statement after o (stmt ++ more.flatMap Prod.fst) = .ok (o₁, more.flatMap Prod.fst))
      (recorded : o₁.edits = o.edits ++ edits)
      (tail : Records after o₁ more o₂) : Records after o ((stmt, edits) :: more) o₂

/-- What becomes of a text from a byte offset on: what stands in front of each edit is copied, and what stands on
its span is replaced. None of the edits is left out. -/
inductive AllMade : Nat → List Char → List Edit → List Char → Prop
  | ending {offset : Nat} {rest : List Char} : AllMade offset rest [] rest
  | edit {offset : Nat} {copied original rest out : List Char} {e : Edit} {more : List Edit}
      (span : e.span = ⟨offset + byteCount copied, offset + byteCount copied + byteCount original⟩)
      (tail : AllMade e.span.stop rest more out) :
      AllMade offset (copied ++ (original ++ rest)) (e :: more)
        (copied ++ (e.replacement.toList ++ filling original e.replacement ++ out))

/-- The edits that the statements of a file record fit together. -/
structure EditsFit (f : File) (ending : Token) (records : List (List Tree × List Edit)) : Prop where
  tokens : tokenize f.text = .ok (tokensOfAll (records.flatMap Prod.fst) ++ [ending])
  nested : (tokenize f.text >>= nest) = .ok ⟨records.flatMap Prod.fst, ending⟩
  recorded : Records ending .empty records f.outline
  all : f.outline.edits = records.flatMap Prod.snd
  single : ∀ record ∈ records, record.2.length ≤ 1
  spans : ∀ record ∈ records, ∀ e ∈ record.2, SpansTokens record.1 e
  apart : f.outline.edits.Pairwise fun e later => e.span.stop ≤ later.span.start
  made : AllMade 0 f.text.toList f.outline.edits f.script.toList

/-! ## Statements -/

variable {after : Token} {o o' : Outline} {stmt behind : List Tree}

/-- Trees span the space from the start of a token to the end of one. -/
lemma spanOf_tokens {trees : List Tree} (hne : trees ≠ []) :
    ∃ first ∈ tokensOfAll trees, ∃ last ∈ tokensOfAll trees, spanOf trees = ⟨first.span.start, last.span.stop⟩ := by
  obtain ⟨t, rest, rfl⟩ := List.exists_cons_of_ne_nil hne
  have hlast : (t :: rest).getLast? = some (rest.getLastD t) := by
    rw [List.getLast?_cons, List.getLastD_eq_getLast?]
  obtain ⟨before, hbefore⟩ := tokensOfAll_last hlast
  refine ⟨t.first, ?_, (rest.getLastD t).last, ?_, rfl⟩
  · have hmem : t.first ∈ tokensOfAll ([] ++ t :: rest) := first_mem
    exact hmem
  · rw [hbefore]
    exact List.mem_append_right _ (List.mem_singleton_self _)

/-- The trees in front of a statement span some of its tokens. -/
lemma spansTokens_front {form : List Tree} (hne : form ≠ []) (hfront : form <+: stmt)
    (hordered : Ordered (tokensOfAll stmt)) (hwide : ∀ t ∈ tokensOfAll stmt, t.span.start < t.span.stop)
    (replacement : String) : SpansTokens stmt ⟨spanOf form, replacement⟩ := by
  obtain ⟨body, rfl⟩ := hfront
  have hmem : ∀ {t : Token}, t ∈ tokensOfAll form → t ∈ tokensOfAll (form ++ body) := by
    intro t ht
    rw [tokensOfAll_append]
    exact List.mem_append_left _ ht
  obtain ⟨first, hfirst, last, hlast, hspan⟩ := spanOf_tokens hne
  have hform : Ordered (tokensOfAll form) := hordered.within ⟨[], tokensOfAll body, by simp⟩
  refine ⟨⟨first, hmem hfirst, last, hmem hlast, hspan⟩, ?_, ?_⟩
  · have hholds := spanOf_holds hform hfirst
    have hfirstWide := hwide first (hmem hfirst)
    dsimp only
    omega
  · dsimp only
    rw [hspan]
    exact ⟨(spanOf_holds hordered (hmem hfirst)).1, (spanOf_holds hordered (hmem hlast)).2⟩

/-- A statement records one edit at most, on the span of trees in front of it. -/
lemma Effect.recorded (hne : stmt ≠ []) (h : Effect after o stmt behind o') :
    ∃ edits : List Edit, o'.edits = o.edits ++ edits ∧ edits.length ≤ 1 ∧
      ∀ e ∈ edits, ∃ form, form ≠ [] ∧ form <+: stmt ∧ e = ⟨spanOf form, e.replacement⟩ := by
  cases h with
  | whole edits =>
    refine ⟨_, edits, Nat.le_refl _, fun e he => ?_⟩
    obtain rfl := List.mem_singleton.mp he
    exact ⟨stmt, hne, List.prefix_rfl, rfl⟩
  | @words form body replacement split nonempty edits _ =>
    refine ⟨_, edits, Nat.le_refl _, fun e he => ?_⟩
    obtain rfl := List.mem_singleton.mp he
    exact ⟨form, nonempty, ⟨body, split.symm⟩, rfl⟩
  | kept edits _ => exact ⟨[], by rw [edits, List.append_nil], Nat.zero_le _, fun e he => absurd he List.not_mem_nil⟩

/-- The statements of a list record their edits one behind the other. -/
lemma Sequence.records {stmts : List (List Tree)} (hafter : after.kind = .endOfFile)
    (hmarks : OpenedByMarks stmts.flatten) (hordered : Ordered (tokensOfAll stmts.flatten))
    (hwide : ∀ t ∈ tokensOfAll stmts.flatten, t.span.start < t.span.stop) (h : Sequence after o stmts o') :
    ∃ records, records.flatMap Prod.fst = stmts.flatten ∧ Records after o records o' ∧
      o'.edits = o.edits ++ records.flatMap Prod.snd ∧ (∀ record ∈ records, record.2.length ≤ 1) ∧
      ∀ record ∈ records, ∀ e ∈ record.2, SpansTokens record.1 e := by
  induction h with
  | ending => exact ⟨[], rfl, .ending, by simp, by simp, by simp⟩
  | @next o o₁ o₂ stmt more nonempty read tail ih =>
    rw [List.flatten_cons] at hmarks
    rw [List.flatten_cons, tokensOfAll_append] at hordered hwide
    obtain ⟨records, htrees, hrecords, hedits, hsingle, hspans⟩ :=
      ih hmarks.behind (hordered.within (List.suffix_append _ _).isInfix)
        fun t ht => hwide t (List.mem_append_right _ ht)
    obtain ⟨edits, hmade, hone, hforms⟩ := (statement_effect hafter hmarks read).recorded nonempty
    refine ⟨(stmt, edits) :: records, by simp [htrees], ?_, by simp [hedits, hmade], ?_, ?_⟩
    · exact .next nonempty (htrees ▸ read) hmade hrecords
    · exact List.forall_mem_cons.mpr ⟨hone, hsingle⟩
    · refine List.forall_mem_cons.mpr ⟨fun e he => ?_, hspans⟩
      obtain ⟨form, hne, hfront, heq⟩ := hforms e he
      rw [heq]
      exact spansTokens_front hne hfront (hordered.within (List.prefix_append _ _).isInfix)
        (fun t ht => hwide t (List.mem_append_left _ ht)) _

/-! ## The text of the script -/

/-- What is copied in front of a piece counts to what is copied in front of its edit. -/
lemma Lowered.allMade {offset : Nat} {chars out : List Char} {pieces : List Piece}
    (h : Lowered offset chars pieces out) {cursor : Nat} (pending : List Char)
    (hcursor : cursor + byteCount pending = offset) :
    AllMade cursor (pending ++ chars) (editsOf pieces) (pending ++ out) := by
  induction h generalizing cursor pending with
  | ending => exact .ending
  | @kept offset stretch rest out trees more tokens tail ih =>
    rw [← List.append_assoc, ← List.append_assoc]
    exact ih (pending ++ stretch) (by rw [byteCount_append, ← Nat.add_assoc, hcursor])
  | @erased offset gap original rest out trees replacement more span tail ih =>
    have hspan : (⟨spanOf trees, replacement⟩ : Edit).span =
        ⟨cursor + byteCount (pending ++ gap), cursor + byteCount (pending ++ gap) + byteCount original⟩ := by
      rw [byteCount_append, ← Nat.add_assoc, hcursor]
      exact span
    have htail : AllMade (spanOf trees).stop rest (editsOf more) out :=
      ih [] (by rw [span]; rfl)
    have hmade : AllMade cursor (pending ++ gap ++ (original ++ rest)) (editsOf (.erased trees replacement :: more))
        (pending ++ gap ++ (replacement.toList ++ filling original replacement ++ out)) := .edit hspan htail
    rw [List.append_assoc, List.append_assoc] at hmade
    exact hmade

lemma AllMade.starts {offset : Nat} {chars out : List Char} {edits : List Edit}
    (h : AllMade offset chars edits out) :
    (∀ e ∈ edits, offset ≤ e.span.start) ∧ edits.Pairwise fun e later => e.span.stop ≤ later.span.start := by
  induction h with
  | ending => exact ⟨by simp, .nil⟩
  | @edit offset copied original rest out e more span tail ih =>
    have hstart : offset ≤ e.span.start ∧ offset ≤ e.span.stop := by
      rw [span]
      dsimp only
      omega
    refine ⟨List.forall_mem_cons.mpr ⟨hstart.1, fun later hlater => ?_⟩, .cons ih.1 ih.2⟩
    exact Nat.le_trans hstart.2 (ih.1 later hlater)

/-! ## Files -/

/-- All tokens but the end of the file have some text. -/
lemma Tiles.wide_front {offset : Nat} {chars : List Char} {front : List Token} {ending : Token}
    (h : Tiles offset chars (front ++ [ending])) : ∀ t ∈ front, t.span.start < t.span.stop := by
  obtain ⟨before, other, hsplit, -, hkinds⟩ := h.ends
  obtain ⟨rfl, -⟩ := List.append_inj' hsplit rfl
  exact fun t ht => h.wide t (List.mem_append_left _ ht) (hkinds t ht)

/-- The script of a file is what its edits make of the text. -/
lemma allMade_script {f : File} {pieces : List Piece} {ending : Token} (hne : NoneEmpty pieces)
    (htiles : Tiles 0 f.text.toList (tokensOfAll (treesOf pieces) ++ [ending]))
    (hedits : f.outline.edits = editsOf pieces) : AllMade 0 f.text.toList f.outline.edits f.script.toList := by
  obtain ⟨out, hlowered, happly⟩ := lowered_applyFrom hne htiles
  have hsorted : f.outline.edits.mergeSort (fun a b => a.span.start ≤ b.span.start) = editsOf pieces := by
    rw [hedits]
    exact List.mergeSort_of_pairwise (hlowered.sorted.imp decide_eq_true)
  have hscript : f.script.toList = out := by
    rw [File.script, applyEdits, String.toList_ofList, hsorted]
    exact happly 0 [] rfl
  rw [hscript, hedits]
  exact hlowered.allMade [] rfl

/-- The edits of a file fit together: a statement records one at most, on the span of some of its tokens, and the
edits of all statements are in the order of the text, have no byte in common, and are all made. -/
theorem edits_fit_together {text : String} {f : File} (h : File.ofText text = .ok f) :
    f.text = text ∧ ∃ ending records, EditsFit f ending records := by
  obtain ⟨tokens, htokenize, h⟩ := bind_ok h
  obtain ⟨nested, hnest, h⟩ := bind_ok h
  obtain ⟨outline, houtline, h⟩ := bind_ok h
  cases h
  refine ⟨rfl, nested.ending, ?_⟩
  have hnested : (tokenize text >>= nest) = .ok nested := by rw [htokenize]; exact hnest
  have htiles := tokenize_tiles htokenize
  obtain ⟨rfl, hending⟩ := nest_tokens htiles hnest
  have hmarks := nest_openedByMarks hnest
  obtain ⟨stmts, htrees, hsequence⟩ := outlineOf_sequence hending hmarks houtline
  rw [htrees] at hmarks htiles htokenize
  have hordered := htiles.ordered.within (List.prefix_append (tokensOfAll stmts.flatten) _).isInfix
  obtain ⟨records, hstmts, hrecords, hedits, hsingle, hspans⟩ :=
    hsequence.records hending hmarks hordered htiles.wide_front
  obtain ⟨pieces, hpieces, hne, hpieceEdits⟩ := hsequence.pieces hending hmarks
  rw [← hpieces] at htiles
  have hmade := allMade_script (f := ⟨text, outline⟩) hne htiles hpieceEdits
  refine ⟨records, ?_, ?_, hrecords, hedits, hsingle, hspans, hmade.starts.2, hmade⟩
  · rw [hstmts]
    exact htokenize
  · rw [hstmts, ← htrees]
    exact hnested

/-- A file with an import, an export in front of a declaration, and an export list. -/
def listing : String :=
  "import \x7b exec \x7d from 'bunosh'\nexport default function main() \x7b\x7d exec\nexport \x7b main as run \x7d;"

theorem edits_fit_together_listing :
    ∃ f, File.ofText listing = .ok f ∧ f.outline.edits.length = 3 ∧
      ∃ ending records, EditsFit f ending records := by
  have hread : ((File.ofText listing).toOption.map fun f => f.outline.edits.length) = some 3 := by decide +kernel
  cases hf : File.ofText listing with
  | error e =>
    rw [hf] at hread
    cases hread
  | ok f =>
    rw [hf] at hread
    exact ⟨f, rfl, Option.some.inj hread, (edits_fit_together hf).2⟩

end TaskRunner.Proofs
