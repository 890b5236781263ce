import TaskRunner.Proofs.ModuleWords
import TaskRunner.Proofs.Neighbours

/-!
# Statements of a script

A statement that is erased as a whole leaves nothing between its neighbours but spaces and line ends. What
separates the neighbours in the script is what they end and start with themselves.
-/

namespace TaskRunner.Proofs
open Source Tree

variable {after after' : Token} {o o' q : Outline} {module rest stmt copy : List Tree}

/-! ## What stays of a statement -/

/-- The pieces that a statement is cut into, by how it is read. -/
inductive Part (after : Token) (o : Outline) (stmt behind : List Tree) (o' : Outline) :
    List Piece → Prop
  | whole {replacement : String} (starts : startsModule after (stmt ++ behind) = true)
      (edits : o'.edits = o.edits ++ [⟨spanOf stmt, replacement⟩]) :
      Part after o stmt behind o' [.erased stmt replacement]
  | exported {form body : List Tree} (split : stmt = form ++ body) (nonempty : form ≠ [])
      (read : Declared after (o.addEdit (spanOf form) "") (body ++ behind) o' behind) :
      Part after o stmt behind o' [.erased form "", .kept body]
  | exportedValue {form body : List Tree} (split : stmt = form ++ body) (nonempty : form ≠ [])
      (read : pastStatement after (body ++ behind) = behind)
      (outline : o' = o.addEdit (spanOf form) "void") :
      Part after o stmt behind o' [.erased form "void", .kept body]
  | declared (read : Declared after o (stmt ++ behind) o' behind) :
      Part after o stmt behind o' [.kept stmt]
  | plain (starts : startsPlain after (stmt ++ behind) = true)
      (read : pastStatement after (stmt ++ behind) = behind) (outline : o' = o) :
      Part after o stmt behind o' [.kept stmt]

variable {behind : List Tree} {part : List Piece}

lemma statement_part (hafter : after.kind = .endOfFile) (hmarks : OpenedByMarks (stmt ++ behind))
    (h : statement after o (stmt ++ behind) = .ok (o', behind)) :
    ∃ part, Part after o stmt behind o' part := by
  -- What a reader behind the words of an export reads is the rest of the statement.
  have hbody : ∀ {form more : List Tree}, stmt ++ behind = form ++ more → behind <:+ more →
      ∃ body, stmt = form ++ body ∧ more = body ++ behind := by
    rintro form _ hsplit ⟨body, rfl⟩
    rw [← List.append_assoc] at hsplit
    exact ⟨body, List.append_cancel_right hsplit, rfl⟩
  have hexported : ∀ {form more : List Tree}, stmt ++ behind = form ++ more → form ≠ [] →
      Declared after (o.addEdit (spanOf form) "") more o' behind →
      ∃ part, Part after o stmt behind o' part := by
    intro form more hsplit hne hread
    have hmore := hmarks.suffix (hsplit ▸ List.suffix_append form more)
    obtain ⟨body, hstmt, rfl⟩ := hbody hsplit (hread.keeps hafter hmore).reads.suffix
    exact ⟨_, .exported hstmt hne hread⟩
  cases statement_cases hafter hmarks h with
  | whole starts edits =>
    rw [consumed_eq] at edits
    exact ⟨_, .whole starts edits⟩
  | @exported e more split starts read =>
    have hsplit : stmt ++ behind = [e] ++ more := split
    exact hexported hsplit (List.cons_ne_nil _ _) read
  | @exportedDefault e d more split isDefault read =>
    have hsplit : stmt ++ behind = [e, d] ++ more := split
    exact hexported hsplit (List.cons_ne_nil _ _) read
  | @exportedValue e d more split isDefault read outline =>
    have hsplit : stmt ++ behind = [e, d] ++ more := split
    obtain ⟨body, hstmt, rfl⟩ := hbody hsplit (read ▸ pastStatement_suffix after more)
    exact ⟨_, .exportedValue hstmt (List.cons_ne_nil _ _) read outline⟩
  | declared starts read => exact ⟨_, .declared read⟩
  | plain starts read outline => exact ⟨_, .plain starts read outline⟩

/-- The trees start with a default export of a value: of neither a named function nor a named class. -/
def ExportsValue (trees : List Tree) : Prop :=
  ∃ e d more, trees = e :: d :: more ∧ e.isWord "export" = true ∧ d.isWord "default" = true ∧
    startsNamedFunction more = false ∧
    (startsWithWord more "class" && startsWithName more.tail && !startsWithWord more.tail "extends") = false

lemma statement_value {e d : Tree} {more : List Tree} (hvalue : ExportsValue (e :: d :: more))
    (h : statement after o (e :: d :: more) = .ok (o', behind)) :
    pastStatement after more = behind ∧ o' = o.addEdit (spanOf [e, d]) "void" := by
  obtain ⟨_, _, _, heq, he, hd, hfunction, hclass⟩ := hvalue
  cases heq
  have himport : startsWithWord (e :: d :: more) "import" = false := isWord_other he (by decide)
  have hexport : startsWithWord (e :: d :: more) "export" = true := he
  rw [statement, himport, Bool.false_and, if_neg Bool.false_ne_true, if_pos hexport, exportDeclaration,
    if_pos hd, exportDefault] at h
  simp only [List.drop_succ_cons, List.drop_zero, hfunction, hclass, if_neg Bool.false_ne_true] at h
  obtain ⟨houtline, hbehind⟩ := Prod.mk.inj (Except.ok.inj h)
  exact ⟨hbehind, houtline.symm⟩

lemma statement_part_value (h : statement after o (stmt ++ behind) = .ok (o', behind))
    (hvalue : ExportsValue (stmt ++ behind)) :
    ∃ e d body, stmt = e :: d :: body ∧ Part after o stmt behind o' [.erased [e, d] "void", .kept body] := by
  obtain ⟨e, d, more, hsplit, -⟩ := id hvalue
  rw [hsplit] at h hvalue
  obtain ⟨hread, houtline⟩ := statement_value hvalue h
  obtain ⟨body, rfl⟩ : behind <:+ more := hread ▸ pastStatement_suffix after more
  have hstmt : stmt = e :: d :: body := List.append_cancel_right (hsplit.trans rfl)
  exact ⟨e, d, body, hstmt, .exportedValue hstmt (List.cons_ne_nil _ _) hread houtline⟩

lemma Declared.edits (hafter : after.kind = .endOfFile) {trees : List Tree}
    (hmarks : OpenedByMarks trees) (h : Declared after o trees o' behind) : o'.edits = o.edits :=
  (h.keeps hafter hmarks).reads.edits

lemma Part.pieces (hafter : after.kind = .endOfFile) (hmarks : OpenedByMarks (stmt ++ behind))
    (h : Part after o stmt behind o' part) :
    treesOf part = stmt ∧ o'.edits = o.edits ++ editsOf part := by
  cases h with
  | whole starts edits => exact ⟨by simp [Piece.trees], by simp [Piece.edits, edits]⟩
  | @exported form body split nonempty read =>
    subst split
    rw [List.append_assoc] at hmarks
    have hedits := read.edits hafter hmarks.behind
    exact ⟨by simp [Piece.trees], by simp [Piece.edits, hedits, Outline.addEdit]⟩
  | exportedValue split nonempty read outline =>
    exact ⟨by simp [Piece.trees, split], by simp [Piece.edits, outline, Outline.addEdit]⟩
  | declared read =>
    exact ⟨by simp [Piece.trees], by simp [Piece.edits, read.edits hafter hmarks]⟩
  | plain starts read outline => exact ⟨by simp [Piece.trees], by simp [Piece.edits, outline]⟩

lemma treesOf_flatten (parts : List (List Piece)) :
    treesOf parts.flatten = (parts.map treesOf).flatten := by
  induction parts with
  | nil => rfl
  | cons part parts ih => simp [ih]

/-- The statements of a list are cut into pieces. -/
lemma Sequence.parts {stmts : List (List Tree)} (hafter : after.kind = .endOfFile)
    (hmarks : OpenedByMarks stmts.flatten) (h : Sequence after o stmts o') :
    ∃ parts : List (List Piece), stmts = parts.map treesOf ∧
      o'.edits = o.edits ++ editsOf parts.flatten ∧
      ∀ earlier part later, parts = earlier ++ part :: later → treesOf part ≠ [] ∧
        (ExportsValue (treesOf part ++ treesOf later.flatten) →
          ∃ e d body, part = [.erased [e, d] "void", .kept body]) ∧
        ∃ o₁ o₂, statement after o₁ (treesOf part ++ treesOf later.flatten) =
            .ok (o₂, treesOf later.flatten) ∧
          Part after o₁ (treesOf part) (treesOf later.flatten) o₂ part := by
  induction h with
  | ending => exact ⟨[], rfl, by simp, fun earlier part later heq => by simp at heq⟩
  | @next o o₁ o₂ stmt more nonempty read tail ih =>
    rw [List.flatten_cons] at hmarks
    obtain ⟨part, hpart, hvalue⟩ : ∃ part, Part after o stmt more.flatten o₁ part ∧
        (ExportsValue (stmt ++ more.flatten) → ∃ e d body, part = [.erased [e, d] "void", .kept body]) := by
      by_cases hvalue : ExportsValue (stmt ++ more.flatten)
      · obtain ⟨e, d, body, -, hpart⟩ := statement_part_value read hvalue
        exact ⟨_, hpart, fun _ => ⟨e, d, body, rfl⟩⟩
      · obtain ⟨part, hpart⟩ := statement_part hafter hmarks read
        exact ⟨part, hpart, fun h => absurd h hvalue⟩
    obtain ⟨htrees, hedits⟩ := hpart.pieces hafter hmarks
    obtain ⟨parts, rfl, hedits', hparts⟩ := ih hmarks.behind
    refine ⟨part :: parts, by rw [List.map_cons, htrees], by simp [hedits, hedits'], ?_⟩
    intro earlier part' later heq
    cases earlier with
    | nil =>
      obtain ⟨rfl, rfl⟩ := List.cons.inj heq
      rw [← treesOf_flatten] at read hpart hvalue
      rw [← htrees] at read hpart hvalue
      exact ⟨htrees ▸ nonempty, hvalue, o, o₁, read, hpart⟩
    | cons first earlier =>
      obtain ⟨-, heq⟩ := List.cons.inj heq
      exact hparts earlier part' later heq

/-- The statements of an accepted file are cut into pieces. -/
lemma ofText_parts {text : String} {f : File} (h : File.ofText text = .ok f) :
    ∃ (nested : Nested) (parts : List (List Piece)), (tokenize text >>= nest) = .ok nested ∧
      nested.trees = treesOf parts.flatten ∧ f.outline.edits = editsOf parts.flatten ∧
      Sequence nested.ending .empty (parts.map treesOf) f.outline ∧
      nested.ending.kind = .endOfFile ∧ OpenedByMarks nested.trees ∧
      ∀ earlier part later, parts = earlier ++ part :: later → treesOf part ≠ [] ∧
        (ExportsValue (treesOf part ++ treesOf later.flatten) →
          ∃ e d body, part = [.erased [e, d] "void", .kept body]) ∧
        ∃ o₁ o₂, statement nested.ending o₁ (treesOf part ++ treesOf later.flatten) =
            .ok (o₂, treesOf later.flatten) ∧
          Part nested.ending o₁ (treesOf part) (treesOf later.flatten) o₂ part := by
  obtain ⟨tokens, htokenize, h⟩ := bind_ok h
  obtain ⟨nested, hnest, h⟩ := bind_ok h
  obtain ⟨outline, houtline, h⟩ := bind_ok h
  cases h
  obtain ⟨-, hending⟩ := nest_tokens (tokenize_tiles htokenize) hnest
  have hmarks := nest_openedByMarks hnest
  obtain ⟨stmts, htrees, hsequence⟩ := outlineOf_sequence hending hmarks houtline
  obtain ⟨parts, rfl, hedits, hparts⟩ := hsequence.parts hending (htrees ▸ hmarks)
  exact ⟨nested, parts, by rw [htokenize]; exact hnest, by rw [treesOf_flatten, htrees],
    by simpa [Outline.empty] using hedits, hsequence, hending, hmarks, hparts⟩

/-! ## Trees of a script -/

/-- Trees of a script that pieces of the file are cut into: those that are kept are found again, and a
replacement is cut as it is alone. No line end is lost in front of them. -/
inductive CutInto : List Piece → List Tree → Prop
  | nil : CutInto [] []
  | kept {trees own rest : List Tree} {more : List Piece} (copies : Copies trees own)
      (line : OnNewLine trees → OnNewLine (own ++ rest)) (tail : CutInto more rest) :
      CutInto (.kept trees :: more) (own ++ rest)
  | erased {trees own rest : List Tree} {replacement : String} {more : List Piece} {alone : Nested}
      (cut : (tokenize replacement >>= nest) = .ok alone) (copies : Copies alone.trees own)
      (line : OnNewLine trees → OnNewLine (own ++ rest)) (tail : CutInto more rest) :
      CutInto (.erased trees replacement :: more) (own ++ rest)

lemma OnNewLine.front {own more : List Tree} (h : OnNewLine (own ++ more)) : OnNewLine own := by
  cases own with
  | nil => exact fun _ ht => absurd ht (Option.not_mem_none _)
  | cons t own => exact h

lemma CutInto.append_split {pieces more : List Piece} {trees : List Tree}
    (h : CutInto (pieces ++ more) trees) :
    ∃ own rest, trees = own ++ rest ∧ CutInto pieces own ∧ CutInto more rest := by
  induction pieces generalizing trees with
  | nil => exact ⟨[], trees, rfl, .nil, h⟩
  | cons piece pieces ih =>
    cases h with
    | kept copies line tail =>
      obtain ⟨own, rest, rfl, hown, hrest⟩ := ih tail
      rw [← List.append_assoc] at line ⊢
      exact ⟨_, rest, rfl, .kept copies (fun hstart => (line hstart).front) hown, hrest⟩
    | erased cut copies line tail =>
      obtain ⟨own, rest, rfl, hown, hrest⟩ := ih tail
      rw [← List.append_assoc] at line ⊢
      exact ⟨_, rest, rfl, .erased cut copies (fun hstart => (line hstart).front) hown, hrest⟩

/-- Nothing is left of what is replaced by spaces. -/
lemma CutInto.blank {trees own : List Tree} {more : List Piece}
    (h : CutInto (.erased trees "" :: more) own) :
    CutInto more own ∧ (OnNewLine trees → OnNewLine own) := by
  cases h with
  | erased cut copies line tail =>
    have hempty : (tokenize "" >>= nest) = .ok ⟨[], ⟨.endOfFile, ⟨0, 0⟩, ⟨1, 1⟩, false, []⟩⟩ := by
      rfl
    cases hempty.symm.trans cut
    cases copies
    exact ⟨tail, line⟩

/-- The statement is replaced by spaces as a whole. -/
def Blanked (part : List Piece) : Prop :=
  ∃ trees, part = [.erased trees ""]

lemma CutInto.blanks {blanked : List (List Piece)} {more : List Piece} {own : List Tree}
    (hblanked : ∀ b ∈ blanked, Blanked b) (h : CutInto (blanked.flatten ++ more) own) :
    CutInto more own := by
  induction blanked with
  | nil => exact h
  | cons b blanked ih =>
    obtain ⟨trees, rfl⟩ := hblanked b List.mem_cons_self
    exact ih (fun c hc => hblanked c (List.mem_cons_of_mem _ hc)) h.blank.1

/-! ### A value that is exported -/

/-- The word that is written for the words of an exported value. -/
def voidWord : Tree :=
  .leaf ⟨.ident "void", ⟨0, 4⟩, ⟨1, 1⟩, false, []⟩

lemma cut_void :
    (tokenize "void" >>= nest) = .ok ⟨[voidWord], ⟨.endOfFile, ⟨4, 4⟩, ⟨1, 5⟩, false, []⟩⟩ := by
  have htokens : tokenize "void" = .ok [⟨.ident "void", ⟨0, 4⟩, ⟨1, 1⟩, false, []⟩,
      ⟨.endOfFile, ⟨4, 4⟩, ⟨1, 5⟩, false, []⟩] := by
    decide +kernel
  rw [htokens]
  rfl

lemma same_refl (trees : List Tree) : List.Forall₂ Same trees trees :=
  List.forall₂_same.mpr fun _ _ => ⟨rfl, rfl⟩

lemma Part.starts (h : Part after o stmt behind o' part) (hblanked : Blanked part) :
    startsModule after (stmt ++ behind) = true := by
  obtain ⟨trees, heq⟩ := hblanked
  cases h with
  | whole starts edits => exact starts
  | exported => cases heq
  | exportedValue => cases (List.cons.inj heq).2
  | declared => cases heq
  | plain => cases heq

/-- A file with an export between two statements, the second one on a new line. -/
def apart : String :=
  "let a = 1\nexport \x7b a \x7d\nlet b = a\n"

/-- The script of the file. -/
def joined : String :=
  "const f = function () \x7b return 1 \x7d\n            \n(0)\n       function main() \x7b return typeof f \x7d\n"

end TaskRunner.Proofs
