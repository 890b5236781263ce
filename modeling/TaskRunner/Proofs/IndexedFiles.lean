import TaskRunner.Proofs.CheckedTemplates
import TaskRunner.Proofs.IndexedSignatures
import TaskRunner.Proofs.IndexedStatements

/-!
# Files by positions

A text is read by byte offsets and indexes only: its tokens, its statements, the signatures of its
functions and the slices that a script is put together from. Every text is either refused, with the
complaint that the reading by characters and trees has, or it gives the same answers.
-/

namespace TaskRunner.Proofs
open Source Tree

/-! ## Reading a file -/

/-- A text with its tokens, and what has been found among them by indexes. -/
structure IndexedFile where
  text : String
  sheet : Sheet
  found : Findings

/-- The text from a byte offset on, with edits made by cutting slices out of it. -/
def editedFrom (text : String) : Nat → List Edit → Checked (List Char)
  | cursor, [] => charsFrom text cursor
  | cursor, e :: rest =>
    if e.span.start < cursor then editedFrom text cursor rest
    else do
      let kept ← slice text cursor e.span.start
      let original ← slice text e.span.start e.span.stop
      let more ← editedFrom text e.span.stop rest
      .ok (kept ++ (e.replacement.toList ++ filling original e.replacement ++ more))

namespace IndexedFile

/-- Reads a text. -/
def ofText (text : String) : Checked IndexedFile := do
  let tokens ← checkedTokenize text
  let sheet ← sheetOf tokens
  let found ← sheet.outline
  .ok ⟨text, sheet, found⟩

variable (f : IndexedFile)

/-- The local name behind an exported one. -/
def localName? (exported : String) : Option String :=
  (f.found.others.exports.find? (·.exported == exported)).map (·.name)

/-- The function of a local name. -/
def function? (name : String) : Option FunctionPlace :=
  f.found.functions.find? (·.name == name)

/-- The signature under a name; without parameters when there is no function. -/
def signature (name : String) : Checked Signature :=
  match f.function? ((f.localName? name).getD name) with
  | some place => f.sheet.signatureAt name place
  | none => .ok ⟨name, [], none⟩

/-- The signatures of the exported functions. -/
def signatures : Checked (List Signature) :=
  (f.found.others.exports.filter fun e => (f.function? e.name).isSome).mapM fun e => f.signature e.exported

/-- The file as a script. -/
def script : Checked String := do
  let edits := f.found.others.edits.mergeSort fun a b => a.span.start ≤ b.span.start
  let chars ← editedFrom f.text 0 edits
  .ok (String.ofList chars)

end IndexedFile

/-- The calls that read a statement, with what has been found before each of them. -/
inductive Calls (s : Sheet) : Findings → Nat → Prop
  | first : Calls s .empty 0
  | next {found found' : Findings} {i j : Nat} (here : Calls s found i)
      (more : (s.tok i).kind ≠ .endOfFile) (read : s.statement found i = .ok (found', j)) :
      Calls s found' j

/-! ## The same answers -/

variable {s : Sheet} {text : String}

lemma Forall₂.find_alike {α β : Type} {R : α → β → Prop} {p : α → Bool} {q : β → Bool} {xs : List α}
    {ys : List β} (h : List.Forall₂ R xs ys) (hsame : ∀ a b, R a b → p a = q b) :
    Option.Rel R (xs.find? p) (ys.find? q) := by
  induction h with
  | nil => exact .none
  | @cons a b xs ys hab hmore ih =>
    rw [List.find?_cons, List.find?_cons, hsame a b hab]
    cases q b with
    | true => exact .some hab
    | false => exact ih

lemma mapM_ok {α β : Type} {g : α → Checked β} {k : α → β} {xs : List α} (h : ∀ a, g a = .ok (k a)) :
    xs.mapM g = .ok (xs.map k) := by
  induction xs with
  | nil => rfl
  | cons a xs ih =>
    rw [List.mapM_cons, h, ih]
    rfl

/-- A file by positions is the file that is read by characters and trees. -/
structure Represents (g : IndexedFile) (f : File) : Prop where
  text : g.text = f.text
  finds : Finds g.sheet g.found f.outline

variable {g : IndexedFile} {f : File}

lemma Represents.exports (h : Represents g f) : g.found.others.exports = f.exports := by
  rw [h.finds.others]
  rfl

lemma Represents.localName? (h : Represents g f) (exported : String) :
    g.localName? exported = f.localName? exported := by
  rw [IndexedFile.localName?, h.exports]
  rfl

lemma Represents.function? (h : Represents g f) (name : String) :
    Option.Rel (Placed g.sheet) (g.function? name) (f.function? name) :=
  Forall₂.find_alike h.finds.functions fun place function hplaced => by rw [hplaced.name]

lemma Represents.signature (h : Represents g f) (name : String) :
    g.signature name = .ok (f.signature name) := by
  rw [IndexedFile.signature, File.signature, h.localName?]
  have hfunction := h.function? ((f.localName? name).getD name)
  revert hfunction
  cases g.function? ((f.localName? name).getD name) with
  | none =>
    cases f.function? ((f.localName? name).getD name) with
    | none => exact fun _ => rfl
    | some function => exact fun hfunction => nomatch hfunction
  | some place =>
    cases f.function? ((f.localName? name).getD name) with
    | none => exact fun hfunction => nomatch hfunction
    | some function =>
      intro hfunction
      cases hfunction with
      | some hplaced => exact hplaced.signatureAt name

lemma Represents.signatures (h : Represents g f) : g.signatures = .ok f.signatures := by
  have hkept : (g.found.others.exports.filter fun e => (g.function? e.name).isSome) =
      f.functionExports := by
    rw [h.exports, File.functionExports]
    congr 1
    funext e
    have hfunction := h.function? e.name
    revert hfunction
    cases g.function? e.name <;> cases f.function? e.name <;> intro hfunction
    · rfl
    · cases hfunction
    · cases hfunction
    · rfl
  rw [IndexedFile.signatures, hkept]
  exact mapM_ok fun e => h.signature e.exported

/-! ## Slices of the text -/

/-- The slices that a script is put together from stand between characters, one behind the other. -/
lemma Lowered.edited {offset : Nat} {chars out : List Char} {pieces : List Piece}
    (h : Lowered offset chars pieces out) {before pending : List Char}
    (htext : text.toList = before ++ (pending ++ chars))
    (hoffset : offset = byteCount before + byteCount pending) :
    editedFrom text (byteCount before) (editsOf pieces) = .ok (pending ++ out) := by
  induction h generalizing before pending with
  | ending => exact charsFrom_eq htext
  | @kept offset stretch rest out trees more tokens tail ih =>
    have hmoreText : text.toList = before ++ ((pending ++ stretch) ++ rest) := by
      rw [htext]
      simp
    have hmore := ih hmoreText (by rw [byteCount_append, hoffset, Nat.add_assoc])
    rwa [List.append_assoc] at hmore
  | @erased offset gap original rest out trees replacement more span tail ih =>
    have hkeptText : text.toList = before ++ ((pending ++ gap) ++ (original ++ rest)) := by
      rw [htext]
      simp
    have horiginalText : text.toList = (before ++ (pending ++ gap)) ++ (original ++ rest) := by
      rw [htext]
      simp
    have hmoreText : text.toList = (before ++ (pending ++ gap) ++ original) ++ ([] ++ rest) := by
      rw [htext]
      simp
    have hkept := slice_eq hkeptText
    have horiginal := slice_eq horiginalText
    have hmore := ih hmoreText (by simp [byteCount_append, hoffset, Nat.add_assoc])
    have hstart : offset + byteCount gap = byteCount before + byteCount (pending ++ gap) := by
      rw [hoffset, byteCount_append, Nat.add_assoc]
    rw [byteCount_append] at horiginal
    rw [byteCount_append, byteCount_append] at hmore
    rw [editsOf_cons, Piece.edits, List.singleton_append, editedFrom]
    dsimp only
    rw [span, hstart]
    dsimp only
    rw [if_neg (by omega), hkept]
    dsimp only [bind, Except.bind]
    rw [horiginal]
    dsimp only
    rw [hmore]
    simp

/-- The script that the edits of a file make is put together from slices of its text. -/
lemma Represents.script (h : Represents g f) (hfile : File.ofText text = .ok f) :
    g.script = .ok f.script := by
  obtain ⟨tokens, htokenize, hread⟩ := bind_ok hfile
  obtain ⟨nested, hnest, hread⟩ := bind_ok hread
  obtain ⟨outline, houtline, hread⟩ := bind_ok hread
  cases hread
  have htiles := tokenize_tiles htokenize
  obtain ⟨htokens, hending⟩ := nest_tokens htiles hnest
  obtain ⟨pieces, hcuts⟩ := statements_cuts hending (nest_openedByMarks hnest) houtline
  have htrees : nested.trees = treesOf pieces := by rw [hcuts.trees, List.append_nil]
  rw [htokens, htrees] at htiles
  obtain ⟨out, hlowered, happly⟩ := lowered_applyFrom hcuts.right.noneEmpty htiles
  have hedits : g.found.others.edits = editsOf pieces := by
    rw [h.finds.others]
    exact hcuts.edits
  have hsorted : (editsOf pieces).mergeSort (fun a b => a.span.start ≤ b.span.start) = editsOf pieces :=
    List.mergeSort_of_pairwise (hlowered.sorted.imp decide_eq_true)
  have hscript : File.script ⟨text, outline⟩ = String.ofList out := by
    rw [File.script, applyEdits, show outline.edits = editsOf pieces from hcuts.edits, hsorted]
    exact congrArg String.ofList (happly 0 [] rfl)
  have htext : text.toList = [] ++ ([] ++ text.toList) := rfl
  have hslices : editedFrom text 0 (editsOf pieces) = .ok out :=
    hlowered.edited htext rfl
  rw [IndexedFile.script, hedits, hsorted, h.text, hscript]
  dsimp only
  rw [hslices]
  rfl

/-! ## Every text -/

/-- Files are read by positions as they are by characters and trees. -/
lemma ofText_agrees (text : String) :
    Agrees Represents (IndexedFile.ofText text) (File.ofText text) := by
  rw [IndexedFile.ofText, File.ofText, checkedTokenize_eq]
  cases htokenize : tokenize text with
  | error e => exact .refused e
  | ok tokens =>
    obtain ⟨before, ending, hsplit, hending, hbefore⟩ := (tokenize_tiles htokenize).ends
    have hsheet := sheetOf_agrees hsplit hending hbefore
    dsimp only [lifted_ok, bind, Except.bind]
    cases hnest : nest tokens with
    | error e =>
      rw [hnest] at hsheet
      rw [hsheet.of_error]
      exact .refused e
    | ok nested =>
      rw [hnest] at hsheet
      obtain ⟨sheet, hhere, -, hcarries⟩ := hsheet.of_ok
      rw [hhere]
      apply (hcarries.outline (nest_openedByMarks hnest)).bind
      intro found outline hfinds
      exact .ok ⟨rfl, hfinds⟩

/-- Where a statement is read, trees stand, with the end of the file behind them. -/
lemma Calls.lies {nested : Nested} (hcarries : Carries s nested)
    {found : Findings} {i : Nat} (h : Calls s found i) :
    ∃ trees o, Lies s i trees nested.ending ∧ Finds s found o := by
  induction h with
  | first => exact ⟨nested.trees, .empty, hcarries.lies, .empty s⟩
  | @next found found' i j here more read ih =>
    obtain ⟨trees, o, hlies, hfinds⟩ := ih
    have hne : trees ≠ [] := by
      rintro rfl
      rw [hlies.nil_tok] at more
      exact more hcarries.isEnd
    have hread := hlies.statement hne hcarries.isEnd hfinds
    rw [read] at hread
    cases hstatement : statement nested.ending o trees with
    | error e =>
      rw [hstatement] at hread
      cases hread
    | ok there =>
      rw [hstatement] at hread
      cases hread with
      | ok hleaves => exact ⟨there.2, there.1, hleaves.lies, hleaves.finds⟩

/-- A statement that is read ends at a later index. -/
lemma Calls.later {tokens : List Token} (htokenize : tokenize text = .ok tokens)
    (hsheet : sheetOf tokens = .ok s) {found found' : Findings} {i j : Nat} (h : Calls s found i)
    (hmore : (s.tok i).kind ≠ .endOfFile) (hread : s.statement found i = .ok (found', j)) : i < j := by
  obtain ⟨before, ending, hsplit, hending, hbefore⟩ := (tokenize_tiles htokenize).ends
  have hagrees := sheetOf_agrees hsplit hending hbefore
  rw [hsheet] at hagrees
  cases hnest : nest tokens with
  | error e =>
    rw [hnest] at hagrees
    cases hagrees
  | ok nested =>
    rw [hnest] at hagrees
    cases hagrees with
    | ok hrelated =>
      obtain ⟨trees, o, hlies, hfinds⟩ := h.lies hrelated.2
      have hne : trees ≠ [] := by
        rintro rfl
        rw [hlies.nil_tok] at hmore
        exact hmore hrelated.2.isEnd
      have hstatement := hlies.statement hne hrelated.2.isEnd hfinds
      rw [hread] at hstatement
      cases hboth : statement nested.ending o trees with
      | error e =>
        rw [hboth] at hstatement
        cases hstatement
      | ok there =>
        rw [hboth] at hstatement
        cases hstatement with
        | ok hleaves => exact hleaves.later

/-- Every text is refused with a complaint or gives all its answers; no lookup leaves its range, and no
loop comes back to where it was. -/
theorem positions_stay_in_range (text : String) :
    ((∃ e, IndexedFile.ofText text = .error (.refused e) ∧ File.ofText text = .error e) ∨
      ∃ g f, IndexedFile.ofText text = .ok g ∧ File.ofText text = .ok f ∧
        g.signatures = .ok f.signatures ∧ (∀ name, g.signature name = .ok (f.signature name)) ∧
        g.script = .ok f.script) ∧
    (∀ regex cur t after, tokenAt regex cur = .ok (t, after) → t.kind ≠ .endOfFile →
      after.rest.length < cur.rest.length) ∧
    ∀ tokens s, tokenize text = .ok tokens → sheetOf tokens = .ok s → ∀ found i, Calls s found i →
      (s.tok i).kind ≠ .endOfFile → ∀ found' j, s.statement found i = .ok (found', j) → i < j := by
  refine ⟨?_, fun _ _ _ _ => tokenAt_shorter, ?_⟩
  · have hread := ofText_agrees text
    cases hfile : File.ofText text with
    | error e =>
      rw [hfile] at hread
      exact .inl ⟨e, hread.of_error, rfl⟩
    | ok f =>
      rw [hfile] at hread
      obtain ⟨g, hg, hrepresents⟩ := hread.of_ok
      exact .inr ⟨g, f, hg, rfl, hrepresents.signatures, hrepresents.signature, hrepresents.script hfile⟩
  · intro tokens s htokenize hsheet found i hcalls hmore found' j hstatement
    exact hcalls.later htokenize hsheet hmore hstatement

/-- A file that ends where the value of its export is missing. -/
def exportAtEnd : String :=
  "export default"

/-- Its tokens, none of which has a partner. -/
def sheetAtEnd : Sheet where
  tokens := [
    ⟨.ident "export", ⟨0, 6⟩, ⟨1, 1⟩, false, []⟩, ⟨.ident "default", ⟨7, 14⟩, ⟨1, 8⟩, false, []⟩,
    ⟨.endOfFile, ⟨14, 14⟩, ⟨1, 15⟩, false, []⟩]
  partners := [none, none, none]
  nonempty := List.cons_ne_nil _ _

/-- The statement leaves an index behind that of the end, and the script is that of any other file. -/
theorem positions_stay_in_range_exportAtEnd :
    (∃ g f, IndexedFile.ofText exportAtEnd = .ok g ∧ File.ofText exportAtEnd = .ok f ∧
      g.script = .ok f.script ∧ f.script = "void          ") ∧
    tokenize exportAtEnd = .ok sheetAtEnd.tokens ∧ sheetOf sheetAtEnd.tokens = .ok sheetAtEnd ∧
      ∃ found, sheetAtEnd.statement .empty 0 = .ok (found, 3) ∧ 0 < 3 := by
  obtain ⟨hread, -, hlater⟩ := positions_stay_in_range exportAtEnd
  have hscript : (File.ofText exportAtEnd).toOption.map File.script = some "void          " := by
    decide +kernel
  have htokens : tokenize exportAtEnd = .ok sheetAtEnd.tokens := by
    rfl
  have hstatement : sheetAtEnd.statement .empty 0 =
      .ok (⟨⟨[], [], [], [], [⟨⟨0, 14⟩, "void"⟩]⟩, []⟩, 3) := by
    rfl
  refine ⟨?_, htokens, rfl, _, hstatement,
    hlater _ _ htokens rfl .empty 0 .first (by decide) _ _ hstatement⟩
  rcases hread with ⟨e, -, hfile⟩ | ⟨g, f, hg, hf, -, -, hsame⟩
  · rw [hfile] at hscript
    cases hscript
  · rw [hf] at hscript
    exact ⟨g, f, hg, hf, hsame, Option.some.inj hscript⟩

end TaskRunner.Proofs
