import TaskRunner.Proofs.RepeatedTokens
import TaskRunner.Proofs.StreamedLines
import TaskRunner.Proofs.WrittenSignatures

/-!
# Descriptions read back what was written

A description that is written as a block comment in front of a function is read back line by line, whatever
its lines hold: quotes, slashes, stars or tags. The function and its command have the same line of it as
their summary.
-/

namespace TaskRunner.Proofs
open Source Tree

/-! ## What is written -/

/-- A line of a description has no blank at its ends, and nothing in it ends the line or the comment. -/
structure IsDescriptionLine (line : String) : Prop where
  oneLine : '\n' ∉ line.toList
  first : ∀ c ∈ line.toList.head?, Text.isBlank c = false
  last : ∀ c ∈ line.toList.getLast?, Text.isBlank c = false
  unclosed : Unclosed line.toList

instance : DecidablePred Unclosed :=
  fun body => inferInstanceAs (Decidable ¬ ['*', '/'] <:+: body)

lemma isDescriptionLine_iff {line : String} :
    IsDescriptionLine line ↔ '\n' ∉ line.toList ∧ line.toList.head?.all (!Text.isBlank ·) = true ∧
      line.toList.getLast?.all (!Text.isBlank ·) = true ∧ Unclosed line.toList := by
  simp only [Option.all_eq_true, Bool.not_eq_true']
  exact ⟨fun h => ⟨h.oneLine, h.first, h.last, h.unclosed⟩,
    fun ⟨oneLine, first, last, unclosed⟩ => ⟨oneLine, first, last, unclosed⟩⟩

instance (line : String) : Decidable (IsDescriptionLine line) :=
  decidable_of_iff' _ isDescriptionLine_iff

/-- The lines of a description, neither the first nor the last of which is empty. -/
structure DescriptionForm where
  lines : List String
  isLine : ∀ line ∈ lines, IsDescriptionLine line
  nonempty : lines ≠ []
  first : lines.head? ≠ some ""
  last : lines.getLast? ≠ some ""

namespace DescriptionForm

def source (d : DescriptionForm) : String :=
  "\n".intercalate ("/**" :: (d.lines.map (" * " ++ ·) ++ [" */"]))

def text (d : DescriptionForm) : String :=
  "\n".intercalate d.lines

/-- The first line that is neither empty nor a tag. -/
def summary (d : DescriptionForm) : Option String :=
  d.lines.find? fun line => !line.isEmpty && !line.startsWith "@"

/-- The signature of a function with the description. -/
def signature (d : DescriptionForm) (f : SignatureForm) : Signature :=
  { f.signature with description := some d.text }

end DescriptionForm

/-! ## Joined lines -/

section Lines

variable {texts : List (List Char)}

lemma pieces_intercalate (hne : texts ≠ []) (htexts : ∀ text ∈ texts, '\n' ∉ text) :
    Text.pieces (['\n'].intercalate texts) = texts := by
  induction texts with
  | nil => exact absurd rfl hne
  | cons text more ih =>
    have htext := htexts text List.mem_cons_self
    cases more with
    | nil => rw [List.intercalate_singleton, pieces_last htext]
    | cons next more =>
      have hmore := ih (List.cons_ne_nil _ _) fun text htext => htexts text (List.mem_cons_of_mem _ htext)
      rw [List.intercalate_cons_cons, List.append_assoc, List.singleton_append, pieces_lineFeed htext, hmore]

lemma linesOfPieces_kept (hreturn : ∀ text ∈ texts, text.getLast? ≠ some '\r')
    (hlast : texts.getLast? ≠ some []) : Text.linesOfPieces texts = texts := by
  induction texts with
  | nil => rfl
  | cons text more ih =>
    cases more with
    | nil =>
      have htext : text ≠ [] := fun heq => hlast (heq ▸ rfl)
      simp [Text.linesOfPieces, htext]
    | cons next more =>
      have hmore := ih (fun text htext => hreturn text (List.mem_cons_of_mem _ htext))
        (by rwa [List.getLast?_cons_cons] at hlast)
      simp [Text.linesOfPieces, Text.dropReturn, hreturn text List.mem_cons_self, hmore]

/-- Lines that are joined are cut again, if the last one is not empty. -/
lemma lines_intercalate {lines : List String} (hne : lines ≠ [])
    (hlines : ∀ line ∈ lines, '\n' ∉ line.toList ∧ line.toList.getLast? ≠ some '\r')
    (hlast : lines.getLast? ≠ some "") : Text.lines ("\n".intercalate lines) = lines := by
  have hpieces : Text.pieces ("\n".intercalate lines).toList = lines.map String.toList := by
    rw [String.toList_intercalate]
    refine pieces_intercalate (by simpa using hne) ?_
    simpa using fun line hline => (hlines line hline).1
  rw [Text.lines, hpieces, linesOfPieces_kept]
  · simp
  · simpa using fun line hline => (hlines line hline).2
  · simpa [List.getLast?_map] using hlast

lemma intercalate_cons_flatMap (separator text : List Char) (more : List (List Char)) :
    separator.intercalate (text :: more) = text ++ more.flatMap (separator ++ ·) := by
  induction more generalizing text with
  | nil => simp
  | cons next more ih => rw [List.intercalate_cons_cons, ih, List.flatMap_cons, List.append_assoc, List.append_assoc]

end Lines

/-! ## Decoration -/

section Decoration

variable {line : String}

lemma dropWhile_kept {α : Type} {p : α → Bool} {items : List α} (h : ∀ a ∈ items.head?, p a = false) :
    items.dropWhile p = items := by
  cases items with
  | nil => rfl
  | cons a items => exact List.dropWhile_cons_of_neg (by simp [h a rfl])

lemma trim_kept (hfirst : ∀ c ∈ line.toList.head?, Text.isBlank c = false)
    (hlast : ∀ c ∈ line.toList.getLast?, Text.isBlank c = false) : Text.trim line = line := by
  rw [← List.head?_reverse] at hlast
  rw [Text.trim, Text.trimStartWith, dropWhile_kept hfirst, Text.trimEndWith, String.toList_ofList,
    dropWhile_kept hlast, List.reverse_reverse, String.ofList_toList]

lemma trim_blank {c : Char} (hblank : Text.isBlank c = true) (chars : List Char) :
    Text.trim (String.ofList (c :: chars)) = Text.trim (String.ofList chars) := by
  simp [Text.trim, Text.trimStartWith, hblank]

namespace IsDescriptionLine

lemma trim (h : IsDescriptionLine line) : Text.trim line = line :=
  trim_kept h.first h.last

lemma noReturn (h : IsDescriptionLine line) : line.toList.getLast? ≠ some '\r' := by
  intro hreturn
  have hblank := h.last _ hreturn
  revert hblank
  decide

lemma decorated_noReturn (h : IsDescriptionLine line) :
    (" * " ++ line).toList.getLast? ≠ some '\r' := by
  by_cases hempty : line = ""
  · subst hempty
    decide +kernel
  rw [String.toList_append, List.getLast?_append_of_ne_nil _ (by simpa using hempty)]
  exact h.noReturn

lemma plainLine_decorated (h : IsDescriptionLine line) : plainLine (" * " ++ line) = line := by
  -- the blank behind the star stays in the first pass only if something follows it
  by_cases hempty : line = ""
  · subst hempty
    decide +kernel
  have hspace : Text.isBlank ' ' = true := by decide
  have hstar : Text.trim ("* " ++ line) = "* " ++ line := by
    refine trim_kept (fun c hc => ?_) (fun c hc => ?_)
    · rw [String.toList_append] at hc
      obtain rfl := Option.some.inj hc
      decide
    · rw [String.toList_append, List.getLast?_append_of_ne_nil] at hc
      · exact h.last c hc
      · simpa using hempty
  have houter : Text.trim (" * " ++ line) = "* " ++ line := by
    have hchars : " * " ++ line = String.ofList (' ' :: ("* " ++ line).toList) := by
      simp [String.ext_iff]
    rw [hchars, trim_blank hspace, String.ofList_toList, hstar]
  have hinner : Text.trimStartWith (· == '*') ("* " ++ line) = String.ofList (' ' :: line.toList) := by
    simp [Text.trimStartWith]
  rw [plainLine, houter, hinner, trim_blank hspace, String.ofList_toList, h.trim]

end IsDescriptionLine

/-- The lines of the comment between its marks. -/
def decorated (lines : List String) : List String :=
  "*" :: (lines.map (" * " ++ ·) ++ [" "])

lemma forall_decorated {P : String → Prop} {lines : List String} (hfirst : P "*")
    (hlines : ∀ line ∈ lines, P (" * " ++ line)) (hlast : P " ") : ∀ line ∈ decorated lines, P line := by
  intro line hline
  rw [decorated, List.mem_cons, List.mem_append, List.mem_map, List.mem_singleton] at hline
  rcases hline with rfl | ⟨line, hline, rfl⟩ | rfl
  · exact hfirst
  · exact hlines line hline
  · exact hlast

lemma decorated_kept {lines : List String} (hlines : ∀ line ∈ lines, IsDescriptionLine line) :
    ∀ line ∈ decorated lines, '\n' ∉ line.toList ∧ line.toList.getLast? ≠ some '\r' := by
  refine forall_decorated (by decide +kernel) (fun line hline => ⟨?_, ?_⟩) (by decide +kernel)
  · simpa using (hlines line hline).oneLine
  · exact (hlines line hline).decorated_noReturn

lemma lines_decorated {lines : List String} (hlines : ∀ line ∈ lines, IsDescriptionLine line) :
    Text.lines ("\n".intercalate (decorated lines)) = decorated lines := by
  refine lines_intercalate (List.cons_ne_nil _ _) (decorated_kept hlines) ?_
  rw [decorated, ← List.cons_append, List.getLast?_concat]
  decide

lemma map_plainLine_decorated {lines : List String} (hlines : ∀ line ∈ lines, IsDescriptionLine line) :
    (decorated lines).map plainLine = "" :: (lines ++ [""]) := by
  have hmarks : plainLine "*" = "" ∧ plainLine " " = "" := by decide +kernel
  have hmiddle : (lines.map (" * " ++ ·)).map plainLine = lines := by
    rw [List.map_map]
    exact (List.map_congr_left fun line hline => (hlines line hline).plainLine_decorated).trans
      (List.map_id' lines)
  rw [decorated, List.map_cons, List.map_append, hmiddle, List.map_singleton, hmarks.1, hmarks.2]

/-- Without its decoration and the empty lines at its ends, the comment says the description. -/
lemma plainComment_decorated (d : DescriptionForm) {c : Comment}
    (hc : c.text = "\n".intercalate (decorated d.lines)) : plainComment c = some d.text := by
  have hempty : "".isEmpty = true := by decide
  have hfront : (d.lines ++ [""]).dropWhile String.isEmpty = d.lines ++ [""] := by
    refine dropWhile_kept fun line hline => ?_
    rw [List.head?_append_of_ne_nil _ d.nonempty] at hline
    exact Bool.eq_false_iff.mpr fun h => d.first (hline.trans (congrArg some (String.isEmpty_iff.mp h)))
  have hback : d.lines.reverse.dropWhile String.isEmpty = d.lines.reverse := by
    refine dropWhile_kept fun line hline => ?_
    rw [List.head?_reverse] at hline
    exact Bool.eq_false_iff.mpr fun h => d.last (hline.trans (congrArg some (String.isEmpty_iff.mp h)))
  have hkept : ((("" :: (d.lines ++ [""])).dropWhile String.isEmpty).reverse.dropWhile
      String.isEmpty).reverse = d.lines := by
    rw [List.dropWhile_cons_of_pos hempty, hfront, List.reverse_append, List.reverse_singleton,
      List.singleton_append, List.dropWhile_cons_of_pos hempty, hback, List.reverse_reverse]
  rw [plainComment, hc, lines_decorated d.isLine, map_plainLine_decorated d.isLine, hkept,
    if_neg (by simpa using d.nonempty), DescriptionForm.text]

/-- The summary of the text is the summary of the description. -/
lemma summaryOf_text (d : DescriptionForm) : summaryOf d.text = d.summary := by
  have hlines : Text.lines d.text = d.lines := lines_intercalate d.nonempty
    (fun line hline => ⟨(d.isLine line hline).oneLine, (d.isLine line hline).noReturn⟩) d.last
  have htrim : d.lines.map Text.trim = d.lines :=
    (List.map_congr_left fun line hline => (d.isLine line hline).trim).trans (List.map_id' d.lines)
  rw [summaryOf, hlines, htrim, DescriptionForm.summary]

lemma isAllBlank_text (d : DescriptionForm) : Text.isAllBlank d.text = false := by
  obtain ⟨first, more, hlines⟩ := List.exists_cons_of_ne_nil d.nonempty
  have hfirst : first ≠ "" := fun hempty => d.first (by rw [hlines, hempty, List.head?_cons])
  obtain ⟨c, chars, hchars⟩ := List.exists_cons_of_ne_nil (mt String.toList_eq_nil_iff.mp hfirst)
  have hblank : Text.isBlank c = false :=
    (d.isLine first (hlines ▸ List.mem_cons_self)).first c (by rw [hchars, List.head?_cons, Option.mem_def])
  rw [Text.isAllBlank, DescriptionForm.text, String.toList_intercalate, hlines, List.map_cons,
    intercalate_cons_flatMap, hchars, List.cons_append, List.all_cons, hblank, Bool.false_and]

end Decoration

/-! ## Comments in front of a token -/

section Comments

variable {regex : Bool} {cur : Cursor} {passed chars rest behind : List Char} {line : Bool} {found : List Comment}

lemma unclosed_lineFeed {front : List Char} (hfront : Unclosed front) (hbehind : Unclosed behind) :
    Unclosed (front ++ '\n' :: behind) := by
  induction front with
  | nil => exact unclosed_cons hbehind (by simp)
  | cons c front ih =>
    refine unclosed_cons (ih fun hinfix => hfront (List.infix_cons hinfix)) ?_
    rintro ⟨rfl, hhead⟩
    cases front with
    | nil => simp at hhead
    | cons d front =>
      obtain rfl : d = '/' := Option.some.inj hhead
      exact hfront ⟨[], front, rfl⟩

lemma unclosed_intercalate {texts : List (List Char)} (htexts : ∀ text ∈ texts, Unclosed text) :
    Unclosed (['\n'].intercalate texts) := by
  induction texts with
  | nil => simp [Unclosed]
  | cons text more ih =>
    have htext := htexts text List.mem_cons_self
    cases more with
    | nil => rwa [List.intercalate_singleton]
    | cons next more =>
      rw [List.intercalate_cons_cons, List.append_assoc, List.singleton_append]
      exact unclosed_lineFeed htext (ih fun text htext => htexts text (List.mem_cons_of_mem _ htext))

lemma unclosed_decorated {lines : List String} (hlines : ∀ line ∈ lines, IsDescriptionLine line) :
    Unclosed ("\n".intercalate (decorated lines)).toList := by
  have hmarks : Unclosed "*".toList ∧ Unclosed " ".toList := by decide +kernel
  have hdecoration : " * ".toList = [' ', '*', ' '] := by decide
  have hall : ∀ line ∈ decorated lines, Unclosed line.toList := by
    refine forall_decorated hmarks.1 (fun line hline => ?_) hmarks.2
    rw [String.toList_append, hdecoration]
    have hblank : Unclosed (' ' :: line.toList) := unclosed_cons (hlines line hline).unclosed (by simp)
    exact unclosed_cons (unclosed_cons hblank (by simp)) (by simp)
  rw [String.toList_intercalate]
  refine unclosed_intercalate fun text htext => ?_
  obtain ⟨line, hline, rfl⟩ := List.mem_map.mp htext
  exact hall line hline

lemma toList_description (d : DescriptionForm) :
    d.source.toList = blockComment ("\n".intercalate (decorated d.lines)).toList := by
  have hmarks : "/**".toList = ['/', '*', '*'] ∧ " */".toList = [' ', '*', '/'] ∧ "*".toList = ['*'] ∧
      " ".toList = [' '] := by decide
  simp [DescriptionForm.source, decorated, blockComment, String.toList_intercalate, intercalate_cons_flatMap,
    hmarks]

/-- A lexeme behind a gap is read as a token with the comments of the gap. -/
lemma tokenAt_behind {kind : Kind} (hskips : Skips passed (chars ++ rest) line found)
    (hopens : Opens (chars ++ rest)) (hlexeme : lexeme regex (chars ++ rest) = .ok (kind, chars.length))
    (hcur : cur.rest = passed ++ (chars ++ rest)) :
    ∃ t after, tokenAt regex cur = .ok (t, after) ∧ t.kind = kind ∧ t.comments.map seen = found ∧
      after.rest = rest := by
  obtain ⟨gap, hgap, -, hfound⟩ := hskips.gapAt hopens.gapLed hcur
  have hmid : (cur.advance passed.length).rest = chars ++ rest := advance_append hcur
  have hplain : ∀ more, (cur.advance passed.length).rest ≠ '\x60' :: more := by
    intro more heq
    exact (hopens '\x60' (by rw [← hmid, heq, List.head?_cons, Option.mem_def])).2.1 rfl
  have hkind : kindAt regex (cur.advance passed.length) =
      .ok (kind, (cur.advance passed.length).advance chars.length) := by
    rw [kindAt_lexeme hplain, lexemeAt, hmid, hlexeme]
  exact ⟨_, _, tokenAt_of_kindAt hgap hkind, rfl, hfound, advance_append hmid⟩

lemma between_blanks {blanks : List Char} (hblanks : ∀ c ∈ blanks, Text.isBlank c = true) (offset : Nat)
    (behind : List Char) : Between offset blanks behind [] := by
  induction blanks generalizing offset with
  | nil => exact .nothing
  | cons c blanks ih =>
    exact .blank (hblanks c List.mem_cons_self) (ih (fun d hd => hblanks d (List.mem_cons_of_mem _ hd)) _)

end Comments

/-! ## Functions with descriptions -/

/-- The description and the blanks behind it are skipped as one comment. -/
lemma skips_description (d : DescriptionForm) {blanks : List Char} (hblanks : ∀ c ∈ blanks, Text.isBlank c = true)
    (behind : List Char) :
    ∃ line, Skips (d.source.toList ++ blanks) behind line
      [⟨"\n".intercalate (decorated d.lines), true, ⟨0, 0⟩⟩] := by
  let body := ("\n".intercalate (decorated d.lines)).toList
  have hbetween : Between 0 (blockComment body ++ blanks) behind
      [⟨String.ofList body, true, ⟨0, 0 + byteCount (blockComment body)⟩⟩] :=
    .block (unclosed_decorated d.isLine) (between_blanks hblanks _ behind)
  obtain ⟨line, hskips⟩ := hbetween.skips
  have hcomment := hskips behind id
  rw [List.map_singleton, seen, String.ofList_toList] at hcomment
  exact ⟨line, toList_description d ▸ hcomment⟩

/-- What is written with a description is cut and nested as the function, and the description stands before
its first token. -/
lemma nested_described (d : DescriptionForm) (f : SignatureForm) {blanks : List Char}
    (hblanks : ∀ c ∈ blanks, Text.isBlank c = true) :
    ∃ tokens nested keyword behind, tokenize (d.source ++ String.ofList blanks ++ f.source) = .ok tokens ∧
      nest tokens = .ok nested ∧ nested.trees = leaf keyword :: behind ∧ keyword.kind = .ident "export" ∧
      keyword.comments.map seen = [⟨"\n".intercalate (decorated d.lines), true, ⟨0, 0⟩⟩] ∧
      IsFunctionTail f behind := by
  have hexport : IsIdentifier "export" := by decide +kernel
  obtain ⟨tail, hsource, hends, htail⟩ := readAs_functionTail f
  obtain ⟨line, hskips⟩ := skips_description d hblanks ("export".toList ++ tail)
  let text := d.source ++ String.ofList blanks ++ f.source
  have htext : text.toList = (d.source.toList ++ blanks) ++ ("export".toList ++ tail) := by
    rw [String.toList_append, String.toList_append, String.toList_ofList, hsource]
  have hopens : Opens ("export".toList ++ tail) :=
    opens_cons (startsToken_of_isNameStart (by decide)) _
  have hstart : (Cursor.start text.toList).rest = _ := htext
  obtain ⟨keyword, after, htoken, hkind, hcomments, hafter⟩ :=
    tokenAt_behind hskips hopens (lexeme_identifier hexport hends true) hstart
  -- behind the first token all is read as without a description
  have hrest : after.rest = [] ++ (tail ++ []) := by rw [hafter, List.nil_append, List.append_nil]
  obtain ⟨tokens, behind, regex, last, spaces, hscans, hspaces, hlast, hnests, hfunction⟩ :=
    htail keyword.kind.regexMayFollow after [] spaces_nil hrest
  have hword : keyword.kind ≠ .endOfFile := by
    rw [hkind]
    exact Kind.noConfusion
  have hmark : ∀ mark, keyword.kind = .punct mark → IsPlainMark mark := by
    rw [hkind]
    exact fun _ h => Kind.noConfusion h
  have hfirst : firstCursor text.toList = Cursor.start text.toList := by
    rw [htext, toList_description]
    rfl
  rw [List.append_nil] at hlast
  obtain ⟨all, nested, hall, hnested, htrees⟩ := Scans.nested (.next htoken hword hscans) hspaces hlast
    ((nests_leaf hword hmark).append hnests) hfirst
  exact ⟨all, nested, keyword, behind, hall, hnested, htrees, hkind, hcomments, hfunction⟩

/-- A description in front of a function is read back, and the function and its command have the first line
of it as their summary that is neither empty nor a tag. -/
theorem written_description_reads_back (d : DescriptionForm) (f : SignatureForm) («namespace» : String)
    {blanks : List Char} (hblanks : ∀ c ∈ blanks, Text.isBlank c = true) :
    ∃ file, File.ofText (d.source ++ String.ofList blanks ++ f.source) = .ok file ∧
      file.signatures = [d.signature f] ∧ (d.signature f).summary = d.summary ∧
      ∃ command, file.commands «namespace» = [command] ∧ command.comment = some d.text ∧
        command.summary = d.summary := by
  obtain ⟨tokens, nested, keyword, behind, htokens, hnested, htrees, hkeyword, hcomments, hfunction⟩ :=
    nested_described d f hblanks
  obtain ⟨outline, g, houtline, hexports, hfunctions, hname, hsignature⟩ :=
    outlineOf_functionTail htrees hkeyword hfunction
  obtain ⟨comment, hcomment, hseen⟩ := List.map_eq_singleton_iff.mp hcomments
  have hdescription : (keyword.comments.getLast?.filter Comment.isBlock).bind plainComment = some d.text := by
    have hblock : comment.isBlock = true := congrArg Comment.isBlock hseen
    rw [hcomment, List.getLast?_singleton, Option.filter_some_pos hblock, Option.bind_some]
    exact plainComment_decorated d (congrArg Comment.text hseen)
  rw [hdescription] at hsignature
  let file : File := ⟨d.source ++ String.ofList blanks ++ f.source, outline⟩
  let command := (d.signature f).toCommand «namespace» f.name.val
  have hread : File.ofText (d.source ++ String.ofList blanks ++ f.source) = .ok file := by
    simp [File.ofText, htokens, hnested, houtline, bind, Except.bind, file]
  have hlocal : file.localName? f.name.val = some f.name.val := by
    simp [File.localName?, File.exports, file, hexports]
  have hfound : file.function? f.name.val = some g := by
    simp [File.function?, file, hfunctions, hname]
  have hexported : file.functionExports = [⟨f.name.val, f.name.val⟩] := by
    simp [File.functionExports, File.exports, file, hexports, hfound]
  have hdeclared : file.signature f.name.val = d.signature f := by
    rw [File.signature, hlocal, Option.getD_some, hfound]
    exact hsignature
  have hkept : command.comment = some d.text := by
    simp [command, Signature.toCommand, Command.withComment, DescriptionForm.signature, isAllBlank_text]
  refine ⟨file, hread, ?_, summaryOf_text d, command, ?_, hkept, ?_⟩
  · rw [File.signatures, hexported, List.map_singleton, hdeclared]
  · rw [File.commands, hexported, List.map_singleton, hdeclared, hlocal, Option.getD_some]
  · rw [Command.summary, hkept, Option.bind_some, summaryOf_text]

theorem written_description_reads_back_tagged :
    (∀ c ∈ ['\n'], Text.isBlank c = true) ∧
    ∃ file, File.ofText ("/**\n * @since 2\n * \n * Says \"it's /* old\" *\n * // now\n */\n" ++
        "export function f() \x7b\x7d") = .ok file ∧
      file.signatures = [⟨"f", [], some "@since 2\n\nSays \"it's /* old\" *\n// now"⟩] ∧
      file.signatures.map Signature.summary = [some "Says \"it's /* old\" *"] ∧
      ∃ command, file.commands "" = [command] ∧
        command.comment = some "@since 2\n\nSays \"it's /* old\" *\n// now" ∧
        command.summary = some "Says \"it's /* old\" *" := by
  let d : DescriptionForm := ⟨["@since 2", "", "Says \"it's /* old\" *", "// now"], by decide +kernel,
    by decide, by decide, by decide⟩
  let f : SignatureForm := ⟨⟨"f", by decide +kernel⟩, [], none⟩
  have hsource : d.source ++ String.ofList ['\n'] ++ f.source =
      "/**\n * @since 2\n * \n * Says \"it's /* old\" *\n * // now\n */\n" ++
        "export function f() \x7b\x7d" := by decide +kernel
  have htext : d.text = "@since 2\n\nSays \"it's /* old\" *\n// now" := by decide +kernel
  have hline : d.summary = some "Says \"it's /* old\" *" := by decide +kernel
  have hblanks : ∀ c ∈ ['\n'], Text.isBlank c = true := by
    intro c hc
    obtain rfl := List.mem_singleton.mp hc
    decide
  obtain ⟨file, hread, hsignatures, hsummary, command, hcommands, hcomment, hcommand⟩ :=
    written_description_reads_back d f "" hblanks
  refine ⟨hblanks, file, hsource ▸ hread, ?_, ?_, command, hcommands, ?_, ?_⟩
  · rw [hsignatures, DescriptionForm.signature, htext]
    rfl
  · rw [hsignatures, List.map_singleton, hsummary, hline]
  · rw [hcomment, htext]
  · rw [hcommand, hline]

end TaskRunner.Proofs
