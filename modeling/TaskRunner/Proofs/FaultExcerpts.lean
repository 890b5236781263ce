import TaskRunner.Proofs.OffendingTokens
import TaskRunner.Proofs.RepeatedTokens
import TaskRunner.Proofs.StreamedLines
import TaskRunner.Proofs.WrittenTemplates
import TaskRunner.Report.Diagnostic

/-!
# Excerpts of malformed files

The message about a malformed file shows the line at fault, behind its number, and below it a caret. The line is
cut out of the text, and its number and the column are those that the reader counts; both agree, since a file is
never refused at a line end. The caret stands in the column behind a margin as wide as numbers of up to four
digits make it, and a byte order mark at the start of the first line is shown but not counted.
-/

namespace TaskRunner.Proofs
open Source Report

/-! ## Where a file is refused -/

section Refused

variable {chars : List Char} {cur after mid : Cursor} {place : Place}

/-- The place is one behind characters of the text at which no line end stands. -/
def StandsInLine (chars : List Char) (place : Place) : Prop :=
  ∃ cur, Located chars cur ∧ place = cur.place ∧ ∀ c ∈ cur.rest.head?, isLineTerminator c = false

lemma noLineEnd_of_gapLed (h : gapLed chars = false) : ∀ c ∈ chars.head?, isLineTerminator c = false := by
  cases chars with
  | nil => exact fun c hc => nomatch hc
  | cons d rest =>
    intro c hc
    obtain rfl := Option.some.inj hc
    simp only [gapLed, Bool.or_eq_false_iff] at h
    exact h.1.2

lemma FaultAt.standsInLine {fault : Fault} (h : FaultAt chars fault cur) : StandsInLine chars cur.place := by
  obtain ⟨hlocated, hstarts⟩ := h.located
  refine ⟨cur, hlocated, rfl, ?_⟩
  cases h with
  | comment =>
    obtain ⟨body, hrest, -⟩ := hstarts
    rw [hrest]
    rintro c ⟨⟩
    decide
  | lexeme _ _ gap _ _ => exact noLineEnd_of_gapLed (gapAt_led gap)
  | text _ _ | hole _ _ _ =>
    obtain ⟨body, hrest⟩ := hstarts
    rw [hrest]
    rintro c ⟨⟩
    decide

lemma tokenAt_standsInLine {regex : Bool} {t : Token} (hcur : Located chars cur)
    (h : tokenAt regex cur = .ok (t, after)) : StandsInLine chars t.place := by
  obtain ⟨gap, mid, hgap, -, ht⟩ := tokenAt_cases h
  rw [ht]
  exact ⟨mid, hcur.forward (gapAt_forward hgap), rfl, noLineEnd_of_gapLed (gapAt_led hgap)⟩

lemma Scans.standInLine {regex regex' : Bool} {tokens : List Token} (h : Scans regex cur tokens regex' after)
    (hcur : Located chars cur) : ∀ t ∈ tokens, StandsInLine chars t.place := by
  induction h with
  | done => exact fun t ht => absurd ht List.not_mem_nil
  | next token kind _ ih =>
    obtain ⟨mid, gap, lexeme, hread⟩ := tokenAt_ok token
    intro t ht
    rcases List.mem_cons.mp ht with rfl | ht
    · exact tokenAt_standsInLine hcur token
    · exact ih (hread.truePlace hcur).2 t ht

lemma tokenize_standInLine {text : String} {tokens : List Token} (h : tokenize text = .ok tokens) :
    ∀ t ∈ tokens, StandsInLine text.toList t.place := by
  unfold tokenize at h
  dsimp only at h
  rcases tokensFrom_cases true (Nat.lt_succ_self (firstCursor text.toList).rest.length) with
    ⟨body, regex', last, ending, after, hscans, hending, -, heq⟩ | ⟨_, _, _, e, -, -, heq⟩
  · cases heq.symm.trans h
    have hfirst := firstCursor_located text.toList
    intro t ht
    rcases List.mem_append.mp ht with ht | ht
    · exact hscans.standInLine hfirst t ht
    · rw [List.mem_singleton.mp ht]
      exact tokenAt_standsInLine (hscans.truePlaces hfirst).2 hending
  · cases heq.symm.trans h

/-- A file is refused at a place in a line, or behind its last character. -/
lemma refused_standsInLine {text : String} {e : SyntaxError} (h : File.ofText text = .error e) :
    StandsInLine text.toList e.place := by
  cases htokens : tokenize text with
  | error e' =>
    have hsame : e' = e := by
      unfold File.ofText at h
      rw [htokens] at h
      exact Except.error.inj h
    subst hsame
    obtain ⟨cur, hfault, hplace⟩ := tokenize_error htokens
    rw [hplace]
    exact hfault.standsInLine
  | ok tokens =>
    obtain ⟨t, ht, hrefused⟩ := ofText_error htokens h
    rw [hrefused.blames.place]
    exact tokenize_standInLine htokens t ht

end Refused

/-! ## Lines of a text -/

section Lines
open Text

variable {before behind front : List Char} {c : Char}

/-- What stands behind the last line feed. -/
def lastLine (before : List Char) : List Char :=
  (before.reverse.takeWhile (· != '\n')).reverse

lemma lastLine_cons (c : Char) (before : List Char) :
    lastLine (c :: before) = if c = '\n' ∨ '\n' ∈ before then lastLine before else c :: lastLine before := by
  have hall : (before.reverse.takeWhile (· != '\n')).length = before.reverse.length ↔ '\n' ∉ before := by
    rw [(List.takeWhile_sublist _).length_eq, List.takeWhile_eq_self_iff]
    simp only [List.mem_reverse, bne_iff_ne]
    exact ⟨fun h hmem => h _ hmem rfl, fun h d hd hfeed => h (hfeed ▸ hd)⟩
  rw [lastLine, lastLine, List.reverse_cons, List.takeWhile_append]
  by_cases hmem : '\n' ∈ before
  · rw [if_neg (mt hall.mp (not_not_intro hmem)), if_pos (.inr hmem)]
  · have hwhole := (List.takeWhile_sublist _).length_eq.mp (hall.mpr hmem)
    rw [if_pos (hall.mpr hmem), hwhole]
    by_cases hfeed : c = '\n'
    · simp [hfeed]
    · simp [hfeed, hmem]

lemma pieces_ne_nil (chars : List Char) : pieces chars ≠ [] := by
  cases chars with
  | nil => exact List.cons_ne_nil _ _
  | cons c rest =>
    rw [pieces]
    split
    · exact List.cons_ne_nil _ _
    · split <;> exact List.cons_ne_nil _ _

lemma pieces_cons_lineFeed (rest : List Char) : pieces ('\n' :: rest) = [] :: pieces rest :=
  pieces_lineFeed List.not_mem_nil rest

lemma pieces_cons (hc : c ≠ '\n') (rest : List Char) :
    ∃ piece more, pieces rest = piece :: more ∧ pieces (c :: rest) = (c :: piece) :: more := by
  obtain ⟨piece, more, hrest⟩ := List.exists_cons_of_ne_nil (pieces_ne_nil rest)
  exact ⟨piece, more, hrest, by simp [pieces, hc, hrest]⟩

lemma head?_pieces (chars : List Char) : (pieces chars).head? = some (chars.takeWhile (· != '\n')) := by
  induction chars with
  | nil => rfl
  | cons c rest ih =>
    by_cases hc : c = '\n'
    · subst hc
      rw [pieces_cons_lineFeed]
      rfl
    · obtain ⟨piece, more, hrest, hpieces⟩ := pieces_cons hc rest
      rw [hrest] at ih
      rw [hpieces, List.takeWhile_cons_of_pos (by simpa using hc), ← Option.some.inj ih]
      rfl

/-- The piece with the end of a front of the text is numbered by the line feeds in the front. -/
lemma pieces_getElem? (before behind : List Char) :
    (pieces (before ++ behind))[before.count '\n']? =
      some (lastLine before ++ behind.takeWhile (· != '\n')) := by
  induction before with
  | nil => exact List.head?_eq_getElem?.symm.trans (head?_pieces behind)
  | cons c before ih =>
    rw [List.cons_append, lastLine_cons]
    by_cases hc : c = '\n'
    · subst hc
      rw [pieces_cons_lineFeed, List.count_cons_self, List.getElem?_cons_succ, ih, if_pos (.inl rfl)]
    · obtain ⟨piece, more, hrest, hpieces⟩ := pieces_cons hc (before ++ behind)
      rw [hrest] at ih
      rw [hpieces, List.count_cons_of_ne hc]
      cases hcount : before.count '\n' with
      | zero =>
        have hmem : '\n' ∉ before := List.count_eq_zero.mp hcount
        rw [hcount] at ih
        rw [if_neg (by simp [hc, hmem]), List.getElem?_cons_zero, Option.some.inj ih]
        rfl
      | succ k =>
        have hmem : '\n' ∈ before := List.count_pos_iff.mp (hcount ▸ Nat.succ_pos k)
        rw [hcount] at ih
        rw [if_pos (.inr hmem), ← ih]
        rfl

lemma length_pieces (chars : List Char) : (pieces chars).length = chars.count '\n' + 1 := by
  induction chars with
  | nil => rfl
  | cons c rest ih =>
    by_cases hc : c = '\n'
    · rw [hc, pieces_cons_lineFeed, List.length_cons, ih, List.count_cons_self]
    · obtain ⟨piece, more, hrest, hpieces⟩ := pieces_cons hc rest
      rw [hrest] at ih
      rw [hpieces, List.count_cons_of_ne hc, ← ih]
      rfl

/-- A piece is shown as a line: in front of a line feed without a carriage return at its end, and behind the
last line feed if there is something. -/
def shownLine (isLast : Bool) (piece : List Char) : Option (List Char) :=
  if isLast then (if piece.isEmpty then none else some piece) else some (dropReturn piece)

lemma linesOfPieces_getElem? (all : List (List Char)) (i : Nat) :
    (linesOfPieces all)[i]? = all[i]?.bind (shownLine (i + 1 == all.length)) := by
  induction all generalizing i with
  | nil => rfl
  | cons piece rest ih =>
    cases rest with
    | nil =>
      cases i with
      | zero => cases piece <;> rfl
      | succ i => cases piece <;> simp [linesOfPieces]
    | cons next rest =>
      cases i with
      | zero => simp [linesOfPieces, shownLine]
      | succ i => simpa [linesOfPieces] using ih i

lemma dropReturn_append (front : List Char) (hc : c ≠ '\r') (behind : List Char) :
    ∃ ahead, dropReturn (front ++ c :: behind) = front ++ c :: ahead := by
  rw [dropReturn]
  split
  · next hlast =>
    cases behind with
    | nil =>
      rw [List.getLast?_concat, beq_iff_eq, Option.some.injEq] at hlast
      exact absurd hlast hc
    | cons d behind =>
      exact ⟨(d :: behind).dropLast, by rw [List.dropLast_append_of_ne_nil (List.cons_ne_nil _ _)]; rfl⟩
  · exact ⟨behind, rfl⟩

/-- The line with the end of a front of the text shows the end of the front, and then what stands behind it if
this is no line end. Only behind the last line feed, at the end of the text, there may be no such line. -/
lemma lines_getElem? {text : String} (htext : text.toList = before ++ behind)
    (hbehind : ∀ c ∈ behind.head?, isLineTerminator c = false) :
    (Text.lines text)[before.count '\n']? = none ∨
      ∃ line ahead, (Text.lines text)[before.count '\n']? = some line ∧
        line.toList = lastLine before ++ ahead ∧ ahead.head? = behind.head? := by
  rw [Text.lines, htext, List.getElem?_map, linesOfPieces_getElem?, pieces_getElem?, Option.bind_some]
  cases behind with
  | nil =>
    have hlast : (before.count '\n' + 1 == (pieces (before ++ [])).length) = true := by
      rw [List.append_nil, length_pieces, beq_self_eq_true]
    rw [hlast, List.takeWhile_nil, List.append_nil, shownLine, if_pos rfl]
    cases hline : lastLine before with
    | nil => exact .inl rfl
    | cons c line => exact .inr ⟨_, [], rfl, by simp, rfl⟩
  | cons c behind =>
    have hc : c ≠ '\n' ∧ c ≠ '\r' := by
      have hterminator := hbehind c rfl
      constructor <;> rintro rfl <;> exact absurd hterminator (by decide)
    rw [List.takeWhile_cons_of_pos (by simpa using hc.1)]
    refine .inr ?_
    cases before.count '\n' + 1 == (pieces (before ++ c :: behind)).length with
    | true =>
      rw [shownLine, if_pos rfl, if_neg (by simp)]
      exact ⟨_, c :: behind.takeWhile (· != '\n'), rfl, String.toList_ofList, rfl⟩
    | false =>
      obtain ⟨ahead, hahead⟩ := dropReturn_append (lastLine before) hc.2 (behind.takeWhile (· != '\n'))
      rw [shownLine, if_neg Bool.false_ne_true, hahead]
      exact ⟨_, c :: ahead, rfl, String.toList_ofList, rfl⟩

end Lines

/-! ## Columns -/

section Columns

variable {before behind : List Char} {text : String} {e : SyntaxError}

/-- The text starts with a byte order mark. -/
def Marked (chars : List Char) : Prop :=
  chars.head? = some '\ufeff'

lemma withoutMark_cases (before : List Char) :
    (∃ rest, before = '\ufeff' :: rest ∧ withoutMark before = rest) ∨
      ¬ Marked before ∧ withoutMark before = before := by
  cases before with
  | nil => exact .inr ⟨nofun, rfl⟩
  | cons c rest =>
    by_cases hc : c = '\ufeff'
    · subst hc
      exact .inl ⟨rest, rfl, rfl⟩
    · exact .inr ⟨fun h => hc (Option.some.inj h), by simp [withoutMark, hc]⟩

lemma placeBehind_line (before : List Char) : (placeBehind before).line = before.count '\n' + 1 := by
  rw [placeBehind, Nat.add_comm]
  rcases withoutMark_cases before with ⟨rest, rfl, hrest⟩ | ⟨-, hrest⟩
  · rw [hrest, List.count_cons_of_ne (by decide)]
  · rw [hrest]

/-- The column counts the characters of the last line, but for a byte order mark on the first line. -/
lemma placeBehind_column (before : List Char) :
    (Marked before ∧ (placeBehind before).line = 1 →
      (lastLine before).length = (placeBehind before).column) ∧
    (¬ (Marked before ∧ (placeBehind before).line = 1) →
      (lastLine before).length + 1 = (placeBehind before).column) := by
  have hcolumn : (placeBehind before).column = (lastLine (withoutMark before)).length + 1 := by
    rw [placeBehind, lastLine, List.length_reverse]
    exact Nat.add_comm _ _
  have hline := placeBehind_line before
  rcases withoutMark_cases before with ⟨rest, rfl, hrest⟩ | ⟨hmarked, hrest⟩
  · have hfirst : (placeBehind ('\ufeff' :: rest)).line = 1 ↔ '\n' ∉ rest := by
      rw [hline, List.count_cons_of_ne (by decide), Nat.add_eq_right, List.count_eq_zero]
    rw [hcolumn, hrest, lastLine_cons]
    constructor
    · rintro ⟨-, hone⟩
      rw [if_neg (by simpa using hfirst.mp hone), List.length_cons]
    · intro hnot
      have hmem : '\n' ∈ rest := not_not.mp fun h => hnot ⟨rfl, hfirst.mpr h⟩
      rw [if_pos (.inr hmem)]
  · rw [hcolumn, hrest]
    exact ⟨fun h => absurd h.1 hmarked, fun _ => rfl⟩

/-- What stands in front of the text of a line in an excerpt. -/
def lineLabel (number : Nat) : String :=
  "  " ++ rightAligned 4 number ++ " | "

/-- What stands in front of the caret in an excerpt. -/
def caretMargin (column : Nat) : String :=
  "       | " ++ spaces (column - 1)

lemma length_caretMargin (column : Nat) : (caretMargin column).length = 9 + (column - 1) := by
  simp only [caretMargin, spaces, String.length_append, String.length_ofList, List.length_replicate]
  rfl

/-- The label is as wide as the margin for numbers of at most four digits, and wider for longer ones. -/
lemma length_lineLabel (number : Nat) :
    9 ≤ (lineLabel number).length ∧ ((lineLabel number).length = 9 ↔ number < 10000) := by
  have hdigits : (toString number).length ≤ 4 ↔ number < 10000 := by
    rw [Nat.toString_eq_ofList_toDigits, String.length_ofList]
    exact Nat.length_toDigits_le_iff (by decide) (by decide)
  have hlength : (lineLabel number).length =
      2 + (4 - (toString number).length + (toString number).length) + 3 := by
    simp only [lineLabel, rightAligned, String.length_append, String.length_ofList, List.length_replicate]
    rfl
  rw [← hdigits]
  omega

/-- The excerpt of a text shows the line at fault and the caret, if there is such a line. -/
lemma excerpt_cases (text : String) (place : Place) :
    ((Text.lines text)[place.line - 1]? = none ∧ excerpt false text place = []) ∨
      ∃ line, (Text.lines text)[place.line - 1]? = some line ∧
        excerpt false text place = ["", lineLabel place.line ++ line, caretMargin place.column ++ "^"] := by
  rw [excerpt]
  cases (Text.lines text)[place.line - 1]? with
  | none => exact .inl ⟨rfl, rfl⟩
  | some line => exact .inr ⟨line, rfl, rfl⟩

/-- With the text, the message has the excerpt in it, and nothing else is different. -/
lemma syntaxDiagnostic_lines (path : String) (e : SyntaxError) : ∃ front back : List String,
    syntaxDiagnostic false path e none = "\n".intercalate (front ++ back) ∧
      ∀ text, syntaxDiagnostic false path e (some text) =
        "\n".intercalate (front ++ excerpt false text e.place ++ back) := by
  simp only [syntaxDiagnostic, List.append_assoc, List.nil_append]
  exact ⟨_, _, rfl, fun _ => rfl⟩

/-- The message about a file that is refused shows no excerpt only if its lines end before the place. Otherwise
it shows the line at fault and a caret below. The caret stands in the counted column of the line exactly if the
number of the line has at most four digits. It stands below the character at fault, or behind the last character
at the end of the file, exactly if in addition there is no byte order mark on this line. -/
theorem caret_points_iff (path : String) (h : File.ofText text = .error e) :
    ∃ front back : List String,
      syntaxDiagnostic false path e none = "\n".intercalate (front ++ back) ∧
      ((Text.lines text).length < e.place.line ∧
          syntaxDiagnostic false path e (some text) = "\n".intercalate (front ++ back) ∨
        ∃ line before behind passed ahead,
          (Text.lines text)[e.place.line - 1]? = some line ∧
          syntaxDiagnostic false path e (some text) = "\n".intercalate (front ++
            ["", lineLabel e.place.line ++ line, caretMargin e.place.column ++ "^"] ++ back) ∧
          text.toList = before ++ behind ∧ e.place = placeBehind before ∧
          line.toList = passed ++ ahead ∧ ahead.head? = behind.head? ∧
          ((caretMargin e.place.column).length = (lineLabel e.place.line).length + (e.place.column - 1) ↔
            e.place.line < 10000) ∧
          ((caretMargin e.place.column).length = (lineLabel e.place.line).length + passed.length ↔
            e.place.line < 10000 ∧ ¬ (e.place.line = 1 ∧ Marked text.toList))) := by
  obtain ⟨front, back, hnothing, hmessage⟩ := syntaxDiagnostic_lines path e
  refine ⟨front, back, hnothing, ?_⟩
  obtain ⟨cur, ⟨before, htext, -, hplace, hmark⟩, hcur, hstands⟩ := refused_standsInLine h
  have he : e.place = placeBehind before := hcur.trans hplace
  have hline : e.place.line - 1 = before.count '\n' := by rw [he, placeBehind_line, Nat.add_sub_cancel]
  rcases excerpt_cases text e.place with ⟨hnone, hexcerpt⟩ | ⟨line, hsome, hexcerpt⟩
  · refine .inl ⟨?_, by rw [hmessage, hexcerpt, List.append_nil]⟩
    rw [List.getElem?_eq_none_iff] at hnone
    have hpos : 0 < e.place.line := by rw [he, placeBehind_line]; exact Nat.succ_pos _
    omega
  · refine .inr ?_
    rcases lines_getElem? htext hstands with hnone | ⟨line', ahead, hsome', hchars, hahead⟩
    · rw [hline, hnone] at hsome
      cases hsome
    · rw [hline, hsome'] at hsome
      obtain rfl := Option.some.inj hsome
      have hmarked : Marked text.toList ↔ Marked before := by
        rw [Marked, Marked, htext]
        cases before with
        | nil => simpa using fun hc => hmark rfl _ hc rfl
        | cons c rest => rfl
      obtain ⟨hcounted, hplain⟩ := placeBehind_column before
      obtain ⟨hwide, hfour⟩ := length_lineLabel e.place.line
      rw [← he, ← hmarked] at hcounted hplain
      refine ⟨line', before, cur.rest, lastLine before, ahead, by rw [hline, hsome'],
        by rw [hmessage, hexcerpt], htext, he, hchars, hahead, ?_, ?_⟩
      · rw [length_caretMargin, ← hfour]
        omega
      · rw [length_caretMargin, ← hfour]
        by_cases hfirst : e.place.line = 1 ∧ Marked text.toList
        · have hlength := hcounted hfirst.symm
          have hcolumn : 0 < e.place.column := by rw [he]; exact Nat.add_pos_left Nat.one_pos _
          rw [iff_false_right fun hboth => hboth.2 hfirst]
          omega
        · have hlength := hplain (mt And.symm hfirst)
          rw [and_iff_left hfirst]
          omega

/-- The caret stands below the character at fault, also on the third line of a text with a byte order mark. -/
theorem caret_points_iff_unclosedText : File.ofText unclosedText = .error ⟨.unterminatedString, ⟨3, 2⟩⟩ ∧
    ∃ front back line passed ahead, (Text.lines unclosedText)[2]? = some line ∧
      syntaxDiagnostic false "Bunoshfile.js" ⟨.unterminatedString, ⟨3, 2⟩⟩ (some unclosedText) =
        "\n".intercalate (front ++ ["", lineLabel 3 ++ line, caretMargin 2 ++ "^"] ++ back) ∧
      line.toList = passed ++ ahead ∧ (caretMargin 2).length = (lineLabel 3).length + passed.length := by
  refine ⟨rfl, ?_⟩
  obtain ⟨front, back, -, ⟨hends, -⟩ |
      ⟨line, before, behind, passed, ahead, hline, hshown, -, -, hchars, -, -, hiff⟩⟩ :=
    @caret_points_iff unclosedText ⟨.unterminatedString, ⟨3, 2⟩⟩ "Bunoshfile.js" rfl
  · exact absurd hends (by decide +kernel)
  · exact ⟨front, back, line, passed, ahead, hline, hshown, hchars,
      hiff.mpr ⟨by decide, fun h => absurd h.1 (by decide)⟩⟩

end Columns

/-! ## Faults behind empty lines -/

section EmptyLines

variable {c : Char} {rest : List Char} {fault : Fault}

lemma skips_lineFeeds (n : Nat) (behind : List Char) : ∃ line, Skips (List.replicate n '\n') behind line [] := by
  induction n with
  | zero => exact ⟨false, skips_nothing behind⟩
  | succ n ih =>
    obtain ⟨line, hmore⟩ := ih
    exact ⟨_, (skips_blank (by decide) _).trans hmore⟩

lemma lastLine_lineFeeds (n : Nat) : lastLine (List.replicate n '\n') = [] := by
  induction n with
  | zero => rfl
  | succ n ih => rw [List.replicate_succ, lastLine_cons, if_pos (.inl rfl), ih]

lemma placeBehind_lineFeeds (n : Nat) : placeBehind (List.replicate n '\n') = ⟨n + 1, 1⟩ := by
  have hmarked : ¬ Marked (List.replicate n '\n') := by
    cases n with
    | zero => nofun
    | succ n => simp [Marked, List.replicate_succ]
  have hline := placeBehind_line (List.replicate n '\n')
  have hcolumn := (placeBehind_column (List.replicate n '\n')).2 (mt And.left hmarked)
  rw [List.count_replicate_self] at hline
  rw [lastLine_lineFeeds] at hcolumn
  rw [← hline, ← show _ = 1 from hcolumn.symm]

/-- A fault at the start of a line behind empty lines is found there. -/
lemma ofText_lineFeeds (n : Nat) (hled : gapLed (c :: rest) = false)
    (hc : c ≠ '\x60' ∧ c ≠ '\ufeff' ∧ c ≠ '#') (hlexeme : lexeme true (c :: rest) = .error fault) :
    File.ofText (String.ofList (List.replicate n '\n' ++ c :: rest)) = .error ⟨fault, ⟨n + 1, 1⟩⟩ := by
  let chars := List.replicate n '\n' ++ c :: rest
  let cur := Cursor.start chars
  have hfirst : firstCursor chars = cur := by
    refine firstCursor_start fun d hd => ?_
    cases n with
    | zero =>
      obtain rfl := Option.some.inj hd
      exact hc.2
    | succ n =>
      obtain rfl := Option.some.inj hd
      decide
  obtain ⟨line, hskips⟩ := skips_lineFeeds n (c :: rest)
  have hcur : cur.rest = List.replicate n '\n' ++ c :: rest := rfl
  obtain ⟨gap, hgap, -⟩ := hskips.gapAt hled hcur
  rw [List.length_replicate] at hgap
  have hmid : (cur.advance n).rest = c :: rest := by
    simpa using advance_append hcur
  have hplace : (cur.advance n).place = ⟨n + 1, 1⟩ := by
    have hlocated : Located chars cur := hfirst ▸ firstCursor_located chars
    obtain ⟨before, hchars, -, hplace, -⟩ := hlocated.advance n
    rw [hmid] at hchars
    rw [hplace, ← List.append_cancel_right hchars, placeBehind_lineFeeds]
  have htoken : tokenAt true cur = .error ⟨fault, ⟨n + 1, 1⟩⟩ := by
    have hno : ∀ more, (cur.advance n).rest ≠ '\x60' :: more := by
      rw [hmid]
      exact fun more h => hc.1 (List.cons.inj h).1
    rw [tokenAt_gap hgap, kindAt_lexeme hno, lexemeAt, hmid, hlexeme, ← hplace]
    rfl
  have htokens : tokenize (String.ofList chars) = .error ⟨fault, ⟨n + 1, 1⟩⟩ := by
    rw [tokenize, String.toList_ofList, hfirst, tokensFrom, htoken]
    rfl
  rw [File.ofText, htokens]
  rfl

/-- A last line behind empty lines is shown as it is. -/
lemma lines_lineFeeds (n : Nat) (hrest : '\n' ∉ c :: rest) :
    (Text.lines (String.ofList (List.replicate n '\n' ++ c :: rest)))[n]? = some (String.ofList (c :: rest)) := by
  have hpiece := pieces_getElem? (List.replicate n '\n') (c :: rest)
  have hlast : (n + 1 == (Text.pieces (List.replicate n '\n' ++ c :: rest)).length) = true := by
    rw [length_pieces, List.count_append, List.count_replicate_self, List.count_eq_zero.mpr hrest, Nat.add_zero,
      beq_self_eq_true]
  have hwhole : (c :: rest).takeWhile (· != '\n') = c :: rest :=
    List.takeWhile_eq_self_iff.mpr fun d hd => by simpa using ne_of_mem_of_not_mem hd hrest
  rw [List.count_replicate_self, lastLine_lineFeeds, hwhole] at hpiece
  rw [Text.lines, String.toList_ofList, List.getElem?_map, linesOfPieces_getElem?, hpiece, Option.bind_some, hlast]
  rfl

/-- A quote behind empty lines, on the line of a number. -/
def quoteOnLine (number : Nat) : String :=
  String.ofList (List.replicate (number - 1) '\n' ++ ['\''])

/-- The number of the line has five digits: its label moves the quote, and the caret stays before it. -/
theorem caret_before_fault :
    File.ofText (quoteOnLine 10000) = .error ⟨.unterminatedString, ⟨10000, 1⟩⟩ ∧
    (∃ front back,
      syntaxDiagnostic false "Bunoshfile.js" ⟨.unterminatedString, ⟨10000, 1⟩⟩ (some (quoteOnLine 10000)) =
        "\n".intercalate (front ++ ["", "  10000 | '", "       | ^"] ++ back)) ∧
    "  10000 | '".toList[10]? = some '\'' ∧ "       | ^".toList[9]? = some '^' := by
  have herror : ∀ n, File.ofText (quoteOnLine (n + 1)) = .error ⟨.unterminatedString, ⟨n + 1, 1⟩⟩ :=
    fun n => ofText_lineFeeds n (by decide) (by decide) rfl
  have hline : ∀ n, (Text.lines (quoteOnLine (n + 1)))[n + 1 - 1]? = some "'" :=
    fun n => lines_lineFeeds n (by decide)
  have hwritten : ["", lineLabel 10000 ++ "'", caretMargin 1 ++ "^"] = ["", "  10000 | '", "       | ^"] := by
    decide
  obtain ⟨front, back, -, hmessage⟩ :=
    syntaxDiagnostic_lines "Bunoshfile.js" ⟨.unterminatedString, ⟨10000, 1⟩⟩
  refine ⟨herror 9999, ⟨front, back, ?_⟩, by decide, by decide⟩
  rcases excerpt_cases (quoteOnLine 10000) ⟨10000, 1⟩ with ⟨hnone, -⟩ | ⟨line, hsome, hexcerpt⟩
  · cases (hline 9999).symm.trans hnone
  · obtain rfl := Option.some.inj ((hline 9999).symm.trans hsome)
    rw [hmessage, hexcerpt, hwritten]

end EmptyLines

end TaskRunner.Proofs
