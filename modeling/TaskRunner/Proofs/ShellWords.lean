import Mathlib.Data.List.Basic
import TaskRunner.Shell.Launch

/-!
# Words of shell commands

A shell splits a command into words and operators, and quotes and backslashes take away the meaning of characters.
The name of a package script comes into its command in quotes, so that it stays one word whatever is in it.
-/

namespace TaskRunner.Proofs
open Project Shell

variable {chars rest : List Char} {c : Char}

/-! ## Splitting a command -/

/-- A token of a command: a word of characters, each with whether it is quoted, or the character of an operator
or of a line's end. -/
inductive ShellToken where
  | word (chars : List Shell.Mark)
  | mark (c : Char)
deriving DecidableEq, Repr

/-- The quotes that a character stands in. -/
inductive Quotes where
  | none
  | single
  | double
deriving DecidableEq, Repr

/-- The word that is being read, if one is, in front of the tokens behind it. -/
def endedWord (word : Option (List Shell.Mark)) (tokens : List ShellToken) : List ShellToken :=
  (word.map ShellToken.word).toList ++ tokens

/-- One more character of the word that is being read. -/
def withChar (word : Option (List Shell.Mark)) (c : Char) (isQuoted : Bool) : Option (List Shell.Mark) :=
  some (word.getD [] ++ [(c, isQuoted)])

/-- The tokens of a command, by what quotes its characters stand in and the word that is being read. There are
none if quotes stay open. A character that is not quoted keeps what meaning it has. -/
def shellTokens : Quotes → Option (List Shell.Mark) → List Char → Option (List ShellToken)
  | .none, word, [] => some (endedWord word [])
  | .none, word, '\\' :: '\n' :: rest => shellTokens .none word rest
  | .none, word, '\\' :: c :: rest => shellTokens .none (withChar word c true) rest
  | .none, word, '\'' :: rest => shellTokens .single (some (word.getD [])) rest
  | .none, word, '"' :: rest => shellTokens .double (some (word.getD [])) rest
  | .none, word, c :: rest =>
    if c = ' ' ∨ c = '\t' then (shellTokens .none none rest).map (endedWord word)
    else if c ∈ "\n;&|<>()".toList then
      (shellTokens .none none rest).map fun tokens => endedWord word (.mark c :: tokens)
    else shellTokens .none (withChar word c false) rest
  | .single, word, '\'' :: rest => shellTokens .none word rest
  | .single, word, c :: rest => shellTokens .single (withChar word c true) rest
  | .double, word, '"' :: rest => shellTokens .none word rest
  | .double, word, '\\' :: '\n' :: rest => shellTokens .double word rest
  | .double, word, '\\' :: c :: rest =>
    let taken := if c ∈ "$\x60\"\\".toList then word else withChar word '\\' true
    shellTokens .double (withChar taken c true) rest
  | .double, word, c :: rest => shellTokens .double (withChar word c (c ∉ "$\x60".toList)) rest
  | .single, _, [] => none
  | .double, _, [] => none

/-- Characters that are all quoted. -/
def quotedChars (chars : List Char) : List Shell.Mark :=
  chars.map (·, true)

/-- Characters of which none is quoted. -/
def plainChars (chars : List Char) : List Shell.Mark :=
  chars.map (·, false)

/-- Within single quotes a text stands for itself up to the closing quote. -/
lemma shellTokens_single (text : List Char) (read : List Shell.Mark) :
    shellTokens .single (some read) (text.flatMap singleQuotedChar ++ '\'' :: rest) =
      shellTokens .none (some (read ++ quotedChars text)) rest := by
  induction text generalizing read with
  | nil => simp [shellTokens, quotedChars]
  | cons c text ih =>
    have hmore := ih (read ++ [(c, true)])
    rw [List.append_assoc, List.singleton_append] at hmore
    rw [List.flatMap_cons, List.append_assoc, quotedChars, List.map_cons, ← quotedChars, ← hmore]
    by_cases hc : c = '\''
    · -- The quote ends the quotes, stands behind a backslash, and the quotes open again.
      subst hc
      rfl
    · rw [singleQuotedChar, if_neg (by simpa using hc), List.singleton_append, shellTokens]
      · rfl
      · exact hc

/-! ## Reading a command -/

/-- The parts of a word stand for a text, all of it in quotes. -/
def IsQuotedWord (word : Word) (text : List Char) : Prop :=
  ∃ pieces : List (List Char), pieces ≠ [] ∧ word = pieces.map (Part.text · true) ∧ pieces.flatten = text

lemma IsQuotedWord.addChar {word : Word} {text : List Char} (h : IsQuotedWord word text) :
    IsQuotedWord (addChar c true word) (c :: text) := by
  obtain ⟨pieces, hpieces, rfl, rfl⟩ := h
  obtain ⟨piece, more, rfl⟩ := List.exists_cons_of_ne_nil hpieces
  exact ⟨(c :: piece) :: more, List.cons_ne_nil _ _, rfl, rfl⟩

/-- A piece up to the closing quote is one part of its word. -/
lemma readParts_piece {text : List Char} (htext : '\'' ∉ text) (fuel : Nat) :
    readParts .blank (fuel + 1) ('\'' :: (text ++ '\'' :: rest)) =
      (readParts .blank fuel rest).map fun (parts, behind) => (.text text true :: parts, behind) := by
  have htake : (text ++ '\'' :: rest).takeWhile (· != '\'') = text := by
    rw [List.takeWhile_append_of_pos fun c hc => by simpa using ne_of_mem_of_not_mem hc htext]
    exact List.append_nil _
  rw [readParts]
  simp [htake, Functor.map]

lemma flatMap_singleQuotedChar {text : List Char} (h : '\'' ∉ text) : text.flatMap singleQuotedChar = text :=
  calc text.flatMap singleQuotedChar
      = text.flatMap ([·]) := List.flatMap_congr fun c hc => if_neg (by simpa using ne_of_mem_of_not_mem hc h)
    _ = text := List.flatMap_singleton' text

/-- The reader takes each piece between quotes, and each escaped quote between two pieces, for a part of the one
word. -/
lemma readParts_quoted (text : List Char) {fuel : Nat} (hfuel : 2 * text.length + 2 ≤ fuel) :
    ∃ word, readParts .blank fuel ('\'' :: (text.flatMap singleQuotedChar ++ ['\''])) = .ok (word, []) ∧
      IsQuotedWord word text := by
  induction hlength : text.length using Nat.strongRecOn generalizing text fuel with
  | ind n ih =>
    obtain ⟨fuel, rfl⟩ := Nat.exists_eq_add_of_le' (Nat.le_trans (Nat.le_add_left 2 _) hfuel)
    by_cases hquote : '\'' ∈ text
    · obtain ⟨before, behind, rfl, hbefore⟩ := List.eq_append_cons_of_mem hquote
      rw [List.length_append, List.length_cons] at hfuel hlength
      have hbound : 2 * behind.length + 2 ≤ fuel := by omega
      obtain ⟨word, hread, hword⟩ := ih behind.length (by omega) behind hbound rfl
      have hescape : readParts .blank (fuel + 1)
          ('\\' :: '\'' :: '\'' :: (behind.flatMap singleQuotedChar ++ ['\''])) =
            .ok (addChar '\'' true word, []) := by
        simp [readParts, hread]
      have hchars : (before ++ '\'' :: behind).flatMap singleQuotedChar ++ ['\''] =
          before ++ '\'' :: '\\' :: '\'' :: '\'' :: (behind.flatMap singleQuotedChar ++ ['\'']) := by
        rw [List.flatMap_append, flatMap_singleQuotedChar hbefore, List.flatMap_cons]
        simp [singleQuotedChar]
      obtain ⟨pieces, -, hparts, hflat⟩ := hword.addChar
      refine ⟨.text before true :: addChar '\'' true word, ?_, before :: pieces, List.cons_ne_nil _ _, ?_, ?_⟩
      · rw [hchars, readParts_piece hbefore, hescape]
        rfl
      · rw [hparts, List.map_cons]
      · rw [List.flatten_cons, hflat]
    · refine ⟨[.text text true], ?_, [text], List.cons_ne_nil _ _, rfl, List.append_nil _⟩
      rw [flatMap_singleQuotedChar hquote, readParts_piece hquote]
      rfl

/-! ## Expanding a word -/

variable {s : State}

/-- Parts in quotes are put behind each other. -/
lemma expandParts_quoted (pieces : List (List Char)) {fuel : Nat} (hfuel : pieces.length + 2 ≤ fuel)
    (read : List Shell.Mark) :
    expandParts fuel (pieces.map (Part.text · true)) s ⟨[], some read⟩ =
      (s, ⟨[], some (read ++ quotedChars pieces.flatten)⟩) := by
  induction pieces generalizing fuel read with
  | nil =>
    obtain ⟨fuel, rfl⟩ := Nat.exists_eq_add_of_le' hfuel
    simp [expandParts, quotedChars]
  | cons piece pieces ih =>
    obtain ⟨fuel, rfl⟩ := Nat.exists_eq_add_of_le' (Nat.le_trans (Nat.le_add_left 2 _) hfuel)
    have hbound : pieces.length + 2 ≤ fuel + 1 := by
      rw [List.length_cons] at hfuel
      omega
    have hmore := ih hbound (read ++ quotedChars piece)
    rw [List.append_assoc] at hmore
    simpa [expandParts, expandPart, Fields.add, quotedChars] using hmore

/-- A word without unquoted pattern characters means its own text. -/
lemma expandPattern_plain {word : List Shell.Mark} (h : isPattern word = false) :
    expandPattern s word = [String.ofList (word.map Prod.fst)] := by
  rw [expandPattern, h, Bool.false_and]
  cases s.cwd <;> rfl

lemma isPattern_quotedChars (text : List Char) : isPattern (quotedChars text) = false := by
  simp [isPattern, quotedChars]

lemma map_fst_quotedChars (text : List Char) : (quotedChars text).map Prod.fst = text := by
  simp [quotedChars, Function.comp_def]

/-- A word without pattern characters is one argument. -/
lemma expandWords_cons {fuel : Nat} {word : Word} {rest : List Word} {marks : List Shell.Mark}
    (hword : expandParts fuel word s .empty = (s, ⟨[], some marks⟩)) (hplain : isPattern marks = false) :
    expandWords (fuel + 1) (word :: rest) s =
      ((expandWords fuel rest s).1, String.ofList (marks.map Prod.fst) :: (expandWords fuel rest s).2) := by
  have hargs : (Fields.mk [] (some marks)).words.flatMap (expandPattern s) = expandPattern s marks :=
    List.flatMap_singleton ..
  rw [expandWords, hword]
  simp only [hargs, expandPattern_plain hplain, List.singleton_append]

/-- The words of the command of a package script, whose name is the last one. -/
def scriptWords (name : Word) : List Word :=
  [[.text "npm".toList false], [.text "run".toList false], name]

lemma expandWords_script {word : Word} {text : List Char} (h : IsQuotedWord word text) :
    ∃ limit, ∀ fuel s, limit ≤ fuel →
      expandWords fuel (scriptWords word) s = (s, ["npm", "run", String.ofList text]) := by
  obtain ⟨pieces, hpieces, rfl, rfl⟩ := h
  obtain ⟨piece, more, rfl⟩ := List.exists_cons_of_ne_nil hpieces
  refine ⟨more.length + 8, fun fuel s hfuel => ?_⟩
  obtain ⟨fuel, rfl⟩ := Nat.exists_eq_add_of_le' (Nat.le_trans (Nat.le_add_left 8 _) hfuel)
  have hnpm : expandParts (fuel + 7) [.text "npm".toList false] s .empty =
      (s, ⟨[], some (plainChars "npm".toList)⟩) := rfl
  have hrun : expandParts (fuel + 6) [.text "run".toList false] s .empty =
      (s, ⟨[], some (plainChars "run".toList)⟩) := rfl
  have hname : expandParts (fuel + 5) ((piece :: more).map (Part.text · true)) s .empty =
      (s, ⟨[], some (quotedChars (piece :: more).flatten)⟩) := by
    have hbound : more.length + 2 ≤ fuel + 4 := by omega
    have hmore := expandParts_quoted (s := s) more hbound (quotedChars piece)
    simpa [expandParts, expandPart, Fields.add, Fields.empty, quotedChars] using hmore
  rw [scriptWords, expandWords_cons hnpm (by decide), expandWords_cons hrun (by decide),
    expandWords_cons hname (isPattern_quotedChars _), map_fst_quotedChars]
  rfl

/-! ## The command of a package script -/

lemma takeRedirect?_none (hends : endsWord c = false) (hdigit : c.isDigit = false) :
    takeRedirect? (c :: rest) = none := by
  have hmark : '>' ≠ c ∧ '<' ≠ c := by
    constructor <;> rintro rfl <;> simp [endsWord] at hends
  cases rest <;> simp [takeRedirect?, redirectMarks, hdigit, hmark]

/-- A word in front of more words of a command. -/
lemma readWords_cons {fuel : Nat} {mayAssign : Bool} {front behind : List Char} {word : Word}
    (hread : readParts .blank fuel (c :: front) = .ok (word, behind))
    (hfront : skipSpaces chars = c :: front) (hends : endsWord c = false) (hdigit : c.isDigit = false)
    (hcomment : c ≠ '#') (hassigns : (c :: front)[((c :: front).takeWhile isNameChar).length]? ≠ some '=') :
    readWords (fuel + 1) mayAssign chars =
      (readWords fuel false behind).map fun (words, found) => (word :: words, found) := by
  rw [readWords]
  simp only [hfront, takeRedirect?_none hends hdigit]
  simp [hends, hcomment, hassigns, hread]
  rfl

/-- The reader makes one command of three words out of the command of a script. -/
lemma readLine_script {script more : List Char} {word : Word} {fuel : Nat}
    (hscript : script = 'n' :: 'p' :: 'm' :: ' ' :: 'r' :: 'u' :: 'n' :: ' ' :: '\'' :: more)
    (h : readParts .blank (fuel + 4) ('\'' :: more) = .ok (word, [])) :
    readLine .line (fuel + 12) script =
      .ok ([.simple script.length [] (scriptWords word) []], []) := by
  have hblank : (Close.blank == Close.quote) = false := rfl
  have hrun : readParts .blank (fuel + 5) ('r' :: 'u' :: 'n' :: ' ' :: '\'' :: more) =
      .ok ([.text "run".toList false], ' ' :: '\'' :: more) := by
    simp [readParts, endsWord, addChar, hblank]
  have hnpm : readParts .blank (fuel + 6) script =
      .ok ([.text "npm".toList false], ' ' :: 'r' :: 'u' :: 'n' :: ' ' :: '\'' :: more) := by
    simp [hscript, readParts, endsWord, addChar, hblank]
  rw [hscript] at hnpm
  have hwords : readWords (fuel + 7) true script =
      .ok (scriptWords word, [], [], []) := by
    rw [hscript, readWords_cons hnpm rfl (by simp [endsWord]) rfl (by decide) (by simp [isNameChar]),
      readWords_cons hrun rfl (by simp [endsWord]) rfl (by decide) (by simp [isNameChar]),
      readWords_cons h rfl (by simp [endsWord]) rfl (by decide) (by simp [isNameChar])]
    rfl
  have hreserved : takeReserved? script = none := by
    simp [hscript, takeReserved?, skipSpaces, endsWord, reservedWords]
  have hcommand : readCommand (fuel + 8) script =
      .ok (.simple script.length [] (scriptWords word) [], []) := by
    have hspaces : skipSpaces script = script := by rw [hscript]; rfl
    rw [readCommand, hspaces]
    simp only [hreserved, hwords]
    rw [hscript]
    rfl
  have hpipeline : readPipeline (fuel + 10) script =
      .ok (.simple script.length [] (scriptWords word) [], []) := by
    rw [readPipeline, hreserved]
    simp only
    rw [readStages, hcommand]
    rfl
  rw [readLine, readChain, hpipeline]
  rfl

lemma length_le_flatMap_singleQuotedChar (text : List Char) :
    text.length ≤ (text.flatMap singleQuotedChar).length := by
  induction text with
  | nil => exact Nat.le_refl _
  | cons c text ih =>
    have hchar : 1 ≤ (singleQuotedChar c).length := by
      unfold singleQuotedChar
      split <;> simp
    rw [List.flatMap_cons, List.length_append, List.length_cons]
    omega

/-- Unless the shell is the one that takes double quotes, the command of a package script has three words: two
that are the same for all scripts, and the script's name with each of its characters quoted. A shell reads one
command in it, and the arguments it gets from that are these three texts. -/
theorem script_name_stays_quoted (name shell : String)
    (hshell : ∀ stem, Files.stem? shell = some stem → stem.toLower ≠ "cmd") :
    shellTokens .none none (scriptCommandLine name shell).toList =
        some [.word (plainChars "npm".toList), .word (plainChars "run".toList), .word (quotedChars name.toList)] ∧
      ∃ remaining words limit,
        readLine .line (8 * (scriptCommandLine name shell).toList.length + 16) (scriptCommandLine name shell).toList =
            .ok ([.simple remaining [] words []], []) ∧
          ∀ fuel s, limit ≤ fuel → expandWords fuel words s = (s, ["npm", "run", name]) := by
  have hother : isCmdShell shell = false := by
    rw [isCmdShell, Option.any_eq_false]
    exact fun stem hstem => by simpa using hshell stem hstem
  have hchars : (scriptCommandLine name shell).toList = 'n' :: 'p' :: 'm' :: ' ' :: 'r' :: 'u' :: 'n' :: ' ' ::
      '\'' :: (name.toList.flatMap singleQuotedChar ++ ['\'']) := by
    rw [scriptCommandLine, shellWord, hother]
    simp
  generalize (scriptCommandLine name shell).toList = script at hchars
  refine ⟨?_, ?_⟩
  · have hname : shellTokens .single (some []) (name.toList.flatMap singleQuotedChar ++ ['\'']) = _ :=
      shellTokens_single name.toList []
    have hscript : shellTokens .none none script =
        ((shellTokens .single (some []) (name.toList.flatMap singleQuotedChar ++ ['\''])).map
          (endedWord (some (plainChars "run".toList)))).map (endedWord (some (plainChars "npm".toList))) := by
      rw [hchars]
      rfl
    rw [hscript, hname]
    rfl
  · have hlonger := length_le_flatMap_singleQuotedChar name.toList
    have hbound : 2 * name.toList.length + 2 ≤ 8 * script.length + 8 := by
      simp only [hchars, List.length_cons]
      rw [List.length_append]
      omega
    obtain ⟨word, hread, hword⟩ := readParts_quoted name.toList hbound
    obtain ⟨limit, hlimit⟩ := expandWords_script hword
    rw [String.ofList_toList] at hlimit
    exact ⟨script.length, scriptWords word, limit, readLine_script hchars hread, hlimit⟩

/-- A name with quotes, blanks, operators and a line feed stays one word for the usual shell. -/
theorem script_name_stays_quoted_removing :
    (∀ stem, Files.stem? "sh" = some stem → stem.toLower ≠ "cmd") ∧
      shellTokens .none none (scriptCommandLine "a'; rm -rf $HOME\n" "sh").toList =
        some [.word (plainChars "npm".toList), .word (plainChars "run".toList),
          .word (quotedChars "a'; rm -rf $HOME\n".toList)] := by
  have hsplit : "sh".splitOn "/" = ["sh"] := by
    rw [String.splitOn, if_neg (by decide)]
    iterate 3 rw [String.splitOnAux]; simp +decide
  have hshell : ∀ stem, Files.stem? "sh" = some stem → stem.toLower ≠ "cmd" := by
    rw [Files.stem?, Files.fileName?, Files.names, hsplit]
    decide +kernel
  exact ⟨hshell, (script_name_stays_quoted _ _ hshell).1⟩

/-- Upper case letters do not make a shell another one: it still takes double quotes, which a script's name does
not survive if a shell reads them by the other rules. -/
theorem upper_case_shell_takes_double_quotes :
    Files.stem? "CMD" = some "CMD" ∧ "CMD" ≠ "cmd" ∧
      scriptCommandLine "a\"b" "CMD" = "npm run \"a\"\"b\"" ∧
      shellTokens .none none (scriptCommandLine "a\"b" "CMD").toList =
        some [.word (plainChars "npm".toList), .word (plainChars "run".toList), .word (quotedChars "ab".toList)] := by
  have hsplit : "CMD".splitOn "/" = ["CMD"] := by
    rw [String.splitOn, if_neg (by decide)]
    iterate 4 rw [String.splitOnAux]; simp +decide
  have hstem : Files.stem? "CMD" = some "CMD" := by
    rw [Files.stem?, Files.fileName?, Files.names, hsplit]
    decide +kernel
  have hcommand : scriptCommandLine "a\"b" "CMD" = "npm run \"a\"\"b\"" := by
    rw [scriptCommandLine, shellWord, isCmdShell, hstem]
    decide +kernel
  exact ⟨hstem, by decide, hcommand, by rw [hcommand]; decide +kernel⟩

end TaskRunner.Proofs
