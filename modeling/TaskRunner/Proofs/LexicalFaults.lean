import TaskRunner.Proofs.TokenSpans

/-!
# Faults in the text and their places

A place counts lines and columns from the start of the text: a line feed ends a line, any other character
takes a column, and a byte order mark at the start takes none. Wherever a cursor comes to, its counters
agree with a count from scratch.

A text is read token by token, and a template of it through its substitutions, templates in them included.
A fault is found where the reader comes to a comment, a text, a template or a regular expression that is
not closed, or to characters that start no token, and its place is that where the construct opens.
-/

namespace TaskRunner.Proofs
open Source

section Places

/-! ## Counting from scratch -/

/-- The characters but for a byte order mark at the start, which has no column. -/
def withoutMark : List Char → List Char
  | '\ufeff' :: rest => rest
  | chars => chars

/-- The place behind characters: one line more than there are line feeds among them, and one column more
than there are characters behind the last of these. -/
def placeBehind (before : List Char) : Place :=
  ⟨1 + (withoutMark before).count '\n',
    1 + ((withoutMark before).reverse.takeWhile (· != '\n')).length⟩

lemma withoutMark_append {before : List Char} {c : Char} (h : before = [] → c ≠ '\ufeff') :
    withoutMark (before ++ [c]) = withoutMark before ++ [c] := by
  cases before with
  | nil =>
    have hmark := h rfl
    simp [withoutMark, hmark]
  | cons d before =>
    by_cases hmark : d = '\ufeff'
    · subst hmark
      rfl
    · simp [withoutMark, hmark]

lemma placeBehind_append {before : List Char} {c : Char} (h : before = [] → c ≠ '\ufeff') :
    placeBehind (before ++ [c]) = (placeBehind before).past c := by
  unfold placeBehind
  rw [withoutMark_append h, List.count_append, List.reverse_append, List.reverse_singleton,
    List.singleton_append, List.takeWhile_cons]
  by_cases hfeed : c = '\n'
  · subst hfeed
    simp [Place.past, Nat.add_assoc]
  · have hcount : [c].count '\n' = 0 := List.count_eq_zero.mpr (by simpa using Ne.symm hfeed)
    have hcolumn : (c != '\n') = true := by simpa using hfeed
    rw [hcount, if_pos hcolumn, Place.past, if_neg hfeed, List.length_cons, Nat.add_zero, Nat.add_assoc]

/-! ## Cursors in the text -/

/-- The cursor stands in the text, and its offset and its place are those behind the characters that it
has passed. It does not stand before a byte order mark at the start. -/
def Located (chars : List Char) (cur : Cursor) : Prop :=
  ∃ before, chars = before ++ cur.rest ∧ cur.offset = byteCount before ∧
    cur.place = placeBehind before ∧ (before = [] → ∀ c ∈ cur.rest.head?, c ≠ '\ufeff')

variable {chars : List Char} {cur mid after : Cursor}

lemma Located.advance (h : Located chars cur) (n : Nat) : Located chars (cur.advance n) := by
  induction n generalizing cur with
  | zero =>
    rw [Cursor.advance]
    exact h
  | succ n ih =>
    obtain ⟨rest, offset, place⟩ := cur
    obtain ⟨before, hchars, hoffset, hplace, hmark⟩ := h
    cases rest with
    | nil => exact ⟨before, hchars, hoffset, hplace, hmark⟩
    | cons c rest =>
      refine @ih ⟨rest, offset + c.utf8Size, place.past c⟩ ⟨before ++ [c], ?_, ?_, ?_, ?_⟩
      · rw [hchars, List.append_assoc, List.singleton_append]
      · dsimp only at hoffset ⊢
        rw [hoffset, byteCount_append, byteCount_cons, byteCount_nil, Nat.add_zero]
      · dsimp only at hplace ⊢
        rw [hplace, placeBehind_append fun hbefore => hmark hbefore c rfl]
      · simp

lemma Located.forward (h : Located chars cur) (hforward : Forward cur after) : Located chars after := by
  obtain ⟨n, rfl⟩ := hforward
  exact h.advance n

lemma firstCursor_located (chars : List Char) : Located chars (firstCursor chars) := by
  refine Located.forward ?_ (firstCursor_forward chars)
  rcases behindMark_cases chars with ⟨rest, rfl, hbehind⟩ | ⟨hmark, hbehind⟩
  · exact ⟨['\ufeff'], rfl, rfl, rfl, fun hnil => absurd hnil (List.cons_ne_nil _ _)⟩
  · rw [hbehind]
    refine ⟨[], rfl, rfl, rfl, fun _ c hc hc' => ?_⟩
    obtain ⟨rest, hrest⟩ := List.head?_eq_some_iff.mp (Option.mem_def.mp hc)
    rw [hc'] at hrest
    exact hmark rest hrest

/-! ## Tokens in the text -/

/-- The token's place is that of the start of its span. -/
def TruePlace (chars : List Char) (t : Token) : Prop :=
  ∃ before behind, chars = before ++ behind ∧ t.span.start = byteCount before ∧
    t.place = placeBehind before

lemma IsRead.truePlace {gap lexeme : List Char} {t : Token} (h : IsRead cur mid after gap lexeme t)
    (hcur : Located chars cur) : TruePlace chars t ∧ Located chars after := by
  have hmid : Located chars mid := by
    rw [h.skipped]
    exact hcur.advance _
  refine ⟨?_, hmid.forward h.taken⟩
  obtain ⟨before, hchars, hoffset, hplace, -⟩ := hmid
  exact ⟨before, mid.rest, hchars, by rw [h.span]; exact hoffset, by rw [h.place]; exact hplace⟩

lemma Scans.truePlaces {regex regex' : Bool} {tokens : List Token}
    (h : Scans regex cur tokens regex' after) (hcur : Located chars cur) :
    (∀ t ∈ tokens, TruePlace chars t) ∧ Located chars after := by
  induction h with
  | done => exact ⟨fun t ht => absurd ht List.not_mem_nil, hcur⟩
  | next token kind tail ih =>
    obtain ⟨mid, gap, lexeme, hread⟩ := tokenAt_ok token
    obtain ⟨htrue, hbehind⟩ := hread.truePlace hcur
    obtain ⟨hmore, hlast⟩ := ih hbehind
    refine ⟨fun t ht => ?_, hlast⟩
    rcases List.mem_cons.mp ht with rfl | ht
    · exact htrue
    · exact hmore t ht

lemma tokenize_truePlaces {text : String} {tokens : List Token} (h : tokenize text = .ok tokens) :
    ∀ t ∈ tokens, TruePlace text.toList t := by
  unfold tokenize at h
  dsimp only at h
  rcases tokensFrom_cases true (Nat.lt_succ_self (firstCursor text.toList).rest.length) with
    ⟨body, regex', last, ending, after, hscans, hending, hkind, heq⟩ | ⟨_, _, _, e, -, -, heq⟩
  · cases heq.symm.trans h
    obtain ⟨hbody, hlast⟩ := hscans.truePlaces (firstCursor_located text.toList)
    obtain ⟨mid, gap, lexeme, hread⟩ := tokenAt_ok hending
    intro t ht
    rcases List.mem_append.mp ht with ht | ht
    · exact hbody t ht
    · rw [List.mem_singleton.mp ht]
      exact (hread.truePlace hlast).1
  · cases heq.symm.trans h

end Places

section Faults

/-! ## Where the reader comes to -/

/-- What is being read: the tokens of the file, the text of a template, or the tokens of a substitution in
it with a number of braces open. A template is known by the cursor at its opening backtick; of templates
in each other it is the innermost one. -/
inductive Reading
  | tokens (regex : Bool)
  | text (opening : Cursor)
  | hole (opening : Cursor) (depth : Nat) (regex : Bool)

/-- Whether a slash starts a regular expression, where tokens are read. -/
def Reading.regex? : Reading → Option Bool
  | tokens regex => some regex
  | text _ => none
  | hole _ _ regex => some regex

/-- The template that is being read. -/
def Reading.opening? : Reading → Option Cursor
  | tokens _ => none
  | text opening => some opening
  | hole opening _ _ => some opening

/-- The reader of a text comes to the cursor. -/
inductive ComesTo (chars : List Char) : Reading → Cursor → Prop
  | start : ComesTo chars (.tokens true) (firstCursor chars)
  | token {regex : Bool} {cur after : Cursor} {t : Token} (here : ComesTo chars (.tokens regex) cur)
      (token : tokenAt regex cur = .ok (t, after)) (kind : t.kind ≠ .endOfFile) :
      ComesTo chars (.tokens t.kind.regexMayFollow) after
  | opens {reading : Reading} {regex : Bool} {cur mid : Cursor} {gap : Gap} {rest : List Char}
      (here : ComesTo chars reading cur) (looks : reading.regex? = some regex)
      (gap : gapAt cur = .ok (gap, mid)) (template : mid.rest = '\x60' :: rest) :
      ComesTo chars (.text mid) (mid.advance 1)
  | inText {opening cur after : Cursor} (here : ComesTo chars (.text opening) cur)
      (step : InText cur after) : ComesTo chars (.text opening) after
  | hole {opening cur : Cursor} {rest : List Char} (here : ComesTo chars (.text opening) cur)
      (hole : cur.rest = '$' :: '\x7b' :: rest) :
      ComesTo chars (.hole opening 0 true) (cur.advance 2)
  | passes {opening cur mid after : Cursor} {depth fuel : Nat} {regex : Bool} {gap : Gap}
      {rest : List Char} (here : ComesTo chars (.hole opening depth regex) cur)
      (gap : gapAt cur = .ok (gap, mid)) (template : mid.rest = '\x60' :: rest)
      (closed : templateText mid.place fuel (mid.advance 1) = .ok after) :
      ComesTo chars (.hole opening depth false) after
  | lexeme {opening cur mid after : Cursor} {depth depth' : Nat} {regex : Bool} {gap : Gap} {kind : Kind}
      (here : ComesTo chars (.hole opening depth regex) cur) (gap : gapAt cur = .ok (gap, mid))
      (noTemplate : ∀ rest, mid.rest ≠ '\x60' :: rest) (lexeme : lexemeAt regex mid = .ok (kind, after))
      (depth : depthBehind depth kind = some depth') :
      ComesTo chars (.hole opening depth' kind.regexMayFollow) after
  | closes {opening cur mid after : Cursor} {depth : Nat} {regex : Bool} {gap : Gap} {kind : Kind}
      (here : ComesTo chars (.hole opening depth regex) cur) (gap : gapAt cur = .ok (gap, mid))
      (noTemplate : ∀ rest, mid.rest ≠ '\x60' :: rest) (lexeme : lexemeAt regex mid = .ok (kind, after))
      (depth : depthBehind depth kind = none) : ComesTo chars (.text opening) after

variable {chars : List Char} {cur after : Cursor} {reading : Reading} {regex regex' : Bool}

/-- Where the reader comes to, and where the template opens that it reads, lines and columns are those
counted from scratch. -/
lemma ComesTo.located (h : ComesTo chars reading cur) :
    Located chars cur ∧
      ∀ opening ∈ reading.opening?, Located chars opening ∧ ∃ body, opening.rest = '\x60' :: body := by
  induction h with
  | start => exact ⟨firstCursor_located chars, fun _ h => nomatch h⟩
  | token _ token _ ih =>
    obtain ⟨mid, gap, lexeme, hread⟩ := tokenAt_ok token
    exact ⟨(hread.truePlace ih.1).2, fun _ h => nomatch h⟩
  | @opens _ _ _ mid _ rest _ _ gap template ih =>
    have hmid := ih.1.forward (gapAt_forward gap)
    refine ⟨hmid.advance 1, fun opening hopening => ?_⟩
    cases hopening
    exact ⟨hmid, rest, template⟩
  | inText _ step ih => exact ⟨ih.1.forward step.forward, ih.2⟩
  | hole _ _ ih => exact ⟨ih.1.advance 2, ih.2⟩
  | passes _ gap _ closed ih =>
    have hmid := ih.1.forward (gapAt_forward gap)
    exact ⟨(hmid.advance 1).forward ((template_forward _).1 closed), ih.2⟩
  | lexeme _ gap _ lexeme _ ih | closes _ gap _ lexeme _ ih =>
    have hmid := ih.1.forward (gapAt_forward gap)
    exact ⟨hmid.forward (lexemeAt_forward lexeme), ih.2⟩

lemma ComesTo.scans {tokens : List Token} (hscans : Scans regex cur tokens regex' after)
    (h : ComesTo chars (.tokens regex) cur) : ComesTo chars (.tokens regex') after := by
  induction hscans with
  | done => exact h
  | next token kind _ ih => exact ih (h.token token kind)

/-! ## Faults -/

/-- What stands where a fault is found: the start of something that is not closed, or of no token. -/
def StartsFault : Fault → List Char → Prop
  | .unterminatedComment, chars => ∃ body, chars = '/' :: '*' :: body ∧ Unclosed body
  | .unterminatedString, chars => ∃ quote body, chars = quote :: body ∧ (quote = '"' ∨ quote = '\'') ∧
      scanText quote (body.length + 1) body = none
  | .unterminatedRegex, chars => ∃ body, chars = '/' :: body ∧ scanRegex false body = none
  | .unterminatedTemplate, chars => ∃ body, chars = '\x60' :: body
  | .invalidCharacter c, chars => ∃ more, chars = c :: more
  | .invalidNumber, chars | .identifierAfterNumber, chars => ∃ c more, chars = c :: more ∧
      (c.isDigit || (c == '.' && more.head?.any Char.isDigit)) = true
  | .unexpectedToken _, _ | .unexpectedEnd, _ | .duplicateDeclaration _, _ => False

/-- The reader finds a fault, and the cursor is where it is found: behind the gap in which a comment is not
closed or behind which no token can be read, and at the opening backtick of the template in which the text
ends. -/
inductive FaultAt (chars : List Char) : Fault → Cursor → Prop
  | comment {reading : Reading} {regex : Bool} {cur : Cursor} {skipped body : List Char}
      {comments : List Comment} (here : ComesTo chars reading cur) (looks : reading.regex? = some regex)
      (split : cur.rest = skipped ++ '/' :: '*' :: body)
      (between : Between cur.offset skipped ('/' :: '*' :: body) comments) (unclosed : Unclosed body) :
      FaultAt chars .unterminatedComment (cur.advance skipped.length)
  | lexeme {reading : Reading} {regex : Bool} {cur mid : Cursor} {gap : Gap} {fault : Fault}
      (here : ComesTo chars reading cur) (looks : reading.regex? = some regex)
      (gap : gapAt cur = .ok (gap, mid)) (noTemplate : ∀ rest, mid.rest ≠ '\x60' :: rest)
      (lexeme : lexeme regex mid.rest = .error fault) : FaultAt chars fault mid
  | text {opening cur : Cursor} (here : ComesTo chars (.text opening) cur) (ends : cur.rest = []) :
      FaultAt chars .unterminatedTemplate opening
  | hole {opening cur mid : Cursor} {depth : Nat} {regex : Bool} {gap : Gap}
      (here : ComesTo chars (.hole opening depth regex) cur) (gap : gapAt cur = .ok (gap, mid))
      (ends : mid.rest = []) : FaultAt chars .unterminatedTemplate opening

lemma numberAt_error {chars : List Char} {fault : Fault} (h : numberAt chars = .error fault) :
    fault = .invalidNumber ∨ fault = .identifierAfterNumber := by
  unfold numberAt at h
  dsimp only at h
  split at h
  · split at h
    · cases h
      exact .inl rfl
    · split at h
      · cases h
      · cases h
        exact .inr rfl
  · split at h
    · split at h
      · cases h
      · cases h
        exact .inl rfl
    · cases h
      exact .inr rfl

lemma lexeme_error {chars : List Char} {fault : Fault} (h : lexeme regex chars = .error fault) :
    StartsFault fault chars := by
  unfold lexeme at h
  split at h
  · cases h
  · rename_i c rest
    dsimp only at h
    split at h
    · cases h
    · split at h
      · cases h
      · split at h
        · rename_i hnumber
          cases hvalue : numberAt (c :: rest) with
          | ok found =>
            rw [hvalue] at h
            cases h
          | error fault' =>
            rw [hvalue] at h
            cases h
            rcases numberAt_error hvalue with rfl | rfl
            · exact ⟨c, rest, rfl, hnumber⟩
            · exact ⟨c, rest, rfl, hnumber⟩
        · split at h
          · rename_i hquote
            split at h
            · cases h
            · rename_i hscan
              cases h
              exact ⟨c, rest, rfl, by simpa using hquote, hscan⟩
          · split at h
            · rename_i hslash
              split at h
              · cases h
              · rename_i hscan
                cases h
                have hc : c = '/' := by
                  rw [Bool.and_eq_true, beq_iff_eq] at hslash
                  exact hslash.1
                exact ⟨rest, by rw [hc], hscan⟩
            · split at h
              · cases h
              · cases h
                exact ⟨rest, rfl⟩

/-- At the cursor of a fault stands the start of what is at fault, and its place is counted from
scratch. -/
lemma FaultAt.located {fault : Fault} (h : FaultAt chars fault cur) :
    Located chars cur ∧ StartsFault fault cur.rest := by
  cases h with
  | @comment _ _ cur skipped body _ here looks split between unclosed =>
    refine ⟨here.located.1.advance _, body, ?_, unclosed⟩
    exact (offset_advance split).1
  | lexeme here _ gap _ lexeme => exact ⟨here.located.1.forward (gapAt_forward gap), lexeme_error lexeme⟩
  | text here _ => exact here.located.2 _ rfl
  | hole here _ _ => exact here.located.2 _ rfl

/-! ## The readers move on -/

lemma InText.shorter (h : InText cur after) : after.rest.length < cur.rest.length := by
  cases h with
  | escape escape moved =>
    rw [moved]
    exact advance_shorter escape Nat.two_pos
  | char char _ _ _ moved =>
    rw [moved]
    exact advance_shorter char Nat.one_pos

lemma lexemeAt_shorter {kind : Kind} (h : lexemeAt regex cur = .ok (kind, after))
    (hsomething : cur.rest ≠ []) : after.rest.length < cur.rest.length := by
  obtain ⟨count, hlexeme, rfl⟩ := lexemeAt_ok h
  obtain ⟨c, rest, hrest⟩ := List.exists_cons_of_ne_nil hsomething
  rcases lexeme_cases hlexeme with ⟨-, hnil⟩ | ⟨-, -, hpos⟩
  · exact absurd hnil hsomething
  · exact advance_shorter hrest hpos

/-! ## Every complaint is about a fault -/

/-- The complaint is about a fault of the text and has its place. -/
def AboutFault (chars : List Char) (e : SyntaxError) : Prop :=
  ∃ cur, FaultAt chars e.fault cur ∧ e.place = cur.place

lemma ComesTo.gap_error {e : SyntaxError} (h : ComesTo chars reading cur)
    (hlooks : reading.regex? = some regex) (hgap : gapAt cur = .error e) : AboutFault chars e := by
  obtain ⟨skipped, body, comments, hsplit, hbetween, hunclosed, rfl⟩ := skipGap_error hgap
  exact ⟨_, .comment h hlooks hsplit hbetween hunclosed, rfl⟩

lemma ComesTo.lexeme_error {gap : Gap} {mid : Cursor} {e : SyntaxError} (h : ComesTo chars reading cur)
    (hlooks : reading.regex? = some regex) (hgap : gapAt cur = .ok (gap, mid))
    (hno : ∀ rest, mid.rest ≠ '\x60' :: rest) (hlexeme : lexemeAt regex mid = .error e) :
    AboutFault chars e := by
  obtain ⟨hfault, hplace⟩ := lexemeAt_error hlexeme
  exact ⟨mid, .lexeme h hlooks hgap hno hfault, hplace⟩

/-- The readers of a template have fuel for every character ahead, so they complain only about a fault of
the text. Both share their fuel, and one induction follows both. -/
lemma template_error (fuel : Nat) :
    (∀ {opening cur : Cursor} {e : SyntaxError}, ComesTo chars (.text opening) cur →
      cur.rest.length < fuel → templateText opening.place fuel cur = .error e → AboutFault chars e) ∧
    ∀ {opening cur : Cursor} {depth : Nat} {regex : Bool} {e : SyntaxError},
      ComesTo chars (.hole opening depth regex) cur → cur.rest.length < fuel →
      templateHole opening.place fuel depth regex cur = .error e → AboutFault chars e := by
  induction fuel with
  | zero => exact ⟨fun _ hfuel => absurd hfuel (Nat.not_lt_zero _),
      fun _ hfuel => absurd hfuel (Nat.not_lt_zero _)⟩
  | succ fuel ih =>
    obtain ⟨ihText, ihHole⟩ := ih
    refine ⟨?_, ?_⟩
    · intro opening cur e h hfuel herror
      cases textStep cur with
      | ended nothing eq =>
        rw [eq] at herror
        cases herror
        exact ⟨opening, .text h nothing, rfl⟩
      | closed _ eq =>
        rw [eq] at herror
        cases herror
      | inText step eq =>
        rw [eq] at herror
        have hshorter := step.shorter
        exact ihText (h.inText step) (by omega) herror
      | hole hole eq =>
        rw [eq] at herror
        have hshorter := advance_shorter hole Nat.two_pos
        exact ihHole (h.hole hole) (by omega) herror
    · intro opening cur depth regex e h hfuel herror
      cases holeStep depth regex cur with
      | gapFails gap eq =>
        rw [eq] at herror
        cases herror
        exact h.gap_error rfl gap
      | ended gap nothing eq =>
        rw [eq] at herror
        cases herror
        exact ⟨opening, .hole h gap nothing, rfl⟩
      | @template gap mid rest hgap template eq =>
        rw [eq] at herror
        have hmid := (gapAt_forward hgap).length_le
        have hopened := advance_shorter template Nat.one_pos
        cases hinner : templateText mid.place fuel (mid.advance 1) with
        | error e' =>
          rw [hinner] at herror
          cases herror
          exact ihText (h.opens rfl hgap template) (by omega) hinner
        | ok after =>
          rw [hinner] at herror
          have hafter := ((template_forward fuel).1 hinner).length_le
          exact ihHole (h.passes hgap template hinner) (by omega) herror
      | lexemeFails gap noTemplate lexeme eq =>
        rw [eq] at herror
        cases herror
        exact h.lexeme_error rfl gap noTemplate lexeme
      | @lexeme gap mid after kind hgap something noTemplate lexeme eq =>
        rw [eq] at herror
        have hmid := (gapAt_forward hgap).length_le
        have hafter := lexemeAt_shorter lexeme something
        cases hdepth : depthBehind depth kind with
        | none =>
          rw [hdepth] at herror
          exact ihText (h.closes hgap noTemplate lexeme hdepth) (by omega) herror
        | some depth' =>
          rw [hdepth] at herror
          exact ihHole (h.lexeme hgap noTemplate lexeme hdepth) (by omega) herror

lemma tokenAt_error {e : SyntaxError} (h : ComesTo chars (.tokens regex) cur)
    (herror : tokenAt regex cur = .error e) : AboutFault chars e := by
  unfold tokenAt at herror
  cases hgap : gapAt cur with
  | error e' =>
    rw [hgap] at herror
    cases herror
    exact h.gap_error rfl hgap
  | ok found =>
    obtain ⟨gap, mid⟩ := found
    rw [hgap] at herror
    dsimp only [bind, Except.bind] at herror
    split at herror
    · rename_i rest hopen
      cases htext : templateText mid.place (2 * mid.rest.length) (mid.advance 1) with
      | ok after =>
        rw [htext] at herror
        cases herror
      | error e' =>
        rw [htext] at herror
        cases herror
        have hopened := advance_shorter hopen Nat.one_pos
        exact (template_error _).1 (h.opens rfl hgap hopen) (by omega) htext
    · rename_i hno
      cases hlexeme : lexemeAt regex mid with
      | ok found =>
        rw [hlexeme] at herror
        cases herror
      | error e' =>
        rw [hlexeme] at herror
        cases herror
        exact h.lexeme_error rfl hgap hno hlexeme

lemma tokenize_error {text : String} {e : SyntaxError} (h : tokenize text = .error e) :
    AboutFault text.toList e := by
  unfold tokenize at h
  dsimp only at h
  rcases tokensFrom_cases true (Nat.lt_succ_self (firstCursor text.toList).rest.length) with
    ⟨_, _, _, _, _, -, -, -, heq⟩ | ⟨body, regex', last, e', hscans, herror, heq⟩
  · cases heq.symm.trans h
  · cases heq.symm.trans h
    exact tokenAt_error (ComesTo.start.scans hscans) herror

end Faults

end TaskRunner.Proofs
