import TaskRunner.Proofs.LexicalFaults
import TaskRunner.Proofs.LoweredText
import TaskRunner.Proofs.PositionChecks
import TaskRunner.Proofs.TiledText

/-!
# Tokens by byte offsets

The tokens of a text are read here by byte offsets. The characters ahead are looked up behind an offset,
comments are cut out between two of them, every offset has to stand between characters, and every loop has
to move on: over blanks, through names and texts, through templates and their substitutions, whose tokens
are read in the same way, and from token to token. The tokens are those that the cursor reads.
-/

namespace TaskRunner.Proofs
open Source

/-! ## Offsets in a text -/

/-- The characters behind a byte offset. -/
def charsFrom (text : String) (offset : Nat) : Checked (List Char) :=
  if String.Pos.Raw.isValid text ⟨offset⟩ then .ok (splitBytes offset text.toList).2
  else .error .outOfRange

/-- The characters between two byte offsets. -/
def slice (text : String) (start stop : Nat) : Checked (List Char) := do
  let _ ← charsFrom text stop
  let chars ← charsFrom text start
  if start ≤ stop then .ok (splitBytes (stop - start) chars).1 else .error .outOfRange

/-- The cursor at a byte offset: whatever it had ahead, the characters there are looked up again. -/
def reopen (text : String) (cur : Cursor) : Checked Cursor := do
  let rest ← charsFrom text cur.offset
  .ok { cur with rest }

/-- The cursor behind some characters, which are looked at one by one. -/
def passOver (text : String) (cur : Cursor) (count : Nat) : Checked Cursor := do
  let after := cur.advance count
  let _ ← onward cur.offset after.offset
  if (List.range (count + 1)).all fun k => String.Pos.Raw.isValid text ⟨(cur.advance k).offset⟩ then
    .ok after
  else .error .outOfRange

/-! ## Reading by offsets -/

/-- Reads blanks and comments. -/
def checkedGap (text : String) : Nat → Gap → Cursor → Checked (Gap × Cursor)
  | 0, _, _ => .error .stuck
  | fuel + 1, gap, cur => do
    let cur ← reopen text cur
    match cur.rest with
    | '/' :: '/' :: rest => do
      let after ← passOver text cur (2 + (lineCommentBody rest).length)
      let body ← slice text (cur.offset + 2) after.offset
      let comment : Comment := ⟨String.ofList body, false, ⟨cur.offset, after.offset⟩⟩
      checkedGap text fuel ⟨comment :: gap.comments, gap.newline⟩ after
    | '/' :: '*' :: rest =>
      match blockCommentBody rest with
      | none => refuse (cur.fault .unterminatedComment)
      | some inside => do
        let after ← passOver text cur (4 + inside.length)
        let body ← slice text (cur.offset + 2) (after.offset - 2)
        let comment : Comment := ⟨String.ofList body, true, ⟨cur.offset, after.offset⟩⟩
        checkedGap text fuel ⟨comment :: gap.comments, gap.newline || inside.contains '\n'⟩ after
    | c :: _ =>
      if isLineTerminator c then do
        let after ← passOver text cur 1
        checkedGap text fuel ⟨gap.comments, true⟩ after
      else if Text.isBlank c then do
        let after ← passOver text cur 1
        checkedGap text fuel gap after
      else .ok (gap, cur)
    | [] => .ok (gap, cur)

/-- Reads the characters of a name. -/
def checkedName : Nat → List Char → Checked (List Char × Nat)
  | 0, _ => .error .stuck
  | fuel + 1, chars =>
    match chars with
    | [] => .ok ([], 0)
    | '\\' :: 'u' :: rest =>
      match unicodeEscape rest with
      | (some c, count) => do
        let (name, more) ← checkedName fuel (rest.drop count)
        .ok (c :: name, 2 + count + more)
      | (none, count) => .ok ([], 2 + count)
    | c :: rest =>
      if isNamePart c then do
        let (name, more) ← checkedName fuel rest
        .ok (c :: name, 1 + more)
      else .ok ([], 0)

/-- Reads the characters of a text up to its closing quote. -/
def checkedText (quote : Char) : Nat → List Char → Checked (Option (List Char × Nat))
  | 0, _ => .error .stuck
  | fuel + 1, chars =>
    match chars with
    | [] => .ok none
    | c :: rest =>
      if c == '\n' || c == '\r' then .ok none
      else if c == quote then .ok (some ([], 1))
      else if c == '\\' then do
        let (value, count) := textEscape rest
        let found ← checkedText quote fuel (rest.drop count)
        .ok (found.map fun (more, n) => (value ++ more, 1 + count + n))
      else do
        let found ← checkedText quote fuel rest
        .ok (found.map fun (more, n) => (c :: more, 1 + n))

/-- Reads the token at the cursor, which is no template. -/
def checkedLexeme (regexMayStart : Bool) (cur : Cursor) : Checked (Kind × Nat) :=
  match cur.rest with
  | [] => .ok (.endOfFile, 0)
  | c :: rest =>
    let second := rest.head?
    if isNameStart c || (c == '\\' && second == some 'u') then do
      let (name, count) ← checkedName (rest.length + 2) (c :: rest)
      .ok (.ident (String.ofList name), count)
    else if c == '#' && second.any isNameStart then do
      let (name, count) ← checkedName (rest.length + 1) rest
      .ok (.privateName (String.ofList name), 1 + count)
    else if c.isDigit || (c == '.' && second.any Char.isDigit) then
      match numberAt (c :: rest) with
      | .ok (value, count) => .ok (.number value, count)
      | .error fault => refuse (cur.fault fault)
    else if c == '"' || c == '\'' then do
      let found ← checkedText c (rest.length + 1) rest
      match found with
      | some (value, count) => .ok (.text (String.ofList value), 1 + count)
      | none => refuse (cur.fault .unterminatedString)
    else if c == '/' && regexMayStart then
      match scanRegex false rest with
      | some count => .ok (.regex, 1 + count + countWhile isNamePart (rest.drop count))
      | none => refuse (cur.fault .unterminatedRegex)
    else
      match markAt (c :: rest) with
      | some mark => .ok (.punct mark, mark.length)
      | none => refuse (cur.fault (.invalidCharacter c))

/-- Reads the token at the cursor, which is no template, and moves behind it. -/
def checkedLexemeAt (text : String) (regexMayStart : Bool) (cur : Cursor) :
    Checked (Kind × Cursor) := do
  let (kind, count) ← checkedLexeme regexMayStart cur
  if kind == .endOfFile then .ok (kind, cur)
  else do
    let after ← passOver text cur count
    .ok (kind, after)

mutual

/-- Reads a token. -/
def checkedToken (text : String) : Nat → Bool → Cursor → Checked (Token × Cursor)
  | 0, _, _ => .error .stuck
  | fuel + 1, regexMayStart, cur => do
    let cur ← reopen text cur
    let (gap, cur) ← checkedGap text (cur.rest.length + 1) ⟨[], false⟩ cur
    let (kind, after) ← match cur.rest with
      | '\x60' :: _ => do
        let first ← passOver text cur 1
        let after ← checkedTemplate text cur.place fuel first
        .ok (Kind.template, after)
      | _ => checkedLexemeAt text regexMayStart cur
    let _ ← if kind == .endOfFile then .ok after.offset else onward cur.offset after.offset
    .ok (⟨kind, ⟨cur.offset, after.offset⟩, cur.place, gap.newline, gap.comments.reverse⟩, after)

/-- Reads the text of a template. -/
def checkedTemplate (text : String) (opened : Place) : Nat → Cursor → Checked Cursor
  | 0, _ => .error .stuck
  | fuel + 1, cur => do
    let cur ← reopen text cur
    match cur.rest with
    | [] => refuse ⟨.unterminatedTemplate, opened⟩
    | '\x60' :: _ => passOver text cur 1
    | '\\' :: _ => do
      let after ← passOver text cur 2
      checkedTemplate text opened fuel after
    | '$' :: '\x7b' :: _ => do
      let first ← passOver text cur 2
      let after ← checkedHole text opened fuel 0 true first
      checkedTemplate text opened fuel after
    | _ => do
      let after ← passOver text cur 1
      checkedTemplate text opened fuel after

/-- Reads the tokens of a substitution, up to behind the brace that closes it. -/
def checkedHole (text : String) (opened : Place) : Nat → Nat → Bool → Cursor → Checked Cursor
  | 0, _, _, _ => .error .stuck
  | fuel + 1, depth, regexMayStart, cur => do
    let (token, after) ← checkedToken text fuel regexMayStart cur
    if token.kind == .endOfFile then refuse ⟨.unterminatedTemplate, opened⟩
    else
      match depthBehind depth token.kind with
      | none => .ok after
      | some depth => checkedHole text opened fuel depth token.kind.regexMayFollow after

end

/-- Reads tokens up to the end of the text. -/
def checkedTokens (text : String) : Nat → Bool → Cursor → Checked (List Token)
  | 0, _, _ => .error .stuck
  | fuel + 1, regexMayStart, cur => do
    let (token, after) ← checkedToken text (3 * cur.rest.length + 1) regexMayStart cur
    if token.kind == .endOfFile then .ok [token]
    else do
      let more ← checkedTokens text fuel token.kind.regexMayFollow after
      .ok (token :: more)

/-- Reads the tokens of a text. -/
def checkedTokenize (text : String) : Checked (List Token) := do
  let cur ← reopen text (behindMark text.toList)
  let cur ← match cur.rest with
    | '#' :: '!' :: _ => passOver text cur (countWhile (· != '\n') cur.rest)
    | _ => .ok cur
  checkedTokens text (cur.rest.length + 1) true cur

/-! ## Offsets that are met -/

/-- The cursor has come from the start of the text. -/
def IsAt (text : String) (cur : Cursor) : Prop :=
  Leads (Cursor.start text.toList) cur

variable {text : String} {cur after : Cursor}

lemma IsAt.forward (h : IsAt text cur) (hforward : Forward cur after) : IsAt text after :=
  Leads.trans h hforward.leads

lemma IsAt.advance (h : IsAt text cur) (n : Nat) : IsAt text (cur.advance n) :=
  h.forward (forward_advance cur n)

lemma IsAt.split (h : IsAt text cur) :
    ∃ front, text.toList = front ++ cur.rest ∧ cur.offset = byteCount front := by
  obtain ⟨front, hpassed⟩ := h
  refine ⟨front, hpassed.rest, ?_⟩
  rw [hpassed.offset]
  exact Nat.zero_add _

lemma charsFrom_eq {front behind : List Char} (h : text.toList = front ++ behind) :
    charsFrom text (byteCount front) = .ok behind := by
  have hvalid := String.Pos.Raw.isValid_eq_true_iff.mpr (isValid_byteCount h)
  rw [charsFrom, if_pos hvalid, h, splitBytes_append]

lemma slice_eq {front middle behind : List Char} (h : text.toList = front ++ (middle ++ behind)) :
    slice text (byteCount front) (byteCount front + byteCount middle) = .ok middle := by
  have hstop : charsFrom text (byteCount front + byteCount middle) = .ok behind := by
    rw [← byteCount_append]
    exact charsFrom_eq (by rw [h, List.append_assoc])
  rw [slice, hstop, charsFrom_eq h]
  dsimp only [bind, Except.bind]
  rw [if_pos (Nat.le_add_right _ _), Nat.add_sub_cancel_left, splitBytes_append]

/-- An offset that a cursor has come to stands between characters. -/
lemma IsAt.isValid (h : IsAt text cur) : String.Pos.Raw.isValid text ⟨cur.offset⟩ = true := by
  obtain ⟨front, hsplit, hoffset⟩ := h.split
  rw [hoffset]
  exact String.Pos.Raw.isValid_eq_true_iff.mpr (isValid_byteCount hsplit)

lemma IsAt.reopen_eq (h : IsAt text cur) : reopen text cur = .ok cur := by
  obtain ⟨front, hsplit, hoffset⟩ := h.split
  rw [reopen, hoffset, charsFrom_eq hsplit]
  dsimp only [bind, Except.bind]
  rw [← hoffset]

/-- Whatever is cut out of the characters ahead stands between two offsets. -/
lemma IsAt.slice_eq (h : IsAt text cur) {skipped middle behind : List Char}
    (hrest : cur.rest = skipped ++ (middle ++ behind)) :
    slice text (cur.offset + byteCount skipped) (cur.offset + byteCount skipped + byteCount middle) =
      .ok middle := by
  obtain ⟨front, hsplit, hoffset⟩ := h.split
  rw [hoffset, ← byteCount_append]
  exact Proofs.slice_eq (by rw [hsplit, hrest, List.append_assoc])

lemma Leads.offset_le (h : Leads cur after) : cur.offset ≤ after.offset := by
  obtain ⟨chars, hpassed⟩ := h
  rw [hpassed.offset]
  exact Nat.le_add_right _ _

lemma offset_lt_advance {n : Nat} (hn : 0 < n) (hrest : cur.rest ≠ []) :
    cur.offset < (cur.advance n).offset := by
  rw [(passed_advance cur n).offset]
  refine Nat.lt_add_of_pos_right (byteCount_pos ?_)
  obtain ⟨c, rest, hcons⟩ := List.exists_cons_of_ne_nil hrest
  obtain ⟨m, rfl⟩ := Nat.exists_eq_succ_of_ne_zero (Nat.ne_of_gt hn)
  rw [hcons, List.take_succ_cons]
  exact List.cons_ne_nil _ _

lemma IsAt.passOver_eq (h : IsAt text cur) {n : Nat} (hn : 0 < n) (hrest : cur.rest ≠ []) :
    passOver text cur n = .ok (cur.advance n) := by
  have hall : (List.range (n + 1)).all
      (fun k => String.Pos.Raw.isValid text ⟨(cur.advance k).offset⟩) = true :=
    List.all_eq_true.mpr fun k _ => (h.advance k).isValid
  rw [passOver, onward_later (offset_lt_advance hn hrest)]
  dsimp only [bind, Except.bind]
  rw [if_pos hall]

/-! ## Gaps, names and texts -/

/-- The body of a comment is cut out between the offsets behind its opening and before its end. -/
lemma IsAt.body_eq (h : IsAt text cur) (opening body closing behind : List Char)
    (hopening : byteCount opening = 2) (hrest : cur.rest = opening ++ (body ++ (closing ++ behind)))
    {n : Nat} (hn : n = (opening ++ body ++ closing).length) :
    slice text (cur.offset + 2) ((cur.advance n).offset - byteCount closing) = .ok body := by
  have hadvance : (cur.advance n).offset = cur.offset + byteCount (opening ++ body ++ closing) := by
    have hwhole : cur.rest = opening ++ body ++ closing ++ behind := by
      rw [hrest]
      simp
    rw [hn]
    exact (offset_advance hwhole).2
  have hslice := h.slice_eq hrest
  rw [hopening] at hslice
  rw [hadvance, byteCount_append, byteCount_append, hopening]
  rw [show cur.offset + (2 + byteCount body + byteCount closing) - byteCount closing =
    cur.offset + 2 + byteCount body by omega]
  exact hslice

/-- What a gap does with a character that opens no comment. -/
lemma skipGap_plain {fuel : Nat} {gap : Gap} {c : Char} {rest : List Char} {offset : Nat} {place : Place}
    (hline : ∀ more, c = '/' → rest = '/' :: more → False)
    (hblock : ∀ more, c = '/' → rest = '*' :: more → False) :
    skipGap (fuel + 1) gap ⟨c :: rest, offset, place⟩ =
      if isLineTerminator c then
        skipGap fuel ⟨gap.comments, true⟩ ((⟨c :: rest, offset, place⟩ : Cursor).advance 1)
      else if Text.isBlank c then
        skipGap fuel gap ((⟨c :: rest, offset, place⟩ : Cursor).advance 1)
      else .ok (gap, ⟨c :: rest, offset, place⟩) := by
  rw [skipGap]
  split
  · rename_i heq
    obtain ⟨hc, hrest⟩ := List.cons.inj heq
    exact (hline _ hc hrest).elim
  · rename_i heq
    obtain ⟨hc, hrest⟩ := List.cons.inj heq
    exact (hblock _ hc hrest).elim
  · rename_i heq
    obtain ⟨rfl, -⟩ := List.cons.inj heq
    rfl
  · rename_i heq
    cases heq

lemma IsAt.gap_eq {fuel : Nat} {gap : Gap} (h : IsAt text cur) (hfuel : cur.rest.length < fuel) :
    checkedGap text fuel gap cur = lifted (skipGap fuel gap cur) := by
  induction fuel generalizing gap cur with
  | zero => exact absurd hfuel (Nat.not_lt_zero _)
  | succ fuel ih =>
    have hmore : ∀ {n : Nat} {gap : Gap}, 0 < n → cur.rest ≠ [] →
        checkedGap text fuel gap (cur.advance n) = lifted (skipGap fuel gap (cur.advance n)) := by
      intro n gap hn hrest
      obtain ⟨c, rest, hcons⟩ := List.exists_cons_of_ne_nil hrest
      have hshorter := advance_shorter hcons hn
      exact ih (h.advance n) (by omega)
    rw [checkedGap, h.reopen_eq]
    obtain ⟨chars, offset, place⟩ := cur
    dsimp only [bind, Except.bind] at hmore ⊢
    split
    · rename_i rest
      obtain ⟨more, hsplit, -, -⟩ := lineCommentBody_split rest
      have hbody := h.body_eq ['/', '/'] (lineCommentBody rest) [] more
        (n := 2 + (lineCommentBody rest).length) rfl
        (by rw [List.nil_append, ← hsplit]; rfl) (by simp; omega)
      rw [byteCount_nil, Nat.sub_zero] at hbody
      rw [h.passOver_eq (by omega) (List.cons_ne_nil _ _)]
      dsimp only
      rw [hbody]
      exact hmore (by omega) (List.cons_ne_nil _ _)
    · rename_i rest
      cases hblock : blockCommentBody rest with
      | none =>
        simp only [skipGap, hblock]
        rfl
      | some inside =>
        obtain ⟨⟨more, hsplit⟩, -⟩ := blockCommentBody_split hblock
        have hbody := h.body_eq ['/', '*'] inside ['*', '/'] more
          (n := 4 + inside.length) rfl (by rw [hsplit]; rfl) (by simp; omega)
        have htwo : byteCount ['*', '/'] = 2 := rfl
        rw [htwo] at hbody
        simp only [skipGap, hblock]
        rw [h.passOver_eq (by omega) (List.cons_ne_nil _ _)]
        dsimp only
        rw [hbody]
        exact hmore (by omega) (List.cons_ne_nil _ _)
    · rename_i c rest hline hblock
      rw [skipGap_plain hline hblock, h.passOver_eq Nat.one_pos (List.cons_ne_nil _ _)]
      split
      · exact hmore Nat.one_pos (List.cons_ne_nil _ _)
      · split
        · exact hmore Nat.one_pos (List.cons_ne_nil _ _)
        · rfl
    · rfl

lemma checkedName_eq {fuel : Nat} {chars : List Char} (h : chars.length ≤ fuel) :
    checkedName (fuel + 1) chars = .ok (scanName fuel chars) := by
  induction fuel generalizing chars with
  | zero =>
    obtain rfl := List.eq_nil_of_length_eq_zero (Nat.le_zero.mp h)
    rfl
  | succ fuel ih =>
    rw [checkedName.eq_def]
    dsimp only
    split
    · rfl
    · rename_i rest
      have hdrop : ∀ count, (rest.drop count).length ≤ fuel := by
        intro count
        rw [List.length_drop]
        simp only [List.length_cons] at h
        omega
      cases hescape : unicodeEscape rest with
      | mk found count =>
        cases found with
        | none => simp only [scanName, hescape]
        | some c =>
          simp only [scanName, hescape]
          rw [ih (hdrop count)]
          rfl
    · rename_i c rest hplain
      have hopen : scanName (fuel + 1) (c :: rest) =
          if isNamePart c then (c :: (scanName fuel rest).1, 1 + (scanName fuel rest).2)
          else ([], 0) := by
        rw [scanName.eq_def]
        dsimp only
        split
        · rename_i heq
          cases heq
        · rename_i heq
          obtain ⟨hc, hrest⟩ := List.cons.inj heq
          exact (hplain _ hc hrest).elim
        · rename_i heq
          obtain ⟨rfl, rfl⟩ := List.cons.inj heq
          rfl
      rw [hopen]
      split
      · rw [ih (by simpa using h)]
        rfl
      · rfl

lemma checkedText_eq {quote : Char} {fuel : Nat} {chars : List Char} (h : chars.length < fuel) :
    checkedText quote fuel chars = .ok (scanText quote fuel chars) := by
  induction fuel generalizing chars with
  | zero => exact absurd h (Nat.not_lt_zero _)
  | succ fuel ih =>
    cases chars with
    | nil => rfl
    | cons c rest =>
      rw [List.length_cons] at h
      rw [checkedText, scanText]
      split
      · rfl
      · split
        · rfl
        · split
          · dsimp only
            rw [ih (by rw [List.length_drop]; omega)]
            rfl
          · rw [ih (by omega)]
            rfl

lemma checkedLexeme_eq (regexMayStart : Bool) (cur : Cursor) :
    checkedLexeme regexMayStart cur = match lexeme regexMayStart cur.rest with
      | .ok found => .ok found
      | .error fault => refuse (cur.fault fault) := by
  have hname : ∀ chars : List Char, checkedName (chars.length + 1) chars =
      .ok (scanName chars.length chars) := fun chars => checkedName_eq (Nat.le_refl _)
  obtain ⟨chars, offset, place⟩ := cur
  cases chars with
  | nil => rfl
  | cons c rest =>
    unfold checkedLexeme lexeme
    dsimp only
    split
    · have hlength : rest.length + 2 = (c :: rest).length + 1 := rfl
      rw [hlength, hname]
      rfl
    · split
      · rw [hname]
        rfl
      · split
        · cases numberAt (c :: rest) <;> rfl
        · split
          · rw [checkedText_eq (Nat.lt_succ_self _)]
            dsimp only [bind, Except.bind]
            cases scanText c (rest.length + 1) rest <;> rfl
          · split
            · cases scanRegex false rest <;> rfl
            · cases markAt (c :: rest) <;> rfl

lemma IsAt.lexemeAt_eq (h : IsAt text cur) (regexMayStart : Bool) :
    checkedLexemeAt text regexMayStart cur = lifted (lexemeAt regexMayStart cur) := by
  rw [checkedLexemeAt, checkedLexeme_eq, lexemeAt]
  cases hlexeme : lexeme regexMayStart cur.rest with
  | error fault => rfl
  | ok found =>
    obtain ⟨kind, count⟩ := found
    dsimp only [bind, Except.bind]
    rcases lexeme_cases hlexeme with ⟨rfl, hnil⟩ | ⟨hkind, hne, hpos⟩
    · have hend : count = 0 := by
        rw [hnil] at hlexeme
        cases hlexeme
        rfl
      rw [hend, Cursor.advance]
      rfl
    · rw [if_neg (by simpa using hkind), h.passOver_eq hpos hne]
      rfl

end TaskRunner.Proofs
