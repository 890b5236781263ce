import TaskRunner.Proofs.RepeatedTokens
import TaskRunner.Proofs.RepeatedScans

/-!
# Tokens with another property

A property may be spelled in another way behind its point. The point is read as before, and so are the tokens
behind the property unless its name tells whether a slash starts a regular expression there.
-/

namespace TaskRunner.Proofs
open Source

variable {cur cur' after : Cursor} {regex regex' : Bool} {kind : Kind} {gap written name rest behind : List Char}

/-! ## Spelled names in front of anything -/

lemma stopsName_of_count {fuel : Nat} (hfuel : behind.length ≤ fuel) (h : (scanName fuel behind).2 = 0) :
    StopsName behind := by
  intro other
  cases behind with
  | nil => cases other <;> rfl
  | cons c rest =>
    obtain ⟨fuel, rfl⟩ : ∃ less, fuel = less + 1 := ⟨fuel - 1, by simp at hfuel; omega⟩
    by_cases hescape : c = '\\' ∧ rest.head? = some 'u'
    · obtain ⟨rfl, hhead⟩ := hescape
      obtain ⟨more, rfl⟩ := List.head?_eq_some_iff.mp hhead
      rw [scanName_escape] at h
      split at h <;> (dsimp only at h; omega)
    · rw [scanName_plain hescape] at h
      split at h
      · dsimp only at h
        omega
      · cases other with
        | zero => rfl
        | succ other => rw [scanName_plain hescape, if_neg ‹_›]

/-- A name that is read up to its end stops there. -/
lemma Spells.stops (h : Spells written name) {fuel : Nat} (hfuel : (written ++ behind).length ≤ fuel)
    (hcount : (scanName fuel (written ++ behind)).2 = written.length) : StopsName behind := by
  induction h generalizing fuel with
  | nothing => exact stopsName_of_count hfuel hcount
  | @plain c written name part more ih =>
    obtain ⟨fuel, rfl⟩ : ∃ less, fuel = less + 1 := ⟨fuel - 1, by simp at hfuel; omega⟩
    have hplain : ¬ (c = '\\' ∧ (written ++ behind).head? = some 'u') := by
      rintro ⟨rfl, -⟩
      rw [isNamePart_backslash] at part
      cases part
    rw [List.cons_append, scanName_plain hplain, if_pos part] at hcount
    rw [List.cons_append, List.length_cons] at hfuel
    rw [List.length_cons] at hcount
    dsimp only at hcount
    have hmore : (written ++ behind).length ≤ fuel := by omega
    exact ih hmore (by omega)
  | @fourDigits c digits written name hex four code part more ih =>
    obtain ⟨fuel, rfl⟩ : ∃ less, fuel = less + 1 := ⟨fuel - 1, by simp at hfuel; omega⟩
    have hdrop : (digits ++ (written ++ behind)).drop 4 = written ++ behind := by
      rw [← four, List.drop_left]
    rw [List.cons_append, List.cons_append, List.append_assoc, scanName_escape,
      unicodeEscape_fourDigits hex four, code] at hcount
    simp only [hdrop, List.length_cons, List.length_append, List.cons_append] at hcount hfuel
    have hmore : (written ++ behind).length ≤ fuel := by
      rw [List.length_append]
      omega
    exact ih hmore (by omega)
  | @inBraces c digits written name hex code part more ih =>
    obtain ⟨fuel, rfl⟩ : ∃ less, fuel = less + 1 := ⟨fuel - 1, by simp at hfuel; omega⟩
    have hdrop : ('\x7b' :: (digits ++ '\x7d' :: (written ++ behind))).drop (digits.length + 2) =
        written ++ behind := by
      rw [List.drop_succ_cons, List.drop_append]
      simp
    have hchars : '\\' :: 'u' :: '\x7b' :: (digits ++ '\x7d' :: written) ++ behind =
        '\\' :: 'u' :: '\x7b' :: (digits ++ '\x7d' :: (written ++ behind)) := by simp
    rw [hchars, scanName_escape, unicodeEscape_inBraces hex, code] at hcount
    simp only [hdrop, List.length_cons, List.length_append, List.cons_append] at hcount hfuel
    have hmore : (written ++ behind).length ≤ fuel := by
      rw [List.length_append]
      omega
    exact ih hmore (by omega)

lemma IsSpelled.stops {count : Nat} (h : IsSpelled written name)
    (hread : lexeme regex (written ++ behind) = .ok (kind, count)) (hcount : count = written.length) :
    StopsName behind := by
  obtain ⟨c, more, rfl, hfront⟩ := h.front
  have hstart : (isNameStart c || (c == '\\' && (more ++ behind).head? == some 'u')) = true := by
    rcases hfront with hstart | ⟨rfl, hhead⟩
    · simp [hstart]
    · obtain ⟨more, rfl⟩ := List.head?_eq_some_iff.mp hhead
      simp
  rw [List.cons_append, lexeme] at hread
  simp only [hstart, if_true] at hread
  cases hread
  exact h.spells.stops (Nat.le_refl _) hcount

/-- Neither a point nor a digit starts a name. -/
lemma IsSpelled.endsPoint (h : IsSpelled written name) (behind : List Char) : EndsPoint (written ++ behind) := by
  obtain ⟨c, more, rfl, hfront⟩ := h.front
  intro d hd
  obtain rfl := Option.mem_some.mp hd
  rcases hfront with hstart | ⟨rfl, -⟩
  · refine ⟨?_, ?_⟩
    · rintro rfl
      have hpoint : isNameStart '.' = false := by decide
      rw [hpoint] at hstart
      cases hstart
    · by_contra hdigit
      obtain ⟨n, hn, rfl⟩ := isDigit_cases (eq_true_of_ne_false hdigit)
      rw [(digit_starts n hn).1] at hstart
      cases hstart
  · decide

/-- No gap starts with a point or a digit. -/
lemma Between.endsPoint {offset : Nat} {comments : List Comment} (h : Between offset gap behind comments)
    (hrest : EndsPoint rest) : EndsPoint (gap ++ rest) := by
  cases h with
  | nothing => exact hrest
  | @blank _ c chars _ _ blank more =>
    intro d hd
    obtain rfl := Option.mem_some.mp hd
    have hdigits : NoStop Char.isDigit := by decide
    have hstop : isStop c = true := by simp [isStop, blank]
    refine ⟨?_, hdigits.fails hstop⟩
    rintro rfl
    revert blank
    decide
  | line | block =>
    intro d hd
    obtain rfl := Option.mem_some.mp hd
    decide

/-! ## Points -/

lemma markAt_front {chars : List Char} {mark : String} (h : markAt chars = some mark) :
    mark ∈ marks ∧ mark.toList <+: chars := by
  obtain ⟨found, hfound, heq⟩ := Option.map_eq_some_iff.mp h
  have hfits := List.find?_some hfound
  have hfront := List.isPrefixOf_iff_prefix.mp hfits
  split at heq
  · rename_i hquestion
    have hmark : found = "?." := by simpa using (Bool.and_eq_true_iff.mp hquestion).1
    subst hmark
    subst heq
    obtain ⟨more, rfl⟩ := hfront
    exact ⟨by decide, '.' :: more, rfl⟩
  · subst heq
    exact ⟨List.mem_of_find?_eq_some hfound, hfront⟩

/-- A mark stands in the text as it is. -/
lemma lexeme_punct {chars : List Char} {mark : String} {count : Nat}
    (h : lexeme regex chars = .ok (.punct mark, count)) :
    mark ∈ marks ∧ chars = mark.toList ++ chars.drop count := by
  unfold lexeme at h
  split at h
  · cases h
  · dsimp only at h
    split at h
    · cases h
    · split at h
      · cases h
      · split at h
        · obtain ⟨found, -, h⟩ := bind_ok h
          cases h
        · split at h
          · split at h <;> cases h
          · split at h
            · split at h <;> cases h
            · split at h
              · rename_i hmark
                cases h
                obtain ⟨hmem, more, hmore⟩ := markAt_front hmark
                refine ⟨hmem, ?_⟩
                rw [← hmore, ← String.length_toList, List.drop_left]
              · cases h

lemma lexeme_point (h : EndsPoint rest) : lexeme regex ('.' :: rest) = .ok (.punct ".", 1) := by
  have hmark : markAt ('.' :: rest) = some "." := by
    have hlone : markAt ['.'] = some "." := by decide
    rw [← hlone]
    exact (sameStop_point endsPoint_nil h).marks []
  have hstart : isNameStart '.' = false := by decide
  rw [lexeme]
  simp [hstart, h.noDigit, hmark]
  rfl

lemma lexeme_questionPoint (h : EndsPoint rest) : lexeme regex ('?' :: '.' :: rest) = .ok (.punct "?.", 2) := by
  have hmark : markAt ('?' :: '.' :: rest) = some "?." := by
    have hlone : markAt ['?', '.'] = some "?." := by decide
    rw [← hlone]
    exact (sameStop_questionPoint endsPoint_nil h).marks []
  have hstart : isNameStart '?' = false := by decide
  rw [lexeme]
  simp [hstart, hmark]
  rfl

/-- What can stand as a point, and how it is written. -/
def pointMarks : List String :=
  [".", "?."]

/-- A point is read in front of any two texts that do not go on with a point or a digit. -/
lemma kindAt_point {mark : String} (hmark : mark ∈ pointMarks) (hcur : cur.rest = mark.toList ++ rest)
    (h : EndsPoint rest) :
    ∃ after, kindAt regex cur = .ok (.punct mark, after) ∧ after.rest = rest := by
  have hlexeme : lexeme regex cur.rest = .ok (.punct mark, mark.toList.length) ∧
      ∀ more, cur.rest ≠ '\x60' :: more := by
    rw [hcur]
    simp only [pointMarks, List.mem_cons, List.not_mem_nil, or_false] at hmark
    rcases hmark with rfl | rfl
    · exact ⟨lexeme_point h, fun _ heq => absurd (List.cons.inj heq).1 (by decide)⟩
    · exact ⟨lexeme_questionPoint h, fun _ heq => absurd (List.cons.inj heq).1 (by decide)⟩
  refine ⟨cur.advance mark.toList.length, ?_, advance_append hcur⟩
  rw [kindAt_lexeme hlexeme.2, lexemeAt, hlexeme.1]

lemma sameFront_point {mark : String} (hmark : mark ∈ pointMarks) {rest' : List Char} (h : EndsPoint rest)
    (h' : EndsPoint rest') : SameFront (mark.toList ++ rest) (mark.toList ++ rest') := by
  simp only [pointMarks, List.mem_cons, List.not_mem_nil, or_false] at hmark
  rcases hmark with rfl | rfl
  · exact (sameStop_point h h').sameFront
  · exact (sameStop_questionPoint h h').sameFront

lemma kindAt_punct {mark : String} (h : kindAt regex cur = .ok (.punct mark, after)) :
    cur.rest = mark.toList ++ after.rest := by
  have hplain : ∀ rest, cur.rest ≠ '\x60' :: rest := by
    intro rest hcur
    rw [kindAt_template hcur] at h
    obtain ⟨_, -, heq⟩ := map_ok h
    cases heq
  rw [kindAt_lexeme hplain] at h
  obtain ⟨count, hlexeme, rfl⟩ := lexemeAt_ok h
  rw [advance_rest]
  exact (lexeme_punct hlexeme).2

/-- A point with the gap before it is read in front of another text. -/
lemma tokenAt_point {point : Token} {mark : String} (h : tokenAt regex cur = .ok (point, after))
    (hmark : mark ∈ pointMarks) (hpunct : point.kind = .punct mark) (hrest : EndsPoint after.rest)
    {rest' : List Char} (hrest' : EndsPoint rest') :
    ∃ passed, cur.rest = passed ++ after.rest ∧ SameFront cur.rest (passed ++ rest') ∧
      ∀ cur' : Cursor, cur'.rest = passed ++ rest' → ∃ point' after',
        tokenAt regex cur' = .ok (point', after') ∧ after'.rest = rest' ∧
          placeless true point' = placeless true point := by
  obtain ⟨gap, mid, hgap, hkind, ht⟩ := tokenAt_cases h
  rw [hpunct] at hkind
  have hmid := kindAt_punct hkind
  have hsame : SameFront mid.rest (mark.toList ++ rest') := by
    rw [hmid]
    exact sameFront_point hmark hrest hrest'
  obtain ⟨skipped, hskipped, hagain⟩ := gapAt_behind hgap
  refine ⟨skipped ++ mark.toList, by rw [List.append_assoc, ← hmid, hskipped], ?_, fun cur' hcur' => ?_⟩
  · rw [hskipped, List.append_assoc]
    exact hsame.append skipped
  · rw [List.append_assoc] at hcur'
    obtain ⟨gap', mid', hgap', hmid', hline, hseen⟩ := hagain hcur' hsame
    obtain ⟨after', hkind', hafter'⟩ := kindAt_point hmark hmid' hrest'
    refine ⟨_, after', tokenAt_of_kindAt hgap' hkind', hafter', ?_⟩
    rw [ht]
    simp [placeless, hline, hseen, hpunct]

/-! ## Names behind points -/

/-- A text that starts with a token ends no line there. -/
lemma Opens.noLineEnds {chars : List Char} (h : Opens chars) (hne : chars ≠ []) : ¬ LineEnds chars := by
  intro hends
  obtain ⟨c, rest, rfl⟩ := List.exists_cons_of_ne_nil hne
  obtain ⟨-, -, hterminator, -⟩ := h c rfl
  rcases hends c rfl with rfl | rfl
  all_goals
    revert hterminator
    decide

lemma IsSpelled.ne_nil (h : IsSpelled written name) (behind : List Char) : written ++ behind ≠ [] := by
  obtain ⟨c, more, rfl, -⟩ := h.front
  exact List.cons_ne_nil _ _

lemma IsSpelled.noTemplate (h : IsSpelled written name) (hcur : cur.rest = written ++ behind)
    (rest : List Char) : cur.rest ≠ '\x60' :: rest := by
  intro heq
  exact (h.opens behind '\x60' (by rw [← hcur, heq]; rfl)).2.1 rfl

lemma kindAt_spelled (h : IsSpelled written name) (hstops : StopsName behind)
    (hcur : cur.rest = written ++ behind) :
    ∃ after, kindAt regex cur = .ok (.ident (String.ofList name), after) ∧ after.rest = behind := by
  refine ⟨cur.advance written.length, ?_, advance_append hcur⟩
  rw [kindAt_lexeme (h.noTemplate hcur), lexemeAt, hcur, lexeme_spelled h hstops]

lemma kindAt_stops (h : kindAt regex cur = .ok (kind, after)) (hspelled : IsSpelled written name)
    (hcur : cur.rest = written ++ behind) (hafter : after.rest = behind) : StopsName behind := by
  rw [kindAt_lexeme (hspelled.noTemplate hcur)] at h
  obtain ⟨count, hlexeme, rfl⟩ := lexemeAt_ok h
  by_cases hnil : behind = []
  · subst hnil
    intro fuel
    cases fuel <;> rfl
  · have hpos := List.length_pos_of_ne_nil hnil
    have hlength := congrArg List.length hafter
    rw [advance_rest, List.length_drop, hcur, List.length_append] at hlength
    rw [hcur] at hlexeme
    exact hspelled.stops hlexeme (by omega)

/-- A token that stands on a spelled name is an identifier, and so is every other name in its place. -/
lemma tokenAt_renamed {p : Token} (h : tokenAt regex cur = .ok (p, after)) (hold : IsSpelled written name)
    (hcur : cur.rest = gap ++ (written ++ behind)) (hstart : p.span.start = cur.offset + byteCount gap)
    (hstop : p.span.stop = p.span.start + byteCount written) {written' name' : List Char}
    (hnew : IsSpelled written' name') :
    p.kind = .ident (String.ofList name) ∧ after.rest = behind ∧ EndsPoint cur.rest ∧
      EndsPoint (gap ++ (written' ++ behind)) ∧
      ∀ (regex' : Bool) (cur' : Cursor), cur'.rest = gap ++ (written' ++ behind) → ∃ p' after',
        tokenAt regex' cur' = .ok (p', after') ∧ after'.rest = behind ∧
          placeless true p' = { placeless true p with kind := .ident (String.ofList name') } := by
  obtain ⟨found, mid, hgap, hkind, hp⟩ := tokenAt_cases h
  have hspan : p.span = ⟨mid.offset, after.offset⟩ := by rw [hp]
  rw [hspan] at hstart hstop
  dsimp only at hstart hstop
  obtain ⟨taken, htaken⟩ := kindAt_forward hkind
  obtain ⟨passed, hpassed⟩ := (gapAt_forward hgap).leads
  obtain ⟨rfl, hmid⟩ := front_of_byteCount_eq (hpassed.rest.symm.trans hcur) (by
    have hoffset := hpassed.offset
    omega)
  obtain ⟨rfl, hafter⟩ := front_of_byteCount_eq (htaken.rest.symm.trans hmid) (by
    have hoffset := htaken.offset
    omega)
  have hstops := kindAt_stops hkind hold hmid hafter
  obtain ⟨after', hread, -⟩ := kindAt_spelled hold hstops hmid
  have hident : p.kind = .ident (String.ofList name) :=
    (Prod.mk.inj (Except.ok.inj (hkind.symm.trans hread))).1
  obtain ⟨again, hagain, -, hgapAgain⟩ := gapAt_again hgap
  obtain rfl : again = passed := List.append_cancel_right (hagain.symm.trans hpassed.rest)
  obtain ⟨_, hsplit, -, hbetween⟩ := gapAt_ok hgap
  obtain rfl := List.append_cancel_right (hsplit.symm.trans hagain)
  refine ⟨hident, hafter, ?_, hbetween.endsPoint (hnew.endsPoint behind), fun regex' cur' hcur' => ?_⟩
  · rw [hcur]
    exact hbetween.endsPoint (hold.endsPoint behind)
  · have hlines : LineEnds mid.rest → LineEnds (written' ++ behind) := by
      intro hends
      rw [hmid] at hends
      exact absurd hends ((hold.opens behind).noLineEnds (hold.ne_nil behind))
    obtain ⟨gap', hgap', hline, hseen⟩ := hgapAgain hcur' (hnew.opens behind).gapLed hlines
    obtain ⟨after', hkind', hafter'⟩ := kindAt_spelled hnew hstops (advance_append hcur')
    refine ⟨_, after', tokenAt_of_kindAt hgap' hkind', hafter', ?_⟩
    rw [hp]
    simp [placeless, hline, hseen]

/-! ## Slashes -/

/-- A regular expression, or a mark that starts with a slash. -/
def isSlashed : Kind → Bool
  | .regex => true
  | .punct mark => mark.toList.head? == some '/'
  | _ => false

lemma lexeme_slash {count : Nat} (h : lexeme regex ('/' :: rest) = .ok (kind, count)) :
    isSlashed kind = true := by
  have hstart : isNameStart '/' = false := by decide
  have hread := h
  rw [lexeme] at h
  simp only [hstart, Bool.false_or, Bool.and_eq_true, beq_iff_eq] at h
  rw [if_neg (by simp), if_neg (by simp), if_neg (by simp), if_neg (by simp)] at h
  split at h
  · split at h
    · cases h
      rfl
    · cases h
  · split at h
    · cases h
      obtain ⟨hmark, hchars⟩ := lexeme_punct hread
      obtain ⟨c, more, hfirst, -⟩ := mark_first hmark
      rw [hfirst] at hchars
      have hc : c = '/' := (List.cons.inj hchars).1.symm
      simp [isSlashed, hfirst, hc]
    · cases h

lemma lexeme_flag {chars : List Char} (h : chars.head? ≠ some '/') : lexeme regex' chars = lexeme regex chars := by
  cases chars with
  | nil => rfl
  | cons c rest =>
    have hslash : (c == '/') = false := by simpa using h
    simp [lexeme, hslash]

/-- Whether a slash starts a regular expression matters for slashes only. -/
lemma kindAt_flag (h : kindAt regex cur = .ok (kind, after)) (hslash : isSlashed kind = false) :
    kindAt regex' cur = .ok (kind, after) := by
  by_cases htemplate : ∃ rest, cur.rest = '\x60' :: rest
  · obtain ⟨rest, hrest⟩ := htemplate
    rwa [kindAt_template hrest] at h ⊢
  · have hplain : ∀ rest, cur.rest ≠ '\x60' :: rest := fun rest heq => htemplate ⟨rest, heq⟩
    rw [kindAt_lexeme hplain] at h ⊢
    obtain ⟨count, hlexeme, rfl⟩ := lexemeAt_ok h
    have hhead : cur.rest.head? ≠ some '/' := by
      intro hhead
      obtain ⟨rest, hrest⟩ := List.head?_eq_some_iff.mp hhead
      rw [hrest] at hlexeme
      rw [lexeme_slash hlexeme] at hslash
      cases hslash
    rw [lexemeAt, lexeme_flag hhead, hlexeme]

lemma tokenAt_flag {t : Token} (h : tokenAt regex cur = .ok (t, after)) (hslash : isSlashed t.kind = false) :
    tokenAt regex' cur = .ok (t, after) := by
  obtain ⟨gap, mid, hgap, hkind, ht⟩ := tokenAt_cases h
  rw [tokenAt_of_kindAt hgap (kindAt_flag hkind hslash), ← ht]

lemma ReadsAll.flag {tokens : List Token} (h : ReadsAll regex cur tokens)
    (hslash : ∀ t ∈ tokens.head?, isSlashed t.kind = false) : ReadsAll regex' cur tokens := by
  cases tokens with
  | nil =>
    obtain ⟨body, ending, _, _, _, heq, -⟩ := readsAll_iff.mp h
    simp at heq
  | cons t more =>
    obtain ⟨after, ht, hrest⟩ := h.cases
    have ht' : tokenAt regex' cur = .ok (t, after) := tokenAt_flag ht (hslash t rfl)
    rcases hrest with ⟨hend, rfl⟩ | ⟨hend, hmore⟩
    · exact readsAll_end ht' hend
    · exact Scans.readsAll (.next ht' hend .done) hmore

/-! ## Texts with another property -/

/-- The name of the property does not matter to what a slash behind it starts. -/
def SlashAlike (name name' : List Char) (later : List Token) : Prop :=
  operandWords.contains (String.ofList name') = operandWords.contains (String.ofList name) ∨
    ∀ u ∈ later.head?, isSlashed u.kind = false

/-- A text with another name behind a point is read as the same tokens, but for the name. -/
lemma tokenize_renamed {text : String} {earlier later : List Token} {point p : Token} {mark : String}
    {front name name' written' : List Char}
    (htokens : tokenize text = .ok (earlier ++ point :: p :: later)) (hmark : mark ∈ pointMarks)
    (hpunct : point.kind = .punct mark) (htext : text.toList = front ++ (written ++ behind))
    (hspan : p.span = ⟨byteCount front, byteCount front + byteCount written⟩) (hold : IsSpelled written name)
    (hnew : IsSpelled written' name') (hslash : SlashAlike name name' later) :
    p.kind = .ident (String.ofList name) ∧ ∃ earlier' point' p' later',
      tokenize (String.ofList (front ++ (written' ++ behind))) = .ok (earlier' ++ point' :: p' :: later') ∧
      earlier'.map (placeless true) = earlier.map (placeless true) ∧
      placeless true point' = placeless true point ∧
      placeless true p' = { placeless true p with kind := .ident (String.ofList name') } ∧
      later'.map (placeless true) = later.map (placeless true) := by
  obtain ⟨start, regex, last, hstart, hoffset, -, hrest, hagain⟩ :=
    tokenize_front htokens (List.cons_ne_nil point _)
  obtain ⟨after, hpointAt, ⟨-, hnone⟩ | ⟨hpointEnd, hmore⟩⟩ := hrest.cases
  · cases hnone
  obtain ⟨behindName, hp, hlater⟩ := hmore.cases
  obtain ⟨passed, hpassed⟩ := tokenAt_passed hpointAt
  -- The point ends in front of the property, so the text between them is the gap of the property.
  obtain ⟨gap, rfl, hgap⟩ : ∃ gap, front = (start ++ passed) ++ gap ∧ after.rest = gap ++ (written ++ behind) := by
    obtain ⟨_, mid, hskip, -, hpeq⟩ := tokenAt_cases hp
    obtain ⟨skipped, hskipped⟩ := (gapAt_forward hskip).leads
    have hplace : byteCount front = mid.offset := by
      rw [hpeq] at hspan
      exact (Span.mk.inj hspan).1.symm
    refine front_of_byteCount_le ?_ ?_
    · rw [List.append_assoc, ← hpassed.rest, ← hstart, htext]
    · rw [byteCount_append, ← hoffset, ← hpassed.offset, hplace, hskipped.offset]
      exact Nat.le_add_right _ _
  have hbefore : p.span.start = after.offset + byteCount gap := by
    rw [hspan, byteCount_append, byteCount_append, ← hoffset, ← hpassed.offset]
  obtain ⟨hident, hbehind, hends, hends', hrenamed⟩ :=
    tokenAt_renamed hp hold hgap hbefore (by rw [hspan]) hnew
  obtain ⟨again, hlast, hsame, hpointAgain⟩ := tokenAt_point hpointAt hmark hpunct hends hends'
  obtain rfl : again = passed := List.append_cancel_right (hlast.symm.trans hpassed.rest)
  obtain ⟨last', hlast', hearlier⟩ := hagain _ hsame
  obtain ⟨point', after', hpoint', hafter', hpointSame⟩ := hpointAgain last' hlast'
  obtain ⟨p', behindName', hp', hbehind', hpSame⟩ := hrenamed point'.kind.regexMayFollow after' hafter'
  have hident' : p'.kind = .ident (String.ofList name') := congrArg Token.kind hpSame
  have hlater' : ReadsAll p'.kind.regexMayFollow behindName later := by
    rcases hlater with ⟨hend, -⟩ | ⟨-, hmore⟩
    · rw [hident] at hend
      cases hend
    · rcases hslash with hwords | hslash
      · rw [hident] at hmore
        rw [hident']
        simpa only [Kind.regexMayFollow, hwords] using hmore
      · exact hmore.flag hslash
  obtain ⟨later', hread, hlaterSame⟩ := hlater'.again (hbehind'.trans hbehind.symm)
  have hpointEnd' : point'.kind ≠ .endOfFile := by rwa [placeless_kind hpointSame]
  have hpEnd' : p'.kind ≠ .endOfFile := by
    rw [hident']
    exact Kind.noConfusion
  have hall : ReadsAll regex last' (point' :: p' :: later') :=
    Scans.readsAll (.next hpoint' hpointEnd' (.next hp' hpEnd' .done)) hread
  obtain ⟨earlier', htokens', hearlierSame⟩ := hearlier _ hall
  refine ⟨hident, earlier', point', p', later', ?_, hearlierSame, hpointSame, hpSame, hlaterSame⟩
  rw [← htokens']
  simp

end TaskRunner.Proofs
