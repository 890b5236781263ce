import TaskRunner.Proofs.SpacedLexemes

/-!
# Written templates

A template holds plain characters, escapes and substitutions, and a substitution holds names, texts, numbers,
marks and again templates. However deep they are nested, the template is one token: quotes, braces and
backticks within it end only what they belong to.
-/

namespace TaskRunner.Proofs
open Source

/-! ## Templates -/

/-- A name, a number, a text or a mark of a substitution. It opens and closes no brace. -/
inductive IsItem : List Char → Prop
  | name {written name : List Char} (spelled : IsSpelled written name) : IsItem written
  | number {text : List Char} (decimal : IsDecimal text) : IsItem text
  | text {quote : Char} {body : List Char} (isQuote : quote = '"' ∨ quote = '\'')
      (plain : IsPlainBody quote body) : IsItem (quotedPlain quote body)
  | mark {mark : String} (isMark : mark ∈ marks) (noSlash : mark.toList.head? ≠ some '/')
      (noBrace : mark ≠ "\x7b" ∧ mark ≠ "\x7d") : IsItem mark.toList

/-- A space comes next, if anything does. -/
def SpaceNext (behind : List Char) : Prop :=
  ∀ c ∈ behind.head?, c = ' '

/-- What characters are part of: the text of a template, or a substitution in which braces are open. -/
inductive Layer where
  | text
  | hole (depth : Nat)

/-- The characters up to the end of a layer, its closing mark excluded. -/
inductive IsWritten : Layer → List Char → Prop
  | nothing : IsWritten .text []
  | plain {c : Char} {more : List Char} (noBacktick : c ≠ '\x60') (noEscape : c ≠ '\\')
      (noHole : ¬ (c = '$' ∧ more.head? = some '\x7b')) (rest : IsWritten .text more) :
      IsWritten .text (c :: more)
  | escape {c : Char} {more : List Char} (rest : IsWritten .text more) :
      IsWritten .text ('\\' :: c :: more)
  | substitution {inside more : List Char} (hole : IsWritten (.hole 0) inside)
      (rest : IsWritten .text more) : IsWritten .text ('$' :: '\x7b' :: (inside ++ '\x7d' :: more))
  | done : IsWritten (.hole 0) []
  | space {depth : Nat} {more : List Char} (rest : IsWritten (.hole depth) more) :
      IsWritten (.hole depth) (' ' :: more)
  | item {depth : Nat} {item more : List Char} (isItem : IsItem item) (apart : SpaceNext more)
      (rest : IsWritten (.hole depth) more) : IsWritten (.hole depth) (item ++ more)
  | opened {depth : Nat} {more : List Char} (rest : IsWritten (.hole (depth + 1)) more) :
      IsWritten (.hole depth) ('\x7b' :: more)
  | closed {depth : Nat} {more : List Char} (rest : IsWritten (.hole depth) more) :
      IsWritten (.hole (depth + 1)) ('\x7d' :: more)
  | template {depth : Nat} {body more : List Char} (text : IsWritten .text body)
      (rest : IsWritten (.hole depth) more) :
      IsWritten (.hole depth) ('\x60' :: (body ++ '\x60' :: more))

/-! ## Items -/

lemma SpaceNext.spaced {more : List Char} (h : SpaceNext more) (behind : List Char) :
    Spaced (more ++ '\x7d' :: behind) := by
  cases more with
  | nil => exact spaced_brace behind
  | cons c more =>
    rw [h c rfl]
    exact spaced_space _

/-- The kind of an item, which is no brace and not the end of the text. -/
lemma IsItem.lexeme {item behind : List Char} (h : IsItem item) (hbehind : Spaced behind) :
    ∃ kind, (∀ depth, depthBehind depth kind = some depth) ∧
      ∀ regex, Source.lexeme regex (item ++ behind) = .ok (kind, item.length) := by
  cases h with
  | name spelled => exact ⟨_, fun _ => rfl, lexeme_spelled spelled hbehind.endsName.stops⟩
  | number decimal =>
    obtain ⟨value, hread⟩ := lexeme_decimal decimal hbehind
    exact ⟨_, fun _ => rfl, hread⟩
  | text isQuote plain => exact ⟨_, fun _ => rfl, lexeme_quotedPlain isQuote plain behind⟩
  | mark isMark noSlash noBrace =>
    refine ⟨_, fun depth => ?_, lexeme_spacedMark isMark noSlash hbehind⟩
    simp [depthBehind, noBrace]

lemma IsItem.opens {item : List Char} (h : IsItem item) (behind : List Char) :
    Opens (item ++ behind) := by
  cases h with
  | name spelled => exact spelled.opens behind
  | number decimal => exact decimal.opens behind
  | text isQuote plain =>
    rcases isQuote with rfl | rfl
    · exact opens_cons ⟨by decide, by decide, by decide, by decide⟩ _
    · exact opens_cons ⟨by decide, by decide, by decide, by decide⟩ _
  | mark isMark noSlash => exact opens_mark isMark noSlash behind

lemma IsItem.nonempty {item : List Char} (h : IsItem item) : item ≠ [] := by
  cases h with
  | name spelled =>
    obtain ⟨c, more, rfl, -⟩ := spelled.front
    exact List.cons_ne_nil c more
  | number decimal =>
    obtain ⟨whole, fraction, exponent, suffix, hparts, rfl⟩ := decimal
    rcases hparts.starts with ⟨c, more, rfl, -⟩ | ⟨rfl, c, more, rfl, -⟩ <;> exact List.cons_ne_nil _ _
  | text => exact List.cons_ne_nil _ _
  | mark isMark =>
    obtain ⟨c, more, hchars, -⟩ := mark_first isMark
    rw [hchars]
    exact List.cons_ne_nil c more

/-! ## Steps through a substitution -/

section
variable {cur : Cursor} {spaces behind : List Char} {regex : Bool}

lemma advance_spaced {item : List Char} (hcur : cur.rest = spaces ++ (item ++ behind)) :
    (cur.advance (spaces.length + item.length)).rest = behind := by
  rw [advance_rest, hcur, ← List.drop_drop, List.drop_left, List.drop_left]

/-- A lexeme behind spaces changes the number of open braces. -/
lemma templateHole_lexeme (opened : Place) (fuel depth : Nat) {item : List Char} {kind : Kind}
    (hspaces : ∀ c ∈ spaces, c = ' ')
    (hcur : cur.rest = spaces ++ (item ++ behind)) (hopens : Opens (item ++ behind)) (hne : item ≠ [])
    (hlexeme : lexeme regex (item ++ behind) = .ok (kind, item.length)) :
    templateHole opened (fuel + 1) depth regex cur =
      match depthBehind depth kind with
      | none => templateText opened fuel (cur.advance (spaces.length + item.length))
      | some depth => templateHole opened fuel depth kind.regexMayFollow
          (cur.advance (spaces.length + item.length)) := by
  have hgap := gapAt_spaces hspaces hopens.endsGap hcur
  have hmid : (cur.advance spaces.length).rest = item ++ behind := advance_append hcur
  have hread : lexemeAt regex (cur.advance spaces.length) =
      .ok (kind, cur.advance (spaces.length + item.length)) := by
    rw [lexemeAt, hmid, hlexeme]
    exact congrArg (fun after => Except.ok (kind, after)) (advance_advance _ _ _)
  have hsome : (cur.advance spaces.length).rest ≠ [] := by
    rw [hmid]
    exact fun hnil => hne (List.append_eq_nil_iff.mp hnil).1
  have hno : ∀ rest, (cur.advance spaces.length).rest ≠ '\x60' :: rest := by
    intro rest htemplate
    rw [hmid] at htemplate
    exact absurd rfl (hopens '\x60' (by rw [htemplate]; rfl)).2.1
  rw [templateHole_lexemeAt hgap hsome hno, hread]
  rfl

/-- A backtick behind spaces opens a template in the substitution. -/
lemma templateHole_backtick (opened : Place) (fuel depth : Nat) (regex : Bool) (hspaces : ∀ c ∈ spaces, c = ' ')
    (hcur : cur.rest = spaces ++ '\x60' :: behind) :
    ∃ place, templateHole opened (fuel + 1) depth regex cur =
      templateText place fuel (cur.advance (spaces.length + 1)) >>= templateHole opened fuel depth false := by
  have hends : EndsGap ('\x60' :: behind) := by
    intro c hc
    obtain rfl := Option.mem_some.mp hc
    exact ⟨by decide, by decide, by decide⟩
  have hgap := gapAt_spaces hspaces hends hcur
  have hmid : (cur.advance spaces.length).rest = '\x60' :: behind := advance_append hcur
  refine ⟨(cur.advance spaces.length).place, ?_⟩
  rw [templateHole_template hgap hmid, advance_advance]

end

/-! ## Reading templates -/

/-- A layer is read up to behind its closing mark, with one unit of fuel for each character at most. Spaces
in front of the rest of a substitution cost none. -/
def ReadThrough : Layer → List Char → Prop
  | .text, chars => ∀ (opened : Place) (fuel : Nat) {cur : Cursor} {behind : List Char},
      cur.rest = chars ++ '\x60' :: behind → chars.length < fuel →
      templateText opened fuel cur = .ok (cur.advance (chars.length + 1))
  | .hole depth, chars => ∀ (opened : Place) (fuel : Nat) (regex : Bool) {cur : Cursor}
      {spaces behind : List Char}, (∀ c ∈ spaces, c = ' ') → cur.rest = spaces ++ (chars ++ '\x7d' :: behind) →
      chars.length < fuel → ∃ left, fuel ≤ left + chars.length + 1 ∧
        templateHole opened fuel depth regex cur =
          templateText opened left (cur.advance (spaces.length + chars.length + 1))

/-- Behind a lexeme the rest of a substitution is read. -/
lemma readThrough_lexeme {item more : List Char} {depth next : Nat} (hne : item ≠ [])
    (hopens : ∀ behind, Opens (item ++ behind))
    (hlexeme : ∀ behind, ∃ kind, depthBehind depth kind = some next ∧
      ∀ regex, lexeme regex (item ++ (more ++ '\x7d' :: behind)) = .ok (kind, item.length))
    (hmore : ReadThrough (.hole next) more) : ReadThrough (.hole depth) (item ++ more) := by
  intro opened fuel regex cur spaces behind hspaces hcur hfuel
  obtain ⟨kind, hdepth, hlexeme⟩ := hlexeme behind
  rw [List.append_assoc] at hcur
  have hpos : 0 < item.length := List.length_pos_of_ne_nil hne
  rw [List.length_append] at hfuel
  obtain ⟨fuel, rfl⟩ : ∃ less, fuel = less + 1 := ⟨fuel - 1, by omega⟩
  have hstep := templateHole_lexeme opened fuel depth hspaces hcur
    (hopens _) hne (hlexeme regex)
  have hrest : (cur.advance (spaces.length + item.length)).rest = [] ++ (more ++ '\x7d' :: behind) :=
    advance_spaced hcur
  obtain ⟨left, hleft, hread⟩ := hmore opened fuel kind.regexMayFollow
    (List.forall_mem_nil _) hrest (by omega)
  refine ⟨left, by rw [List.length_append]; omega, ?_⟩
  rw [hstep, hdepth]
  refine hread.trans ?_
  rw [advance_advance, List.length_append, List.length_nil]
  congr 2
  omega

lemma readThrough_brace {c : Char} {more : List Char} (mark : String) {depth next : Nat}
    (hmark : (c, mark) ∈ plainMarks) (hstarts : StartsToken c)
    (hdepth : depthBehind depth (.punct mark) = some next) (hmore : ReadThrough (.hole next) more) :
    ReadThrough (.hole depth) (c :: more) :=
  readThrough_lexeme (List.cons_ne_nil c []) (fun _ => opens_cons hstarts _)
    (fun _ => ⟨_, hdepth, lexeme_plainMark hmark _⟩) hmore

lemma readThrough_nothing : ReadThrough .text [] := by
  intro opened fuel cur behind hcur hfuel
  obtain ⟨fuel, rfl⟩ : ∃ less, fuel = less + 1 := ⟨fuel - 1, by omega⟩
  exact templateText_close hcur

lemma readThrough_plain {c : Char} {more : List Char} (noBacktick : c ≠ '\x60') (noEscape : c ≠ '\\')
    (noHole : ¬ (c = '$' ∧ more.head? = some '\x7b')) (hmore : ReadThrough .text more) :
    ReadThrough .text (c :: more) := by
  intro opened fuel cur behind hcur hfuel
  rw [List.length_cons] at hfuel
  obtain ⟨fuel, rfl⟩ : ∃ less, fuel = less + 1 := ⟨fuel - 1, by omega⟩
  have hcur : cur.rest = c :: (more ++ '\x60' :: behind) := hcur
  have hrest : (cur.advance 1).rest = more ++ '\x60' :: behind := by
    rw [advance_rest, hcur]
    rfl
  have hread := hmore opened fuel hrest (by omega)
  have hhole : ¬ (c = '$' ∧ (more ++ '\x60' :: behind).head? = some '\x7b') := by
    rintro ⟨rfl, hbrace⟩
    cases more with
    | nil => cases hbrace
    | cons d more => exact noHole ⟨rfl, hbrace⟩
  rw [templateText_char hcur noBacktick noEscape hhole, hread, advance_advance, List.length_cons]
  congr 2
  omega

lemma readThrough_escape {c : Char} {more : List Char} (hmore : ReadThrough .text more) :
    ReadThrough .text ('\\' :: c :: more) := by
  intro opened fuel cur behind hcur hfuel
  simp only [List.length_cons] at hfuel
  obtain ⟨fuel, rfl⟩ : ∃ less, fuel = less + 1 := ⟨fuel - 1, by omega⟩
  have hcur : cur.rest = '\\' :: c :: (more ++ '\x60' :: behind) := hcur
  have hrest : (cur.advance 2).rest = more ++ '\x60' :: behind := by
    rw [advance_rest, hcur]
    rfl
  have hread := hmore opened fuel hrest (by omega)
  rw [templateText_escape hcur, hread, advance_advance, List.length_cons, List.length_cons]
  congr 2
  omega

lemma readThrough_substitution {inside more : List Char} (hinside : ReadThrough (.hole 0) inside)
    (hmore : ReadThrough .text more) :
    ReadThrough .text ('$' :: '\x7b' :: (inside ++ '\x7d' :: more)) := by
  intro opened fuel cur behind hcur hfuel
  simp only [List.length_cons, List.length_append] at hfuel
  obtain ⟨fuel, rfl⟩ : ∃ less, fuel = less + 1 := ⟨fuel - 1, by omega⟩
  have hcur : cur.rest = '$' :: '\x7b' :: (inside ++ '\x7d' :: (more ++ '\x60' :: behind)) := by
    simpa using hcur
  have hbehind : (cur.advance 2).rest = [] ++ (inside ++ '\x7d' :: (more ++ '\x60' :: behind)) := by
    rw [advance_rest, hcur]
    rfl
  obtain ⟨left, hleft, hhole⟩ := hinside opened fuel true
    (List.forall_mem_nil _) hbehind (by omega)
  have hrest : ((cur.advance 2).advance (inside.length + 1)).rest = more ++ '\x60' :: behind := by
    rw [advance_rest, hbehind, List.nil_append, ← List.drop_drop, List.drop_left]
    rfl
  have hread := hmore opened left hrest (by omega)
  rw [templateText_hole hcur, hhole, List.length_nil, Nat.zero_add, hread, advance_advance, advance_advance]
  simp only [List.length_cons, List.length_append]
  congr 2
  omega

lemma readThrough_done : ReadThrough (.hole 0) [] := by
  intro opened fuel regex cur spaces behind hspaces hcur hfuel
  obtain ⟨fuel, rfl⟩ : ∃ less, fuel = less + 1 := ⟨fuel - 1, by omega⟩
  have hstarts : StartsToken '\x7d' := ⟨by decide, by decide, by decide, by decide⟩
  have hmark : ('\x7d', "\x7d") ∈ plainMarks := by decide
  have hread : lexeme regex (['\x7d'] ++ behind) = .ok (.punct "\x7d", ['\x7d'].length) :=
    lexeme_plainMark hmark behind regex
  have hcur : cur.rest = spaces ++ (['\x7d'] ++ behind) := hcur
  have hstep := templateHole_lexeme opened fuel 0 hspaces hcur (opens_cons hstarts _) (List.cons_ne_nil _ _) hread
  exact ⟨fuel, by simp, hstep⟩

lemma readThrough_space {depth : Nat} {more : List Char} (hmore : ReadThrough (.hole depth) more) :
    ReadThrough (.hole depth) (' ' :: more) := by
  intro opened fuel regex cur spaces behind hspaces hcur hfuel
  rw [List.length_cons] at hfuel
  have hspaces : ∀ c ∈ spaces ++ [' '], c = ' ' := by
    intro c hc
    rcases List.mem_append.mp hc with hc | hc
    · exact hspaces c hc
    · exact List.mem_singleton.mp hc
  have hcur : cur.rest = (spaces ++ [' ']) ++ (more ++ '\x7d' :: behind) := by simpa using hcur
  obtain ⟨left, hleft, hread⟩ := hmore opened fuel regex hspaces hcur (by omega)
  refine ⟨left, by rw [List.length_cons]; omega, ?_⟩
  rw [hread, List.length_append, List.length_singleton, List.length_cons]
  congr 2
  omega

/-- A template in a substitution is read with the fuel that is left for the substitution. -/
lemma readThrough_template {depth : Nat} {body more : List Char} (hbody : ReadThrough .text body)
    (hmore : ReadThrough (.hole depth) more) :
    ReadThrough (.hole depth) ('\x60' :: (body ++ '\x60' :: more)) := by
  intro opened fuel regex cur spaces behind hspaces hcur hfuel
  simp only [List.length_cons, List.length_append] at hfuel
  obtain ⟨fuel, rfl⟩ : ∃ less, fuel = less + 1 := ⟨fuel - 1, by omega⟩
  have hcur : cur.rest = spaces ++ '\x60' :: (body ++ '\x60' :: (more ++ '\x7d' :: behind)) := by
    simpa using hcur
  obtain ⟨place, hstep⟩ := templateHole_backtick opened fuel depth regex hspaces hcur
  have hinside : (cur.advance (spaces.length + 1)).rest =
      body ++ '\x60' :: (more ++ '\x7d' :: behind) := by
    rw [advance_rest, hcur, ← List.drop_drop, List.drop_left]
    rfl
  have htext := hbody place fuel hinside (by omega)
  have hrest : ((cur.advance (spaces.length + 1)).advance (body.length + 1)).rest =
      [] ++ (more ++ '\x7d' :: behind) := by
    rw [advance_rest, hinside, ← List.drop_drop, List.drop_left]
    rfl
  obtain ⟨left, hleft, hread⟩ := hmore opened fuel false
    (List.forall_mem_nil _) hrest (by omega)
  refine ⟨left, by simp only [List.length_cons, List.length_append]; omega, ?_⟩
  rw [hstep, htext]
  refine hread.trans ?_
  simp only [advance_advance, List.length_cons, List.length_append, List.length_nil]
  congr 2
  omega

lemma IsWritten.readThrough {layer : Layer} {chars : List Char} (h : IsWritten layer chars) :
    ReadThrough layer chars := by
  induction h with
  | nothing => exact readThrough_nothing
  | plain noBacktick noEscape noHole _ ih => exact readThrough_plain noBacktick noEscape noHole ih
  | escape _ ih => exact readThrough_escape ih
  | substitution _ _ ihHole ihRest => exact readThrough_substitution ihHole ihRest
  | done => exact readThrough_done
  | space _ ih => exact readThrough_space ih
  | item isItem apart _ ih =>
    refine readThrough_lexeme isItem.nonempty isItem.opens (fun behind => ?_) ih
    obtain ⟨kind, hdepth, hlexeme⟩ := isItem.lexeme (apart.spaced behind)
    exact ⟨kind, hdepth _, hlexeme⟩
  | opened _ ih =>
    exact readThrough_brace "\x7b" (by decide)
      ⟨by decide, by decide, by decide, by decide⟩ rfl ih
  | closed _ ih =>
    exact readThrough_brace "\x7d" (by decide)
      ⟨by decide, by decide, by decide, by decide⟩ rfl ih
  | template _ _ ihText ihRest => exact readThrough_template ihText ihRest

/-! ## Templates behind names -/

/-- A template with its backticks. -/
def backticked (body : List Char) : List Char :=
  '\x60' :: (body ++ ['\x60'])

/-- Names with spaces between them. -/
inductive AreNames : List Char → List String → Prop
  | nothing : AreNames [] []
  | space {more : List Char} {names : List String} (rest : AreNames more names) :
      AreNames (' ' :: more) names
  | name {written name more : List Char} {names : List String} (spelled : IsSpelled written name)
      (apart : SpaceNext more) (rest : AreNames more names) :
      AreNames (written ++ more) (String.ofList name :: names)

/-- Names in front of a template are read one by one. -/
lemma AreNames.scans {front : List Char} {names : List String} (h : AreNames front names)
    {cur : Cursor} {spaces rest : List Char} (regex : Bool) (hspaces : ∀ c ∈ spaces, c = ' ')
    (hcur : cur.rest = spaces ++ (front ++ '\x60' :: rest)) :
    ∃ words regex' last before, Scans regex cur words regex' last ∧
      words.map Token.kind = names.map Kind.ident ∧ (∀ c ∈ before, c = ' ') ∧
      last.rest = before ++ '\x60' :: rest := by
  induction h generalizing regex cur spaces with
  | nothing => exact ⟨[], regex, cur, spaces, .done, rfl, hspaces, hcur⟩
  | @space more names _ ih =>
    have hspaces : ∀ c ∈ spaces ++ [' '], c = ' ' := by
      intro c hc
      rcases List.mem_append.mp hc with hc | hc
      · exact hspaces c hc
      · exact List.mem_singleton.mp hc
    exact ih regex hspaces (by simpa using hcur)
  | @name written name more names spelled apart _ ih =>
    rw [List.append_assoc] at hcur
    have hends : EndsName (more ++ '\x60' :: rest) := by
      intro c hc
      cases more with
      | nil =>
        obtain rfl := Option.mem_some.mp hc
        exact ⟨by decide, by decide⟩
      | cons d more =>
        rw [apart d rfl] at hc
        obtain rfl := Option.mem_some.mp hc
        exact ⟨by decide, by decide⟩
    obtain ⟨t, after, htoken, hkind, -, hafter⟩ := tokenAt_written hspaces hcur (spelled.opens _)
      (lexeme_spelled spelled hends.stops regex)
    obtain ⟨words, regex', last, before, hscans, hkinds, hbefore, hlast⟩ :=
      ih t.kind.regexMayFollow (List.forall_mem_nil _) hafter
    refine ⟨t :: words, regex', last, before, .next htoken (hkind ▸ Kind.noConfusion) hscans, ?_,
      hbefore, hlast⟩
    rw [List.map_cons, List.map_cons, hkind, hkinds]

/-- Behind spaces a template is read as one token on its span. -/
lemma IsWritten.tokenAt {body : List Char} (h : IsWritten .text body) {cur : Cursor}
    {spaces behind : List Char} (regex : Bool) (hspaces : ∀ c ∈ spaces, c = ' ')
    (hcur : cur.rest = spaces ++ (backticked body ++ behind)) :
    ∃ t after, Source.tokenAt regex cur = .ok (t, after) ∧ t.kind = .template ∧
      t.span = ⟨cur.offset + byteCount spaces,
        cur.offset + byteCount spaces + byteCount (backticked body)⟩ ∧ after.rest = behind := by
  have hends : EndsGap (backticked body ++ behind) := by
    intro c hc
    obtain rfl := Option.mem_some.mp hc
    exact ⟨by decide, by decide, by decide⟩
  have hgap := gapAt_spaces hspaces hends hcur
  obtain ⟨hmid, hoffset⟩ := offset_advance hcur
  have hopen : (cur.advance spaces.length).rest = '\x60' :: (body ++ '\x60' :: behind) := by
    rw [hmid]
    simp [backticked]
  have hinside : ((cur.advance spaces.length).advance 1).rest = body ++ '\x60' :: behind := by
    rw [advance_rest, hopen]
    rfl
  have htext := h.readThrough (cur.advance spaces.length).place
    (2 * (cur.advance spaces.length).rest.length) hinside (by rw [hopen]; simp; omega)
  have hlength : (backticked body).length = 1 + (body.length + 1) := by
    simp [backticked]
    omega
  rw [advance_advance (cur.advance spaces.length), ← hlength] at htext
  obtain ⟨hafter, hstop⟩ := offset_advance hmid
  unfold Source.tokenAt
  rw [hgap]
  dsimp only [bind, Except.bind]
  rw [hopen] at htext ⊢
  rw [htext]
  exact ⟨_, _, rfl, rfl, by rw [hstop, hoffset], hafter⟩

lemma firstCursor_start {chars : List Char} (h : ∀ c ∈ chars.head?, c ≠ '\ufeff' ∧ c ≠ '#') :
    firstCursor chars = Cursor.start chars := by
  have hmark : behindMark chars = Cursor.start chars := by
    rcases behindMark_cases chars with ⟨rest, rfl, -⟩ | ⟨-, hstart⟩
    · exact absurd rfl (h _ rfl).1
    · exact hstart
  rw [firstCursor_eq, hmark]
  rcases pastFirstLine_cases (Cursor.start chars) with ⟨more, hmore, -⟩ | hstart
  · have hmore : chars = '#' :: '!' :: more := hmore
    exact absurd rfl (h '#' (by rw [hmore]; rfl)).2
  · exact hstart

lemma AreNames.starts {front : List Char} {names : List String} (h : AreNames front names)
    (rest : List Char) : ∀ c ∈ (front ++ '\x60' :: rest).head?, c ≠ '\ufeff' ∧ c ≠ '#' := by
  have hstart : isNameStart '\ufeff' = false ∧ isNameStart '#' = false := by decide +kernel
  intro c hc
  cases h with
  | nothing =>
    obtain rfl := Option.mem_some.mp hc
    decide
  | space =>
    obtain rfl := Option.mem_some.mp hc
    decide
  | name spelled =>
    obtain ⟨d, more, rfl, hd | ⟨rfl, -⟩⟩ := spelled.front
    · obtain rfl := Option.mem_some.mp hc
      refine ⟨?_, ?_⟩ <;> rintro rfl
      · exact absurd (hd.symm.trans hstart.1) Bool.noConfusion
      · exact absurd (hd.symm.trans hstart.2) Bool.noConfusion
    · obtain rfl := Option.mem_some.mp hc
      decide

/-- Alone or behind names a template is one token, and it ends the file. -/
theorem template_isOneToken {front body : List Char} {names : List String} (hfront : AreNames front names)
    (hbody : IsWritten .text body) :
    ∃ words t ending, tokenize (String.ofList (front ++ backticked body)) = .ok (words ++ [t, ending]) ∧
      words.map Token.kind = names.map Kind.ident ∧ t.kind = .template ∧
      t.span = ⟨byteCount front, byteCount (front ++ backticked body)⟩ ∧ ending.kind = .endOfFile := by
  have hstart : (Cursor.start (front ++ backticked body)).rest =
      [] ++ (front ++ '\x60' :: (body ++ ['\x60'])) := rfl
  obtain ⟨words, regex, last, before, hwords, hkinds, hbefore, hlast⟩ :=
    hfront.scans true (List.forall_mem_nil _) hstart
  have hlast : last.rest = before ++ (backticked body ++ []) := by
    rw [hlast, List.append_nil]
    rfl
  obtain ⟨t, after, htoken, hkind, hspan, hafter⟩ := hbody.tokenAt regex hbefore hlast
  have hnothing : ∀ c ∈ after.rest, c = ' ' := by simp [hafter]
  obtain ⟨ending, behind, hending, hend⟩ := tokenAt_ending t.kind.regexMayFollow hnothing
  have hscans := hwords.trans (.next htoken (hkind ▸ Kind.noConfusion) .done)
  -- The template starts where the text in front of it ends.
  obtain ⟨passed, hpassed⟩ := hwords.leads
  have hsplit : front = passed ++ before := by
    have hrest := hpassed.rest
    rw [hlast, List.append_nil, ← List.append_assoc] at hrest
    exact List.append_cancel_right hrest
  have hoffset : last.offset + byteCount before = byteCount front := by
    rw [hpassed.offset, hsplit, byteCount_append]
    exact congrArg (· + byteCount before) (Nat.zero_add _)
  refine ⟨words, t, ending, ?_, hkinds, hkind, ?_, hend⟩
  · have hfirst : firstCursor (front ++ backticked body) = Cursor.start (front ++ backticked body) :=
      firstCursor_start (hfront.starts _)
    rw [tokenize, String.toList_ofList, hfirst]
    have hread := hscans.tokensFrom_eq hending hend (Nat.lt_succ_self _)
    rwa [List.append_assoc] at hread
  · rw [hspan, hoffset, byteCount_append]

/-- What stands in a template: an escaped backtick, and a substitution with a brace in quotes, braces, and
in them another template with a substitution. -/
def nestedBody : List Char :=
  "\\\x60$\x7b \x7b '\x7d' : \x60$$\x7b5\x7d\x60 \x7d\x7d$".toList

lemma isWritten_nestedBody : IsWritten .text nestedBody := by
  have hnothing : SpaceNext [] := fun _ hc => nomatch hc
  have hspace : ∀ more, SpaceNext (' ' :: more) := fun _ _ hc => (Option.mem_some.mp hc).symm
  have hfive : IsItem ['5'] := .number ⟨['5'], [], [], [],
    ⟨List.forall_mem_singleton.mpr rfl, .none, .none, .inl rfl, .inl ⟨'5', [], rfl, rfl⟩⟩, rfl⟩
  have hquoted : IsItem (quotedPlain '\'' ['\x7d']) := .text (.inr rfl) (by simp [IsPlainBody])
  have hcolon : IsItem ":".toList := .mark (by decide) (by decide) (by decide)
  have hinner : IsWritten .text "$$\x7b5\x7d".toList :=
    .plain (by decide) (by decide) (by decide) (.substitution (.item hfive hnothing .done) .nothing)
  have hdollar : IsWritten .text ['$'] := .plain (by decide) (by decide) (by decide) .nothing
  have hbraces : IsWritten (.hole 0) " \x7b '\x7d' : \x60$$\x7b5\x7d\x60 \x7d".toList :=
    .space (.opened (.space (.item hquoted (hspace _) (.space (.item hcolon (hspace _)
      (.space (.template hinner (.space (.closed .done)))))))))
  exact .escape (.substitution hbraces hdollar)

theorem template_isOneToken_nested :
    AreNames ['o', 'f', ' '] ["of"] ∧ IsWritten .text nestedBody ∧
    ∃ words t ending, tokenize (String.ofList (['o', 'f', ' '] ++ backticked nestedBody)) =
        .ok (words ++ [t, ending]) ∧
      words.map Token.kind = ["of"].map Kind.ident ∧ t.kind = .template ∧
      t.span = ⟨byteCount ['o', 'f', ' '], byteCount (['o', 'f', ' '] ++ backticked nestedBody)⟩ ∧
      ending.kind = .endOfFile := by
  have hname : IsIdentifier "of" := by decide
  have hspace : SpaceNext [' '] := fun _ hc => (Option.mem_some.mp hc).symm
  have hnames : AreNames ['o', 'f', ' '] ["of"] :=
    .name hname.isSpelled hspace (.space .nothing)
  exact ⟨hnames, isWritten_nestedBody, template_isOneToken hnames isWritten_nestedBody⟩

end TaskRunner.Proofs
