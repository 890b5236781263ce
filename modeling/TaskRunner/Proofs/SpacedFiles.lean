import TaskRunner.Proofs.HiddenFiles
import TaskRunner.Proofs.RepeatedTokens
import TaskRunner.Proofs.RepeatedScans

/-!
# Blanks and comments between tokens

Behind a blank between two tokens, further blanks and comments that end no line are skipped with it. Then
the same tokens are read on the same lines, so a file keeps its exports, its functions and their parameters.
-/

namespace TaskRunner.Proofs
open Source Tree

/-! ## Padding -/

/-- Blanks that end no line, and block comments within a line. -/
inductive IsPadding : List Char → Prop
  | nothing : IsPadding []
  | blank {c : Char} {more : List Char} (blank : Text.isBlank c = true)
      (inLine : isLineTerminator c = false) (rest : IsPadding more) : IsPadding (c :: more)
  | comment {body more : List Char} (unclosed : Unclosed body)
      (inLine : ∀ c ∈ body, isLineTerminator c = false) (rest : IsPadding more) :
      IsPadding (blockComment body ++ more)

variable {cur cur' after : Cursor} {regex : Bool} {front more behind chars extra : List Char} {w : Char}
  {offset : Nat} {comments : List Comment}

/-- Padding is skipped within a line. -/
lemma IsPadding.skips (h : IsPadding extra) (behind : List Char) : ∃ found, Skips extra behind false found := by
  induction h with
  | nothing => exact ⟨[], skips_nothing behind⟩
  | @blank c more blank inLine _ ih =>
    obtain ⟨found, hmore⟩ := ih
    have hfirst := skips_blank blank (more ++ behind)
    rw [inLine] at hfirst
    exact ⟨_, hfirst.trans hmore⟩
  | @comment body more unclosed inLine _ ih =>
    obtain ⟨found, hmore⟩ := ih
    have hfirst := skips_blockComment unclosed (more ++ behind)
    have hfeed : body.contains '\n' = false := by
      rw [List.contains_eq_mem, decide_eq_false_iff_not]
      intro hmem
      have hterminator := inLine _ hmem
      revert hterminator
      decide
    rw [hfeed] at hfirst
    exact ⟨_, hfirst.trans hmore⟩

/-! ## Gaps that are padded -/

/-- The byte lies in no comment. -/
def OutsideComments (offset : Nat) (comments : List Comment) : Prop :=
  ∀ c ∈ comments, ¬ (c.span.start ≤ offset ∧ offset < c.span.stop)

/-- What stands between tokens is cut in two at a character outside of comments, which is a blank. -/
lemma Between.cut (h : Between offset chars behind comments) (hchars : chars = front ++ w :: more)
    (houtside : OutsideComments (offset + byteCount front) comments) :
    Text.isBlank w = true ∧ ∃ first rest, Between offset front (w :: (more ++ behind)) first ∧
      Between (offset + byteCount front + w.utf8Size) more behind rest := by
  induction h generalizing front with
  | nothing => simp at hchars
  | @blank offset c chars behind comments blank more' ih =>
    cases front with
    | nil =>
      obtain ⟨rfl, rfl⟩ := List.cons.inj hchars
      exact ⟨blank, [], comments, .nothing, more'⟩
    | cons d front =>
      obtain ⟨rfl, hinner⟩ := List.cons.inj hchars
      rw [byteCount_cons, ← Nat.add_assoc] at houtside ⊢
      obtain ⟨hblank, first, rest, hfirst, hrest⟩ := ih hinner houtside
      exact ⟨hblank, first, rest, .blank blank hfirst, hrest⟩
  | @line offset body chars behind comments inLine ends more' ih =>
    have hbehind : byteCount (lineComment body) ≤ byteCount front := by
      have hpiece := houtside _ List.mem_cons_self
      dsimp only at hpiece
      omega
    obtain ⟨inner, rfl, hinner⟩ := front_of_byteCount_le hchars hbehind
    rw [byteCount_append, ← Nat.add_assoc] at houtside ⊢
    obtain ⟨hblank, first, rest, hfirst, hrest⟩ :=
      ih hinner fun c hc => houtside c (List.mem_cons_of_mem _ hc)
    rw [hinner, List.append_assoc, List.cons_append] at ends
    exact ⟨hblank, _, rest, .line inLine ends hfirst, hrest⟩
  | @block offset body chars behind comments unclosed more' ih =>
    have hbehind : byteCount (blockComment body) ≤ byteCount front := by
      have hpiece := houtside _ List.mem_cons_self
      dsimp only at hpiece
      omega
    obtain ⟨inner, rfl, hinner⟩ := front_of_byteCount_le hchars hbehind
    rw [byteCount_append, ← Nat.add_assoc] at houtside ⊢
    obtain ⟨hblank, first, rest, hfirst, hrest⟩ :=
      ih hinner fun c hc => houtside c (List.mem_cons_of_mem _ hc)
    exact ⟨hblank, _, rest, .block unclosed hfirst, hrest⟩

/-- A gap is read with padding behind one of its blanks, and a line ends in it as before. -/
lemma gapAt_padded {gap : Gap} {mid : Cursor} (h : gapAt cur = .ok (gap, mid))
    (hcur : cur.rest = front ++ w :: (more ++ mid.rest))
    (houtside : OutsideComments (cur.offset + byteCount front) gap.comments.reverse)
    (hextra : IsPadding extra) (hcur' : cur'.rest = front ++ w :: (extra ++ (more ++ mid.rest))) :
    Text.isBlank w = true ∧ ∃ gap' mid', gapAt cur' = .ok (gap', mid') ∧ mid'.rest = mid.rest ∧
      gap'.newline = gap.newline := by
  obtain ⟨passed, hpassed, -, hbetween⟩ := gapAt_ok h
  have hsplit : passed = front ++ w :: more := by
    refine List.append_cancel_right (hpassed.symm.trans ?_)
    rw [hcur, List.append_assoc, List.cons_append]
  obtain ⟨hblank, first, rest, hfirst, hrest⟩ := hbetween.cut hsplit houtside
  obtain ⟨line, hskipFirst⟩ := hfirst.skips
  obtain ⟨line', hskipRest⟩ := hrest.skips
  obtain ⟨found, hskipExtra⟩ := hextra.skips (more ++ mid.rest)
  have hmore : Skips more mid.rest line' _ := hskipRest mid.rest id
  have hblankMore : Skips ([w] ++ more) mid.rest (isLineTerminator w || line') _ :=
    (skips_blank hblank _).trans hmore
  have hwhole : Skips (front ++ ([w] ++ more)) mid.rest (line || (isLineTerminator w || line')) _ :=
    (hskipFirst _ id).trans hblankMore
  have hextraMore : Skips (extra ++ more) mid.rest (false || line') _ := hskipExtra.trans hmore
  have hblankExtra : Skips ([w] ++ (extra ++ more)) mid.rest (isLineTerminator w || (false || line')) _ :=
    (skips_blank hblank _).trans hextraMore
  have hpadded : Skips (front ++ ([w] ++ (extra ++ more))) mid.rest
      (line || (isLineTerminator w || (false || line'))) _ :=
    (hskipFirst ([w] ++ (extra ++ more) ++ mid.rest) fun hends c hc => hends c hc).trans hblankExtra
  have hled := gapAt_led h
  have hpassed' : cur.rest = front ++ ([w] ++ more) ++ mid.rest := by simp [hcur]
  have hpadding : cur'.rest = front ++ ([w] ++ (extra ++ more)) ++ mid.rest := by simp [hcur']
  obtain ⟨gap₁, hread, hline, -⟩ := hwhole.gapAt hled hpassed'
  obtain ⟨gap', hread', hline', -⟩ := hpadded.gapAt hled hpadding
  cases h.symm.trans hread
  refine ⟨hblank, gap', _, hread', advance_append hpadding, ?_⟩
  rw [hline', hline, Bool.false_or]

/-! ## Tokens behind padding -/

lemma tokenAt_padded {u : Token} (h : tokenAt regex cur = .ok (u, after))
    (hcur : cur.rest = front ++ w :: behind) (hbefore : cur.offset + byteCount front < u.span.start)
    (houtside : OutsideComments (cur.offset + byteCount front) u.comments) (hextra : IsPadding extra)
    (hcur' : cur'.rest = front ++ w :: (extra ++ behind)) :
    Text.isBlank w = true ∧ ∃ u' after', tokenAt regex cur' = .ok (u', after') ∧
      after'.rest = after.rest ∧ placeless false u' = placeless false u := by
  obtain ⟨gap, mid, hgap, hkind, hu⟩ := tokenAt_cases h
  obtain ⟨passed, hpassed⟩ := (gapAt_forward hgap).leads
  have hcomments : u.comments = gap.comments.reverse := by rw [hu]
  have hstart : u.span.start = cur.offset + byteCount passed := by
    rw [hu]
    exact hpassed.offset
  obtain ⟨more, rfl⟩ : ∃ more, behind = more ++ mid.rest := by
    obtain ⟨between, hfront, hsplit⟩ :=
      front_of_byteCount_le (hcur.symm.trans hpassed.rest) (by omega)
    cases between with
    | nil =>
      rw [hfront, List.append_nil] at hstart
      omega
    | cons c more => exact ⟨more, (List.cons.inj hsplit).2⟩
  obtain ⟨hblank, gap', mid', hgap', hmid', hline⟩ :=
    gapAt_padded hgap hcur (hcomments ▸ houtside) hextra hcur'
  obtain ⟨taken, htaken⟩ := kindAt_forward hkind
  obtain ⟨after', hkind', hafter'⟩ := kindAt_again hkind htaken.rest (.refl _) (hmid'.trans htaken.rest)
  refine ⟨hblank, _, after', tokenAt_of_kindAt hgap' hkind', hafter', ?_⟩
  rw [hu, placeless, placeless, hline]
  rfl

lemma placeless_false {tokens tokens' : List Token}
    (h : tokens'.map (placeless true) = tokens.map (placeless true)) :
    tokens'.map (placeless false) = tokens.map (placeless false) := by
  have hmap := congrArg (List.map (placeless false)) h
  rwa [List.map_map, List.map_map] at hmap

/-- Padding stands behind a blank, and the same tokens are read with it. -/
lemma ReadsAll.padded {u : Token} {tokens : List Token} (h : ReadsAll regex cur (u :: tokens))
    (hcur : cur.rest = front ++ w :: behind) (hbefore : cur.offset + byteCount front < u.span.start)
    (houtside : OutsideComments (cur.offset + byteCount front) u.comments) (hextra : IsPadding extra) :
    Text.isBlank w = true ∧ ∀ cur' : Cursor, cur'.rest = front ++ w :: (extra ++ behind) →
      ∃ tokens', ReadsAll regex cur' tokens' ∧
        tokens'.map (placeless false) = (u :: tokens).map (placeless false) := by
  obtain ⟨after, hu, hrest⟩ := h.cases
  refine ⟨(tokenAt_padded hu hcur hbefore houtside .nothing hcur).1, fun cur' hcur' => ?_⟩
  obtain ⟨-, u', after', hu', hafter', hsame⟩ := tokenAt_padded hu hcur hbefore houtside hextra hcur'
  have hkind := placeless_kind hsame
  rcases hrest with ⟨hend, rfl⟩ | ⟨hend, hmore⟩
  · exact ⟨[u'], readsAll_end hu' (hkind.trans hend), congrArg (· :: []) hsame⟩
  · obtain ⟨more', hmore', htokens⟩ := hmore.again hafter'
    refine ⟨u' :: more', ?_, ?_⟩
    · exact Scans.readsAll (.next hu' (hkind ▸ hend) .done) (hkind ▸ hmore')
    · rw [List.map_cons, List.map_cons, hsame, placeless_false htokens]

/-! ## Files with padding -/

lemma Scans.stop {regex' : Bool} {last : Cursor} {tokens : List Token} {t : Token}
    (h : Scans regex cur (tokens ++ [t]) regex' last) : t.span.stop = last.offset := by
  obtain ⟨regex'', mid, -, hlast⟩ := h.append_split
  cases hlast with
  | next token kind tail =>
    cases tail
    obtain ⟨gap, behindGap, -, -, ht⟩ := tokenAt_cases token
    rw [ht]

/-- A text is read as the same tokens with padding behind a character between two of them. -/
lemma tokenize_padded {text : String} {earlier later : List Token} {t u : Token}
    (htokens : tokenize text = .ok (earlier ++ t :: u :: later)) (htext : text.toList = front ++ w :: behind)
    (hbehind : t.span.stop ≤ byteCount front) (hbefore : byteCount front < u.span.start)
    (houtside : OutsideComments (byteCount front) u.comments) (hextra : IsPadding extra) :
    ∃ tokens', tokenize (String.ofList (front ++ w :: (extra ++ behind))) = .ok tokens' ∧
      tokens'.map (placeless false) = (earlier ++ t :: u :: later).map (placeless false) := by
  have hsplit : earlier ++ t :: u :: later = (earlier ++ [t]) ++ (u :: later) := by simp
  rw [hsplit] at htokens ⊢
  obtain ⟨start, regex, last, hstart, hoffset, hscans, hrest, hagain⟩ :=
    tokenize_front htokens (List.cons_ne_nil u later)
  rw [hscans.stop, hoffset] at hbehind
  obtain ⟨inner, rfl, hinner⟩ := front_of_byteCount_le (hstart.symm.trans htext) hbehind
  rw [byteCount_append, ← hoffset] at hbefore houtside
  obtain ⟨hblank, hpadded⟩ := hrest.padded hinner hbefore houtside hextra
  have hsame : SameFront last.rest (inner ++ w :: (extra ++ behind)) := by
    rw [hinner]
    exact (sameStop_blank hblank _ _).sameFront.append inner
  obtain ⟨last', hlast', hmore⟩ := hagain _ hsame
  obtain ⟨more', hmore', htail⟩ := hpadded last' hlast'
  obtain ⟨tokens', hread, htokens'⟩ := hmore more' hmore'
  refine ⟨tokens' ++ more', by rw [List.append_assoc]; exact hread, ?_⟩
  rw [List.map_append, List.map_append, placeless_false htokens', htail]

/-- Behind a character between two tokens of a file and outside of its comments, further blanks and comments
within a line do not change what it exports, which functions it has and what parameters they take. -/
theorem padding_keeps_signatures {text : String} {f : File} {earlier later : List Token} {t u : Token}
    {front behind extra : List Char} {w : Char} (h : File.ofText text = .ok f)
    (htokens : tokenize text = .ok (earlier ++ t :: u :: later)) (htext : text.toList = front ++ w :: behind)
    (hbehind : t.span.stop ≤ byteCount front) (hbefore : byteCount front < u.span.start)
    (houtside : OutsideComments (byteCount front) u.comments) (hextra : IsPadding extra) :
    ∃ f', File.ofText (String.ofList (front ++ w :: (extra ++ behind))) = .ok f' ∧
      f'.exports = f.exports ∧ f'.outline.functions.map (·.name) = f.outline.functions.map (·.name) ∧
      f'.functionExports = f.functionExports ∧
      ∀ name, (f'.signature name).params = (f.signature name).params := by
  obtain ⟨stmts, hstmts⟩ := hasStatements_ofText h
  obtain ⟨tokens', htokens', hsame⟩ := tokenize_padded htokens htext hbehind hbefore houtside hextra
  have hkinds : tokens'.map Token.kind = (earlier ++ t :: u :: later).map Token.kind := by
    have hkind := congrArg (List.map Token.kind) hsame
    rwa [List.map_map, List.map_map] at hkind
  obtain ⟨f', _, hread, houtline, -⟩ := hstmts.alike htokens htokens' (hideTokens_placeless hsame)
    fun nested nested' hnested hnested' =>
      openAlike_kinds hkinds (nest_tokens (tokenize_tiles htokens) hnested).1
        (nest_tokens (tokenize_tiles htokens') hnested').1
  exact ⟨f', hread.file, exports_alike houtline, functionNames_alike houtline, functionExports_alike houtline,
    params_alike houtline⟩

/-- A file with a comment between the words that start its function. -/
def commentedExport : String :=
  "export /* a */ function build(name, fast = 1) \x7b\x7d\n"

/-- A comment and a space are put between the blank behind the comment and the function. -/
theorem padding_keeps_signatures_commented :
    ∃ f f', File.ofText commentedExport = .ok f ∧
      File.ofText (String.ofList (commentedExport.toList.take 14 ++
        ' ' :: (blockComment [' ', 'b', ' '] ++ [' '] ++ commentedExport.toList.drop 15))) = .ok f' ∧
      f'.exports = f.exports ∧ f'.outline.functions.map (·.name) = f.outline.functions.map (·.name) ∧
      f'.functionExports = f.functionExports ∧
      ∀ name, (f'.signature name).params = (f.signature name).params := by
  have hread : (File.ofText commentedExport).isOk = true := by decide +kernel
  have hfront : (tokenize commentedExport).toOption.map
      (fun tokens => (tokens.take 2).map fun t => (t.span, t.comments)) =
      some [(⟨0, 6⟩, []), (⟨15, 23⟩, [⟨" a ", true, ⟨7, 14⟩⟩])] := by
    decide +kernel
  cases hf : File.ofText commentedExport with
  | error e =>
    rw [hf] at hread
    cases hread
  | ok f =>
    cases htokens : tokenize commentedExport with
    | error e =>
      rw [htokens] at hfront
      cases hfront
    | ok tokens =>
      rw [htokens] at hfront
      match tokens, hfront with
      | t :: u :: later, hfront =>
        simp only [Except.toOption, Option.map_some, List.take_succ_cons, List.take_zero, List.map_cons,
          List.map_nil, Option.some.injEq, List.cons.injEq, Prod.mk.injEq, and_true] at hfront
        obtain ⟨⟨htspan, -⟩, huspan, hucomments⟩ := hfront
        have hcount : byteCount (commentedExport.toList.take 14) = 14 := by decide
        have htext : commentedExport.toList = commentedExport.toList.take 14 ++
            ' ' :: commentedExport.toList.drop 15 := by
          decide
        have houtside : OutsideComments (byteCount (commentedExport.toList.take 14)) u.comments := by
          rw [hcount, hucomments]
          intro c hc
          obtain rfl := List.mem_singleton.mp hc
          decide
        have hextra : IsPadding (blockComment [' ', 'b', ' '] ++ [' ']) := by
          refine .comment ?_ (by simp [isLineTerminator]) (.blank (by decide) (by decide) .nothing)
          rw [Unclosed]
          decide
        have hread : tokenize commentedExport = .ok ([] ++ t :: u :: later) := htokens
        obtain ⟨f', hf'⟩ := padding_keeps_signatures hf hread htext (by rw [htspan, hcount]; decide)
          (by rw [huspan, hcount]; decide) houtside hextra
        exact ⟨f, f', rfl, hf'⟩

end TaskRunner.Proofs
