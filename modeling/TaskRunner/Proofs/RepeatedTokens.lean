import TaskRunner.Proofs.RepeatedGaps

/-!
# Tokens in front of a change

A token is what its gap and its lexeme are, and a template is read through its substitutions. So tokens are
read again in another place, and in front of another text that starts with the same stop. The first token of
a file is looked for behind its first line for the system, and tokens are read from there up to the end. A
file that is changed behind some of its tokens starts with the same tokens.
-/

namespace TaskRunner.Proofs
open Source

section Tokens

/-! ## Texts that start alike -/

/-- The texts start alike, and go on from there with the same stop. -/
def SameFront (rest rest' : List Char) : Prop :=
  ∃ front behind behind', rest = front ++ behind ∧ rest' = front ++ behind' ∧ SameStop behind behind'

variable {chars rest rest' : List Char}

lemma SameFront.refl (rest : List Char) : SameFront rest rest :=
  ⟨rest, [], [], (List.append_nil _).symm, (List.append_nil _).symm, sameStop_nil⟩

lemma SameStop.sameFront (h : SameStop rest rest') : SameFront rest rest' :=
  ⟨[], rest, rest', rfl, rfl, h⟩

lemma SameFront.append (h : SameFront rest rest') (chars : List Char) :
    SameFront (chars ++ rest) (chars ++ rest') := by
  obtain ⟨front, behind, behind', rfl, rfl, hstop⟩ := h
  exact ⟨chars ++ front, behind, behind', by simp, by simp, hstop⟩

lemma SameFront.head (h : SameFront rest rest') : rest'.head? = rest.head? := by
  obtain ⟨front, behind, behind', rfl, rfl, hstop⟩ := h
  exact hstop.head_append front

lemma SameFront.ending (h : SameFront [] rest') : rest' = [] :=
  List.head?_eq_none_iff.mp h.head

lemma SameFront.lineEnds (h : SameFront rest rest') (hends : LineEnds rest) : LineEnds rest' := by
  intro c hc
  rw [h.head] at hc
  exact hends c hc

lemma SameFront.gapLed (h : SameFront rest rest') : gapLed rest' = gapLed rest := by
  obtain ⟨front, behind, behind', rfl, rfl, hstop⟩ := h
  cases front with
  | nil =>
    rcases hstop.cases with ⟨rfl, rfl⟩ | ⟨c, more, more', rfl, rfl, hc⟩
    · rfl
    · have hslash : (c == '/') = false := beq_eq_false_iff_ne.mpr (noStop_char (by decide) hc)
      simp [Proofs.gapLed, hslash]
  | cons c front =>
    rw [List.cons_append, List.cons_append]
    simp only [Proofs.gapLed, hstop.head_append front]

/-! ## Lexemes -/

variable {cur cur' after : Cursor} {regex : Bool} {kind : Kind}

/-- As many characters are taken from the other text. -/
lemma advance_again {n : Nat} (hcur : cur.rest = chars ++ (cur.advance n).rest)
    (hsame : SameFront (cur.advance n).rest rest') (hcur' : cur'.rest = chars ++ rest') :
    (cur'.advance n).rest = rest' := by
  rw [advance_rest] at hcur hsame ⊢
  by_cases hn : n ≤ cur.rest.length
  · have hlength : chars.length = n := by
      have hsum := congrArg List.length hcur
      rw [List.length_append, List.length_drop] at hsum
      omega
    rw [hcur', ← hlength, List.drop_left]
  · have hnil : cur.rest.drop n = [] := List.drop_eq_nil_of_le (by omega)
    rw [hnil] at hcur hsame
    obtain rfl := hsame.ending
    rw [hcur', ← hcur, hnil]

lemma SameFront.lexeme (h : SameFront rest rest') {count : Nat}
    (hread : Source.lexeme regex (chars ++ rest) = .ok (kind, count)) (hne : chars ≠ [])
    (hcount : count ≤ chars.length) : Source.lexeme regex (chars ++ rest') = .ok (kind, count) := by
  obtain ⟨front, behind, behind', rfl, rfl, hstop⟩ := h
  rw [← List.append_assoc] at hread ⊢
  refine lexeme_again hstop (by simp [hne]) hread ?_
  rw [List.length_append]
  omega

lemma lexemeAt_again (hread : lexemeAt regex cur = .ok (kind, after))
    (hcur : cur.rest = chars ++ after.rest) (hsame : SameFront after.rest rest')
    (hcur' : cur'.rest = chars ++ rest') :
    ∃ after', lexemeAt regex cur' = .ok (kind, after') ∧ after'.rest = rest' := by
  obtain ⟨count, hlexeme, rfl⟩ := lexemeAt_ok hread
  refine ⟨cur'.advance count, ?_, advance_again hcur hsame hcur'⟩
  have hlexeme' : lexeme regex cur'.rest = .ok (kind, count) := by
    by_cases hnil : (cur.advance count).rest = []
    · rw [hnil] at hcur hsame
      obtain rfl := hsame.ending
      rwa [hcur', ← hcur]
    · have hlength : chars.length = count := by
        have hsum := congrArg List.length hcur
        rw [advance_rest, List.drop_eq_nil_iff] at hnil
        rw [advance_rest, List.length_append, List.length_drop] at hsum
        omega
      rcases lexeme_cases hlexeme with ⟨-, hend⟩ | ⟨-, -, hpos⟩
      · rw [hend] at hcur
        exact absurd (List.append_eq_nil_iff.mp hcur.symm).2 hnil
      · have hne : chars ≠ [] := List.ne_nil_of_length_pos (by omega)
        rw [hcur']
        rw [hcur] at hlexeme
        exact hsame.lexeme hlexeme hne (Nat.le_of_eq hlength.symm)
  rw [lexemeAt, hlexeme']

/-! ## Templates -/

/-- A reader that goes from one cursor to another does so in front of every text that starts like what it
leaves, with one unit of fuel for each character at most. -/
def ReadsAgain (read : Nat → Cursor → Except SyntaxError Cursor) (cur after : Cursor) : Prop :=
  ∀ ⦃chars rest' : List Char⦄ ⦃cur' : Cursor⦄ ⦃fuel : Nat⦄, cur.rest = chars ++ after.rest →
    SameFront after.rest rest' → cur'.rest = chars ++ rest' → chars.length < fuel →
    ∃ after', read fuel cur' = .ok after' ∧ after'.rest = rest'

/-- A reader that goes on with another one behind some characters. -/
lemma ReadsAgain.step {read : Nat → Cursor → Except SyntaxError Cursor} {mid : Cursor}
    {front : List Char} (hfront : cur.rest = front ++ mid.rest) (hne : front ≠ [])
    (hleads : Leads mid after)
    (hread : ∀ {cur' : Cursor} {rest' : List Char} (fuel : Nat), SameFront mid.rest rest' →
      cur'.rest = front ++ rest' → ∃ next mid', read (fuel + 1) cur' = next fuel mid' ∧
        mid'.rest = rest' ∧ ReadsAgain next mid after) : ReadsAgain read cur after := by
  intro chars rest' cur' fuel hcur hsame hcur' hfuel
  obtain ⟨more, hmore⟩ := hleads
  obtain rfl : chars = front ++ more := by
    rw [hfront, hmore.rest, ← List.append_assoc] at hcur
    exact (List.append_cancel_right hcur).symm
  rw [List.length_append] at hfuel
  rw [List.append_assoc] at hcur'
  have hpos := List.length_pos_of_ne_nil hne
  obtain ⟨fuel, rfl⟩ : ∃ less, fuel = less + 1 := ⟨fuel - 1, by omega⟩
  have hmid : SameFront mid.rest (more ++ rest') := by
    rw [hmore.rest]
    exact hsame.append more
  obtain ⟨next, mid', heq, hmid', hnext⟩ := hread fuel hmid hcur'
  rw [heq]
  exact hnext hmore.rest hsame hmid' (by omega)

lemma ReadsAgain.bind {first second : Nat → Cursor → Except SyntaxError Cursor} {mid : Cursor}
    (hfirst : ReadsAgain first cur mid) (hsecond : ReadsAgain second mid after) (hmid : Leads cur mid)
    (hafter : Leads mid after) :
    ReadsAgain (fun fuel cur => first fuel cur >>= second fuel) cur after := by
  intro chars rest' cur' fuel hcur hsame hcur' hfuel
  obtain ⟨front, hfront⟩ := hmid
  obtain ⟨more, hmore⟩ := hafter
  obtain rfl : chars = front ++ more := by
    rw [hfront.rest, hmore.rest, ← List.append_assoc] at hcur
    exact (List.append_cancel_right hcur).symm
  rw [List.length_append] at hfuel
  rw [List.append_assoc] at hcur'
  have hbetween : SameFront mid.rest (more ++ rest') := by
    rw [hmore.rest]
    exact hsame.append more
  obtain ⟨mid', hread, hmid'⟩ := hfirst hfront.rest hbetween hcur' (by omega : _ < fuel)
  dsimp only
  rw [hread]
  exact hsecond hmore.rest hsame hmid' (by omega)

/-- A reader that moves on over characters before it goes on with another one. -/
lemma ReadsAgain.advance {read next : Nat → Cursor → Except SyntaxError Cursor} (n : Nat) {c : Char}
    {rest : List Char} (hcur : cur.rest = c :: rest) (hleads : Leads (cur.advance (n + 1)) after)
    (hread : ∀ {cur' : Cursor} {rest' : List Char} (fuel : Nat),
      SameFront (cur.advance (n + 1)).rest rest' → cur'.rest = c :: (rest.take n ++ rest') →
      read (fuel + 1) cur' = next fuel (cur'.advance (n + 1)))
    (h : ReadsAgain next (cur.advance (n + 1)) after) : ReadsAgain read cur after := by
  have hfront := (passed_advance cur (n + 1)).rest
  have htake : cur.rest.take (n + 1) = c :: rest.take n := by rw [hcur, List.take_succ_cons]
  rw [htake] at hfront
  refine .step hfront (List.cons_ne_nil _ _) hleads fun fuel hsame hcur' => ?_
  exact ⟨next, _, hread fuel hsame hcur', advance_again hfront hsame hcur', h⟩

lemma gapAt_behind {gap : Gap} {mid : Cursor} (h : gapAt cur = .ok (gap, mid)) :
    ∃ passed, cur.rest = passed ++ mid.rest ∧
      ∀ {cur' : Cursor} {rest' : List Char}, cur'.rest = passed ++ rest' → SameFront mid.rest rest' →
        ∃ gap' mid', gapAt cur' = .ok (gap', mid') ∧ mid'.rest = rest' ∧ gap'.newline = gap.newline ∧
          gap'.comments.reverse.map seen = gap.comments.reverse.map seen := by
  obtain ⟨passed, hpassed, -, hagain⟩ := gapAt_again h
  refine ⟨passed, hpassed, fun hcur' hsame => ?_⟩
  have hled := hsame.gapLed.trans (gapAt_led h)
  obtain ⟨gap', hread, hline, hseen⟩ := hagain hcur' hled hsame.lineEnds
  exact ⟨gap', _, hread, advance_append hcur', hline, hseen⟩

/-- The lexeme at a cursor takes some characters, unless nothing is there. -/
lemma lexemeAt_takes (h : lexemeAt regex cur = .ok (kind, after)) (hne : cur.rest ≠ []) :
    ∃ c chars, cur.rest = c :: chars ++ after.rest := by
  obtain ⟨count, hlexeme, rfl⟩ := lexemeAt_ok h
  have hpassed := (passed_advance cur count).rest
  rcases lexeme_cases hlexeme with ⟨-, hend⟩ | ⟨-, -, hpos⟩
  · exact absurd hend hne
  · obtain ⟨c, chars, htake⟩ := List.exists_cons_of_ne_nil
      (by simp [hne, Nat.ne_of_gt hpos] : cur.rest.take count ≠ [])
    rw [htake] at hpassed
    exact ⟨c, chars, hpassed⟩

lemma template_again (fuel : Nat) :
    (∀ {opened : Place} {cur after : Cursor}, templateText opened fuel cur = .ok after →
      ∀ opened', ReadsAgain (templateText opened') cur after) ∧
    ∀ {opened : Place} {depth : Nat} {regex : Bool} {cur after : Cursor},
      templateHole opened fuel depth regex cur = .ok after →
      ∀ opened', ReadsAgain (fun n => templateHole opened' n depth regex) cur after := by
  -- The two readers of a template share their fuel, so one induction follows both.
  induction fuel with
  | zero =>
    refine ⟨?_, ?_⟩
    · intro opened cur after h
      cases h
    · intro opened depth regex cur after h
      cases h
  | succ fuel ih =>
    obtain ⟨ihText, ihHole⟩ := ih
    refine ⟨?_, ?_⟩
    · intro opened cur after h opened'
      cases textStep cur with
      | ended _ eq =>
        rw [eq] at h
        cases h
      | closed close eq =>
        rw [eq] at h
        cases h
        intro chars rest' cur' fuel' hcur hsame hcur' hfuel'
        have hclose : cur'.rest.head? = some '\x60' := by
          rw [hcur', (hsame.append chars).head, ← hcur, close]
          rfl
        obtain ⟨more, hmore⟩ := List.head?_eq_some_iff.mp hclose
        obtain ⟨fuel', rfl⟩ : ∃ less, fuel' = less + 1 := ⟨fuel' - 1, by omega⟩
        exact ⟨_, templateText_close hmore, advance_again hcur hsame hcur'⟩
      | inText step eq =>
        rw [eq] at h
        cases step with
        | escape escape moved =>
          subst moved
          exact .advance 1 escape ((template_forward fuel).1 h).leads
            (fun _ _ hcur' => templateText_escape hcur') (ihText h opened')
        | @char c rest char open_ plain noHole moved =>
          subst moved
          refine .advance 0 char ((template_forward fuel).1 h).leads ?_ (ihText h opened')
          intro cur' rest' fuel' hsame hcur'
          have hhead : rest'.head? = rest.head? := by
            rw [hsame.head, advance_rest, char]
            rfl
          exact templateText_char hcur' open_ plain (by rwa [List.take_zero, List.nil_append, hhead])
      | @hole rest hole eq =>
        rw [eq] at h
        exact .advance 1 hole ((template_forward fuel).2 h).leads
          (fun _ _ hcur' => templateText_hole hcur') (ihHole h opened')
    · intro opened depth regex cur after h opened'
      cases holeStep depth regex cur with
      | gapFails _ eq | ended _ _ eq | lexemeFails _ _ _ eq =>
        rw [eq] at h
        cases h
      | @template gap mid rest gapRead template eq =>
        rw [eq] at h
        obtain ⟨behind, htext, h⟩ := bind_ok h
        obtain ⟨passed, hpassed, hagain⟩ := gapAt_behind gapRead
        have hfirst := ((template_forward fuel).1 htext).leads
        have hsecond := ((template_forward fuel).2 h).leads
        have hopen : mid.rest = ['\x60'] ++ (mid.advance 1).rest := by
          rw [advance_rest, template]
          rfl
        have hfront : cur.rest = (passed ++ ['\x60']) ++ (mid.advance 1).rest := by
          rw [hpassed, List.append_assoc, ← hopen]
        refine .step hfront (by simp) (hfirst.trans hsecond) fun fuel' hsame hcur' => ?_
        rw [List.append_assoc] at hcur'
        obtain ⟨gap', mid', hgap', hmid', -⟩ := hagain hcur' (hopen ▸ hsame.append ['\x60'])
        refine ⟨_, mid'.advance 1, templateHole_template hgap' hmid', ?_,
          (ihText htext mid'.place).bind (ihHole h opened') hfirst hsecond⟩
        rw [advance_rest, hmid']
        rfl
      | @lexeme gap mid next kind gapRead something noTemplate lexeme eq =>
        rw [eq] at h
        obtain ⟨passed, hpassed, hagain⟩ := gapAt_behind gapRead
        obtain ⟨c, chars, htaken⟩ := lexemeAt_takes lexeme something
        have hfront : cur.rest = (passed ++ c :: chars) ++ next.rest := by
          rw [hpassed, List.append_assoc, ← htaken]
        have hleads : Leads next after := by
          split at h
          · exact ((template_forward fuel).1 h).leads
          · exact ((template_forward fuel).2 h).leads
        refine .step hfront (by simp) hleads fun fuel' hsame hcur' => ?_
        rw [List.append_assoc] at hcur'
        obtain ⟨gap', mid', hgap', hmid', -⟩ := hagain hcur' (htaken ▸ hsame.append (c :: chars))
        obtain ⟨next', hlexeme', hnext'⟩ := lexemeAt_again lexeme htaken hsame hmid'
        have hno : ∀ rest, mid'.rest ≠ '\x60' :: rest := by
          intro rest heq
          rw [hmid'] at heq
          exact noTemplate (chars ++ next.rest) (by rw [htaken, (List.cons.inj heq).1]; rfl)
        have hsomething : mid'.rest ≠ [] := by
          rw [hmid']
          exact List.cons_ne_nil _ _
        have hread : templateHole opened' (fuel' + 1) depth regex _ = _ :=
          templateHole_lexemeAt hgap' hsomething hno
        rw [hlexeme'] at hread
        cases hdepth : depthBehind depth kind with
        | none =>
          rw [hdepth] at h
          refine ⟨templateText opened', next', ?_, hnext', ihText h opened'⟩
          refine hread.trans ?_
          simp [ok_bind, hdepth]
        | some inner =>
          rw [hdepth] at h
          refine ⟨_, next', ?_, hnext', ihHole h opened'⟩
          refine hread.trans ?_
          simp [ok_bind, hdepth]

/-! ## Tokens -/

/-- What stands at the cursor, and the cursor behind it. -/
def kindAt (regex : Bool) (cur : Cursor) : Except SyntaxError (Kind × Cursor) :=
  match cur.rest with
  | '\x60' :: _ => (templateText cur.place (2 * cur.rest.length) (cur.advance 1)).map (Kind.template, ·)
  | _ => lexemeAt regex cur

lemma kindAt_template {rest : List Char} (h : cur.rest = '\x60' :: rest) :
    kindAt regex cur =
      (templateText cur.place (2 * cur.rest.length) (cur.advance 1)).map (Kind.template, ·) := by
  simp only [kindAt, h]

lemma kindAt_lexeme (h : ∀ rest, cur.rest ≠ '\x60' :: rest) : kindAt regex cur = lexemeAt regex cur := by
  unfold kindAt
  split
  · exact absurd ‹_› (h _)
  · rfl

lemma kindAt_again (hread : kindAt regex cur = .ok (kind, after))
    (hcur : cur.rest = chars ++ after.rest) (hsame : SameFront after.rest rest')
    (hcur' : cur'.rest = chars ++ rest') :
    ∃ after', kindAt regex cur' = .ok (kind, after') ∧ after'.rest = rest' := by
  have hhead : cur'.rest.head? = cur.rest.head? := by
    rw [hcur, hcur', (hsame.append chars).head]
  by_cases htemplate : ∃ rest, cur.rest = '\x60' :: rest
  · obtain ⟨rest, hopen⟩ := htemplate
    rw [hopen] at hhead
    obtain ⟨more, hopen'⟩ := List.head?_eq_some_iff.mp hhead
    rw [kindAt_template hopen] at hread
    obtain ⟨behind, htext, heq⟩ := map_ok hread
    obtain ⟨rfl, rfl⟩ := Prod.mk.inj heq
    obtain ⟨inside, hinside⟩ := ((template_forward _).1 htext).leads
    have hsplit : cur.rest = '\x60' :: (inside ++ behind.rest) := by
      rw [← hinside.rest, advance_rest, hopen]
      rfl
    obtain rfl : chars = '\x60' :: inside :=
      List.append_cancel_right (hcur.symm.trans hsplit)
    have hbehind : (cur'.advance 1).rest = inside ++ rest' := by
      rw [advance_rest, hcur']
      rfl
    have hfuel : inside.length < 2 * cur'.rest.length := by
      rw [hcur', List.length_append, List.length_cons]
      omega
    obtain ⟨after', htext', hafter'⟩ :=
      (template_again _).1 htext cur'.place hinside.rest hsame hbehind hfuel
    refine ⟨after', ?_, hafter'⟩
    rw [kindAt_template hopen', htext']
    rfl
  · have hplain : ∀ rest, cur.rest ≠ '\x60' :: rest := fun rest heq => htemplate ⟨rest, heq⟩
    have hplain' : ∀ rest, cur'.rest ≠ '\x60' :: rest := by
      intro rest heq
      rw [heq] at hhead
      obtain ⟨more, hmore⟩ := List.head?_eq_some_iff.mp hhead.symm
      exact hplain more hmore
    rw [kindAt_lexeme hplain] at hread
    rw [kindAt_lexeme hplain']
    exact lexemeAt_again hread hcur hsame hcur'

/-- A token wherever it stands; what its comments say counts only if they are kept. -/
def placeless (keep : Bool) (t : Token) : Token :=
  ⟨t.kind, ⟨0, 0⟩, ⟨1, 1⟩, t.newlineBefore, if keep then t.comments.map seen else []⟩

lemma placeless_kind {keep : Bool} {t t' : Token} (h : placeless keep t' = placeless keep t) :
    t'.kind = t.kind := by
  have hkind : (placeless keep t').kind = (placeless keep t).kind := by rw [h]
  exact hkind

/-- A token is what stands behind its gap. -/
lemma tokenAt_gap {gap : Gap} {mid : Cursor} (hgap : gapAt cur = .ok (gap, mid)) :
    tokenAt regex cur = kindAt regex mid >>= fun found =>
      .ok (⟨found.1, ⟨mid.offset, found.2.offset⟩, mid.place, gap.newline, gap.comments.reverse⟩,
        found.2) := by
  unfold tokenAt
  rw [hgap]
  dsimp only [bind, Except.bind]
  split
  · rw [kindAt_template ‹_›]
  · rename_i hplain
    rw [kindAt_lexeme hplain]

lemma tokenAt_cases {t : Token} (h : tokenAt regex cur = .ok (t, after)) :
    ∃ gap mid, gapAt cur = .ok (gap, mid) ∧ kindAt regex mid = .ok (t.kind, after) ∧
      t = ⟨t.kind, ⟨mid.offset, after.offset⟩, mid.place, gap.newline, gap.comments.reverse⟩ := by
  obtain ⟨⟨gap, mid⟩, hgap, -⟩ := bind_ok h
  rw [tokenAt_gap hgap] at h
  obtain ⟨⟨kind, behind⟩, hkind, h⟩ := bind_ok h
  cases h
  exact ⟨gap, mid, hgap, hkind, rfl⟩

lemma tokenAt_of_kindAt {gap : Gap} {mid : Cursor} (hgap : gapAt cur = .ok (gap, mid))
    (hkind : kindAt regex mid = .ok (kind, after)) :
    tokenAt regex cur = .ok (⟨kind, ⟨mid.offset, after.offset⟩, mid.place, gap.newline,
      gap.comments.reverse⟩, after) := by
  rw [tokenAt_gap hgap, hkind]
  rfl

lemma kindAt_forward (h : kindAt regex cur = .ok (kind, after)) : Leads cur after := by
  by_cases htemplate : ∃ rest, cur.rest = '\x60' :: rest
  · obtain ⟨rest, hopen⟩ := htemplate
    rw [kindAt_template hopen] at h
    obtain ⟨behind, htext, heq⟩ := map_ok h
    cases heq
    exact (leads_advance cur 1).trans ((template_forward _).1 htext).leads
  · rw [kindAt_lexeme fun rest heq => htemplate ⟨rest, heq⟩] at h
    exact (lexemeAt_forward h).leads

lemma tokenAt_again {t : Token} (h : tokenAt regex cur = .ok (t, after)) :
    ∃ passed, cur.rest = passed ++ after.rest ∧
      ∀ {cur' : Cursor} {rest' : List Char}, cur'.rest = passed ++ rest' → SameFront after.rest rest' →
        ∃ t' after', tokenAt regex cur' = .ok (t', after') ∧ after'.rest = rest' ∧
          placeless true t' = placeless true t := by
  obtain ⟨gap, mid, hgap, hkind, ht⟩ := tokenAt_cases h
  obtain ⟨skipped, hskipped, hagain⟩ := gapAt_behind hgap
  obtain ⟨taken, htaken⟩ := kindAt_forward hkind
  refine ⟨skipped ++ taken, by rw [hskipped, htaken.rest, List.append_assoc], fun hcur' hsame => ?_⟩
  rw [List.append_assoc] at hcur'
  obtain ⟨gap', mid', hgap', hmid', hline, hseen⟩ := hagain hcur' (htaken.rest ▸ hsame.append taken)
  obtain ⟨after', hkind', hafter'⟩ := kindAt_again hkind htaken.rest hsame hmid'
  refine ⟨_, after', tokenAt_of_kindAt hgap' hkind', hafter', ?_⟩
  rw [ht]
  simp [placeless, hline, hseen]

/-- The tokens in front of a change are read again. -/
lemma Scans.again {regex' : Bool} {last : Cursor} {tokens : List Token}
    (h : Scans regex cur tokens regex' last) :
    ∃ passed, cur.rest = passed ++ last.rest ∧
      ∀ {cur' : Cursor} {rest' : List Char}, cur'.rest = passed ++ rest' → SameFront last.rest rest' →
        ∃ tokens' last', Scans regex cur' tokens' regex' last' ∧ last'.rest = rest' ∧
          tokens'.map (placeless true) = tokens.map (placeless true) := by
  induction h with
  | @done regex cur => exact ⟨[], rfl, fun hcur' _ => ⟨[], _, .done, hcur', rfl⟩⟩
  | next token kind _ ih =>
    obtain ⟨front, hfront, htoken⟩ := tokenAt_again token
    obtain ⟨more, hmore, hagain⟩ := ih
    refine ⟨front ++ more, by rw [hfront, hmore, List.append_assoc], fun hcur' hsame => ?_⟩
    rw [List.append_assoc] at hcur'
    obtain ⟨t', after', htoken', hafter', ht'⟩ := htoken hcur' (hmore ▸ hsame.append more)
    obtain ⟨tokens', last', hscans', hlast', htokens'⟩ := hagain hafter' hsame
    have hkind := placeless_kind ht'
    refine ⟨t' :: tokens', last', .next htoken' (hkind ▸ kind) (hkind ▸ hscans'), hlast', ?_⟩
    rw [List.map_cons, List.map_cons, ht', htokens']

/-- A run of tokens splits where its tokens do. -/
lemma Scans.append_split {regex' : Bool} {last : Cursor} {tokens more : List Token}
    (h : Scans regex cur (tokens ++ more) regex' last) :
    ∃ regex'' mid, Scans regex cur tokens regex'' mid ∧ Scans regex'' mid more regex' last := by
  induction tokens generalizing regex cur with
  | nil => exact ⟨regex, cur, .done, h⟩
  | cons t tokens ih =>
    cases h with
    | next token kind tail =>
      obtain ⟨regex'', mid, hfirst, hmore⟩ := ih tail
      exact ⟨regex'', mid, .next token kind hfirst, hmore⟩

end Tokens

section Files

variable {regex regex' : Bool} {cur cur' last : Cursor} {tokens more : List Token}

/-! ## The start of a file -/

lemma behindMark_rest (chars : List Char) :
    (behindMark chars).rest = if chars.head? = some '\ufeff' then chars.tail else chars := by
  rcases behindMark_cases chars with ⟨rest, rfl, hbehind⟩ | ⟨hmark, hbehind⟩
  · rw [hbehind]
    rfl
  · rw [hbehind, if_neg]
    · rfl
    · intro hhead
      obtain ⟨rest, hrest⟩ := List.head?_eq_some_iff.mp hhead
      exact hmark rest hrest

lemma pastFirstLine_rest (cur : Cursor) :
    (pastFirstLine cur).rest =
      if cur.rest.take 2 = ['#', '!'] then cur.rest.dropWhile (· != '\n') else cur.rest := by
  unfold pastFirstLine
  split
  · rename_i hrest
    rw [advance_rest, drop_countWhile, hrest]
    rfl
  · rename_i hrest
    rw [if_neg]
    intro htake
    obtain ⟨rest, hsplit⟩ : ∃ rest, cur.rest = '#' :: '!' :: rest :=
      ⟨cur.rest.drop 2, by rw [← List.take_append_drop 2 cur.rest, htake]; simp⟩
    exact hrest rest hsplit

/-- A first line for the system is told from what both texts start with. -/
lemma SameFront.firstLine {rest rest' : List Char} (h : SameFront rest rest') :
    rest'.take 2 = ['#', '!'] ↔ rest.take 2 = ['#', '!'] := by
  obtain ⟨front, behind, behind', rfl, rfl, hstop⟩ := h
  cases front with
  | nil =>
    rcases hstop.cases with ⟨rfl, rfl⟩ | ⟨c, more, more', rfl, rfl, hc⟩
    · rfl
    · have hhash : c ≠ '#' := noStop_char (by decide) hc
      simp [hhash]
  | cons c front =>
    cases front with
    | nil => rcases hstop.cases with ⟨rfl, rfl⟩ | ⟨d, more, more', rfl, rfl, -⟩ <;> simp
    | cons d front => simp

/-- The first token is looked for at the same place in front of texts that start alike. -/
lemma firstCursor_again {front rest rest' : List Char} (h : (firstCursor (front ++ rest)).rest = rest)
    (hsame : SameFront rest rest') : (firstCursor (front ++ rest')).rest = rest' := by
  by_cases hne : rest = []
  · subst hne
    rw [hsame.ending, h]
  obtain ⟨line, hline, hline'⟩ : ∃ line, (behindMark (front ++ rest)).rest = line ++ rest ∧
      (behindMark (front ++ rest')).rest = line ++ rest' := by
    rw [behindMark_rest, behindMark_rest, (hsame.append front).head]
    split
    · cases front with
      | nil =>
        obtain ⟨passed, hpassed⟩ := (firstCursor_forward ([] ++ rest)).leads
        have hlength := congrArg List.length hpassed.rest
        rw [behindMark_rest, if_pos ‹_›, h, List.nil_append, List.length_tail, List.length_append] at hlength
        have hpos := List.length_pos_of_ne_nil hne
        omega
      | cons c front => exact ⟨front, rfl, rfl⟩
    · exact ⟨front, rfl, rfl⟩
  rw [firstCursor_eq, pastFirstLine_rest, hline] at h
  rw [firstCursor_eq, pastFirstLine_rest, hline']
  by_cases hfirst : (line ++ rest).take 2 = ['#', '!']
  · rw [if_pos hfirst] at h
    rw [if_pos ((hsame.append line).firstLine.mpr hfirst)]
    have htake : (line ++ rest).takeWhile (· != '\n') = line := by
      have hsplit := List.takeWhile_append_dropWhile (p := (· != '\n')) (l := line ++ rest)
      rw [h] at hsplit
      exact List.append_cancel_right hsplit
    have hwithin : ∀ c ∈ line, (c != '\n') = true := by
      intro c hc
      rw [← htake] at hc
      exact List.all_eq_true.mp List.all_takeWhile c hc
    have hstop := List.head?_dropWhile_not (· != '\n') (line ++ rest)
    rw [h] at hstop
    rw [List.dropWhile_append_of_pos hwithin]
    cases rest with
    | nil => exact absurd rfl hne
    | cons c rest =>
      obtain ⟨more, rfl⟩ := List.head?_eq_some_iff.mp hsame.head
      exact List.dropWhile_cons_of_neg (by simpa using hstop)
  · rw [if_neg hfirst] at h
    rw [if_neg fun hfirst' => hfirst ((hsame.append line).firstLine.mp hfirst')]
    obtain rfl : line = [] := List.append_cancel_right h
    rfl

/-! ## All tokens ahead -/

/-- The tokens from a cursor up to the end of the text, which is the last of them. -/
structure ReadsAll (regex : Bool) (cur : Cursor) (tokens : List Token) : Prop where
  read : tokensFrom (cur.rest.length + 1) regex cur = .ok tokens

lemma tokenize_iff {text : String} :
    tokenize text = .ok tokens ↔ ReadsAll true (firstCursor text.toList) tokens :=
  ⟨fun h => ⟨h⟩, fun h => h.read⟩

lemma readsAll_iff : ReadsAll regex cur tokens ↔
    ∃ body ending regex' last after, tokens = body ++ [ending] ∧ Scans regex cur body regex' last ∧
      tokenAt regex' last = .ok (ending, after) ∧ ending.kind = .endOfFile := by
  constructor
  · rintro ⟨h⟩
    rcases tokensFrom_cases regex (Nat.lt_succ_self cur.rest.length) with
      ⟨body, regex', last, ending, after, hscans, hending, hkind, heq⟩ | ⟨_, _, _, e, -, -, heq⟩
    · cases heq.symm.trans h
      exact ⟨body, ending, regex', last, after, rfl, hscans, hending, hkind⟩
    · cases heq.symm.trans h
  · rintro ⟨body, ending, regex', last, after, rfl, hscans, hending, hkind⟩
    exact ⟨hscans.tokensFrom_eq hending hkind (Nat.lt_succ_self _)⟩

lemma Scans.readsAll (h : Scans regex cur tokens regex' last) (hmore : ReadsAll regex' last more) :
    ReadsAll regex cur (tokens ++ more) := by
  obtain ⟨body, ending, regex'', behind, after, rfl, hscans, hending, hkind⟩ := readsAll_iff.mp hmore
  exact readsAll_iff.mpr ⟨tokens ++ body, ending, regex'', behind, after, (List.append_assoc ..).symm,
    h.trans hscans, hending, hkind⟩

lemma ReadsAll.split (h : ReadsAll regex cur (tokens ++ more)) (hne : more ≠ []) :
    ∃ regex' last, Scans regex cur tokens regex' last ∧ ReadsAll regex' last more := by
  obtain ⟨body, ending, regex'', behind, after, heq, hscans, hending, hkind⟩ := readsAll_iff.mp h
  obtain ⟨between, t, rfl⟩ := (List.eq_nil_or_concat' more).resolve_left hne
  rw [← List.append_assoc] at heq
  obtain ⟨rfl, hlast⟩ := List.append_inj' heq rfl
  obtain rfl := List.singleton_inj.mp hlast
  obtain ⟨regex', last, hfirst, hmore⟩ := hscans.append_split
  exact ⟨regex', last, hfirst, readsAll_iff.mpr ⟨between, t, regex'', behind, after, rfl, hmore, hending,
    hkind⟩⟩

/-- The next token is the end, or further tokens are read behind it. -/
lemma ReadsAll.cases {t : Token} (h : ReadsAll regex cur (t :: more)) :
    ∃ after, tokenAt regex cur = .ok (t, after) ∧
      (t.kind = .endOfFile ∧ more = [] ∨ t.kind ≠ .endOfFile ∧ ReadsAll t.kind.regexMayFollow after more) := by
  obtain ⟨body, ending, regex', last, after, heq, hscans, hending, hkind⟩ := readsAll_iff.mp h
  cases hscans with
  | done =>
    obtain ⟨rfl, rfl⟩ := List.cons.inj heq
    exact ⟨after, hending, .inl ⟨hkind, rfl⟩⟩
  | @next _ _ _ behind _ _ body token kind tail =>
    obtain ⟨rfl, rfl⟩ := List.cons.inj heq
    exact ⟨behind, token, .inr ⟨kind, readsAll_iff.mpr ⟨body, ending, regex', last, after, rfl, tail, hending,
      hkind⟩⟩⟩

lemma readsAll_end {t : Token} {after : Cursor} (h : tokenAt regex cur = .ok (t, after))
    (hkind : t.kind = .endOfFile) : ReadsAll regex cur [t] :=
  readsAll_iff.mpr ⟨[], t, regex, cur, after, rfl, .done, h, hkind⟩

/-- The same text is read as the same tokens wherever it stands. -/
lemma ReadsAll.again (h : ReadsAll regex cur tokens) (hcur : cur'.rest = cur.rest) :
    ∃ tokens', ReadsAll regex cur' tokens' ∧ tokens'.map (placeless true) = tokens.map (placeless true) := by
  obtain ⟨body, ending, regex', last, after, rfl, hscans, hending, hkind⟩ := readsAll_iff.mp h
  obtain ⟨passed, hpassed, hagain⟩ := hscans.again
  obtain ⟨body', last', hscans', hlast', hbody⟩ := hagain (hcur.trans hpassed) (.refl _)
  obtain ⟨passed', hpassed', hagain'⟩ := tokenAt_again hending
  obtain ⟨ending', after', hending', -, hsame⟩ := hagain' (hlast'.trans hpassed') (.refl _)
  refine ⟨body' ++ [ending'], readsAll_iff.mpr ⟨body', ending', regex', last', after', rfl, hscans', hending',
    (placeless_kind hsame).trans hkind⟩, ?_⟩
  rw [List.map_append, List.map_append, hbody, List.map_singleton, List.map_singleton, hsame]

/-! ## Files that are changed in one place -/

/-- A file that is changed behind some of its tokens starts with the same tokens, if what stands behind them
starts alike. -/
lemma tokenize_front {text : String} (h : tokenize text = .ok (tokens ++ more)) (hmore : more ≠ []) :
    ∃ front regex last, text.toList = front ++ last.rest ∧ last.offset = byteCount front ∧
      Scans true (firstCursor text.toList) tokens regex last ∧ ReadsAll regex last more ∧
      ∀ rest', SameFront last.rest rest' → ∃ last', last'.rest = rest' ∧
        ∀ more', ReadsAll regex last' more' → ∃ tokens',
          tokenize (String.ofList (front ++ rest')) = .ok (tokens' ++ more') ∧
            tokens'.map (placeless true) = tokens.map (placeless true) := by
  obtain ⟨regex, last, hscans, hrest⟩ := (tokenize_iff.mp h).split hmore
  obtain ⟨start, hstart⟩ := firstCursor_passed text.toList
  obtain ⟨passed, hpassed⟩ := hscans.leads
  obtain ⟨again, hagain, hfront⟩ := hscans.again
  obtain rfl : again = passed := List.append_cancel_right (hagain.symm.trans hpassed.rest)
  have hwhole := hstart.trans hpassed
  refine ⟨start ++ again, regex, last, hwhole.rest, ?_, hscans, hrest, fun rest' hsame => ?_⟩
  · rw [hwhole.offset]
    exact Nat.zero_add _
  · have htext : text.toList = start ++ (again ++ last.rest) := by
      rw [← List.append_assoc]
      exact hwhole.rest
    have hfirst : (firstCursor (start ++ (again ++ rest'))).rest = again ++ rest' := by
      refine firstCursor_again ?_ (hsame.append again)
      rw [← htext, hagain]
    obtain ⟨tokens', last', hscans', hlast', htokens'⟩ := hfront hfirst hsame
    refine ⟨last', hlast', fun more' hmore' => ⟨tokens', ?_, htokens'⟩⟩
    rw [tokenize_iff, String.toList_ofList, List.append_assoc]
    exact hscans'.readsAll hmore'

end Files

end TaskRunner.Proofs
