import TaskRunner.Proofs.SpacedLexemes

/-!
# Scanners in front of a change

A scanner looks beyond what it takes, but mostly at one character. Where two texts behind a front start with
the same blank or point, what is read within the front is read alike: names, quoted texts and regular
expressions. No mark holds a blank, and only a further point stands behind a point of a mark. So which mark is
read in front of a blank or of a single point does not depend on what stands behind it either.
-/

namespace TaskRunner.Proofs
open Source

section Scans

/-- A blank, a point or a question mark. -/
def isStop (c : Char) : Bool :=
  Text.isBlank c || c == '.' || c == '?'

/-- Two texts behind a front start with the same stop, and with the same mark wherever one reaches into
them; or both are at an end. -/
structure SameStop (behind behind' : List Char) : Prop where
  head : behind'.head? = behind.head?
  stop : ∀ c ∈ behind.head?, isStop c = true
  marks : ∀ front, markAt (front ++ behind') = markAt (front ++ behind)

lemma sameStop_nil : SameStop [] [] :=
  ⟨rfl, fun _ hc => absurd hc (Option.not_mem_none _), fun _ => rfl⟩

variable {front behind behind' : List Char} {p : Char → Bool}

lemma SameStop.cases (h : SameStop behind behind') :
    behind = [] ∧ behind' = [] ∨
      ∃ c more more', behind = c :: more ∧ behind' = c :: more' ∧ isStop c = true := by
  have hhead := h.head
  cases behind with
  | nil =>
    cases behind' with
    | nil => exact .inl ⟨rfl, rfl⟩
    | cons c more' => cases hhead
  | cons c more =>
    cases behind' with
    | nil => cases hhead
    | cons d more' =>
      cases hhead
      exact .inr ⟨c, more, more', rfl, rfl, h.stop c rfl⟩

/-- The stops are few. -/
def stopCodes : List Nat :=
  [9, 10, 11, 12, 13, 32, 46, 63, 133, 160, 5760, 8192, 8193, 8194, 8195, 8196, 8197, 8198, 8199, 8200,
    8201, 8202, 8232, 8233, 8239, 8287, 12288]

lemma isStop_code {c : Char} (h : isStop c = true) : c.toNat ∈ stopCodes := by
  simp only [isStop, Bool.or_eq_true, beq_iff_eq] at h
  rcases h with (h | rfl) | rfl
  · unfold Text.isBlank at h
    split at h
    · simp only [Bool.or_eq_true, beq_iff_eq, Bool.and_eq_true, decide_eq_true_eq] at h
      rcases h with rfl | h
      · decide
      · simp only [stopCodes, List.mem_cons]
        omega
    · simp only [Text.inRanges, Text.blankRanges, List.any_cons, List.any_nil, Bool.or_eq_true,
        Bool.and_eq_true, decide_eq_true_eq, Bool.false_eq_true, or_false] at h
      simp only [stopCodes, List.mem_cons]
      omega
  · decide
  · decide

/-- What fails at all stops. -/
def NoStop (p : Char → Bool) : Prop :=
  (stopCodes.all fun n => !p (Char.ofNat n)) = true

instance (p : Char → Bool) : Decidable (NoStop p) :=
  inferInstanceAs (Decidable (_ = true))

lemma NoStop.fails (hp : NoStop p) {c : Char} (hc : isStop c = true) : p c = false := by
  have hfails := List.all_eq_true.mp hp c.toNat (isStop_code hc)
  rw [Char.ofNat_toNat] at hfails
  simpa using hfails

lemma noStop_char {d : Char} (hd : isStop d = false) {c : Char} (hc : isStop c = true) : c ≠ d := by
  rintro rfl
  rw [hd] at hc
  cases hc

lemma SameStop.stop' (h : SameStop behind behind') : ∀ c ∈ behind'.head?, isStop c = true := by
  rw [h.head]
  exact h.stop

lemma SameStop.head_append (h : SameStop behind behind') (front : List Char) :
    (front ++ behind').head? = (front ++ behind).head? := by
  cases front with
  | nil => exact h.head
  | cons c front => rfl

/-! ## Runs of characters -/

lemma takeWhile_shorter (h : ((front ++ behind).takeWhile p).length < front.length)
    (behind' : List Char) : (front ++ behind').takeWhile p = (front ++ behind).takeWhile p := by
  induction front with
  | nil => exact absurd h (Nat.not_lt_zero _)
  | cons c front ih =>
    by_cases hc : p c = true
    · simp only [List.cons_append, List.takeWhile_cons_of_pos hc, List.length_cons] at h ⊢
      rw [ih (Nat.lt_of_succ_lt_succ h)]
    · simp [List.takeWhile_cons_of_neg hc]

lemma takeWhile_again (hstop : SameStop behind behind')
    (h : ((front ++ behind).takeWhile p).length ≤ front.length) :
    (front ++ behind').takeWhile p = (front ++ behind).takeWhile p := by
  induction front with
  | nil =>
    rcases hstop.cases with ⟨rfl, rfl⟩ | ⟨c, more, more', rfl, rfl, -⟩
    · rfl
    · by_cases hc : p c = true
      · simp [List.takeWhile_cons_of_pos hc] at h
      · simp [List.takeWhile_cons_of_neg hc]
  | cons c front ih =>
    by_cases hc : p c = true
    · simp only [List.cons_append, List.takeWhile_cons_of_pos hc, List.length_cons] at h ⊢
      rw [ih (Nat.le_of_succ_le_succ h)]
    · simp [List.takeWhile_cons_of_neg hc]

lemma countWhile_again (hstop : SameStop behind behind')
    (h : countWhile p (front ++ behind) ≤ front.length) :
    countWhile p (front ++ behind') = countWhile p (front ++ behind) :=
  congrArg List.length (takeWhile_again hstop h)

/-! ## Names -/

lemma unicodeEscape_plain {chars : List Char} (h : ∀ rest, chars ≠ '\x7b' :: rest) :
    unicodeEscape chars =
      (if (chars.take 4).length < 4 then none else charOfHex (chars.take 4), (chars.take 4).length) := by
  unfold unicodeEscape
  split
  · exact absurd rfl (h _)
  · rfl

lemma SameStop.nothing (hstop : SameStop behind behind')
    (h : (front ++ behind).length ≤ front.length) : front ++ behind' = front ++ behind := by
  rw [List.length_append] at h
  obtain rfl := List.length_eq_zero_iff.mp (by omega : behind.length = 0)
  rcases hstop.cases with ⟨-, rfl⟩ | ⟨c, more, more', heq, -⟩
  · rfl
  · cases heq

lemma unicodeEscape_again (hstop : SameStop behind behind')
    (h : (unicodeEscape (front ++ behind)).2 ≤ front.length) :
    unicodeEscape (front ++ behind') = unicodeEscape (front ++ behind) := by
  by_cases hbrace : ∃ rest, front ++ behind = '\x7b' :: rest
  · cases front with
    | nil =>
      obtain ⟨rest, hrest⟩ := hbrace
      rw [hrest, unicodeEscape] at h
      simp at h
    | cons c front =>
      obtain ⟨rest, hrest⟩ := hbrace
      obtain ⟨rfl, rfl⟩ := List.cons.inj hrest
      simp only [List.cons_append, unicodeEscape, List.length_cons] at h ⊢
      split at h
      · have hshorter : ((front ++ behind).takeWhile (· != '\x7d')).length < front.length := by omega
        have hclosed : ∀ more : List Char,
            ((front ++ behind).takeWhile (· != '\x7d')).length < (front ++ more).length := by
          intro more
          rw [List.length_append]
          omega
        rw [takeWhile_shorter hshorter behind', if_pos (hclosed behind'), if_pos (hclosed behind)]
      · rw [hstop.nothing (by omega), if_neg ‹_›]
  · have hplain : ∀ rest, front ++ behind ≠ '\x7b' :: rest := fun rest heq => hbrace ⟨rest, heq⟩
    rw [unicodeEscape_plain hplain] at h ⊢
    by_cases hfour : 4 ≤ front.length
    · have htake : ∀ more, (front ++ more).take 4 = front.take 4 :=
        fun more => List.take_append_of_le_length hfour
      rw [unicodeEscape_plain, htake, htake]
      intro rest heq
      cases front with
      | nil => simp at hfour
      | cons c front => exact hplain _ (congrArg (· :: (front ++ behind)) (List.cons.inj heq).1)
    · simp only [List.length_take] at h
      rw [hstop.nothing (by omega), unicodeEscape_plain hplain]

lemma isNamePart_stop {c : Char} (h : isStop c = true) : isNamePart c = false := by
  have htable : NoStop isNamePart := by decide +kernel
  exact htable.fails h

lemma scanName_escape (fuel : Nat) (chars : List Char) :
    scanName (fuel + 1) ('\\' :: 'u' :: chars) =
      match unicodeEscape chars with
      | (some c, count) =>
        (c :: (scanName fuel (chars.drop count)).1, 2 + count + (scanName fuel (chars.drop count)).2)
      | (none, count) => ([], 2 + count) :=
  rfl

lemma scanName_plain {fuel : Nat} {c : Char} {chars : List Char}
    (h : ¬ (c = '\\' ∧ chars.head? = some 'u')) :
    scanName (fuel + 1) (c :: chars) =
      if isNamePart c then (c :: (scanName fuel chars).1, 1 + (scanName fuel chars).2)
      else ([], 0) := by
  rw [scanName]
  intro more hc hchars
  exact h ⟨hc, by rw [hchars, List.head?_cons]⟩

lemma scanName_stop (h : ∀ c ∈ behind.head?, isStop c = true) (fuel : Nat) :
    scanName fuel behind = ([], 0) := by
  cases fuel with
  | zero => rfl
  | succ fuel =>
    cases behind with
    | nil => rfl
    | cons c rest =>
      rw [scanName_plain]
      · simp [isNamePart_stop (h c rfl)]
      · rintro ⟨rfl, -⟩
        exact absurd (h '\\' rfl) (by decide)

lemma scanName_again (hstop : SameStop behind behind') {fuel fuel' : Nat}
    (hfuel : front.length ≤ fuel) (hfuel' : front.length ≤ fuel')
    (h : (scanName fuel (front ++ behind)).2 ≤ front.length) :
    scanName fuel' (front ++ behind') = scanName fuel (front ++ behind) := by
  induction fuel generalizing front fuel' with
  | zero =>
    obtain rfl := List.length_eq_zero_iff.mp (Nat.le_zero.mp hfuel)
    exact scanName_stop hstop.stop' fuel'
  | succ fuel ih =>
    cases front with
    | nil =>
      rw [List.nil_append, List.nil_append, scanName_stop hstop.stop, scanName_stop hstop.stop']
    | cons c front =>
      obtain ⟨fuel', rfl⟩ : ∃ n, fuel' = n + 1 := ⟨fuel' - 1, by simp at hfuel'; omega⟩
      rw [List.length_cons] at h hfuel hfuel'
      simp only [List.cons_append] at h ⊢
      by_cases hescape : c = '\\' ∧ (front ++ behind).head? = some 'u'
      · obtain ⟨rfl, hhead⟩ := hescape
        cases front with
        | nil => exact absurd (hstop.stop 'u' hhead) (by decide)
        | cons u front =>
          obtain rfl : u = 'u' := Option.some.inj hhead
          rw [List.length_cons] at h hfuel hfuel'
          simp only [List.cons_append, scanName_escape] at h ⊢
          have hcount : (unicodeEscape (front ++ behind)).2 ≤ front.length := by
            split at h <;> simp_all <;> omega
          rw [unicodeEscape_again hstop hcount]
          split
          · rename_i d count heq
            rw [heq] at h hcount
            dsimp only at h hcount
            rw [List.drop_append_of_le_length hcount] at h ⊢
            rw [List.drop_append_of_le_length hcount, ih]
            all_goals (try rw [List.length_drop])
            all_goals omega
          · rfl
      · rw [scanName_plain hescape] at h ⊢
        rw [scanName_plain]
        · split at h
          · rw [if_pos ‹_›, if_pos ‹_›, ih (by omega) (by omega) (by dsimp only at h; omega)]
          · rw [if_neg ‹_›, if_neg ‹_›]
        · rintro ⟨rfl, hhead⟩
          exact hescape ⟨rfl, (hstop.head_append front) ▸ hhead⟩

lemma nameAt_again (hstop : SameStop behind behind')
    (h : (nameAt (front ++ behind)).2 ≤ front.length) :
    nameAt (front ++ behind') = nameAt (front ++ behind) := by
  have hlength : ∀ more : List Char, front.length ≤ (front ++ more).length :=
    fun more => by simp
  unfold nameAt at h ⊢
  rw [scanName_again hstop (hlength behind) (hlength behind') h]

/-! ## Texts -/

lemma textEscape_plain {c : Char} (rest : List Char)
    (h : c ∉ ['n', 't', 'r', 'b', 'f', 'v', '0', 'x', 'u', '\r', '\n']) :
    textEscape (c :: rest) = ([c], 1) := by
  simp only [List.mem_cons, List.not_mem_nil, or_false, not_or] at h
  simp [textEscape, h]

lemma textEscape_again (hstop : SameStop behind behind')
    (h : (textEscape (front ++ behind)).2 < front.length) :
    textEscape (front ++ behind') = textEscape (front ++ behind) := by
  cases front with
  | nil => exact absurd h (Nat.not_lt_zero _)
  | cons c front =>
    rw [List.cons_append] at h
    rw [List.cons_append, List.cons_append]
    rw [List.length_cons] at h
    by_cases hc : c ∈ ['n', 't', 'r', 'b', 'f', 'v', '0', 'x', 'u', '\r', '\n']
    · simp only [List.mem_cons, List.not_mem_nil, or_false] at hc
      rcases hc with rfl | rfl | rfl | rfl | rfl | rfl | rfl | rfl | rfl | rfl | rfl
      · rfl
      · rfl
      · rfl
      · rfl
      · rfl
      · rfl
      · rfl
      · simp only [textEscape] at h ⊢
        rw [List.length_take, List.length_append] at h
        have htwo : 2 ≤ front.length := by omega
        rw [List.take_append_of_le_length htwo, List.take_append_of_le_length htwo]
      · simp only [textEscape] at h ⊢
        rw [unicodeEscape_again hstop (by omega)]
      -- Behind a carriage return the escape takes a line feed as well.
      · cases front with
        | nil =>
          have hpos : 1 ≤ (textEscape ('\r' :: behind)).2 := by
            unfold textEscape
            split <;> simp_all
          simp only [List.nil_append, List.length_nil] at h
          omega
        | cons d front =>
          by_cases hd : d = '\n'
          · subst hd
            rfl
          · simp [textEscape, hd]
      · rfl
    · rw [textEscape_plain _ hc, textEscape_plain _ hc]

lemma scanText_cons (quote c : Char) (fuel : Nat) (rest : List Char) :
    scanText quote (fuel + 1) (c :: rest) =
      if c == '\n' || c == '\r' then none
      else if c == quote then some ([], 1)
      else if c == '\\' then
        (scanText quote fuel (rest.drop (textEscape rest).2)).map fun (more, n) =>
          ((textEscape rest).1 ++ more, 1 + (textEscape rest).2 + n)
      else (scanText quote fuel rest).map fun (more, n) => (c :: more, 1 + n) := by
  rw [scanText]

lemma scanText_pos {quote : Char} {fuel : Nat} {chars value : List Char} {count : Nat}
    (h : scanText quote fuel chars = some (value, count)) : 0 < count := by
  cases fuel with
  | zero => cases h
  | succ fuel =>
    cases chars with
    | nil => cases h
    | cons c rest =>
      rw [scanText_cons] at h
      split at h
      · cases h
      · split at h
        · cases h
          exact Nat.one_pos
        · split at h
          · obtain ⟨_, -, heq⟩ := Option.map_eq_some_iff.mp h
            cases heq
            omega
          · obtain ⟨_, -, heq⟩ := Option.map_eq_some_iff.mp h
            cases heq
            omega

lemma scanText_again (hstop : SameStop behind behind') {quote : Char} {fuel fuel' : Nat}
    (hfuel' : front.length ≤ fuel') {value : List Char} {count : Nat}
    (h : scanText quote fuel (front ++ behind) = some (value, count)) (hcount : count ≤ front.length) :
    scanText quote fuel' (front ++ behind') = some (value, count) := by
  induction fuel generalizing front fuel' value count with
  | zero => cases h
  | succ fuel ih =>
    have hpos := scanText_pos h
    cases front with
    | nil => exact absurd hcount (Nat.not_le.mpr hpos)
    | cons c front =>
      obtain ⟨fuel', rfl⟩ : ∃ n, fuel' = n + 1 := ⟨fuel' - 1, by simp at hfuel'; omega⟩
      rw [List.length_cons] at hcount hfuel'
      rw [List.cons_append, scanText_cons] at h ⊢
      split at h
      · cases h
      · rw [if_neg ‹_›]
        split at h
        · rw [if_pos ‹_›]
          exact h
        · rw [if_neg ‹_›]
          split at h
          · obtain ⟨⟨more, n⟩, hmore, heq⟩ := Option.map_eq_some_iff.mp h
            obtain ⟨rfl, rfl⟩ := Prod.mk.inj heq
            have hn := scanText_pos hmore
            have hescape : (textEscape (front ++ behind)).2 < front.length := by omega
            rw [if_pos ‹_›, textEscape_again hstop hescape]
            rw [List.drop_append_of_le_length (Nat.le_of_lt hescape)] at hmore ⊢
            rw [ih _ hmore]
            · rfl
            · rw [List.length_drop]
              omega
            · rw [List.length_drop]
              omega
          · obtain ⟨⟨more, n⟩, hmore, heq⟩ := Option.map_eq_some_iff.mp h
            obtain ⟨rfl, rfl⟩ := Prod.mk.inj heq
            rw [if_neg ‹_›, ih (by omega) hmore (by omega)]
            rfl

/-! ## Regular expressions -/

lemma scanRegex_pos {inClass : Bool} {chars : List Char} {count : Nat}
    (h : scanRegex inClass chars = some count) : 0 < count := by
  have hmore : ∀ {x : Option Nat} {n : Nat}, 0 < n → x.map (n + ·) = some count → 0 < count := by
    intro x n hn hx
    obtain ⟨m, -, rfl⟩ := Option.map_eq_some_iff.mp hx
    exact Nat.add_pos_left hn m
  cases chars with
  | nil => cases h
  | cons c rest =>
    rw [scanRegex.eq_def] at h
    dsimp only at h
    split at h
    · cases h
    · split at h
      · split at h
        · cases h
        · split at h
          · cases h
          · exact hmore Nat.two_pos h
      · split at h
        · cases h
          exact Nat.one_pos
        · split at h
          · exact hmore Nat.one_pos h
          · split at h
            · exact hmore Nat.one_pos h
            · exact hmore Nat.one_pos h

lemma scanRegex_again {inClass : Bool} {count : Nat}
    (h : scanRegex inClass (front ++ behind) = some count) (hcount : count ≤ front.length)
    (behind' : List Char) : scanRegex inClass (front ++ behind') = some count := by
  -- A backslash takes two characters, so the induction is on the length.
  induction hlength : front.length using Nat.strongRecOn generalizing front inClass count with
  | ind length ih =>
    have hpos := scanRegex_pos h
    cases front with
    | nil => exact absurd hcount (Nat.not_le.mpr hpos)
    | cons c front =>
      have hstep : ∀ {next : Bool},
          (scanRegex next (front ++ behind)).map (1 + ·) = some count →
          (scanRegex next (front ++ behind')).map (1 + ·) = some count := by
        intro next hnext
        obtain ⟨n, hn, rfl⟩ := Option.map_eq_some_iff.mp hnext
        rw [List.length_cons] at hcount hlength
        rw [ih front.length (by omega) hn (by omega) rfl]
        rfl
      rw [List.cons_append, scanRegex.eq_def] at h ⊢
      dsimp only at h ⊢
      split at h
      · cases h
      · rw [if_neg ‹_›]
        split at h
        · rw [if_pos ‹_›]
          cases front with
          | nil =>
            split at h
            · cases h
            · split at h
              · cases h
              · obtain ⟨n, hn, rfl⟩ := Option.map_eq_some_iff.mp h
                simp only [List.length_cons, List.length_nil] at hcount
                omega
          | cons e front =>
            simp only [List.cons_append] at h ⊢
            split at h
            · cases h
            · obtain ⟨n, hn, rfl⟩ := Option.map_eq_some_iff.mp h
              simp only [List.length_cons] at hcount hlength
              rw [if_neg ‹_›, ih front.length (by omega) hn (by omega) rfl]
              rfl
        · rw [if_neg ‹_›]
          split at h
          · rw [if_pos ‹_›]
            exact h
          · rw [if_neg ‹_›]
            split at h
            · rw [if_pos ‹_›]
              exact hstep h
            · rw [if_neg ‹_›]
              split at h
              · rw [if_pos ‹_›]
                exact hstep h
              · rw [if_neg ‹_›]
                exact hstep h

end Scans

/-! ## Marks -/

section Marks

variable {rest rest' : List Char} {c : Char}

/-- The mark at the front depends on which marks fit, and for a question mark with a point on the next
character. -/
lemma markAt_congr {chars chars' : List Char}
    (hfits : ∀ mark ∈ marks, mark.toList.isPrefixOf chars' = mark.toList.isPrefixOf chars)
    (hdigit : ['?', '.'] <+: chars →
      (chars'.drop 2).head?.any Char.isDigit = (chars.drop 2).head?.any Char.isDigit) :
    markAt chars' = markAt chars := by
  unfold markAt
  rw [List.find?_congr hfits]
  cases hfound : marks.find? fun mark => mark.toList.isPrefixOf chars with
  | none => rfl
  | some mark =>
    have hfit := List.find?_some hfound
    by_cases hquestion : mark = "?."
    · subst hquestion
      simp only [Option.map_some, hdigit (List.isPrefixOf_iff_prefix.mp hfit)]
    · simp [hquestion]

/-- A character that is no question mark stops two texts alike if the same marks fit in front of both. -/
lemma sameStop_of_fits (hstop : isStop c = true) (hquestion : c ≠ '?')
    (hfits : ∀ mark ∈ marks, ∀ front : List Char,
      mark.toList.isPrefixOf (front ++ c :: rest') = mark.toList.isPrefixOf (front ++ c :: rest))
    (hdigit : c = '.' → rest'.head?.any Char.isDigit = rest.head?.any Char.isDigit) :
    SameStop (c :: rest) (c :: rest') := by
  refine ⟨rfl, fun d hd => Option.mem_some.mp hd ▸ hstop, fun front => ?_⟩
  refine markAt_congr (fun mark hmark => hfits mark hmark front) fun hfirst => ?_
  -- Only the character behind a question mark and a point counts, so the front has at most one character.
  cases front with
  | nil =>
    obtain ⟨more, hmore⟩ := hfirst
    exact absurd (List.cons.inj hmore).1.symm hquestion
  | cons x front =>
    cases front with
    | nil =>
      obtain ⟨more, hmore⟩ := hfirst
      exact hdigit (List.cons.inj (List.cons.inj hmore).2).1.symm
    | cons y front => cases front <;> rfl

/-! ## Blanks -/

lemma mark_noBlank {mark : String} (h : mark ∈ marks) : ∀ d ∈ mark.toList, Text.isBlank d = false := by
  have htable : (marks.all fun mark => mark.toList.all fun d => !Text.isBlank d) = true := by
    decide
  simpa using List.all_eq_true.mp htable mark h

/-- Whatever is behind, a blank stops what is read in front of it. -/
lemma sameStop_blank (hblank : Text.isBlank c = true) (rest rest' : List Char) :
    SameStop (c :: rest) (c :: rest') := by
  have hne : ∀ d, Text.isBlank d = false → c ≠ d := by
    rintro d hd rfl
    rw [hd] at hblank
    cases hblank
  have hmark : ∀ mark ∈ marks, ∀ rest : List Char, ∀ d ∈ (c :: rest).head?, d ∉ mark.toList := by
    intro mark hmark rest d hd hmem
    exact hne d (mark_noBlank hmark d hmem) (Option.mem_some.mp hd)
  refine sameStop_of_fits (by simp [isStop, hblank]) (hne _ (by decide)) (fun mark h front => ?_) ?_
  · rw [isPrefixOf_front (hmark mark h rest'), isPrefixOf_front (hmark mark h rest)]
  · exact fun hpoint => absurd hpoint (hne _ (by decide))

/-! ## Points -/

/-- Behind a point there is nothing, or a further point. -/
def pointsLast : List Char → Bool
  | '.' :: d :: more => d == '.' && pointsLast (d :: more)
  | _ :: more => pointsLast more
  | [] => true

lemma mark_pointsLast {mark : String} (h : mark ∈ marks) : pointsLast mark.toList = true := by
  have htable : (marks.all fun mark => pointsLast mark.toList) = true := by
    decide
  exact List.all_eq_true.mp htable mark h

lemma pointsLast_tail {d : Char} {mark : List Char} (h : pointsLast (d :: mark) = true) :
    pointsLast mark = true := by
  unfold pointsLast at h
  split at h
  · rename_i heq
    obtain ⟨-, rfl⟩ := List.cons.inj heq
    exact (Bool.and_eq_true_iff.mp h).2
  · rename_i heq
    obtain ⟨-, rfl⟩ := List.cons.inj heq
    exact h
  · rename_i heq
    cases heq

/-- A mark that fits reaches to a single point at most. -/
lemma isPrefixOf_point {mark : List Char} (hmark : pointsLast mark = true) (hrest : rest.head? ≠ some '.')
    (front : List Char) : mark.isPrefixOf (front ++ '.' :: rest) = mark.isPrefixOf (front ++ ['.']) := by
  induction front generalizing mark with
  | nil =>
    cases mark with
    | nil => simp
    | cons d mark =>
      by_cases hd : d = '.'
      · subst hd
        cases mark with
        | nil => simp [List.isPrefixOf]
        | cons e mark =>
          have he : e = '.' := by simpa using (Bool.and_eq_true_iff.mp hmark).1
          subst he
          cases rest with
          | nil => rfl
          | cons r rest =>
            have hr : '.' ≠ r := fun heq => hrest (heq ▸ rfl)
            simp [List.isPrefixOf, hr]
      · have hpoint : (d == '.') = false := beq_eq_false_iff_ne.mpr hd
        simp [List.isPrefixOf, hpoint]
  | cons f front ih =>
    cases mark with
    | nil => simp
    | cons d mark => simp [List.isPrefixOf, ih (pointsLast_tail hmark)]

/-- Neither a point nor a digit comes next. -/
def EndsPoint (rest : List Char) : Prop :=
  ∀ d ∈ rest.head?, d ≠ '.' ∧ d.isDigit = false

lemma endsPoint_nil : EndsPoint [] :=
  fun _ hd => absurd hd (Option.not_mem_none _)

lemma EndsPoint.noDigit (h : EndsPoint rest) : rest.head?.any Char.isDigit = false := by
  cases hhead : rest.head? with
  | none => rfl
  | some d => exact (h d hhead).2

lemma sameStop_point (h : EndsPoint rest) (h' : EndsPoint rest') : SameStop ('.' :: rest) ('.' :: rest') := by
  refine sameStop_of_fits (by decide) (by decide) (fun mark hmark front => ?_) fun _ => ?_
  · have hlast := mark_pointsLast hmark
    rw [isPrefixOf_point hlast fun hhead => (h' _ hhead).1 rfl,
      isPrefixOf_point hlast fun hhead => (h _ hhead).1 rfl]
  · rw [h.noDigit, h'.noDigit]

/-- A question mark stands in front of a point as any other character does. -/
lemma sameStop_questionPoint (h : EndsPoint rest) (h' : EndsPoint rest') :
    SameStop ('?' :: '.' :: rest) ('?' :: '.' :: rest') := by
  refine ⟨rfl, fun d hd => Option.mem_some.mp hd ▸ by decide, fun front => ?_⟩
  have hmarks := (sameStop_point h h').marks (front ++ ['?'])
  simpa using hmarks

end Marks

end TaskRunner.Proofs
