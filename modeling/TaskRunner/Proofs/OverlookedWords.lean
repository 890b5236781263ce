import TaskRunner.Proofs.StatementList

/-!
# Words of declarations inside statements

The reader of a statement goes on over the word of an import or an export behind a token on the same line,
behind a token that is taken to leave an expression open, in the place of a declared name and before a class
body. Nowhere else is such a word kept.
-/

namespace TaskRunner.Proofs
open Source Tree

variable {after : Token} {trees behind : List Tree} {o o' : Outline}

/-- Words behind which a name is declared. -/
def bindingWords : List String :=
  ["const", "let", "var", "function", "class", "default"]

/-- Why the scan of a statement goes on over the word of a declaration behind other trees of the
statement. -/
inductive Overlooked (own : List Tree) (k : Tree) : Prop
  | sameLine {p : Tree} (last : own.getLast? = some p) (line : k.first.newlineBefore = false)
  | leftOpen {p : Tree} (last : own.getLast? = some p) (isOpen : leavesOpen p.last = true)
  | name {p : Tree} {word : String} (last : own.getLast? = some p) (binds : word ∈ bindingWords)
      (isWord : p.isWord word = true)
  | classHeader {before header : List Tree} {c : Tree} (split : own = before ++ c :: header)
      (isWord : c.isWord "class" = true) (noBody : ∀ t ∈ header, t.isGroup "\x7b" = false)

lemma getLast?_prepend {front own : List Tree} {p : Tree} (h : own.getLast? = some p) :
    (front ++ own).getLast? = some p := by
  rw [List.getLast?_append, h]
  rfl

lemma Overlooked.prepend {own : List Tree} {k : Tree} (h : Overlooked own k) (front : List Tree) :
    Overlooked (front ++ own) k := by
  cases h with
  | sameLine last line => exact .sameLine (getLast?_prepend last) line
  | leftOpen last isOpen => exact .leftOpen (getLast?_prepend last) isOpen
  | name last binds isWord => exact .name (getLast?_prepend last) binds isWord
  | classHeader split isWord noBody =>
    exact .classHeader (by rw [split, List.append_assoc]) isWord noBody

/-! ## Expressions -/

lemma not_suffix_self {k : Tree} {rest : List Tree} (own : List Tree) :
    ¬ own ++ k :: rest <:+ rest := by
  intro h
  have hlength := h.length_le
  rw [List.length_append, List.length_cons] at hlength
  omega

/-- An expression does not end at a tree that it takes. -/
lemma cutExpression_taken {commas : Bool} {previous : Option Token} {own rest : List Tree} {k : Tree}
    (h : (cutExpression after commas previous (own ++ k :: rest)).2 <:+ rest) :
    stopsAt after commas ((own.getLast?.map Tree.last).or previous) (k :: rest) = false := by
  induction own generalizing previous with
  | nil =>
    cases hstop : stopsAt after commas previous (k :: rest) with
    | false => exact hstop
    | true =>
      rw [List.nil_append, cutExpression_stop hstop] at h
      exact absurd h (not_suffix_self [])
  | cons t own ih =>
    cases hstop : stopsAt after commas previous (t :: own ++ k :: rest) with
    | true =>
      rw [cutExpression_stop hstop] at h
      exact absurd h (not_suffix_self (t :: own))
    | false =>
      rw [List.cons_append] at hstop h
      rw [cutExpression_go hstop] at h
      have htaken := ih h
      rw [List.getLast?_cons]
      cases hlast : own.getLast? with
      | none =>
        rw [hlast] at htaken
        exact htaken
      | some p =>
        rw [hlast] at htaken
        exact htaken

lemma overlooked_of_taken {commas : Bool} {own rest : List Tree} {k p : Tree}
    (hlast : own.getLast? = some p) (hk : startsModule after (k :: rest) = true)
    (h : stopsAt after commas (some p.last) (k :: rest) = false) : Overlooked own k := by
  rw [stopsAt, Bool.or_eq_false_iff, Bool.or_eq_false_iff, startsModule_declaration hk] at h
  by_cases hline : k.first.newlineBefore = true
  · have hopen : leavesOpen p.last = true := by simpa [hline] using h.1.1
    exact .leftOpen hlast hopen
  · exact .sameLine hlast (by simpa using hline)

lemma cut_words {commas : Bool} {previous : Option Token} {own rest : List Tree} {k : Tree}
    (hne : own ≠ []) (hk : startsModule after (k :: rest) = true)
    (h : (cutExpression after commas previous (own ++ k :: rest)).2 <:+ rest) : Overlooked own k := by
  have hlast := List.getLast?_eq_some_getLast hne
  have htaken := cutExpression_taken h
  rw [hlast] at htaken
  exact overlooked_of_taken hlast hk htaken

/-- Where something is cut off, a tree is taken or it is behind. -/
lemma taken_or_behind {taken own rest : List Tree} {k : Tree}
    (h : taken ++ behind = own ++ k :: rest) :
    (k ∈ taken ∧ behind <:+ rest) ∨ ∃ own', own = taken ++ own' ∧ behind = own' ++ k :: rest := by
  rcases List.append_eq_append_iff.mp h with ⟨own', hown, hbehind⟩ | ⟨more, htaken, hrest⟩
  · exact .inr ⟨own', hown, hbehind⟩
  · cases more with
    | nil => exact .inr ⟨[], by rw [List.append_nil, htaken, List.append_nil], hrest.symm⟩
    | cons t more =>
      obtain ⟨rfl, rfl⟩ := List.cons.inj hrest
      refine .inl ⟨?_, List.suffix_append more behind⟩
      rw [htaken]
      exact List.mem_append_right _ List.mem_cons_self

lemma pastStatement_words {own rest : List Tree} {k : Tree} (hne : own ≠ [])
    (hk : startsModule after (k :: rest) = true)
    (h : pastStatement after (own ++ k :: rest) <:+ rest) : Overlooked own k := by
  have happend := cutExpression_append after false none (own ++ k :: rest)
  rcases taken_or_behind happend with ⟨-, htaken⟩ | ⟨own', hown, hbehind⟩
  · exact cut_words hne hk htaken
  -- The statement would end before the word or with it, as a semicolon.
  · unfold pastStatement at h
    dsimp only at h
    rw [hbehind] at h
    cases own' with
    | nil =>
      have hmark : startsWithPunct ([] ++ k :: rest) ";" = false := startsModule_isPunct hk ";"
      rw [hmark] at h
      rw [List.append_nil] at hown
      rw [← hown] at h
      simp only [List.isEmpty_iff, hne, if_false, Bool.false_eq_true] at h
      exact absurd h (not_suffix_self [])
    | cons t own' =>
      split at h
      · exact absurd h (not_suffix_self own')
      · split at h
        · rename_i hempty
          rw [List.isEmpty_iff.mp hempty, List.nil_append] at hown
          rw [hown] at h
          exact absurd h (not_suffix_self own')
        · exact absurd h (not_suffix_self (t :: own'))

/-! ## Variables -/

/-- What a reader takes in front of what it leaves: the word of a declaration only at the front, or where
it is overlooked. -/
def Passes (after : Token) (trees behind : List Tree) : Prop :=
  ∀ own k rest, trees = own ++ k :: rest → behind <:+ rest → startsModule after (k :: rest) = true →
    own = [] ∨ Overlooked own k

lemma declarators_more_words {kind : Declaration} {leading : List Comment} {exported : Bool}
    {fuel : Nat} {own rest : List Tree} {k : Tree} (hk : startsModule after (k :: rest) = true)
    (ih : ∀ {o trees}, declarators after kind leading exported fuel o trees = .ok (o', behind) →
      Passes after trees behind)
    (h : moreDeclarators after kind leading exported fuel o (own ++ k :: rest) = .ok (o', behind))
    (hbehind : behind <:+ rest) : Overlooked own k := by
  unfold moreDeclarators at h
  cases own with
  | nil =>
    have hcomma : startsWithPunct ([] ++ k :: rest) "," = false := startsModule_isPunct hk ","
    have hsemicolon : pastSemicolon ([] ++ k :: rest) = k :: rest := by
      simp [pastSemicolon, startsModule_isPunct hk]
    rw [hcomma, if_neg Bool.false_ne_true, hsemicolon] at h
    cases h
    exact absurd hbehind (not_suffix_self [])
  | cons t own =>
    split at h
    · rename_i hcomma
      obtain ⟨mark, rfl, hmark⟩ := leaf_of_isPunct hcomma
      rcases ih h own k rest rfl hbehind hk with rfl | hown
      · exact .leftOpen rfl (by simp [leavesOpen, Tree.last, hmark])
      · exact hown.prepend [leaf mark]
    · cases h
      rw [List.cons_append, pastSemicolon] at hbehind
      split at hbehind
      · exact absurd hbehind (not_suffix_self own)
      · exact absurd hbehind (not_suffix_self (t :: own))

lemma pastValue_words {own rest : List Tree} {k : Tree} (target : Tree)
    (hk : startsModule after (k :: rest) = true) (h : pastValue after (own ++ k :: rest) <:+ rest) :
    Overlooked (target :: own) k := by
  unfold pastValue at h
  split at h
  · rename_i hequals
    cases own with
    | nil =>
      have hmark : k.isPunct "=" = true := hequals
      rw [startsModule_isPunct hk] at hmark
      cases hmark
    | cons equals own =>
      obtain ⟨mark, rfl, hmark⟩ := leaf_of_isPunct hequals
      cases own with
      | nil => exact .leftOpen rfl (by simp [leavesOpen, Tree.last, hmark])
      | cons t own => exact (cut_words (List.cons_ne_nil _ _) hk h).prepend [target, leaf mark]
  · exact absurd h (not_suffix_self own)

lemma pastValue_append (after : Token) (trees : List Tree) :
    ∃ taken, taken ++ pastValue after trees = trees := by
  unfold pastValue
  split
  · rename_i hequals
    obtain ⟨equals, value, rfl, -⟩ := startsWithPunct_iff.mp hequals
    exact ⟨equals :: _, congrArg (equals :: ·) (cutExpression_append after true none value)⟩
  · exact ⟨[], rfl⟩

lemma declarators_words {kind : Declaration} {leading : List Comment} {exported : Bool} {fuel : Nat}
    (h : declarators after kind leading exported fuel o trees = .ok (o', behind)) :
    Passes after trees behind := by
  induction fuel generalizing o trees with
  | zero =>
    cases h
    rintro own k rest rfl hbehind -
    exact absurd hbehind (not_suffix_self own)
  | succ fuel ih =>
    obtain ⟨-, -, target, left, -, o₁, rfl, -, -, -, hread⟩ := declarators_step h
    intro own k rest hsplit hbehind hk
    cases own with
    | nil => exact .inl rfl
    | cons t own =>
      rw [List.cons_append] at hsplit
      obtain ⟨rfl, hleft⟩ := List.cons.inj hsplit
      rw [hleft] at hread
      refine .inr ?_
      obtain ⟨taken, happend⟩ := pastValue_append after (own ++ k :: rest)
      rcases taken_or_behind happend with ⟨-, htaken⟩ | ⟨own', hown, hvalue⟩
      · exact pastValue_words target hk htaken
      · rw [hvalue] at hread
        have hmore := declarators_more_words hk ih hread hbehind
        rw [hown]
        exact hmore.prepend (target :: taken)

lemma variableDeclaration_words {leading : List Comment} {exported : Bool} {w : Tree}
    (hw : ∃ word ∈ bindingWords, w.isWord word = true)
    (h : variableDeclaration after leading exported o (w :: trees) = .ok (o', behind)) :
    Passes after (w :: trees) behind := by
  have hpasses : Passes after trees behind := declarators_words h
  intro own k rest hsplit hbehind hk
  cases own with
  | nil => exact .inl rfl
  | cons t own =>
    obtain ⟨rfl, rfl⟩ := List.cons.inj hsplit
    obtain ⟨word, hword, hw⟩ := hw
    rcases hpasses own k rest rfl hbehind hk with rfl | hown
    · exact .inr (.name rfl hword hw)
    · exact .inr (hown.prepend [w])

/-! ## Functions and classes -/

lemma functionTail_form {params : List Tree} {body : List Tree × Token}
    (h : functionTail after trees = .ok (params, body, behind)) :
    ∃ p b, trees = p :: b :: behind ∧ p.isGroup "(" = true ∧ b.isGroup "\x7b" = true := by
  unfold functionTail at h
  split at h
  · cases h
  · split at h
    · cases h
    · rename_i hparams
      split at h
      · cases h
      · split at h
        · cases h
        · rename_i hbody
          cases h
          exact ⟨_, _, rfl, isGroup_of_inside? hparams, isGroup_of_inside? hbody⟩

lemma dropWord_part (word : String) (trees : List Tree) :
    trees = dropWord word trees ∨ ∃ t, trees = t :: dropWord word trees ∧ t.isWord word = true := by
  unfold dropWord
  split
  · rename_i hstarts
    obtain ⟨t, rest, rfl, ht⟩ := startsWithWord_iff.mp hstarts
    exact .inr ⟨t, rfl, ht⟩
  · exact .inl rfl

lemma dropPunct_part (mark : String) (trees : List Tree) :
    trees = dropPunct mark trees ∨ ∃ t, trees = t :: dropPunct mark trees ∧ t.isPunct mark = true := by
  unfold dropPunct
  split
  · rename_i hstarts
    obtain ⟨t, rest, rfl, ht⟩ := startsWithPunct_iff.mp hstarts
    exact .inr ⟨t, rfl, ht⟩
  · exact .inl rfl

/-- The words and the star in front of a function's name. -/
inductive FunctionHead : List Tree → Prop
  | plain {f : Tree} (isFunction : f.isWord "function" = true) : FunctionHead [f]
  | generator {f star : Tree} (isFunction : f.isWord "function" = true)
      (isStar : star.isPunct "*" = true) : FunctionHead [f, star]
  | async {a f : Tree} (isAsync : a.isWord "async" = true) (isFunction : f.isWord "function" = true) :
      FunctionHead [a, f]
  | asyncGenerator {a f star : Tree} (isAsync : a.isWord "async" = true)
      (isFunction : f.isWord "function" = true) (isStar : star.isPunct "*" = true) :
      FunctionHead [a, f, star]

lemma functionDeclaration_form {leading : List Comment} {exported : Bool}
    (h : functionDeclaration after leading exported o trees = .ok (o', behind)) :
    ∃ head name params body bound, trees = head ++ name :: params :: body :: behind ∧
      FunctionHead head ∧ nameOfToken name.first = .ok bound ∧ params.isGroup "(" = true ∧
      body.isGroup "\x7b" = true := by
  unfold functionDeclaration at h
  dsimp only at h
  split at h
  · rename_i hfunction
    obtain ⟨f, more, hmore, hf⟩ := startsWithWord_iff.mp hfunction
    rw [hmore, List.tail_cons] at h
    obtain ⟨bound, hbound, h⟩ := bind_ok h
    obtain ⟨⟨params, body, left⟩, htail, h⟩ := bind_ok h
    obtain ⟨o₁, -, h⟩ := bind_ok h
    cases h
    obtain ⟨p, b, hleft, hp, hb⟩ := functionTail_form htail
    obtain ⟨name, hname⟩ : ∃ name, dropPunct "*" more = name :: p :: b :: left := by
      cases hdrop : dropPunct "*" more with
      | nil =>
        rw [hdrop] at hleft
        cases hleft
      | cons name others =>
        rw [hdrop, List.tail_cons] at hleft
        exact ⟨name, by rw [hleft]⟩
    have hasync := dropWord_part "async" trees
    have hstar := dropPunct_part "*" more
    rw [hmore] at hasync
    rw [hname] at hstar hbound
    rcases hasync with rfl | ⟨a, rfl, ha⟩
    · rcases hstar with rfl | ⟨star, rfl, hstar⟩
      · exact ⟨[f], name, p, b, bound, rfl, .plain hf, hbound, hp, hb⟩
      · exact ⟨[f, star], name, p, b, bound, rfl, .generator hf hstar, hbound, hp, hb⟩
    · rcases hstar with rfl | ⟨star, rfl, hstar⟩
      · exact ⟨[a, f], name, p, b, bound, rfl, .async ha hf, hbound, hp, hb⟩
      · exact ⟨[a, f, star], name, p, b, bound, rfl, .asyncGenerator ha hf hstar, hbound, hp, hb⟩
  · cases h

lemma FunctionHead.not_module {head : List Tree} {t : Tree} (h : FunctionHead head) (ht : t ∈ head)
    (rest : List Tree) : startsModule after (t :: rest) = false := by
  have hwords : t.isWord "async" = true ∨ t.isWord "function" = true ∨ t.isPunct "*" = true := by
    cases h with
    | plain isFunction => simp_all
    | generator isFunction isStar => rcases List.mem_cons.mp ht with rfl | ht <;> simp_all
    | async isAsync isFunction => rcases List.mem_cons.mp ht with rfl | ht <;> simp_all
    | asyncGenerator isAsync isFunction isStar =>
      simp only [List.mem_cons, List.not_mem_nil, or_false] at ht
      rcases ht with rfl | rfl | rfl <;> simp_all
  rcases hwords with hword | hword | hmark
  · exact not_module_of_isWord hword (by decide)
  · exact not_module_of_isWord hword (by decide)
  · exact not_module_of_isPunct hmark

lemma overlooked_function {front : List Tree} {f : Tree} (h : f.isWord "function" = true)
    (hlast : front.getLast? = some f) (k : Tree) : Overlooked front k :=
  .name hlast (by decide : "function" ∈ bindingWords) h

lemma overlooked_star {front : List Tree} {star : Tree} (h : star.isPunct "*" = true)
    (hlast : front.getLast? = some star) (k : Tree) : Overlooked front k := by
  obtain ⟨mark, rfl, hkind⟩ := leaf_of_isPunct h
  exact .leftOpen hlast (by simp [leavesOpen, Tree.last, hkind])

lemma FunctionHead.overlooked {head : List Tree} (h : FunctionHead head) (k : Tree) :
    Overlooked head k := by
  cases h with
  | plain isFunction => exact overlooked_function isFunction rfl k
  | generator _ isStar => exact overlooked_star isStar rfl k
  | async _ isFunction => exact overlooked_function isFunction rfl k
  | asyncGenerator _ _ isStar => exact overlooked_star isStar rfl k

lemma functionDeclaration_words {leading : List Comment} {exported : Bool}
    (h : functionDeclaration after leading exported o trees = .ok (o', behind)) :
    Passes after trees behind := by
  obtain ⟨head, name, params, body, -, rfl, hhead, -, hparams, hbody⟩ := functionDeclaration_form h
  intro own k rest hsplit hbehind hk
  rcases taken_or_behind hsplit with ⟨hmem, -⟩ | ⟨own', rfl, hleft⟩
  · rw [hhead.not_module hmem] at hk
    cases hk
  · match own', hleft with
    | [], _ =>
      rw [List.append_nil]
      exact .inr (hhead.overlooked k)
    | [_], hleft =>
      obtain ⟨-, hleft⟩ := List.cons.inj hleft
      obtain ⟨rfl, -⟩ := List.cons.inj hleft
      rw [not_module_of_isGroup hparams] at hk
      cases hk
    | [_, _], hleft =>
      obtain ⟨-, hleft⟩ := List.cons.inj hleft
      obtain ⟨-, hleft⟩ := List.cons.inj hleft
      obtain ⟨rfl, -⟩ := List.cons.inj hleft
      rw [not_module_of_isGroup hbody] at hk
      cases hk
    | _ :: _ :: _ :: others, hleft =>
      obtain ⟨-, hleft⟩ := List.cons.inj hleft
      obtain ⟨-, hleft⟩ := List.cons.inj hleft
      obtain ⟨-, rfl⟩ := List.cons.inj hleft
      exact absurd hbehind (not_suffix_self others)

lemma pastClassBody_form (h : pastClassBody after trees = .ok behind) :
    ∃ header body, trees = header ++ body :: behind ∧ (∀ t ∈ header, t.isGroup "\x7b" = false) ∧
      body.isGroup "\x7b" = true := by
  induction trees with
  | nil => cases h
  | cons t rest ih =>
    rw [pastClassBody] at h
    by_cases hbody : t.isGroup "\x7b" = true
    · rw [if_pos hbody] at h
      cases h
      exact ⟨[], t, rfl, by simp, hbody⟩
    · rw [if_neg hbody] at h
      obtain ⟨header, body, rfl, hheader, hbody'⟩ := ih h
      refine ⟨t :: header, body, rfl, ?_, hbody'⟩
      intro u hu
      rcases List.mem_cons.mp hu with rfl | hu
      · exact Bool.eq_false_iff.mpr hbody
      · exact hheader u hu

lemma classDeclaration_form {exported : Bool} {c : Tree} (hafter : after.kind = .endOfFile)
    (hmarks : OpenedByMarks (c :: trees))
    (h : classDeclaration after exported o (c :: trees) = .ok (o', behind)) :
    ∃ name header body, trees = name :: header ++ body :: behind ∧
      (∀ t ∈ name :: header, t.isGroup "\x7b" = false) ∧ body.isGroup "\x7b" = true := by
  obtain ⟨bound, hname, h⟩ := bind_ok h
  obtain ⟨left, hbody, h⟩ := bind_ok h
  obtain ⟨o₁, -, h⟩ := bind_ok h
  cases h
  rw [List.tail_cons] at hname hbody
  obtain ⟨name, others, rfl, hsome⟩ :=
    name_ahead hafter (hmarks.suffix (List.suffix_cons c trees)) hname
  obtain ⟨header, body, hothers, hheader, hbody⟩ := pastClassBody_form hbody
  rw [List.tail_cons] at hothers
  refine ⟨name, header, body, by rw [hothers]; rfl, ?_, hbody⟩
  intro t ht
  rcases List.mem_cons.mp ht with rfl | ht
  · cases t with
    | leaf token => rfl
    | group opener inside closer => cases hsome
  · exact hheader t ht

lemma classDeclaration_words {exported : Bool} {c : Tree} (hafter : after.kind = .endOfFile)
    (hmarks : OpenedByMarks (c :: trees)) (hc : c.isWord "class" = true)
    (h : classDeclaration after exported o (c :: trees) = .ok (o', behind)) :
    Passes after (c :: trees) behind := by
  obtain ⟨name, header, body, rfl, hheader, hbody⟩ := classDeclaration_form hafter hmarks h
  intro own k rest hsplit hbehind hk
  cases own with
  | nil => exact .inl rfl
  | cons t own =>
    rw [List.cons_append] at hsplit
    obtain ⟨rfl, hbehind'⟩ := List.cons.inj hsplit
    have hclass : name :: header ++ body :: behind = own ++ k :: rest := hbehind'
    rcases List.append_eq_append_iff.mp hclass with ⟨others, hown, hleft⟩ | ⟨others, hnames, hleft⟩
    · cases others with
      | nil =>
        obtain ⟨rfl, -⟩ := List.cons.inj hleft
        rw [not_module_of_isGroup hbody] at hk
        cases hk
      | cons b others =>
        obtain ⟨-, rfl⟩ := List.cons.inj hleft
        exact absurd hbehind (not_suffix_self others)
    · have hheaderOf : c :: own = [] ++ c :: own := rfl
      refine .inr (.classHeader hheaderOf hc ?_)
      intro u hu
      exact hheader u (hnames ▸ List.mem_append_left _ hu)

/-! ## Statements -/

/-- What becomes of a statement: it is erased as a whole, the words of an export in front of it are, or
nothing is. In what is kept the words of other declarations are overlooked. -/
inductive Effect (after : Token) (o : Outline) (stmt behind : List Tree) (o' : Outline) : Prop
  | whole {replacement : String} (edits : o'.edits = o.edits ++ [⟨spanOf stmt, replacement⟩])
  | words {form body : List Tree} {replacement : String} (split : stmt = form ++ body)
      (nonempty : form ≠ []) (edits : o'.edits = o.edits ++ [⟨spanOf form, replacement⟩])
      (overlooked : ∀ own k rest, stmt = own ++ k :: rest →
        startsModule after (k :: (rest ++ behind)) = true →
        own = [] ∨ (form.length ≤ own.length ∧ Overlooked own k))
  | kept (edits : o'.edits = o.edits)
      (overlooked : ∀ own k rest, stmt = own ++ k :: rest →
        startsModule after (k :: (rest ++ behind)) = true → own ≠ [] ∧ Overlooked own k)

variable {stmt : List Tree}

lemma Passes.overlooked (h : Passes after (stmt ++ behind) behind) {own rest : List Tree} {k : Tree}
    (hstmt : stmt = own ++ k :: rest) (hk : startsModule after (k :: (rest ++ behind)) = true) :
    own = [] ∨ Overlooked own k :=
  h own k (rest ++ behind) (by rw [hstmt, List.append_assoc, List.cons_append])
    (List.suffix_append rest behind) hk

lemma Passes.kept (hpasses : Passes after (stmt ++ behind) behind)
    (hstarts : startsModule after (stmt ++ behind) = false) (hedits : o'.edits = o.edits) :
    Effect after o stmt behind o' := by
  refine .kept hedits ?_
  intro own k rest hstmt hk
  have hne : own ≠ [] := by
    rintro rfl
    rw [hstmt, List.nil_append, List.cons_append, hk] at hstarts
    cases hstarts
  rcases hpasses.overlooked hstmt hk with hown | hown
  · exact absurd hown hne
  · exact ⟨hne, hown⟩

/-- In the words of an export and in what is kept behind them the words of declarations are overlooked. -/
lemma Passes.words {e : Tree} {form body : List Tree} {replacement : String}
    (hform : ∀ t ∈ form, ∀ more, startsModule after (t :: more) = false)
    (hfirst : startsModule after (body ++ behind) = false ∨ ∀ k, Overlooked (e :: form) k)
    (hpasses : Passes after (body ++ behind) behind)
    (hedits : o'.edits = o.edits ++ [⟨spanOf (e :: form), replacement⟩]) :
    Effect after o (e :: form ++ body) behind o' := by
  refine .words rfl (List.cons_ne_nil e form) hedits ?_
  intro own k rest hstmt hk
  cases own with
  | nil => exact .inl rfl
  | cons t own =>
    have htail : form ++ body = own ++ k :: rest := (List.cons.inj hstmt).2
    obtain rfl : e = t := (List.cons.inj hstmt).1
    rcases taken_or_behind htail with ⟨hmem, -⟩ | ⟨own', rfl, hbody⟩
    · rw [hform k hmem] at hk
      cases hk
    · refine .inr ⟨by simp, ?_⟩
      rcases hpasses.overlooked hbody hk with rfl | hown
      · rw [List.append_nil]
        rcases hfirst with hfirst | hfirst
        · rw [hbody, List.nil_append, List.cons_append, hk] at hfirst
          cases hfirst
        · exact hfirst k
      · exact hown.prepend (e :: form)

lemma pastStatement_passes (after : Token) (trees : List Tree) :
    Passes after trees (pastStatement after trees) := by
  rintro own k rest rfl hbehind hk
  by_cases hne : own = []
  · exact .inl hne
  · exact .inr (pastStatement_words hne hk hbehind)

/-- The readers that keep what they read. -/
structure Keeps (after : Token) (o : Outline) (trees : List Tree) (o' : Outline) (behind : List Tree) :
    Prop where
  reads : Reads o trees o' behind
  passes : Passes after trees behind

lemma functionDeclaration_keeps {leading : List Comment} {exported : Bool}
    (h : functionDeclaration after leading exported o trees = .ok (o', behind)) :
    Keeps after o trees o' behind :=
  ⟨functionDeclaration_reads h, functionDeclaration_words h⟩

lemma classDeclaration_keeps {exported : Bool} (hafter : after.kind = .endOfFile)
    (hmarks : OpenedByMarks trees) (hclass : startsWithWord trees "class" = true)
    (h : classDeclaration after exported o trees = .ok (o', behind)) :
    Keeps after o trees o' behind := by
  obtain ⟨c, rest, rfl, hc⟩ := startsWithWord_iff.mp hclass
  exact ⟨classDeclaration_reads h, classDeclaration_words hafter hmarks hc h⟩

lemma variableDeclaration_keeps {leading : List Comment} {exported : Bool} {word : String}
    (hword : word ∈ bindingWords) (hstarts : startsWithWord trees word = true)
    (h : variableDeclaration after leading exported o trees = .ok (o', behind)) :
    Keeps after o trees o' behind := by
  obtain ⟨w, rest, rfl, hw⟩ := startsWithWord_iff.mp hstarts
  exact ⟨variableDeclaration_reads h, variableDeclaration_words ⟨word, hword, hw⟩ h⟩

lemma pastStatement_keeps (after : Token) (o : Outline) (trees : List Tree) :
    Keeps after o trees o (pastStatement after trees) :=
  ⟨⟨pastStatement_suffix after trees, rfl⟩, pastStatement_passes after trees⟩

lemma Keeps.effect (h : Keeps after o trees o' behind) (hstarts : startsModule after trees = false)
    (htrees : trees = stmt ++ behind) : Effect after o stmt behind o' := by
  subst htrees
  exact h.passes.kept hstarts h.reads.edits

/-- Behind the word `export`, alone or with `default`, a reader keeps what it reads. -/
lemma Keeps.words {e : Tree} {form : List Tree} {o₁ : Outline} {replacement : String}
    (h : Keeps after o₁ trees o' behind)
    (hform : ∀ t ∈ form, ∀ more, startsModule after (t :: more) = false)
    (hfirst : startsModule after trees = false ∨ ∀ k, Overlooked (e :: form) k)
    (hedits : o₁.edits = o.edits ++ [⟨spanOf (e :: form), replacement⟩])
    (htrees : e :: form ++ trees = stmt ++ behind) : Effect after o stmt behind o' := by
  obtain ⟨body, rfl⟩ := h.reads.suffix
  have hstmt : stmt = e :: form ++ body := by
    rw [← List.append_assoc] at htrees
    exact (List.append_cancel_right htrees).symm
  rw [hstmt]
  exact h.passes.words hform hfirst (h.reads.edits.trans hedits)

lemma Declared.keeps (hafter : after.kind = .endOfFile) (hmarks : OpenedByMarks trees)
    (h : Declared after o trees o' behind) : Keeps after o trees o' behind := by
  cases h with
  | ofFunction read => exact functionDeclaration_keeps read
  | ofVariables isWord starts read =>
    exact variableDeclaration_keeps (List.mem_append_left _ isWord) starts read
  | ofClass starts read => exact classDeclaration_keeps hafter hmarks starts read

lemma statement_effect (hafter : after.kind = .endOfFile) (hmarks : OpenedByMarks (stmt ++ behind))
    (h : statement after o (stmt ++ behind) = .ok (o', behind)) : Effect after o stmt behind o' := by
  have halone : ∀ t ∈ ([] : List Tree), ∀ more, startsModule after (t :: more) = false := by simp
  have hdefault : ∀ {d : Tree}, d.isWord "default" = true →
      (∀ t ∈ [d], ∀ more, startsModule after (t :: more) = false) ∧
        ∀ e k, Overlooked [e, d] k := by
    intro d hd
    refine ⟨?_, fun e k => .name rfl (by decide : "default" ∈ bindingWords) hd⟩
    intro t ht more
    rw [List.mem_singleton.mp ht]
    exact not_module_of_isWord hd (by decide)
  cases statement_cases hafter hmarks h with
  | whole _ edits =>
    rw [consumed_eq] at edits
    exact .whole edits
  | @exported e more split starts read =>
    have hmore := hmarks.suffix (split ▸ List.suffix_cons e more)
    exact (read.keeps hafter hmore).words halone (.inl starts) rfl split.symm
  | @exportedDefault e d more split isDefault read =>
    obtain ⟨hform, hover⟩ := hdefault isDefault
    have hmore := hmarks.suffix (split ▸ (List.suffix_cons d more).trans (List.suffix_cons e _))
    exact (read.keeps hafter hmore).words hform (.inr (hover e)) rfl split.symm
  | @exportedValue e d more split isDefault read outline =>
    obtain ⟨hform, hover⟩ := hdefault isDefault
    have hkeeps := pastStatement_keeps after o' more
    rw [read] at hkeeps
    exact hkeeps.words hform (.inr (hover e)) (congrArg Outline.edits outline) split.symm
  | declared starts read => exact (read.keeps hafter hmarks).effect starts rfl
  | plain starts read outline =>
    subst outline
    have hkeeps := pastStatement_keeps after o' (stmt ++ behind)
    rw [read] at hkeeps
    exact hkeeps.effect (startsPlain_module starts) rfl

end TaskRunner.Proofs
