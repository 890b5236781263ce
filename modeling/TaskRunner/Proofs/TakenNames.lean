import TaskRunner.Proofs.DuplicateNames
import TaskRunner.Proofs.LineFlags
import TaskRunner.Proofs.RecordedFunctions

/-!
# Names that are taken from a file

A name that is declared, or that a parameter has, is that of an identifier of the file, or the one of a
position, or a text in an import that does not rename it. The name of an identifier consists of the characters
that it is written with, and of those that its escapes stand for: these may be any. It is well formed if and
only if the characters of its escapes are.
-/

namespace TaskRunner.Proofs
open Source Tree

/-! ## Identifiers as they are written -/

/-- The written characters are read as the characters of a name, each with whether an escape stands for it.
An escape without a code ends the name. -/
inductive Decodes (behind : List Char) : List Char → List (Char × Bool) → Prop
  | nothing : Decodes behind [] []
  | plain {c : Char} {written : List Char} {chars : List (Char × Bool)} (part : isNamePart c = true)
      (more : Decodes behind written chars) : Decodes behind (c :: written) ((c, false) :: chars)
  | escaped {c : Char} {escape written : List Char} {chars : List (Char × Bool)}
      (reads : unicodeEscape (escape ++ (written ++ behind)) = (some c, escape.length))
      (more : Decodes behind written chars) :
      Decodes behind ('\\' :: 'u' :: (escape ++ written)) ((c, true) :: chars)
  | broken {escape : List Char} (fails : unicodeEscape (escape ++ behind) = (none, escape.length)) :
      Decodes behind ('\\' :: 'u' :: escape) []

/-- There are characters, and those that escapes stand for may stand in a name, where they are. -/
structure FitsName (chars : List (Char × Bool)) : Prop where
  nonempty : chars ≠ []
  starts : ∀ c ∈ chars.head?, c.2 = true → isNameStart c.1 = true
  parts : ∀ c ∈ chars, c.2 = true → isNamePart c.1 = true

lemma unicodeEscape_le (chars : List Char) : (unicodeEscape chars).2 ≤ chars.length := by
  unfold unicodeEscape
  split
  · rename_i rest
    have hdigits : (rest.takeWhile (· != '\x7d')).length ≤ rest.length := (List.takeWhile_sublist _).length_le
    dsimp only
    split
    · simp only [List.length_cons]
      omega
    · simp only [List.length_cons]
      omega
  · simp

/-- A name is read as its characters are. -/
lemma scanName_decodes {fuel : Nat} {chars : List Char} (h : chars.length ≤ fuel) :
    ∃ written behind marks, chars = written ++ behind ∧
      scanName fuel chars = (marks.map Prod.fst, written.length) ∧ Decodes behind written marks := by
  induction fuel generalizing chars with
  | zero =>
    obtain rfl := List.eq_nil_of_length_eq_zero (Nat.le_zero.mp h)
    exact ⟨[], [], [], rfl, rfl, .nothing⟩
  | succ fuel ih =>
    rw [scanName.eq_def]
    dsimp only
    split
    · exact ⟨[], [], [], rfl, rfl, .nothing⟩
    · rename_i rest
      have hle := unicodeEscape_le rest
      simp only [List.length_cons] at h
      cases hescape : unicodeEscape rest with
      | mk found count =>
        rw [hescape] at hle
        dsimp only at hle
        have hlength : (rest.take count).length = count := List.length_take_of_le hle
        cases found with
        | none =>
          refine ⟨'\\' :: 'u' :: rest.take count, rest.drop count, [], ?_, ?_, .broken ?_⟩
          · simp
          · simp [hlength]
            omega
          · rw [List.take_append_drop, hescape, hlength]
        | some c =>
          have hshorter : (rest.drop count).length ≤ fuel := by
            rw [List.length_drop]
            omega
          obtain ⟨written, behind, marks, hrest, hscan, hmore⟩ := ih hshorter
          refine ⟨'\\' :: 'u' :: (rest.take count ++ written), behind, (c, true) :: marks, ?_, ?_,
            .escaped ?_ hmore⟩
          · simp [← hrest]
          · simp [hscan, hlength]
            omega
          · rw [← hrest, List.take_append_drop, hescape, hlength]
    · rename_i c rest hno
      split
      · rename_i hpart
        obtain ⟨written, behind, marks, rfl, hscan, hmore⟩ := ih (Nat.le_of_succ_le_succ h)
        refine ⟨c :: written, behind, (c, false) :: marks, rfl, ?_, .plain hpart hmore⟩
        simp [hscan, Nat.add_comm]
      · exact ⟨[], c :: rest, [], rfl, rfl, .nothing⟩

/-- Without a backslash no character is that of an escape. -/
lemma Decodes.plainMarks {behind written : List Char} {marks : List (Char × Bool)}
    (h : Decodes behind written marks) (hplain : '\\' ∉ written) :
    marks = written.map (·, false) := by
  induction h with
  | nothing => rfl
  | plain part more ih => simp [ih fun hmem => hplain (List.mem_cons_of_mem _ hmem)]
  | escaped | broken => exact absurd List.mem_cons_self hplain

/-- The characters that are written may all stand in a name. -/
lemma Decodes.parts {behind written : List Char} {marks : List (Char × Bool)}
    (h : Decodes behind written marks) : ∀ c ∈ marks, c.2 = false → isNamePart c.1 = true := by
  induction h with
  | nothing | broken => exact fun c hc => absurd hc List.not_mem_nil
  | plain part more ih => exact List.forall_mem_cons.mpr ⟨fun _ => part, ih⟩
  | escaped reads more ih => exact List.forall_mem_cons.mpr ⟨fun heq => Bool.noConfusion heq, ih⟩

/-- The first character stands for itself, or an escape stands for it. -/
lemma Decodes.front {behind written : List Char} {marks : List (Char × Bool)}
    (h : Decodes behind written marks) : ∀ c ∈ marks.head?, c.2 = false → written.head? = some c.1 := by
  cases h with
  | nothing | broken => exact fun c hc => nomatch hc
  | plain => exact fun c hc _ => by cases hc; rfl
  | escaped => exact fun c hc heq => by cases hc; cases heq

/-- An identifier stands in a text as it is written. -/
structure WrittenIdentifier (text : List Char) (t : Token) (name : String) (before written behind : List Char)
    (marks : List (Char × Bool)) : Prop where
  text : text = before ++ (written ++ behind)
  span : t.span = ⟨byteCount before, byteCount (before ++ written)⟩
  decodes : Decodes behind written marks
  name : name = String.ofList (marks.map Prod.fst)
  starts : ∃ c ∈ written.head?, isNameStart c = true ∨ c = '\\'

/-- The name of an identifier is well formed if and only if its escapes fit it. -/
lemma WrittenIdentifier.identifier_iff {text before written behind : List Char} {t : Token} {name : String}
    {marks : List (Char × Bool)} (h : WrittenIdentifier text t name before written behind marks) :
    IsIdentifier name ↔ FitsName marks := by
  have hparts := h.decodes.parts
  have hfront := h.decodes.front
  obtain ⟨c, hc, hstart⟩ := h.starts
  rw [h.name, IsIdentifier, String.toList_ofList]
  constructor
  · rintro ⟨d, rest, hname, hd, hrest⟩
    cases marks with
    | nil => cases hname
    | cons mark marks =>
      obtain ⟨rfl, rfl⟩ := List.cons.inj hname
      refine ⟨List.cons_ne_nil _ _, ?_, ?_⟩
      · rintro c' hc' -
        cases hc'
        exact hd
      · rintro c' hc' -
        rcases List.mem_cons.mp hc' with rfl | hc'
        · exact isNamePart_of_isNameStart hd
        · exact hrest _ (List.mem_map_of_mem hc')
  · rintro ⟨hne, hstarts, hescapes⟩
    obtain ⟨⟨d, escaped⟩, marks, rfl⟩ := List.exists_cons_of_ne_nil hne
    refine ⟨d, marks.map Prod.fst, rfl, ?_, ?_⟩
    · cases escaped with
      | true => exact hstarts _ rfl rfl
      | false =>
        have hd : written.head? = some d := hfront _ rfl rfl
        have hpart : isNamePart d = true := hparts _ List.mem_cons_self rfl
        cases hc.symm.trans hd
        rcases hstart with hstart | rfl
        · exact hstart
        · rw [isNamePart_backslash] at hpart
          cases hpart
    · intro e he
      obtain ⟨⟨e', escaped⟩, hmem, rfl⟩ := List.mem_map.mp he
      cases escaped with
      | true => exact hescapes _ (List.mem_cons_of_mem _ hmem) rfl
      | false => exact hparts _ (List.mem_cons_of_mem _ hmem) rfl

/-- A name that is written without escapes is well formed. -/
lemma WrittenIdentifier.identifier {text before written behind : List Char} {t : Token} {name : String}
    {marks : List (Char × Bool)} (h : WrittenIdentifier text t name before written behind marks)
    (hplain : '\\' ∉ written) : IsIdentifier name := by
  rw [h.identifier_iff, h.decodes.plainMarks hplain]
  obtain ⟨c, hc, -⟩ := h.starts
  refine ⟨?_, ?_, ?_⟩
  · intro hnil
    rw [List.map_eq_nil_iff.mp hnil] at hc
    cases hc
  · intro mark hmark hescaped
    rw [List.head?_map] at hmark
    obtain ⟨d, -, rfl⟩ := Option.map_eq_some_iff.mp hmark
    cases hescaped
  · intro mark hmark hescaped
    obtain ⟨d, -, rfl⟩ := List.mem_map.mp hmark
    cases hescaped

lemma lexeme_ident {regex : Bool} {chars : List Char} {name : String} {count : Nat}
    (h : lexeme regex chars = .ok (.ident name, count)) :
    nameAt chars = (name, count) ∧ ∃ c ∈ chars.head?, isNameStart c = true ∨ c = '\\' := by
  cases chars with
  | nil => cases h
  | cons c rest =>
    rw [lexeme] at h
    split at h
    · rename_i hstart
      cases h
      refine ⟨rfl, c, rfl, ?_⟩
      rw [Bool.or_eq_true, Bool.and_eq_true, beq_iff_eq] at hstart
      exact hstart.imp_right And.left
    · exfalso
      split at h
      · cases h
      · split at h
        · obtain ⟨number, -, h⟩ := bind_ok h
          cases h
        · split at h
          · split at h <;> cases h
          · split at h
            · split at h <;> cases h
            · split at h <;> cases h

/-- An identifier that is read at a cursor is written there. -/
lemma tokenAt_ident {regex : Bool} {cur after : Cursor} {t : Token} {name : String} {before : List Char}
    (h : tokenAt regex cur = .ok (t, after)) (hkind : t.kind = .ident name)
    (hoffset : cur.offset = byteCount before) :
    ∃ gap written behind marks,
      WrittenIdentifier (before ++ cur.rest) t name (before ++ gap) written behind marks := by
  unfold tokenAt at h
  obtain ⟨⟨gap, mid⟩, hgap, h⟩ := bind_ok h
  obtain ⟨skipped, hrest, hmid, -⟩ := gapAt_ok hgap
  have hpassed := passed_advance cur skipped.length
  rw [hrest, List.take_left, ← hmid] at hpassed
  dsimp only at h
  split at h
  · obtain ⟨⟨kind, end'⟩, hread, h⟩ := bind_ok h
    cases h
    obtain ⟨_, _, heq⟩ := map_ok hread
    cases heq
    cases hkind
  · obtain ⟨⟨kind, end'⟩, hread, h⟩ := bind_ok h
    cases h
    obtain ⟨count, hlexeme, rfl⟩ := lexemeAt_ok hread
    cases hkind
    obtain ⟨hname, hstarts⟩ := lexeme_ident hlexeme
    obtain ⟨written, behind, marks, hwritten, hscan, hdecodes⟩ := scanName_decodes (Nat.le_refl mid.rest.length)
    rw [nameAt, hscan] at hname
    obtain ⟨rfl, rfl⟩ := Prod.mk.inj hname
    have hadvance := passed_advance mid written.length
    rw [hwritten, List.take_left] at hadvance
    refine ⟨skipped, written, behind, marks, ⟨?_, ?_, hdecodes, rfl, ?_⟩⟩
    · rw [hrest, hwritten, List.append_assoc]
    · rw [hadvance.offset, hpassed.offset, hoffset]
      simp [Nat.add_assoc]
    · obtain ⟨hend, -⟩ | ⟨-, -, hpos⟩ := lexeme_cases hlexeme
      · cases hend
      · obtain ⟨c, more, rfl⟩ := List.exists_cons_of_length_pos hpos
        rw [hwritten] at hstarts
        exact hstarts

/-! ## Names in trees -/

section
variable {tokens : List Token} {after : Token} {trees part params : List Tree} {t : Tree} {bound : BoundName}
  {name : String}

/-- The name is that of the identifier that it stands at. -/
def Identified (tokens : List Token) (bound : BoundName) : Prop :=
  bound.token ∈ tokens ∧ bound.token.name? = some bound.name

/-- All names that are read are those of identifiers. -/
def ReadsIdentifiers (x : Except SyntaxError (List BoundName)) : Prop :=
  ∀ names, x = .ok names → ∀ bound ∈ names, bound.token.name? = some bound.name

lemma nameOfToken_name {t : Token} (h : nameOfToken t = .ok bound) : bound.token.name? = some bound.name := by
  unfold nameOfToken at h
  split at h
  · rename_i name hname
    cases h
    exact hname
  · cases h

lemma readsIdentifiers_error (e : SyntaxError) : ReadsIdentifiers (.error e) :=
  fun _ h => nomatch h

lemma readsIdentifiers_nil : ReadsIdentifiers (.ok []) := by
  intro names h
  cases h
  exact List.forall_mem_nil _

lemma ReadsIdentifiers.cons {more : Except SyntaxError (List BoundName)} (h : ReadsIdentifiers more) (t : Token) :
    ReadsIdentifiers (do let bound ← nameOfToken t; let names ← more; .ok (bound :: names)) := by
  intro names hread
  obtain ⟨bound, hbound, hread⟩ := bind_ok hread
  obtain ⟨others, hothers, hread⟩ := bind_ok hread
  cases hread
  exact List.forall_mem_cons.mpr ⟨nameOfToken_name hbound, h others hothers⟩

lemma ReadsIdentifiers.append {target more : Except SyntaxError (List BoundName)} (h : ReadsIdentifiers target)
    (h' : ReadsIdentifiers more) :
    ReadsIdentifiers (do let names ← target; let others ← more; .ok (names ++ others)) := by
  intro names hread
  obtain ⟨own, hown, hread⟩ := bind_ok hread
  obtain ⟨others, hothers, hread⟩ := bind_ok hread
  cases hread
  exact List.forall_mem_append.mpr ⟨h own hown, h' others hothers⟩

mutual

lemma namesInElements_identifiers (isObject : Bool) (after : Token) (state : ElementState) :
    ∀ trees, ReadsIdentifiers (namesInElements isObject after state trees)
  | [] => by
    cases state with
    | target =>
      rw [namesInElements]
      exact readsIdentifiers_error _
    | start | key | done =>
      rw [namesInElements]
      exact readsIdentifiers_nil
  | t :: rest => by
    have hrest := fun state => namesInElements_identifiers isObject after state rest
    have htarget := (namesOfTarget_identifiers t).append (hrest .done)
    cases state with
    | start =>
      simp only [namesInElements]
      split
      · exact hrest .start
      · split
        · exact (hrest .done).cons _
        · split
          · split
            · exact hrest .target
            · split
              · exact hrest .key
              · exact (hrest .done).cons _
          · exact htarget
    | key | done =>
      simp only [namesInElements]
      exact hrest _
    | target =>
      simp only [namesInElements]
      exact htarget

lemma namesOfTarget_identifiers : ∀ t : Tree, ReadsIdentifiers (namesOfTarget t)
  | leaf t => by
    rw [namesOfTarget]
    intro names h
    obtain ⟨bound, hbound, rfl⟩ := map_ok h
    exact List.forall_mem_singleton.mpr (nameOfToken_name hbound)
  | group opener inside closer => by
    rw [namesOfTarget]
    split
    · exact namesInElements_identifiers true closer .start inside
    · split
      · exact namesInElements_identifiers false closer .start inside
      · exact readsIdentifiers_error _

end

lemma namesAt_identified {t : Token} (h : t ∈ tokens) : ∀ bound ∈ namesAt t, Identified tokens bound := by
  intro bound hbound
  rw [namesAt, Option.mem_toList, Option.map_eq_some_iff] at hbound
  obtain ⟨name, hname, rfl⟩ := hbound
  exact ⟨h, hname⟩

lemma functionNames_identified (hafter : after ∈ tokens) (h : Among tokens trees) :
    ∀ bound ∈ functionNames after trees, Identified tokens bound :=
  namesAt_identified (((h.suffix (dropWord_suffix "async" trees)).tail.suffix (dropPunct_suffix "*" _)).ahead hafter)

lemma declaratorNames_identified (h : Among tokens trees) (fuel : Nat) :
    ∀ bound ∈ declaratorNames after fuel trees, Identified tokens bound := by
  induction fuel generalizing trees with
  | zero => exact List.forall_mem_nil _
  | succ fuel ih =>
    cases trees with
    | nil => exact List.forall_mem_nil _
    | cons t rest =>
      rw [declaratorNames]
      split
      · exact List.forall_mem_nil _
      · rename_i names hnames
        have hown : ∀ bound ∈ names, Identified tokens bound := fun bound hbound =>
          ⟨h.head (namesOfTarget_mem hnames bound hbound), namesOfTarget_identifiers t names hnames bound hbound⟩
        have hbehind := h.tail.suffix (pastValue_suffix after rest)
        dsimp only
        split
        · exact List.forall_mem_append.mpr ⟨hown, ih hbehind.tail⟩
        · exact hown

lemma bindingsOf_forall {P : BoundName → Prop} {kind : Declaration} {names : List BoundName}
    (h : ∀ bound ∈ names, P bound) : ∀ b ∈ bindingsOf kind names, P b.bound := by
  intro b hb
  obtain ⟨bound, hbound, rfl⟩ := List.mem_map.mp hb
  exact h bound hbound

lemma declarationBindings_identified (hafter : after ∈ tokens) (h : Among tokens trees) :
    ∀ b ∈ declarationBindings after trees, Identified tokens b.bound := by
  unfold declarationBindings
  split
  · exact bindingsOf_forall (functionNames_identified hafter h)
  · split
    · exact bindingsOf_forall (namesAt_identified (h.tail.ahead hafter))
    · split
      · exact bindingsOf_forall (declaratorNames_identified h.tail _)
      · split
        · exact bindingsOf_forall (declaratorNames_identified h.tail _)
        · exact List.forall_mem_nil _

lemma defaultBindings_identified (hafter : after ∈ tokens) (h : Among tokens trees) :
    ∀ b ∈ defaultBindings after trees, Identified tokens b.bound := by
  have hfunction := functionNames_identified hafter h
  unfold defaultBindings
  split
  · split
    · split
      · exact List.forall_mem_nil _
      · intro b hb
        obtain ⟨bound, hbound, rfl⟩ := List.mem_map.mp hb
        exact hfunction bound hbound
    · exact bindingsOf_forall hfunction
  · split
    · exact bindingsOf_forall (namesAt_identified (h.tail.ahead hafter))
    · exact List.forall_mem_nil _

/-- The name that an import binds is that of an identifier, or a text that is not renamed. -/
def Imported (tokens : List Token) (bound : BoundName) : Prop :=
  Identified tokens bound ∨ bound.token ∈ tokens ∧ bound.token.kind = .text bound.name

lemma labelsAt_imported {t : Token} (h : t ∈ tokens) : ∀ bound ∈ labelsAt t, Imported tokens bound := by
  intro bound hbound
  rw [labelsAt, Option.mem_toList, Option.map_eq_some_iff] at hbound
  obtain ⟨name, hname, rfl⟩ := hbound
  unfold Token.nameOrText? at hname
  split at hname
  · rename_i hkind
    cases hname
    exact .inl ⟨h, by simp [Token.name?, hkind]⟩
  · rename_i hkind
    cases hname
    exact .inr ⟨h, hkind⟩
  · cases hname

lemma importedNames_imported (hafter : after ∈ tokens) (h : Among tokens trees) :
    ∀ bound ∈ importedNames after trees, Imported tokens bound := by
  have hnamed : ∀ {t}, t ∈ tokens → ∀ bound ∈ namesAt t, Imported tokens bound :=
    fun ht bound hbound => .inl (namesAt_identified ht bound hbound)
  have hothers : ∀ {trees}, Among tokens trees → ∀ bound ∈ otherNames after trees, Imported tokens bound := by
    intro trees h
    cases trees with
    | nil => exact List.forall_mem_nil _
    | cons t more =>
      rw [otherNames]
      split
      · exact hnamed (h.tail.tail.ahead hafter)
      · split
        · rename_i inside closer hinside
          have hamong := (h.inside hinside).1
          intro bound hbound
          obtain ⟨element, helement, hbound⟩ := List.mem_flatMap.mp hbound
          obtain ⟨last, hlast, hbound⟩ := List.mem_flatMap.mp hbound
          have hmem := mem_of_splitAtCommas helement last (List.mem_of_getLast? (Option.mem_toList.mp hlast))
          exact labelsAt_imported (hamong.mem hmem).first bound hbound
        · exact List.forall_mem_nil _
  refine List.forall_mem_append.mpr ⟨?_, hothers (h.suffix (defaultName_suffix trees))⟩
  unfold defaultName
  split
  · split
    · exact hnamed h.first
    · exact List.forall_mem_nil _
  · exact List.forall_mem_nil _

/-- A statement introduces names of identifiers; only an import introduces texts, too. -/
lemma introduced_identified (hafter : after ∈ tokens) (h : Among tokens trees) :
    ∀ b ∈ introduced after trees, Identified tokens b.bound ∨
      startsWithWord trees "import" = true ∧ b.bound.token ∈ tokens ∧ b.bound.token.kind = .text b.bound.name := by
  unfold introduced
  split
  · exact List.forall_mem_nil _
  · split
    · rename_i himport
      have hnames : ∀ b ∈ bindingsOf .lexical (importedNames after trees.tail), Imported tokens b.bound :=
        bindingsOf_forall (importedNames_imported hafter h.tail)
      exact fun b hb => (hnames b hb).imp_right fun htext => ⟨himport, htext⟩
    · split
      · split
        · exact fun b hb => .inl (defaultBindings_identified hafter h.tail.tail b hb)
        · exact fun b hb => .inl (declarationBindings_identified hafter h.tail b hb)
      · exact fun b hb => .inl (declarationBindings_identified hafter h b hb)

/-! ## Functions and their parameters -/

/-- The name is that of an identifier among the tokens. -/
def NamedIn (tokens : List Token) (name : String) : Prop :=
  ∃ t ∈ tokens, t.kind = .ident name

lemma namedIn_of_name {t : Token} (ht : t ∈ tokens) (h : t.name? = some name) : NamedIn tokens name := by
  refine ⟨t, ht, ?_⟩
  unfold Token.name? at h
  split at h
  · cases h
    assumption
  · cases h

lemma namedIn_of_tree (h : Among tokens [t]) (hname : t.name? = some name) : NamedIn tokens name := by
  cases t with
  | group => cases hname
  | leaf token => exact namedIn_of_name h.first hname

lemma functionTail_among {body : List Tree × Token} {rest : List Tree} (h : Among tokens trees)
    (htail : functionTail after trees = .ok (params, body, rest)) : Among tokens params := by
  unfold functionTail at htail
  split at htail
  · cases htail
  · split at htail
    · cases htail
    · rename_i inside closer hinside
      split at htail
      · cases htail
      · split at htail
        · cases htail
        · cases htail
          exact (h.inside hinside).1

lemma functionValue_among {width : Nat} {content : Option (List Tree × Token)} (h : Among tokens trees)
    (hvalue : functionValue trees width = some (params, content)) : Among tokens params := by
  unfold functionValue at hvalue
  dsimp only at hvalue
  generalize (if (startsWithWord trees "async" && 1 < width) = true then 1 else 0) = skipped at hvalue
  have hleft := h.suffix (List.drop_suffix skipped trees)
  generalize trees.drop skipped = left at hvalue hleft
  split at hvalue
  · have hstar := hleft.tail.suffix (dropPunct_suffix "*" left.tail)
    have hbehind : Among tokens (if startsWithName (dropPunct "*" left.tail) then (dropPunct "*" left.tail).tail
        else dropPunct "*" left.tail) := by
      split
      · exact hstar.tail
      · exact hstar
    split at hvalue
    · rename_i t b rest heq
      rw [heq] at hbehind
      split at hvalue
      · rename_i hinside hblock
        cases hvalue
        exact (hbehind.inside hinside).1
      · cases hvalue
    · cases hvalue
  · split at hvalue
    · rename_i t arrow rest
      split at hvalue
      · cases hvalue
      · rename_i found hparams
        split at hvalue
        · cases hvalue
          split at hparams
          · rename_i hinside
            cases hparams
            exact (hleft.inside hinside).1
          · split at hparams
            · cases hparams
              exact hleft.mem List.mem_cons_self
            · cases hparams
        · cases hvalue
    · cases hvalue

/-- The targets and the values of declarators consist of their trees. -/
lemma declaratorValues_among (h : Among tokens trees) (fuel : Nat) :
    ∀ binding ∈ declaratorValues after fuel trees, Among tokens [binding.1] ∧ Among tokens binding.2 := by
  induction fuel generalizing trees with
  | zero => exact List.forall_mem_nil _
  | succ fuel ih =>
    cases trees with
    | nil => exact List.forall_mem_nil _
    | cons t rest =>
      have hown : ∀ binding ∈ (if startsWithPunct rest "=" then [(t, rest.tail)] else []),
          Among tokens [binding.1] ∧ Among tokens binding.2 := by
        split
        · exact List.forall_mem_singleton.mpr ⟨h.mem List.mem_cons_self, h.tail.tail⟩
        · exact List.forall_mem_nil _
      have hbehind := h.tail.suffix (pastValue_suffix after rest)
      rw [declaratorValues]
      split
      · exact List.forall_mem_append.mpr ⟨hown, ih hbehind.tail⟩
      · exact hown

lemma functionPart_suffix (after : Token) (trees : List Tree) : functionPart after trees <:+ trees := by
  have htail := List.tail_suffix trees
  unfold functionPart
  repeat' split
  · exact (List.tail_suffix _).trans htail
  · exact List.nil_suffix
  · exact htail
  · exact List.nil_suffix
  · exact List.suffix_rfl
  · exact List.nil_suffix

lemma variablePart_suffix (trees : List Tree) : variablePart trees <:+ trees := by
  unfold variablePart
  repeat' split
  · exact List.tail_suffix trees
  · exact List.nil_suffix
  · exact List.suffix_rfl
  · exact List.nil_suffix

/-- A function has the name of an identifier, and its parameters consist of trees of its statement. -/
lemma functionsOf_among (hafter : after ∈ tokens) (h : Among tokens trees) :
    ∀ g ∈ functionsOf after trees, NamedIn tokens g.name ∧ Among tokens g.params := by
  refine List.forall_mem_append.mpr ⟨?_, ?_⟩
  · have hpart := h.suffix (functionPart_suffix after trees)
    have hnamed := (hpart.suffix (dropWord_suffix "async" _)).tail.suffix (dropPunct_suffix "*" _)
    unfold declaredFunction
    dsimp only
    split
    · rename_i bound params body rest hbound htail
      have hname := namesAt_identified (hnamed.ahead hafter) bound
        (by rw [namesAt_of_ok hbound]; exact List.mem_singleton.mpr rfl)
      exact List.forall_mem_singleton.mpr
        ⟨namedIn_of_name hname.1 hname.2, functionTail_among hnamed.tail htail⟩
    · exact List.forall_mem_nil _
  · intro g hg
    obtain ⟨binding, hbinding, hvalue⟩ := List.mem_filterMap.mp hg
    obtain ⟨htarget, hvalues⟩ :=
      declaratorValues_among (h.suffix (variablePart_suffix trees)).tail _ binding hbinding
    obtain ⟨name, hname, hvalue⟩ := Option.bind_eq_some_iff.mp hvalue
    obtain ⟨⟨params, content⟩, hparts, hvalue⟩ := Option.bind_eq_some_iff.mp hvalue
    cases hvalue
    exact ⟨namedIn_of_tree htarget hname, functionValue_among hvalues hparts⟩

/-- The name that a parameter is declared with is that of an identifier. -/
lemma paramName_named (h : Among tokens trees) (hname : paramName trees = some name) : NamedIn tokens name := by
  unfold paramName at hname
  split at hname
  · exact namedIn_of_tree h hname
  · split at hname
    · exact namedIn_of_tree h.tail hname
    · cases hname
  · cases hname

lemma positionalOf_named {position : Nat} {default : Option (List Tree)} (h : Among tokens trees) :
    (∃ n : Nat, (positionalOf position trees default).name = "arg" ++ toString (n + 1)) ∨
      NamedIn tokens (positionalOf position trees default).name := by
  unfold positionalOf
  cases hname : paramName trees with
  | none => exact .inl ⟨position, rfl⟩
  | some name => exact .inr (paramName_named h hname)

lemma paramOf_named {position : Nat} {isLast : Bool} {arg : ArgSpec} (h : Among tokens part)
    (harg : paramOf position isLast part = .positional arg) :
    (∃ n : Nat, arg.name = "arg" ++ toString (n + 1)) ∨ NamedIn tokens arg.name := by
  unfold paramOf at harg
  split at harg
  · cases harg
    exact positionalOf_named h
  · rename_i target default hcut
    obtain ⟨equals, rfl, -⟩ := cutAt_some hcut
    split at harg
    · cases harg
    · cases harg
      exact positionalOf_named fun t ht => h (by rw [tokensOfAll_append]; exact List.mem_append_left _ ht)

/-- An argument has the name of its position, or that of an identifier. -/
lemma paramsOf_named {arg : ArgSpec} (h : Among tokens params) (harg : Param.positional arg ∈ paramsOf params) :
    (∃ n : Nat, arg.name = "arg" ++ toString (n + 1)) ∨ NamedIn tokens arg.name := by
  have hparts : ∀ part ∈ (splitAtCommas params).filter fun part => !part.isEmpty, Among tokens part :=
    fun part hpart => h.parts (mem_of_splitAtCommas (List.mem_filter.mp hpart).1)
  rw [paramsOf] at harg
  generalize (splitAtCommas params).filter (fun part => !part.isEmpty) = parts at harg hparts
  generalize 0 = position at harg
  induction parts generalizing position with
  | nil => cases harg
  | cons part parts ih =>
    obtain ⟨hpart, hparts⟩ := List.forall_mem_cons.mp hparts
    rcases List.mem_cons.mp harg with harg | harg
    · exact paramOf_named hpart harg.symm
    · exact ih hparts _ harg

end

/-! ## Names of a file -/

/-- A name that is taken from a file: that of a declaration or of an import, that of a function, or that of a
positional parameter. -/
inductive TakenName (f : File) : String → Prop
  | declared {kind : Declaration} {name : String} (mem : name ∈ namesDeclared f.outline kind) : TakenName f name
  | function {g : LocalFunction} (mem : g ∈ f.outline.functions) : TakenName f g.name
  | argument {g : LocalFunction} {arg : ArgSpec} (mem : g ∈ f.outline.functions)
      (declares : Param.positional arg ∈ paramsOf g.params) : TakenName f arg.name

lemma isNamePart_of_isDigit {c : Char} (h : c.isDigit = true) : isNamePart c = true := by
  have hdigits : ∀ n < 128, (Char.ofNat n).isDigit = true → isNamePart (Char.ofNat n) = true := by decide
  have hsmall : c.toNat < 128 := by
    simp only [Char.isDigit, Bool.and_eq_true, decide_eq_true_eq, UInt32.le_iff_toNat_le] at h
    have hle : c.val.toNat ≤ 57 := h.2
    exact Nat.lt_of_le_of_lt hle (by decide)
  have hchar := hdigits c.toNat hsmall
  rw [Char.ofNat_toNat] at hchar
  exact hchar h

/-- The name of a position is well formed. -/
lemma isIdentifier_position (n : Nat) : IsIdentifier ("arg" ++ toString n) := by
  refine ⟨'a', 'r' :: 'g' :: Nat.toDigits 10 n, ?_, by decide, ?_⟩
  · rw [String.toList_append, Nat.toString_eq_ofList_toDigits, String.toList_ofList, String.toList_ofList]
    rfl
  · intro d hd
    rcases List.mem_cons.mp hd with rfl | hd
    · decide
    · rcases List.mem_cons.mp hd with rfl | hd
      · decide
      · exact isNamePart_of_isDigit (Nat.isDigit_of_mem_toDigits (by decide) (by decide) hd)

/-- An identifier of a file is written in its text. -/
lemma tokenize_ident {text : String} {tokens : List Token} (htokens : tokenize text = .ok tokens) {t : Token}
    {name : String} (ht : t ∈ tokens) (hkind : t.kind = .ident name) :
    ∃ before written behind marks, WrittenIdentifier text.toList t name before written behind marks := by
  obtain ⟨earlier, later, rfl⟩ := List.append_of_mem ht
  obtain ⟨regex, cur, after, passed, htoken, hpassed, -⟩ := tokenize_at htokens
  obtain ⟨mark, line, -, hfirst⟩ := firstCursor_preamble text.toList
  have hfront := hfirst.trans hpassed
  have hoffset : cur.offset = byteCount (mark ++ line ++ passed) := hfront.offset.trans (Nat.zero_add _)
  have htext : text.toList = mark ++ line ++ passed ++ cur.rest := hfront.rest
  obtain ⟨gap, written, behind, marks, hwritten⟩ := tokenAt_ident htoken hkind hoffset
  rw [← htext] at hwritten
  exact ⟨_, written, behind, marks, hwritten⟩

/-- Every binding that is met is one that a statement introduces. -/
lemma ReadTo.introduces {nested : Nested} {tokens : List Token} {met : List NewName} {o : Outline}
    {left : List Tree} (hnested : nest tokens = .ok nested) (hending : nested.ending.kind = .endOfFile)
    (h : ReadTo nested met o left) :
    ∀ b ∈ met, ∃ trees, trees <:+ nested.trees ∧ b ∈ introduced nested.ending trees := by
  induction h with
  | start => exact List.forall_mem_nil _
  | next before read ih =>
    exact List.forall_mem_append.mpr
      ⟨ih, fun b hb => ⟨_, (before.hasNames hnested hending).2, hb⟩⟩

/-- Every name that is taken from an accepted file is the well-formed one of a position, or a text that an import
does not rename, or that of an identifier. The last one is well formed if and only if the characters that its
escapes stand for fit it, and always if it is written without escapes. -/
theorem taken_name_identifier_iff {text : String} {f : File} (h : File.ofText text = .ok f) :
    ∃ tokens nested, tokenize text = .ok tokens ∧ nest tokens = .ok nested ∧ ∀ name, TakenName f name →
      (∃ n : Nat, name = "arg" ++ toString (n + 1) ∧ IsIdentifier name) ∨
      (∃ trees b, trees <:+ nested.trees ∧ startsWithWord trees "import" = true ∧
        b ∈ introduced nested.ending trees ∧ b.bound.name = name ∧ b.bound.token.kind = .text name) ∨
      ∃ t ∈ tokens, t.kind = .ident name ∧ ∃ before written behind marks,
        WrittenIdentifier text.toList t name before written behind marks ∧ (IsIdentifier name ↔ FitsName marks) ∧
        ('\\' ∉ written → IsIdentifier name) := by
  obtain ⟨tokens, htokens, h⟩ := bind_ok h
  obtain ⟨nested, hnested, h⟩ := bind_ok h
  obtain ⟨o, houtline, h⟩ := bind_ok h
  cases h
  obtain ⟨hall, hending⟩ := nest_tokens (tokenize_tiles htokens) hnested
  obtain ⟨stmts, htrees, hsequence⟩ := outlineOf_sequence hending (nest_openedByMarks hnested) houtline
  obtain ⟨met, hread⟩ := hsequence.readTo (htrees ▸ ReadTo.start)
  have hafter : nested.ending ∈ tokens := by
    rw [hall]
    exact List.mem_append_right _ (List.mem_singleton.mpr rfl)
  have hamong : Among tokens nested.trees := by
    rw [Among, hall]
    exact List.subset_append_left _ _
  refine ⟨tokens, nested, htokens, hnested, fun name hname => ?_⟩
  have hwritten : NamedIn tokens name → ∃ t ∈ tokens, t.kind = .ident name ∧ ∃ before written behind marks,
      WrittenIdentifier text.toList t name before written behind marks ∧ (IsIdentifier name ↔ FitsName marks) ∧
        ('\\' ∉ written → IsIdentifier name) := by
    rintro ⟨t, ht, hkind⟩
    obtain ⟨before, written, behind, marks, hwritten⟩ := tokenize_ident htokens ht hkind
    exact ⟨t, ht, hkind, before, written, behind, marks, hwritten, hwritten.identifier_iff, hwritten.identifier⟩
  have hfunctions : ∀ g ∈ o.functions, NamedIn tokens g.name ∧ Among tokens g.params := by
    intro g hg
    rw [sequence_functions hsequence, show Outline.empty.functions = [] from rfl, List.nil_append] at hg
    obtain ⟨more, hmore, hadded⟩ := List.mem_flatMap.mp hg
    obtain ⟨front, hstmts⟩ := (List.mem_tails _ _).mp hmore
    refine functionsOf_among hafter (hamong.suffix ?_) g hadded
    rw [htrees, ← hstmts, List.flatten_append]
    exact List.suffix_append _ _
  cases hname with
  | declared mem =>
    obtain ⟨b, hb, -, -, rfl⟩ := ((hread.hasNames hnested hending).1.declared _ _).mp mem
    obtain ⟨trees, hsuffix, hb⟩ := hread.introduces hnested hending b hb
    obtain ⟨hmem, hident⟩ | ⟨himport, -, hkind⟩ := introduced_identified hafter (hamong.suffix hsuffix) b hb
    · exact .inr (.inr (hwritten (namedIn_of_name hmem hident)))
    · exact .inr (.inl ⟨trees, b, hsuffix, himport, hb, rfl, hkind⟩)
  | function mem => exact .inr (.inr (hwritten (hfunctions _ mem).1))
  | argument mem declares =>
    obtain ⟨n, hposition⟩ | hnamed := paramsOf_named (hfunctions _ mem).2 declares
    · exact .inl ⟨n, hposition, hposition ▸ isIdentifier_position (n + 1)⟩
    · exact .inr (.inr (hwritten hnamed))

/-- A function whose name and parameter have a letter each in an escape. -/
def escapedLetters : String :=
  "export function ma\\u0069n(cle\\u\x7b61\x7dn) \x7b\x7d\n"

/-- The escapes stand for letters, so both names are well formed. -/
theorem taken_name_identifier_iff_escapedLetters :
    ∃ f, File.ofText escapedLetters = .ok f ∧ ∀ name ∈ ["main", "clean"], TakenName f name ∧
      ∃ t before written behind marks,
        WrittenIdentifier escapedLetters.toList t name before written behind marks ∧ FitsName marks := by
  have hread : (File.ofText escapedLetters).toOption.map (fun f =>
      f.outline.functions.map fun g => (g.name, paramsOf g.params)) =
        some [("main", [.positional ⟨"clean", none⟩])] := by
    decide +kernel
  obtain ⟨f, hf, hfunctions⟩ := Option.map_eq_some_iff.mp hread
  obtain ⟨g, hg, hcontent⟩ := List.map_eq_singleton_iff.mp hfunctions
  obtain ⟨hname, hparams⟩ := Prod.mk.inj hcontent
  have hmem : g ∈ f.outline.functions := hg ▸ List.mem_singleton.mpr rfl
  have htaken : ∀ name ∈ ["main", "clean"], TakenName f name := by
    have harg : TakenName f (⟨"clean", none⟩ : ArgSpec).name :=
      .argument hmem (hparams ▸ List.mem_singleton.mpr rfl)
    simpa using ⟨hname ▸ TakenName.function hmem, harg⟩
  have hnested : ((tokenize escapedLetters >>= nest).toOption.map fun nested =>
      nested.trees.any (·.isWord "import")) = some false := by
    decide +kernel
  have hnames : ∀ name ∈ ["main", "clean"], IsIdentifier name ∧ name.toList.head? ≠ some 'a' := by
    decide
  obtain ⟨tokens, nested, htokens, hnest, hnamed⟩ := taken_name_identifier_iff (ok_of_toOption hf)
  refine ⟨f, ok_of_toOption hf, fun name hin => ⟨htaken name hin, ?_⟩⟩
  obtain ⟨hident, hfirst⟩ := hnames name hin
  obtain ⟨n, rfl, -⟩ | ⟨trees, b, hsuffix, himport, -⟩ | ⟨t, -, -, before, written, behind, marks, hwritten, hiff, -⟩ :=
    hnamed name (htaken name hin)
  · exact absurd (by simp) hfirst
  · rw [htokens, ok_bind, hnest] at hnested
    obtain ⟨word, rest, rfl, hword⟩ := startsWithWord_iff.mp himport
    have hall := List.any_eq_false.mp (Option.some.inj hnested) word (hsuffix.mem List.mem_cons_self)
    exact absurd hword hall
  · exact ⟨t, before, written, behind, marks, hwritten, hiff.mp hident⟩

/-- A parameter whose name starts with a digit in an escape. -/
def escapedDigit : String :=
  "export function main(\\u0031a) \x7b\x7d\n"

/-- An import that is not renamed, of a name with a blank. -/
def importedText : String :=
  "import \x7b 'a b' \x7d from 'x'\n"

/-- Both files are accepted, and names are taken from them that are not well formed. -/
theorem digit_starts_name :
    (∃ f, File.ofText escapedDigit = .ok f ∧ TakenName f "1a" ∧ ¬ IsIdentifier "1a") ∧
      ∃ f, File.ofText importedText = .ok f ∧ TakenName f "a b" ∧ ¬ IsIdentifier "a b" := by
  have hparams : (File.ofText escapedDigit).toOption.map (fun f =>
      f.outline.functions.map fun g => paramsOf g.params) = some [[.positional ⟨"1a", none⟩]] := by
    decide +kernel
  have himport : (File.ofText importedText).toOption.map (fun f => f.outline.lexicalNames) = some ["a b"] := by
    decide +kernel
  obtain ⟨f, hf, hfunctions⟩ := Option.map_eq_some_iff.mp hparams
  obtain ⟨g, hg, harg⟩ := List.map_eq_singleton_iff.mp hfunctions
  obtain ⟨f', hf', hdeclared⟩ := Option.map_eq_some_iff.mp himport
  refine ⟨⟨f, ok_of_toOption hf, ?_, by decide⟩, f', ok_of_toOption hf', ?_, by decide⟩
  · have hmem : g ∈ f.outline.functions := hg ▸ List.mem_singleton.mpr rfl
    have hdeclares : Param.positional ⟨"1a", none⟩ ∈ paramsOf g.params := harg ▸ List.mem_singleton.mpr rfl
    exact .argument hmem hdeclares
  · have hmem : "a b" ∈ namesDeclared f'.outline .lexical := by
      rw [namesDeclared, hdeclared]
      exact List.mem_singleton.mpr rfl
    exact .declared hmem

end TaskRunner.Proofs
