import TaskRunner.Proofs.ExportEnds
import TaskRunner.Proofs.RepeatedTokens

/-!
# Trees without the names of properties

Two files are compared by what is left of their trees when the places of tokens and the names of properties
are hidden. A property is an identifier directly behind a point. What stands behind a hidden tree, and which
group it is, can still be seen.
-/

namespace TaskRunner.Proofs
open Source Tree

/-! ## Hidden tokens -/

/-- What a token is under another name, if it is an identifier and a name is given. -/
def renamed (name : Option String) : Kind → Kind
  | .ident own => .ident (name.getD own)
  | kind => kind

@[simp] lemma renamed_none (kind : Kind) : renamed none kind = kind := by
  cases kind <;> rfl

@[simp] lemma renamed_renamed (name own : String) (kind : Kind) :
    renamed (some name) (renamed (some own) kind) = renamed (some name) kind := by
  cases kind <;> rfl

/-- The name that stands for a property, if a point stands in front. -/
def nameBehind : Bool → String → Option String
  | true, name => some name
  | false, _ => none

@[simp] lemma nameBehind_false (name : String) : nameBehind false name = none := rfl

@[simp] lemma nameBehind_true (name : String) : nameBehind true name = some name := rfl

/-- A token without its place, under the given name. -/
def hideToken (keep : Bool) (name : Option String) (t : Token) : Token :=
  { placeless keep t with kind := renamed name t.kind }

@[simp] lemma hideToken_none (keep : Bool) (t : Token) : hideToken keep none t = placeless keep t := by
  simp [hideToken, placeless]

variable {keep : Bool} {name : Option String} {t : Token}

@[simp] lemma hideToken_newlineBefore : (hideToken keep name t).newlineBefore = t.newlineBefore := rfl

@[simp] lemma hideToken_isPunct (mark : String) :
    (hideToken keep name t).isPunct mark = t.isPunct mark := by
  unfold Token.isPunct hideToken renamed
  split <;> simp_all

@[simp] lemma placeless_kind_eq : (placeless keep t).kind = t.kind := rfl

@[simp] lemma placeless_newlineBefore : (placeless keep t).newlineBefore = t.newlineBefore := rfl

@[simp] lemma placeless_isPunct (mark : String) : (placeless keep t).isPunct mark = t.isPunct mark := by
  rw [Token.isPunct, placeless_kind_eq, ← Token.isPunct]

@[simp] lemma placeless_isWord (word : String) : (placeless keep t).isWord word = t.isWord word := by
  rw [Token.isWord, placeless_kind_eq, ← Token.isWord]

@[simp] lemma placeless_name? : (placeless keep t).name? = t.name? := by
  simp only [Token.name?, placeless_kind_eq]

@[simp] lemma placeless_nameOrText? : (placeless keep t).nameOrText? = t.nameOrText? := by
  simp only [Token.nameOrText?, placeless_kind_eq]

@[simp] lemma placeless_text? : (placeless keep t).text? = t.text? := by
  simp only [Token.text?, placeless_kind_eq]

/-! ## Hidden trees -/

/-- The tree is a point. -/
def isPoint (t : Tree) : Bool :=
  t.isPunct "." || t.isPunct "?."

mutual

/-- A tree without places; a single token is put under the given name. -/
def hideTree (keep : Bool) (name : Option String) : Tree → Tree
  | leaf t => leaf (hideToken keep name t)
  | group opener inside closer =>
    group (placeless keep opener) (hideTrees keep false inside) (placeless keep closer)

/-- Trees without places and without the names of properties. The Boolean tells whether a point stands in
front. -/
def hideTrees (keep : Bool) : Bool → List Tree → List Tree
  | _, [] => []
  | behindPoint, t :: rest =>
    hideTree keep (nameBehind behindPoint "") t :: hideTrees keep (isPoint t) rest

end

/-- What stands inside a group, hidden. -/
def hideInside (keep : Bool) (found : List Tree × Token) : List Tree × Token :=
  (hideTrees keep false found.1, placeless keep found.2)

/-- Trees without places, in which other names stand for those of properties. -/
def hideLevel (keep : Bool) (standIn : Tree → List Tree → String) : Bool → List Tree → List Tree
  | _, [] => []
  | behindPoint, t :: rest =>
    hideTree keep (nameBehind behindPoint (standIn t rest)) t ::
      hideLevel keep standIn (isPoint t) rest

@[simp] lemma hideTree_leaf : hideTree keep name (leaf t) = leaf (hideToken keep name t) := by
  rw [hideTree]

@[simp] lemma hideTree_group (opener closer : Token) (inside : List Tree) :
    hideTree keep name (group opener inside closer) =
      group (placeless keep opener) (hideTrees keep false inside) (placeless keep closer) := by
  rw [hideTree]

/-- Inside groups an empty name stands for every property. -/
lemma hideTrees_eq (behindPoint : Bool) (trees : List Tree) :
    hideTrees keep behindPoint trees = hideLevel keep (fun _ _ => "") behindPoint trees := by
  induction trees generalizing behindPoint with
  | nil => rw [hideTrees, hideLevel]
  | cons t rest ih => rw [hideTrees, hideLevel, ih]

section
variable {t : Tree} {trees : List Tree} {standIn : Tree → List Tree → String} {behindPoint : Bool}

@[simp] lemma hideLevel_nil : hideLevel keep standIn behindPoint [] = [] := by
  rw [hideLevel]

@[simp] lemma hideLevel_cons :
    hideLevel keep standIn behindPoint (t :: trees) =
      hideTree keep (nameBehind behindPoint (standIn t trees)) t ::
        hideLevel keep standIn (isPoint t) trees := by
  rw [hideLevel]

/-! ## What can still be seen -/

@[simp] lemma hideTree_isPunct (mark : String) : (hideTree keep name t).isPunct mark = t.isPunct mark := by
  cases t <;> simp [Tree.isPunct]

@[simp] lemma hideTree_isGroup (opener : String) :
    (hideTree keep name t).isGroup opener = t.isGroup opener := by
  cases t <;> simp [Tree.isGroup]

@[simp] lemma hideTree_inside? (opener : String) :
    (hideTree keep name t).inside? opener = (t.inside? opener).map (hideInside keep) := by
  cases t with
  | leaf token => simp [Tree.inside?]
  | group o inside closer =>
    cases ho : o.isPunct opener <;> simp [Tree.inside?, ho, hideInside]

@[simp] lemma hideTree_isPoint : isPoint (hideTree keep name t) = isPoint t := by
  simp [isPoint]

@[simp] lemma hideTree_newline :
    (hideTree keep name t).first.newlineBefore = t.first.newlineBefore := by
  cases t <;> simp [Tree.first]

@[simp] lemma hideTree_isWord (word : String) : (hideTree keep none t).isWord word = t.isWord word := by
  cases t <;> simp [Tree.isWord]

@[simp] lemma hideTree_name? : (hideTree keep none t).name? = t.name? := by
  cases t <;> simp [Tree.name?]

@[simp] lemma hideTree_first : (hideTree keep none t).first = placeless keep t.first := by
  cases t <;> simp [Tree.first]

@[simp] lemma hideTree_last : (hideTree keep none t).last = placeless keep t.last := by
  cases t <;> simp [Tree.last]

@[simp] lemma hideLevel_length : (hideLevel keep standIn behindPoint trees).length = trees.length := by
  induction trees generalizing behindPoint with
  | nil => simp
  | cons t rest ih => simp [ih]

@[simp] lemma hideLevel_isEmpty : (hideLevel keep standIn behindPoint trees).isEmpty = trees.isEmpty := by
  cases trees <;> simp

@[simp] lemma startsWithPunct_hideLevel (mark : String) :
    startsWithPunct (hideLevel keep standIn behindPoint trees) mark = startsWithPunct trees mark := by
  cases trees <;> simp [startsWithPunct]

@[simp] lemma startsWithGroup_hideLevel (opener : String) :
    startsWithGroup (hideLevel keep standIn behindPoint trees) opener = startsWithGroup trees opener := by
  cases trees <;> simp [startsWithGroup]

@[simp] lemma startsWithWord_hideLevel (word : String) :
    startsWithWord (hideLevel keep standIn false trees) word = startsWithWord trees word := by
  cases trees <;> simp [startsWithWord]

@[simp] lemma startsWithName_hideLevel :
    startsWithName (hideLevel keep standIn false trees) = startsWithName trees := by
  cases trees <;> simp [startsWithName]

@[simp] lemma ahead_hideLevel (after : Token) :
    ahead (placeless keep after) (hideLevel keep standIn false trees) =
      placeless keep (ahead after trees) := by
  cases trees <;> simp [ahead]

/-- No point comes next. -/
def NoPoint (trees : List Tree) : Prop :=
  ∀ t ∈ trees.head?, isPoint t = false

lemma hideLevel_tail (h : NoPoint trees) :
    (hideLevel keep standIn behindPoint trees).tail = hideLevel keep standIn false trees.tail := by
  cases trees with
  | nil => simp
  | cons t rest => simp [h t rfl]

lemma noPoint_name {token : Token} (h : token.nameOrText?.isSome = true) : isPoint (leaf token) = false := by
  unfold Token.nameOrText? at h
  unfold isPoint Tree.isPunct Token.isPunct
  split at h <;> simp_all

lemma noPoint_ahead {after : Token} (h : (ahead after trees).nameOrText?.isSome = true) :
    NoPoint trees := by
  intro t ht
  cases trees with
  | nil => cases ht
  | cons u rest =>
    obtain rfl := Option.mem_some.mp ht
    cases u with
    | leaf token => exact noPoint_name h
    | group opener inside closer => rfl

lemma nameOrText?_name {token : Token} (h : token.name?.isSome = true) :
    token.nameOrText?.isSome = true := by
  unfold Token.name? at h
  unfold Token.nameOrText?
  split at h <;> simp_all

lemma nameOrText?_text {token : Token} (h : token.text?.isSome = true) :
    token.nameOrText?.isSome = true := by
  unfold Token.text? at h
  unfold Token.nameOrText?
  split at h <;> simp_all

lemma noPoint_word {word : String} (h : startsWithWord trees word = true) : NoPoint trees := by
  obtain ⟨t, rest, rfl, hword⟩ := startsWithWord_iff.mp h
  rintro u ⟨⟩
  simp [isPoint, isPunct_of_isWord hword]

lemma isPoint_other {mark : String} (h : t.isPunct mark = true) (hmark : mark ≠ "." ∧ mark ≠ "?.") :
    isPoint t = false := by
  obtain ⟨token, rfl, hkind⟩ := leaf_of_isPunct h
  simp [isPoint, Tree.isPunct, Token.isPunct, hkind, hmark]

lemma noPoint_punct {mark : String} (h : startsWithPunct trees mark = true)
    (hmark : mark ≠ "." ∧ mark ≠ "?.") : NoPoint trees := by
  obtain ⟨t, rest, rfl, hpunct⟩ := startsWithPunct_iff.mp h
  rintro u ⟨⟩
  exact isPoint_other hpunct hmark

lemma isPoint_of_inside? {opener : String} {found : List Tree × Token} (h : t.inside? opener = some found) :
    isPoint t = false := by
  cases t with
  | leaf token => cases h
  | group o inside closer => rfl

end

/-! ## Nesting hidden tokens -/

/-- Tokens without places and without the names of properties. -/
def hideTokens (keep : Bool) : Bool → List Token → List Token
  | _, [] => []
  | behindPoint, t :: rest =>
    hideToken keep (nameBehind behindPoint "") t :: hideTokens keep (isPoint (leaf t)) rest

/-- A file's trees, hidden. -/
def hideNested (keep : Bool) (nested : Nested) : Nested :=
  ⟨hideTrees keep false nested.trees, placeless keep nested.ending⟩

/-- The trees of a level that is still open, hidden; the last one comes first. -/
def hideOpen (keep : Bool) (level : List Tree) : List Tree :=
  (hideTrees keep false level.reverse).reverse

/-- A point is the last tree of an open level. -/
def endsInPoint (level : List Tree) : Bool :=
  level.head?.any isPoint

lemma hideTrees_append (behindPoint : Bool) (trees : List Tree) (t : Tree) :
    hideTrees keep behindPoint (trees ++ [t]) =
      hideTrees keep behindPoint trees ++
        [hideTree keep (nameBehind ((trees.getLast?.map isPoint).getD behindPoint) "") t] := by
  induction trees generalizing behindPoint with
  | nil => simp [hideTrees]
  | cons u rest ih =>
    have hlast : ((u :: rest).getLast?.map isPoint).getD behindPoint =
        (rest.getLast?.map isPoint).getD (isPoint u) := by
      cases rest with
      | nil => rfl
      | cons v rest =>
        rw [List.getLast?_cons_cons, List.getLast?_cons]
        rfl
    rw [List.cons_append, hideTrees, hideTrees, ih, hlast]
    rfl

lemma hideOpen_cons (t : Tree) (level : List Tree) :
    hideOpen keep (t :: level) =
      hideTree keep (nameBehind (endsInPoint level) "") t :: hideOpen keep level := by
  have hlast : (level.reverse.getLast?.map isPoint).getD false = endsInPoint level := by
    rw [List.getLast?_reverse]
    cases level <;> rfl
  rw [hideOpen, List.reverse_cons, hideTrees_append, hlast, List.reverse_append]
  rfl

lemma toOption_unexpected {α : Type} (t : Token) :
    (Except.error (unexpected t) : Except SyntaxError α).toOption = none := rfl

lemma hideOpen_reverse (level : List Tree) : (hideOpen keep level).reverse = hideTrees keep false level.reverse := by
  rw [hideOpen, List.reverse_reverse]

/-- Brackets that are open, with the trees before them, hidden. -/
def hideOuter (keep : Bool) (outer : List (Token × List Tree)) : List (Token × List Tree) :=
  outer.map fun g => (placeless keep g.1, hideOpen keep g.2)

section
variable {outer : List (Token × List Tree)} {level : List Tree} {rest : List Token} {mark : String}

lemma nestFrom_open (hkind : t.kind = .punct mark) (hmark : isOpener mark = true) :
    nestFrom outer level (t :: rest) = nestFrom ((t, level) :: outer) [] rest := by
  rw [nestFrom.eq_def]
  simp only [hkind, hmark, if_true]

/-- A closing bracket closes the group that its opening bracket has opened, and nothing else. -/
lemma nestFrom_close {expected : String} (hkind : t.kind = .punct mark)
    (hopener : isOpener mark = false) (hmark : openerOf mark = some expected) :
    nestFrom outer level (t :: rest) =
      match outer with
      | [] => .error (unexpected t)
      | (opener, before) :: further =>
        if opener.isPunct expected then nestFrom further (.group opener level.reverse t :: before) rest
        else .error (unexpected t) := by
  rw [nestFrom.eq_def]
  cases outer with
  | nil => simp [hkind, hopener, hmark]
  | cons group further => simp [hkind, hopener, hmark]

lemma nestFrom_leaf (hend : t.kind ≠ .endOfFile)
    (hmark : ∀ mark, t.kind = .punct mark → isOpener mark = false ∧ openerOf mark = none) :
    nestFrom outer level (t :: rest) = nestFrom outer (leaf t :: level) rest := by
  rw [nestFrom.eq_def]
  dsimp only
  split
  · exact absurd ‹_› hend
  · obtain ⟨hopener, hcloser⟩ := hmark _ ‹_›
    rw [if_neg (by simp [hopener]), hcloser]
  · rfl

end

lemma renamed_punct {kind : Kind} {mark : String} :
    renamed name kind = .punct mark ↔ kind = .punct mark := by
  cases kind <;> simp [renamed]

lemma renamed_endOfFile {kind : Kind} : renamed name kind = .endOfFile ↔ kind = .endOfFile := by
  cases kind <;> simp [renamed]

/-- Only identifiers are put under another name. -/
lemma hideToken_other (h : t.name? = none) : hideToken keep name t = placeless keep t := by
  unfold Token.name? at h
  unfold hideToken placeless
  cases hkind : t.kind with
  | ident own => simp [hkind] at h
  | _ => rfl

lemma isPoint_bracket {mark : String} (hkind : t.kind = .punct mark)
    (hmark : isOpener mark = true ∨ openerOf mark ≠ none) : isPoint (leaf t) = false := by
  simp only [isPoint, Tree.isPunct, Token.isPunct, hkind, Bool.or_eq_false_iff, beq_eq_false_iff_ne]
  refine ⟨?_, ?_⟩
  all_goals
    intro hpoint
    obtain rfl := Kind.punct.inj hpoint
    revert hmark
    decide

/-- Hidden tokens are nested like the tokens. -/
lemma nestFrom_hidden (outer : List (Token × List Tree)) (level : List Tree) (tokens : List Token) :
    (nestFrom (hideOuter keep outer) (hideOpen keep level)
      (hideTokens keep (endsInPoint level) tokens)).toOption =
      (nestFrom outer level tokens).toOption.map (hideNested keep) := by
  induction tokens generalizing outer level with
  | nil =>
    rw [hideTokens, nestFrom, nestFrom, hideOpen_reverse]
    cases keep <;> rfl
  | cons t rest ih =>
    rw [hideTokens]
    by_cases hend : t.kind = .endOfFile
    · have hname : t.name? = none := by simp [Token.name?, hend]
      rw [hideToken_other hname, nestFrom.eq_def, nestFrom.eq_def outer]
      cases outer with
      | nil => simp [hend, hideOuter, hideOpen_reverse, hideNested, Except.toOption]
      | cons group further => simp [hend, hideOuter, Except.toOption]
    · by_cases hbracket : ∃ mark, t.kind = .punct mark ∧ (isOpener mark = true ∨ openerOf mark ≠ none)
      · obtain ⟨mark, hkind, hmark⟩ := hbracket
        have hkind' : (placeless keep t).kind = .punct mark := hkind
        have hname : t.name? = none := by simp [Token.name?, hkind]
        rw [hideToken_other hname, isPoint_bracket hkind hmark]
        cases hopener : isOpener mark with
        | true =>
          rw [nestFrom_open hkind' hopener, nestFrom_open hkind hopener]
          exact ih ((t, level) :: outer) []
        | false =>
          obtain ⟨expected, hcloser⟩ := Option.ne_none_iff_exists'.mp
            (hmark.resolve_left (by simp [hopener]))
          rw [nestFrom_close hkind' hopener hcloser, nestFrom_close hkind hopener hcloser]
          cases outer with
          | nil => rfl
          | cons open_ further =>
            obtain ⟨opener, before⟩ := open_
            simp only [hideOuter, List.map_cons, placeless_isPunct]
            by_cases hexpected : opener.isPunct expected = true
            · have hgroup := ih further (group opener level.reverse t :: before)
              rw [hideOpen_cons, hideTree_group, ← hideOpen_reverse] at hgroup
              rw [if_pos hexpected, if_pos hexpected]
              exact hgroup
            · rw [if_neg hexpected, if_neg hexpected]
              rfl
      · have hleaf : ∀ mark, t.kind = .punct mark → isOpener mark = false ∧ openerOf mark = none := by
          intro mark hkind
          by_contra hno
          refine hbracket ⟨mark, hkind, ?_⟩
          by_contra hneither
          simp only [not_or, not_not, Bool.not_eq_true] at hneither
          exact hno hneither
        rw [nestFrom_leaf hend hleaf, nestFrom_leaf]
        · rw [← ih outer (leaf t :: level), hideOpen_cons, hideTree_leaf]
          rfl
        · rwa [ne_eq, hideToken, renamed_endOfFile]
        · intro mark hkind
          exact hleaf mark (renamed_punct.mp hkind)

lemma nest_hidden (tokens : List Token) :
    (nest (hideTokens keep false tokens)).toOption = (nest tokens).toOption.map (hideNested keep) :=
  nestFrom_hidden [] [] tokens

end TaskRunner.Proofs
