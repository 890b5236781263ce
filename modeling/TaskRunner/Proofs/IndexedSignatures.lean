import TaskRunner.Proofs.IndexedFindings
import TaskRunner.Source.File

/-!
# Signatures by indexes

The parameters of a function, their defaults and its description are looked up at indexes that are counted
from where the function stands. Parts of a parameter list are never empty, a default may be, and then the
token behind it is looked at.
-/

namespace TaskRunner.Proofs
open Source Tree

namespace Sheet

variable (s : Sheet)

/-- The literal that stands alone between two indexes. -/
def literalAt (start stop : Nat) : Checked (Option Literal) :=
  if stop = start + 1 then do
    let t ← s.token start
    .ok (literalOf [.leaf t])
  else .ok none

/-- The option that a property between two indexes stands for. -/
def optionAt (place : Nat × Nat) : Checked (Option OptionSpec) :=
  if place.2 < place.1 + 3 then .ok none
  else do
    let colon ← s.token (place.1 + 1)
    if colon.isPunct ":" then do
      let key ← s.token place.1
      match key.nameOrText? with
      | none => .ok none
      | some name => do
        let mark ← s.token (place.1 + 2)
        if mark.isPunct "!" then do
          let value ← s.literalAt (place.1 + 3) place.2
          .ok (value.map fun l => OptionSpec.ofKey name (.bool !l.isTruthy))
        else do
          let value ← s.literalAt (place.1 + 2) place.2
          .ok (value.map fun l => OptionSpec.ofKey name l)
    else .ok none

/-- Whether an object literal takes all that stands between two indexes. -/
def isObjectAt (start stop : Nat) : Checked Bool := do
  let t ← s.token start
  if t.isPunct "\x7b" then do
    let close ← s.entry start
    .ok (close == some (stop - 1))
  else .ok false

/-- The options of the object literal that starts at an index. -/
def optionsFrom (start : Nat) : Checked (List OptionSpec) := do
  match ← s.entry start with
  | none => .ok []
  | some close => do
    let parts ← s.splitCommas (start + 1) close
    let options ← parts.mapM s.optionAt
    .ok (options.filterMap id)

/-- The options of a default between two indexes, if it is an object literal. -/
def optionsAt (start stop : Nat) : Checked (Option (List OptionSpec)) := do
  if ← s.isObjectAt start stop then do
    let specs ← s.optionsFrom start
    .ok (some specs)
  else .ok none

/-- The name of a parameter between two indexes, whose first token is given. -/
def paramNameAt (first : Token) (start stop : Nat) : Checked (Option String) :=
  if stop - start = 1 then .ok first.name?
  else if first.isPunct "..." && stop - start == 2 then do
    let t ← s.token (start + 1)
    .ok t.name?
  else .ok none

/-- A parameter between two indexes, with the place of its default. -/
def positionalAt (position start stop : Nat) (default : Option (Nat × Nat)) : Checked ArgSpec := do
  let first ← s.token start
  let name ← s.paramNameAt first start stop
  let value ← match default with
    | some place => do
      let value ← s.literalAt place.1 place.2
      .ok (some (value.getD .null))
    | none => .ok (if first.isPunct "..." || stop - start != 1 then some .null else none)
  .ok ⟨name.getD ("arg" ++ toString (position + 1)), value⟩

/-- The parameter that a part between two indexes declares. -/
def paramAt (position : Nat) (isLast : Bool) (place : Nat × Nat) : Checked Param := do
  match ← s.findAtDepth place.1 place.2 "=" with
  | none => (s.positionalAt position place.1 place.2 none).map .positional
  | some equals => do
    let options ← if isLast then s.optionsAt (equals + 1) place.2 else .ok none
    match options with
    | some specs => .ok (.options specs)
    | none => (s.positionalAt position place.1 equals (some (equals + 1, place.2))).map .positional

/-- The parameters of parts, from a position on. -/
def paramsFrom (position : Nat) : List (Nat × Nat) → Checked (List Param)
  | [] => .ok []
  | place :: rest => do
    let param ← s.paramAt position rest.isEmpty place
    let more ← paramsFrom (position + 1) rest
    .ok (param :: more)

/-- The parameters between two indexes. -/
def paramsAt (place : Nat × Nat) : Checked (List Param) := do
  let parts ← s.splitCommas place.1 place.2
  s.paramsFrom 0 (parts.filter fun part => part.1 < part.2)

/-- The description of a function. -/
def descriptionAt (place : FunctionPlace) : Checked (Option String) := do
  let anchor ← s.token place.anchor
  match (anchor.comments.getLast?.filter Comment.isBlock).bind plainComment with
  | some text => .ok (some text)
  | none =>
    match place.body with
    | none => .ok none
    | some body => do
      let close ← s.entry body
      if close == some (body + 1) then .ok none
      else do
        let first ← s.token (body + 1)
        .ok (first.comments.head?.bind plainComment)

/-- The signature of a function under the name that it is exported by. -/
def signatureAt (exported : String) (place : FunctionPlace) : Checked Signature := do
  let params ← s.paramsAt place.params
  let description ← s.descriptionAt place
  .ok ⟨exported, params, description⟩

end Sheet

variable {s : Sheet} {i : Nat} {t : Tree} {trees rest part : List Tree}

/-! ## Literals and options -/

lemma AllAt.literalAt (h : AllAt s i trees) :
    s.literalAt i (i + widthOfAll trees) = .ok (literalOf trees) := by
  rw [Sheet.literalAt]
  cases trees with
  | nil =>
    rw [widthOfAll_nil, if_neg (by omega)]
    rfl
  | cons t rest =>
    have ht := (allAt_cons.mp h).1
    have hpos := width_pos t
    rw [widthOfAll_cons]
    cases rest with
    | nil =>
      cases t with
      | leaf token =>
        rw [width_leaf, widthOfAll_nil, Nat.add_zero, if_pos rfl, ht.token]
        rfl
      | group opener inside closer =>
        rw [width_group, widthOfAll_nil, if_neg (by omega)]
        rfl
    | cons u more =>
      have hmore := width_pos u
      rw [widthOfAll_cons, if_neg (by omega)]
      cases t <;> rfl

lemma optionOf_group {opener closer : Token} {inside : List Tree} (rest : List Tree) :
    optionOf (group opener inside closer :: rest) = none := by
  rw [optionOf]
  simp

lemma optionOf_short (h : widthOfAll part < 3) : optionOf part = none := by
  cases part with
  | nil => rfl
  | cons key rest =>
    cases key with
    | group opener inside closer => exact optionOf_group rest
    | leaf key =>
      cases rest with
      | nil => rfl
      | cons colon value =>
        have hwidth := width_pos colon
        have hlength := length_le_widthOfAll value
        rw [widthOfAll_cons, widthOfAll_cons, width_leaf] at h
        obtain rfl : value = [] := List.eq_nil_of_length_eq_zero (by omega)
        rw [optionOf]
        by_cases hcolon : colon.isPunct ":" = true
        · rw [if_pos hcolon]
          cases key.nameOrText? <;> rfl
        · rw [if_neg hcolon]

/-- A property of an object literal is read by indexes as it is by trees. -/
lemma AllAt.optionAt (h : AllAt s i part) : s.optionAt (i, i + widthOfAll part) = .ok (optionOf part) := by
  rw [Sheet.optionAt]
  dsimp only
  by_cases hshort : i + widthOfAll part < i + 3
  · rw [if_pos hshort, optionOf_short (by omega)]
  · rw [if_neg hshort]
    cases part with
    | nil => simp at hshort
    | cons key rest =>
      obtain ⟨hkey, hrest⟩ := allAt_cons.mp h
      cases key with
      | group opener inside closer =>
        -- Whatever stands behind an opening bracket, it is no key.
        have hlt : i + 1 < s.tokens.length := by
          have hwidth := hkey.width_le
          rw [width_group] at hwidth
          omega
        have hkeyToken : s.token i = .ok opener := hkey.token
        rw [optionOf_group, Sheet.token_eq (List.getElem?_eq_getElem hlt)]
        dsimp only [bind, Except.bind]
        rw [hkeyToken]
        dsimp only
        rw [(at_group.mp hkey).fit.noWord.nameOrText?]
        split <;> rfl
      | leaf key =>
        rw [width_leaf] at hrest
        cases rest with
        | nil => simp at hshort
        | cons colon value =>
          obtain ⟨hcolonAt, hvalue⟩ := allAt_cons.mp hrest
          have hkeyToken : s.token i = .ok key := hkey.token
          rw [optionOf, hcolonAt.token]
          dsimp only [bind, Except.bind]
          rw [hcolonAt.first_isPunct rfl]
          by_cases hcolon : colon.isPunct ":" = true
          · obtain ⟨token, rfl, -⟩ := leaf_of_isPunct hcolon
            rw [width_leaf] at hvalue
            rw [if_pos hcolon, if_pos hcolon, hkeyToken]
            dsimp only
            cases key.nameOrText? with
            | none => rfl
            | some name =>
              dsimp only [Option.bind_some]
              cases value with
              | nil => simp at hshort
              | cons first more =>
                obtain ⟨hfirst, hmore⟩ := allAt_cons.mp hvalue
                rw [hfirst.token]
                dsimp only
                rw [hfirst.first_isPunct rfl]
                change _ = Except.ok (if first.isPunct "!" = true then _ else _)
                by_cases hbang : first.isPunct "!" = true
                · obtain ⟨bang, rfl, -⟩ := leaf_of_isPunct hbang
                  have hliteral := hmore.literalAt
                  rw [width_leaf] at hliteral
                  rw [if_pos hbang, if_pos hbang, widthOfAll_cons, widthOfAll_cons, widthOfAll_cons,
                    width_leaf, width_leaf, width_leaf,
                    show i + (1 + (1 + (1 + widthOfAll more))) = i + 1 + 1 + 1 + widthOfAll more by omega,
                    hliteral]
                  rfl
                · rw [if_neg hbang, if_neg hbang, widthOfAll_cons, widthOfAll_cons, width_leaf, width_leaf,
                    show i + (1 + (1 + widthOfAll (first :: more))) =
                      i + 1 + 1 + widthOfAll (first :: more) by omega, hvalue.literalAt]
          · rw [if_neg hcolon, if_neg hcolon]

lemma AllAt.optionsOf_parts (h : AllAt s i trees) :
    (placesFrom i (splitAtCommas trees)).mapM s.optionAt = .ok ((splitAtCommas trees).map optionOf) := by
  induction hlength : trees.length using Nat.strongRecOn generalizing trees i with
  | _ length ih =>
    rcases comma_cases trees with hfree | ⟨front, comma, more, rfl, hfree, hcomma⟩
    · rw [splitAtCommas_part hfree]
      by_cases hempty : trees = []
      · rw [if_pos hempty]
        rfl
      · rw [if_neg hempty, placesFrom, placesFrom, List.mapM_cons, h.optionAt]
        rfl
    · obtain ⟨hfront, hbehind⟩ := allAt_append.mp h
      have hmore := (allAt_cons.mp hbehind).2
      rw [width_leaf] at hmore
      rw [splitAtCommas_comma hfree hcomma, placesFrom, List.mapM_cons, hfront.optionAt]
      dsimp only [bind, Except.bind]
      rw [ih more.length (by simp [← hlength]; omega) hmore rfl]
      rfl

/-- A default is looked at by indexes as it is by trees, an empty one as well. -/
lemma PartAt.optionsAt {place : Nat × Nat} (h : PartAt s place part) :
    s.optionsAt place.1 place.2 = .ok (optionsOf part) := by
  obtain ⟨hstand, hstop, token, htoken, hbrace⟩ := h
  rw [Sheet.optionsAt, Sheet.isObjectAt]
  cases part with
  | nil =>
    rw [widthOfAll_nil, Nat.add_zero] at hstop
    rw [← hstop, Sheet.token_eq htoken]
    dsimp only [bind, Except.bind]
    rw [hbrace, if_neg Bool.false_ne_true]
    rfl
  | cons t rest =>
    have ht := (allAt_cons.mp hstand).1
    cases t with
    | leaf first =>
      have hfirst : s.token place.1 = .ok first := ht.token
      have hplain : first.isPunct "\x7b" = false := (at_leaf.mp ht).1.not_opener _ rfl
      rw [hfirst]
      dsimp only [bind, Except.bind]
      rw [hplain, if_neg Bool.false_ne_true]
      cases rest <;> rfl
    | group opener inside closer =>
      have hgroup := at_group.mp ht
      have hfirst : s.token place.1 = .ok opener := ht.token
      rw [hfirst]
      dsimp only [bind, Except.bind]
      by_cases hopener : opener.isPunct "\x7b" = true
      · rw [if_pos hopener, Sheet.entry_eq hgroup.partner]
        dsimp only
        rw [widthOfAll_cons, width_group] at hstop
        cases rest with
        | nil =>
          have hclose : (some (place.1 + 1 + widthOfAll inside) == some (place.2 - 1)) = true := by
            rw [hstop, widthOfAll_nil, beq_iff_eq]
            congr 1
            omega
          rw [hclose, if_pos rfl, Sheet.optionsFrom, Sheet.entry_eq hgroup.partner]
          dsimp only [bind, Except.bind]
          rw [hgroup.insideAt.splitCommas]
          dsimp only
          rw [hgroup.insideAt.optionsOf_parts, optionsOf, inside?_of_group hopener]
          simp [List.filterMap_map]
        | cons u more =>
          have hpos := width_pos u
          have hclose : (some (place.1 + 1 + widthOfAll inside) == some (place.2 - 1)) = false := by
            rw [hstop, widthOfAll_cons, beq_eq_false_iff_ne]
            intro heq
            have := Option.some.inj heq
            omega
          rw [hclose, if_neg Bool.false_ne_true]
          rfl
      · rw [if_neg hopener]
        cases rest with
        | nil =>
          have hnot : (Tree.group opener inside closer).isGroup "\x7b" = false :=
            eq_false_of_ne_true hopener
          rw [optionsOf, inside?_of_not_group hnot]
          rfl
        | cons u more => rfl

/-! ## Parameters -/

/-- The name of a parameter is that of its only token, or of the one behind three points. -/
lemma AllAt.paramNameAt (h : AllAt s i trees) {first : Token} (hfirst : s.token i = .ok first) :
    s.paramNameAt first i (i + widthOfAll trees) = .ok (paramName trees) := by
  rw [Sheet.paramNameAt, Nat.add_sub_cancel_left]
  cases trees with
  | nil =>
    rw [widthOfAll_nil, if_neg (by omega)]
    simp [paramName]
  | cons t rest =>
    obtain ⟨ht, hrest⟩ := allAt_cons.mp h
    have hpos := width_pos t
    obtain rfl : t.first = first := Except.ok.inj (ht.token.symm.trans hfirst)
    rw [ht.first_isPunct rfl, widthOfAll_cons]
    cases rest with
    | nil =>
      rw [widthOfAll_nil, Nat.add_zero]
      cases t with
      | leaf token =>
        rw [width_leaf, if_pos rfl]
        rfl
      | group opener inside closer =>
        rw [width_group, if_neg (by omega)]
        rfl
    | cons u more =>
      have hnext := width_pos u
      rw [widthOfAll_cons, if_neg (by omega)]
      by_cases hdots : (t.isPunct "..." && width t + (width u + widthOfAll more) == 2) = true
      · obtain ⟨hmark, hwidth⟩ := Bool.and_eq_true_iff.mp hdots
        obtain ⟨dots, rfl, -⟩ := leaf_of_isPunct hmark
        have hlength := length_le_widthOfAll more
        rw [beq_iff_eq, width_leaf] at hwidth
        obtain rfl : more = [] := List.eq_nil_of_length_eq_zero (by omega)
        have hu := (allAt_cons.mp hrest).1
        rw [width_leaf] at hu
        rw [if_pos hdots, hu.token, paramName, if_pos hmark]
        cases u with
        | leaf token => rfl
        | group opener inside closer =>
          rw [width_group] at hwidth
          omega
      · rw [if_neg hdots]
        cases more with
        | nil =>
          rw [paramName]
          by_cases hmark : t.isPunct "..." = true
          · obtain ⟨dots, rfl, -⟩ := leaf_of_isPunct hmark
            rw [if_pos hmark]
            cases u with
            | leaf token =>
              rw [hmark] at hdots
              simp at hdots
            | group opener inside closer => rfl
          · rw [if_neg hmark]
        | cons v more => rfl

lemma AllAt.isSimple_eq (h : AllAt s i trees) (hne : trees ≠ []) {first : Token}
    (hfirst : s.token i = .ok first) :
    (first.isPunct "..." || i + widthOfAll trees - i != 1) = !isSimple trees := by
  rw [Nat.add_sub_cancel_left]
  cases trees with
  | nil => exact absurd rfl hne
  | cons t rest =>
    have ht := (allAt_cons.mp h).1
    have hpos := width_pos t
    obtain rfl : t.first = first := Except.ok.inj (ht.token.symm.trans hfirst)
    rw [widthOfAll_cons]
    cases rest with
    | nil =>
      cases t with
      | leaf token => simp [isSimple, Tree.first]
      | group opener inside closer => simp [isSimple]
    | cons u more =>
      have hnext := width_pos u
      have hwidth : (width t + widthOfAll (u :: more) != 1) = true := by
        rw [widthOfAll_cons, bne_iff_ne]
        omega
      rw [hwidth, Bool.or_true]
      cases t <;> rfl

/-- A parameter without a default is read by indexes as it is by trees. -/
lemma AllAt.positionalAt_plain (h : AllAt s i trees) (hne : trees ≠ []) (position : Nat) :
    s.positionalAt position i (i + widthOfAll trees) none = .ok (positionalOf position trees none) := by
  obtain ⟨t, rest, rfl⟩ := List.exists_cons_of_ne_nil hne
  have hfirst := (allAt_cons.mp h).1.token
  rw [Sheet.positionalAt, hfirst]
  dsimp only [bind, Except.bind]
  rw [h.paramNameAt hfirst]
  dsimp only
  rw [h.isSimple_eq hne hfirst, positionalOf]
  cases isSimple (t :: rest) <;> rfl

/-- So is one with a default. -/
lemma AllAt.positionalAt_default (h : AllAt s i trees) {first : Token} (hfirst : s.token i = .ok first)
    {start : Nat} {default : List Tree} (hdefault : AllAt s start default) (position : Nat) :
    s.positionalAt position i (i + widthOfAll trees) (some (start, start + widthOfAll default)) =
      .ok (positionalOf position trees (some default)) := by
  rw [Sheet.positionalAt, hfirst]
  dsimp only [bind, Except.bind]
  rw [h.paramNameAt hfirst]
  dsimp only
  rw [hdefault.literalAt, positionalOf]

/-- A parameter is read by indexes as it is by trees. -/
lemma PartAt.paramAt {place : Nat × Nat} (h : PartAt s place part) (hne : part ≠ []) (position : Nat)
    (isLast : Bool) : s.paramAt position isLast place = .ok (paramOf position isLast part) := by
  obtain ⟨start, stop⟩ := place
  obtain ⟨hstand, hstop, hbehind⟩ := h
  dsimp only at hstand hstop hbehind
  subst hstop
  rw [Sheet.paramAt, hstand.findAtDepth rfl, paramOf]
  cases hcut : cutAt "=" part with
  | none =>
    dsimp only [Option.map_none, bind, Except.bind]
    rw [hstand.positionalAt_plain hne]
    rfl
  | some cut =>
    obtain ⟨target, default⟩ := cut
    obtain ⟨equals, hsplit, -⟩ := cutAt_some hcut
    have hwidth : start + widthOfAll part = start + widthOfAll target + 1 + widthOfAll default := by
      rw [hsplit, widthOfAll_append, widthOfAll_cons, width_leaf]
      omega
    rw [hsplit] at hstand
    obtain ⟨htarget, hmore⟩ := allAt_append.mp hstand
    have hdefault := (allAt_cons.mp hmore).2
    rw [width_leaf] at hdefault
    have hfirst : ∃ first, s.token start = .ok first := by
      cases target with
      | nil => exact ⟨_, (allAt_cons.mp hstand).1.token⟩
      | cons t rest => exact ⟨_, (allAt_cons.mp htarget).1.token⟩
    obtain ⟨first, hfirst⟩ := hfirst
    have hpositional := htarget.positionalAt_default hfirst hdefault position
    have hoptions : PartAt s (start + widthOfAll target + 1, start + widthOfAll part) default :=
      ⟨hdefault, hwidth, hbehind⟩
    rw [← hwidth] at hpositional
    dsimp only [Option.map_some, bind, Except.bind]
    cases isLast with
    | false =>
      rw [if_neg Bool.false_ne_true, if_neg Bool.false_ne_true]
      dsimp only
      rw [hpositional]
      rfl
    | true =>
      rw [if_pos rfl, if_pos rfl, hoptions.optionsAt]
      dsimp only
      cases optionsOf default with
      | some specs => rfl
      | none =>
        dsimp only
        rw [hpositional]
        rfl

lemma paramsFrom_places {places : List (Nat × Nat)} {parts : List (List Tree)}
    (h : List.Forall₂ (PartAt s) places parts) (hne : ∀ part ∈ parts, part ≠ []) (position : Nat) :
    s.paramsFrom position places = .ok (paramsFrom position parts) := by
  induction h generalizing position with
  | nil => rfl
  | @cons place part places parts hpart hmore ih =>
    have hlast : places.isEmpty = parts.isEmpty := by cases hmore <;> rfl
    rw [Sheet.paramsFrom, hpart.paramAt (hne part List.mem_cons_self), hlast]
    dsimp only [bind, Except.bind]
    rw [ih (fun other hother => hne other (List.mem_cons_of_mem _ hother)), paramsFrom]

/-- The parts between commas stand at the indexes that a split finds. -/
lemma PartAt.parts {place : Nat × Nat} (h : PartAt s place trees) :
    List.Forall₂ (PartAt s) (placesFrom place.1 (splitAtCommas trees)) (splitAtCommas trees) := by
  induction hlength : trees.length using Nat.strongRecOn generalizing trees place with
  | _ length ih =>
    obtain ⟨start, stop⟩ := place
    obtain ⟨hstand, hstop, hbehind⟩ := h
    dsimp only at hstand hstop hbehind ⊢
    subst hstop
    rcases comma_cases trees with hfree | ⟨front, comma, more, rfl, hfree, hcomma⟩
    · rw [splitAtCommas_part hfree]
      by_cases hempty : trees = []
      · rw [if_pos hempty]
        exact .nil
      · rw [if_neg hempty]
        exact .cons ⟨hstand, rfl, hbehind⟩ .nil
    · obtain ⟨hfront, hcommaAt⟩ := allAt_append.mp hstand
      obtain ⟨hmark, hmore⟩ := allAt_cons.mp hcommaAt
      have hplain : comma.isPunct "\x7b" = false := (at_leaf.mp hmark).1.not_opener _ rfl
      rw [width_leaf] at hmore
      rw [splitAtCommas_comma hfree hcomma, placesFrom]
      refine .cons ⟨hfront, rfl, comma, hmark.first, hplain⟩ ?_
      have hrest : PartAt s (start + widthOfAll front + 1,
          start + widthOfAll (front ++ leaf comma :: more)) more := by
        refine ⟨hmore, ?_, hbehind⟩
        rw [widthOfAll_append, widthOfAll_cons, width_leaf]
        dsimp only
        omega
      exact ih more.length (by simp [← hlength]; omega) hrest rfl

/-- The parameters of a function are read by indexes as they are by trees. -/
lemma PartAt.paramsAt {place : Nat × Nat} (h : PartAt s place trees) :
    s.paramsAt place = .ok (paramsOf trees) := by
  have hstop := h.stop
  have hparts := h.parts
  have hkept : List.Forall₂ (PartAt s)
      ((placesFrom place.1 (splitAtCommas trees)).filter fun part => part.1 < part.2)
      ((splitAtCommas trees).filter fun part => !part.isEmpty) := by
    refine List.rel_filter ?_ hparts
    intro found part hpart
    dsimp only
    rw [hpart.stop]
    cases part with
    | nil => simp
    | cons t rest =>
      have hpos := width_pos t
      rw [widthOfAll_cons]
      simp only [List.isEmpty_cons, Bool.not_false, iff_true, decide_eq_true_eq]
      omega
  rw [Sheet.paramsAt, hstop, h.stand.splitCommas]
  dsimp only [bind, Except.bind]
  refine paramsFrom_places hkept ?_ 0
  intro part hpart
  simpa using (List.mem_filter.mp hpart).2

/-! ## Descriptions and signatures -/

variable {place : FunctionPlace} {f : LocalFunction}

lemma Placed.descriptionAt (h : Placed s place f) : s.descriptionAt place = .ok (descriptionOf f) := by
  obtain ⟨anchor, hanchor, hcomments⟩ := h.anchor
  have hbody := h.body
  rw [Sheet.descriptionAt, Sheet.token_eq hanchor, descriptionOf, ← hcomments]
  dsimp only [bind, Except.bind]
  cases (anchor.comments.getLast?.filter Comment.isBlock).bind plainComment with
  | some text => rfl
  | none =>
    dsimp only
    revert hbody
    cases place.body with
    | none =>
      cases f.body with
      | none => exact fun _ => rfl
      | some body => exact fun hbody => nomatch hbody
    | some index =>
      cases f.body with
      | none => exact fun hbody => nomatch hbody
      | some body =>
        intro hbody
        obtain ⟨inside, closer⟩ := body
        cases hbody with
        | some hgroup =>
          obtain ⟨opener, hgroup⟩ := hgroup
          dsimp only at hgroup ⊢
          rw [Sheet.entry_eq hgroup.partner]
          dsimp only
          cases inside with
          | nil =>
            rw [widthOfAll_nil, if_pos (by simp)]
          | cons t rest =>
            have hpos := width_pos t
            rw [if_neg (by rw [widthOfAll_cons]; simp; omega), (allAt_cons.mp hgroup.insideAt).1.token]

/-- The signature of a function is read by indexes as it is by trees. -/
lemma Placed.signatureAt (h : Placed s place f) (exported : String) :
    s.signatureAt exported place = .ok (signatureOf exported f) := by
  rw [Sheet.signatureAt, h.params.paramsAt]
  dsimp only [bind, Except.bind]
  rw [h.descriptionAt]
  rfl

end TaskRunner.Proofs
