import TaskRunner.Proofs.CommaParts
import TaskRunner.Proofs.IndexedLookups

/-!
# Patterns by indexes

A scan for a mark and a split at commas look up tokens and partners at every index that they come to. Where
trees stand between two indexes they never leave them, and the parts that they find are those of the trees.

The names of a pattern are read part by part: a part is empty, takes the rest, has a key with a colon
before its target, or is its target. A pattern in a pattern has fewer tokens, so the reading ends.
-/

namespace TaskRunner.Proofs
open Source Tree

/-! ## Tokens by indexes -/

section Parts

namespace Sheet

variable (s : Sheet)

/-- The token at an index, which has to be in the list. -/
def token (i : Nat) : Checked Token :=
  reach s.tokens[i]?

/-- The entry of an index, which has to be in the table. -/
def entry (i : Nat) : Checked (Option Nat) :=
  reach s.partners[i]?

/-- The index behind a token or a group, where the scan has to go on. -/
def jump (i : Nat) : Checked Nat := do
  match ← s.entry i with
  | some close => onward i (if i < close then close + 1 else i + 1)
  | none => onward i (i + 1)

/-- The index of a mark between two indexes and outside of their groups. -/
def findMark (mark : String) (stop : Nat) : Nat → Nat → Checked (Option Nat)
  | 0, _ => .error .stuck
  | fuel + 1, i =>
    if i < stop then do
      let t ← s.token i
      if t.isPunct mark then .ok (some i)
      else do
        let next ← s.jump i
        findMark mark stop fuel next
    else .ok none

/-- The indexes where parts between commas start and stop. -/
def splitFrom (stop : Nat) : Nat → Nat → Nat → Checked (List (Nat × Nat))
  | 0, _, _ => .error .stuck
  | fuel + 1, start, i =>
    if i < stop then do
      let t ← s.token i
      if t.isPunct "," then do
        let next ← onward i (i + 1)
        let more ← splitFrom stop fuel next next
        .ok ((start, i) :: more)
      else do
        let next ← s.jump i
        splitFrom stop fuel start next
    else if start < stop then .ok [(start, stop)]
    else .ok []

/-- The parts between two indexes. -/
def splitCommas (start stop : Nat) : Checked (List (Nat × Nat)) :=
  s.splitFrom stop (s.tokens.length + 1) start start

/-- The mark that is looked for between two indexes. -/
def findAtDepth (start stop : Nat) (mark : String) : Checked (Option Nat) :=
  s.findMark mark stop (s.tokens.length + 1) start

end Sheet

variable {s : Sheet} {i : Nat} {t : Tree} {after : Token} {trees front : List Tree}

/-! ## Scans -/

lemma Sheet.token_eq {t : Token} (h : s.tokens[i]? = some t) : s.token i = .ok t :=
  reach_some h

lemma Sheet.entry_eq {entry : Option Nat} (h : s.partners[i]? = some entry) : s.entry i = .ok entry :=
  reach_some h

lemma At.token (h : At s i t) : s.token i = .ok t.first :=
  Sheet.token_eq h.first

lemma At.jump (h : At s i t) : s.jump i = .ok (i + width t) := by
  have hpos := width_pos t
  cases t with
  | leaf token =>
    rw [Sheet.jump, Sheet.entry_eq (at_leaf.mp h).2.2, width_leaf]
    exact onward_later (by omega)
  | group opener inside closer =>
    rw [Sheet.jump, Sheet.entry_eq (at_group.mp h).partner, width_group]
    dsimp only [bind, Except.bind]
    rw [if_pos (by omega), onward_later (by omega)]
    congr 1
    omega

lemma At.first_isPunct (h : At s i t) {mark : String} (hmark : isOpener mark = false) :
    t.first.isPunct mark = t.isPunct mark := by
  rw [h.isPunct mark hmark, h.tok]

/-- A scan for a mark finds the place where the trees are cut. -/
lemma AllAt.findMark (h : AllAt s i trees) {mark : String} (hmark : isOpener mark = false) {fuel : Nat}
    (hfuel : trees.length < fuel) : s.findMark mark (i + widthOfAll trees) fuel i =
      .ok ((cutAt mark trees).map fun cut => i + widthOfAll cut.1) := by
  induction trees generalizing i fuel with
  | nil =>
    obtain ⟨fuel, rfl⟩ := Nat.exists_eq_succ_of_ne_zero (Nat.ne_of_gt hfuel)
    rw [Sheet.findMark, widthOfAll_nil, if_neg (by omega), cutAt, Option.map_none]
  | cons t rest ih =>
    obtain ⟨fuel, rfl⟩ := Nat.exists_eq_succ_of_ne_zero (Nat.ne_of_gt (Nat.zero_lt_of_lt hfuel))
    obtain ⟨ht, hrest⟩ := allAt_cons.mp h
    have hpos := width_pos t
    have hmore := ih hrest (Nat.lt_of_succ_lt_succ hfuel)
    rw [Nat.add_assoc] at hmore
    rw [Sheet.findMark, widthOfAll_cons, if_pos (by omega), ht.token, cutAt]
    dsimp only [bind, Except.bind]
    rw [ht.first_isPunct hmark]
    by_cases hpunct : t.isPunct mark = true
    · rw [if_pos hpunct, if_pos hpunct, Option.map_some, widthOfAll_nil, Nat.add_zero]
    · rw [if_neg hpunct, if_neg hpunct, ht.jump]
      dsimp only
      rw [hmore, Option.map_map]
      congr 2
      funext cut
      simp [Nat.add_assoc]

/-- A mark is looked for in the range of the trees only. -/
lemma AllAt.findAtDepth (h : AllAt s i trees) {mark : String} (hmark : isOpener mark = false) :
    s.findAtDepth i (i + widthOfAll trees) mark =
      .ok ((cutAt mark trees).map fun cut => i + widthOfAll cut.1) :=
  h.findMark hmark (Nat.lt_succ_of_le h.length_le)

/-! ## Parts -/

/-- The indexes where parts start and stop, if there is a comma between them. -/
def placesFrom : Nat → List (List Tree) → List (Nat × Nat)
  | _, [] => []
  | i, part :: more => (i, i + widthOfAll part) :: placesFrom (i + widthOfAll part + 1) more

lemma AllAt.splitFrom (h : AllAt s i trees) (hfront : CommaFree front) {start fuel : Nat}
    (hi : i = start + widthOfAll front) (hfuel : trees.length < fuel) :
    s.splitFrom (i + widthOfAll trees) fuel start i =
      .ok (placesFrom start (splitAtCommas (front ++ trees))) := by
  induction trees generalizing front i start fuel with
  | nil =>
    obtain ⟨fuel, rfl⟩ := Nat.exists_eq_succ_of_ne_zero (Nat.ne_of_gt hfuel)
    rw [Sheet.splitFrom, widthOfAll_nil, if_neg (by omega), List.append_nil, splitAtCommas_part hfront,
      Nat.add_zero]
    by_cases hempty : front = []
    · subst hempty
      rw [widthOfAll_nil] at hi
      rw [if_neg (by omega), if_pos rfl, placesFrom]
    · have hpos : 0 < widthOfAll front := Nat.pos_of_ne_zero (mt widthOfAll_eq_zero.mp hempty)
      rw [if_pos (by omega), if_neg hempty, placesFrom, placesFrom, hi]
  | cons t rest ih =>
    obtain ⟨fuel, rfl⟩ := Nat.exists_eq_succ_of_ne_zero (Nat.ne_of_gt (Nat.zero_lt_of_lt hfuel))
    obtain ⟨ht, hrest⟩ := allAt_cons.mp h
    have hpos := width_pos t
    rw [Sheet.splitFrom, widthOfAll_cons, if_pos (by omega), ht.token, ← Nat.add_assoc]
    dsimp only [bind, Except.bind]
    rw [ht.first_isPunct rfl]
    by_cases hcomma : t.isPunct "," = true
    · obtain ⟨comma, rfl, -⟩ := leaf_of_isPunct hcomma
      rw [width_leaf] at hrest ⊢
      have hstart : i + 1 = i + 1 + widthOfAll [] := by rw [widthOfAll_nil]
      have hmore := ih hrest commaFree_nil hstart (Nat.lt_of_succ_lt_succ hfuel)
      rw [if_pos hcomma, onward_later (by omega)]
      dsimp only
      rw [hmore, List.nil_append, splitAtCommas_comma hfront hcomma, placesFrom, hi]
    · have hplain := eq_false_of_ne_true hcomma
      have hlonger : CommaFree (front ++ [t]) :=
        List.forall_mem_append.mpr ⟨hfront, List.forall_mem_singleton.mpr hplain⟩
      have hstart : i + width t = start + widthOfAll (front ++ [t]) := by simp [hi, Nat.add_assoc]
      have hmore := ih hrest hlonger hstart (Nat.lt_of_succ_lt_succ hfuel)
      rw [hplain, if_neg Bool.false_ne_true, ht.jump]
      dsimp only
      rw [hmore, List.append_assoc, List.singleton_append]

/-- A split at commas finds the places of the parts of the trees. -/
lemma AllAt.splitCommas (h : AllAt s i trees) :
    s.splitCommas i (i + widthOfAll trees) = .ok (placesFrom i (splitAtCommas trees)) :=
  h.splitFrom commaFree_nil rfl (Nat.lt_succ_of_le h.length_le)

end Parts

section Patterns

variable {s : Sheet} {i : Nat} {after : Token} {trees rest part : List Tree}

/-! ## Names of a pattern's elements -/

/-- The names that one element of a pattern binds, with the token behind it. -/
def namesInPart (isObject : Bool) (behind : Token) : List Tree → Except SyntaxError (List BoundName)
  | [] => .ok []
  | t :: rest =>
    if t.isPunct "..." then (nameOfToken (ahead behind rest)).map ([·])
    else if isObject then
      match cutAt ":" (t :: rest) with
      | some (_, []) => .error (unexpected behind)
      | some (_, target :: _) => namesOfTarget target
      | none => (nameOfToken t.first).map ([·])
    else namesOfTarget t

/-- The trees are at their end, or a comma comes next. -/
def AtComma (trees : List Tree) : Prop :=
  trees = [] ∨ ∃ comma more, trees = leaf comma :: more ∧ comma.isPunct "," = true

variable {isObject : Bool}

lemma namesInElements_done (h : CommaFree part) (rest : List Tree) :
    namesInElements isObject after .done (part ++ rest) = namesInElements isObject after .done rest := by
  induction part with
  | nil => rfl
  | cons t more ih =>
    obtain ⟨ht, hmore⟩ := commaFree_cons.mp h
    rw [List.cons_append, namesInElements, ht, if_neg Bool.false_ne_true, ih hmore]

/-- Behind a key that has a colon comes the target. -/
lemma namesInElements_key {before target : List Tree} (h : cutAt ":" part = some (before, target))
    (rest : List Tree) : namesInElements isObject after .key (part ++ rest) =
      namesInElements isObject after .target (target ++ rest) := by
  induction part generalizing before with
  | nil => cases h
  | cons t more ih =>
    rw [cutAt] at h
    rw [List.cons_append, namesInElements]
    by_cases hcolon : t.isPunct ":" = true
    · rw [if_pos hcolon] at h ⊢
      obtain ⟨-, rfl⟩ := Prod.mk.inj (Option.some.inj h)
      rfl
    · rw [if_neg hcolon] at h ⊢
      obtain ⟨⟨front, target'⟩, hcut, heq⟩ := Option.map_eq_some_iff.mp h
      obtain ⟨-, rfl⟩ := Prod.mk.inj heq
      exact ih hcut

lemma colonInElement_part (h : CommaFree part) (hrest : AtComma rest) :
    colonInElement (part ++ rest) = (cutAt ":" part).isSome := by
  induction part with
  | nil =>
    rcases hrest with rfl | ⟨comma, more, rfl, hcomma⟩
    · rfl
    · rw [List.nil_append, colonInElement, if_pos (show (leaf comma).isPunct "," = true from hcomma)]
      rfl
  | cons t more ih =>
    obtain ⟨ht, hmore⟩ := commaFree_cons.mp h
    rw [List.cons_append, colonInElement, ht, if_neg Bool.false_ne_true, cutAt]
    by_cases hcolon : t.isPunct ":" = true
    · rw [if_pos hcolon, if_pos hcolon, Option.isSome_some]
    · rw [if_neg hcolon, if_neg hcolon, Option.isSome_map, ih hmore]

/-- What an element binds comes before what stands behind it. -/
def namesBefore (isObject : Bool) (after : Token) (bound : Except SyntaxError (List BoundName))
    (rest : List Tree) : Except SyntaxError (List BoundName) := do
  let bound ← bound
  let more ← namesInElements isObject after .done rest
  .ok (bound ++ more)

lemma namesInElements_target {target : List Tree} (h : CommaFree target) (hrest : AtComma rest) :
    namesInElements isObject after .target (target ++ rest) =
      namesBefore isObject after (match target with
        | [] => .error (unexpected (ahead after rest))
        | t :: _ => namesOfTarget t) rest := by
  cases target with
  | nil =>
    rcases hrest with rfl | ⟨comma, more, rfl, hcomma⟩
    · rw [List.nil_append, namesInElements]
      rfl
    · have hname : comma.name? = none := by
        have hkind : comma.kind = .punct "," := by simpa [Token.isPunct] using hcomma
        simp [Token.name?, hkind]
      rw [List.nil_append, namesInElements, namesOfTarget, nameOfToken, hname]
      rfl
  | cons t more =>
    rw [List.cons_append, namesInElements, namesInElements_done (commaFree_cons.mp h).2]
    rfl

/-- A pattern is read element by element. -/
lemma namesInElements_part (isObject : Bool) (after : Token) (h : CommaFree part) (hrest : AtComma rest) :
    namesInElements isObject after .start (part ++ rest) =
      namesBefore isObject after (namesInPart isObject (ahead after rest) part) rest := by
  cases part with
  | nil =>
    rcases hrest with rfl | ⟨comma, more, rfl, hcomma⟩
    · rw [List.nil_append, namesInElements]
      rfl
    · have hmark : (leaf comma).isPunct "," = true := hcomma
      rw [List.nil_append, namesInElements, if_pos hmark, namesBefore, namesInPart, namesInElements,
        if_pos hmark]
      cases namesInElements isObject after .start more <;> rfl
  | cons t more =>
    obtain ⟨ht, hmore⟩ := commaFree_cons.mp h
    rw [List.cons_append, namesInElements, ht, if_neg Bool.false_ne_true, namesInPart]
    by_cases hdots : t.isPunct "..." = true
    · have hahead : ahead after (more ++ rest) = ahead (ahead after rest) more := by
        cases more <;> rfl
      rw [if_pos hdots, if_pos hdots, namesInElements_done hmore, hahead]
      cases nameOfToken (ahead (ahead after rest) more) <;> rfl
    · rw [if_neg hdots, if_neg hdots]
      cases isObject with
      | false =>
        rw [if_neg Bool.false_ne_true, if_neg Bool.false_ne_true, namesInElements_done hmore]
        rfl
      | true =>
        rw [if_pos rfl, if_pos rfl, cutAt]
        by_cases hcolon : t.isPunct ":" = true
        · rw [if_pos hcolon, if_pos hcolon, namesInElements_target hmore hrest]
          cases more <;> rfl
        · rw [if_neg hcolon, if_neg hcolon, colonInElement_part hmore hrest]
          cases hcut : cutAt ":" more with
          | none =>
            rw [Option.isSome_none, if_neg Bool.false_ne_true, namesInElements_done hmore]
            cases nameOfToken t.first <;> rfl
          | some cut =>
            obtain ⟨before, target⟩ := cut
            have htarget : CommaFree target := by
              obtain ⟨colon, rfl, -⟩ := cutAt_some hcut
              intro other hother
              exact hmore other (by simp [hother])
            rw [Option.isSome_some, if_pos rfl, namesInElements_key hcut,
              namesInElements_target htarget hrest]
            cases target <;> rfl

/-! ## Patterns by indexes -/

namespace Sheet

variable (s : Sheet)

/-- The name at an index, or a complaint about the token there. -/
def nameAt (i : Nat) : Checked BoundName :=
  lifted (nameOfToken (s.tok i))

/-- The names that an element between two indexes binds, if `names` reads what it binds. -/
def elementNames (names : Nat → Checked (List BoundName)) (isObject : Bool) (place : Nat × Nat) :
    Checked (List BoundName) :=
  if place.1 = place.2 then .ok []
  else if (s.tok place.1).isPunct "..." then (s.nameAt (place.1 + 1)).map ([·])
  else if isObject then do
    match ← s.findAtDepth place.1 place.2 ":" with
    | some colon => names (colon + 1)
    | none => (s.nameAt place.1).map ([·])
  else names place.1

/-- The names that are bound at an index, by an identifier or by a pattern with other patterns in it. -/
def targetNames : Nat → Nat → Checked (List BoundName)
  | 0, _ => .error .stuck
  | fuel + 1, i =>
    if (s.tok i).isPunct "\x7b" || (s.tok i).isPunct "[" then do
      let close ← s.partner i
      let parts ← s.splitCommas (i + 1) close
      let names ← parts.mapM (s.elementNames (targetNames fuel) ((s.tok i).isPunct "\x7b"))
      .ok names.flatten
    else (s.nameAt i).map ([·])

end Sheet

lemma AllAt.tok_ahead (h : AllAt s i trees) {behind : Token}
    (hbehind : s.tok (i + widthOfAll trees) = behind) :
    s.tok i = ahead behind trees := by
  cases trees with
  | nil =>
    rw [widthOfAll_nil, Nat.add_zero] at hbehind
    exact hbehind
  | cons t rest => exact (allAt_cons.mp h).1.tok

/-- No name and no pattern starts with the token. -/
structure Bare (token : Token) : Prop where
  name : token.name? = none
  object : token.isPunct "\x7b" = false
  array : token.isPunct "[" = false

lemma Bare.comma {comma : Token} (h : comma.isPunct "," = true) : Bare comma := by
  have hkind : comma.kind = .punct "," := by simpa [Token.isPunct] using h
  exact ⟨by simp [Token.name?, hkind], by simp [Token.isPunct, hkind], by simp [Token.isPunct, hkind]⟩

lemma Ends.bare {k : Nat} (h : Ends s k after) : Bare after :=
  ⟨h.noWord.name?, h.isPunct rfl, h.isPunct rfl⟩

lemma Bare.targetNames {token : Token} (h : Bare token) (hi : s.tok i = token) (fuel : Nat) :
    s.targetNames (fuel + 1) i = refuse (unexpected token) := by
  rw [Sheet.targetNames, Sheet.nameAt, hi, h.object, h.array, Bool.or_self, if_neg Bool.false_ne_true,
    nameOfToken, h.name]
  rfl

/-- Targets of at most so many tokens are read as their trees are. -/
def ReadsTargets (s : Sheet) (fuel : Nat) : Prop :=
  ∀ t i, At s i t → width t ≤ fuel → s.targetNames fuel i = lifted (namesOfTarget t)

lemma AllAt.elementNames (h : AllAt s i part) (isObject : Bool) {fuel : Nat}
    (hread : ReadsTargets s (fuel + 1))
    (hwidth : widthOfAll part ≤ fuel + 1) {behind : Token} (hbare : Bare behind)
    (hbehind : s.tok (i + widthOfAll part) = behind) :
    s.elementNames (s.targetNames (fuel + 1)) isObject (i, i + widthOfAll part) =
      lifted (namesInPart isObject behind part) := by
  rw [Sheet.elementNames]
  cases part with
  | nil =>
    exact if_pos (by simp)
  | cons t rest =>
    obtain ⟨ht, hrest⟩ := allAt_cons.mp h
    have hpos := width_pos t
    have hfirst : (s.tok i).isPunct "..." = t.isPunct "..." := (ht.isPunct _ rfl).symm
    rw [widthOfAll_cons] at hwidth
    dsimp only
    rw [if_neg (by rw [widthOfAll_cons]; omega), hfirst, namesInPart]
    by_cases hdots : t.isPunct "..." = true
    · obtain ⟨dots, rfl, -⟩ := leaf_of_isPunct hdots
      rw [widthOfAll_cons, ← Nat.add_assoc] at hbehind
      rw [if_pos hdots, if_pos hdots, Sheet.nameAt, ← width_leaf dots, hrest.tok_ahead hbehind,
        lifted_map]
    · rw [if_neg hdots, if_neg hdots]
      cases isObject with
      | false =>
        rw [if_neg Bool.false_ne_true, if_neg Bool.false_ne_true]
        exact hread t i ht (by omega)
      | true =>
        rw [if_pos rfl, if_pos rfl, h.findAtDepth rfl]
        cases hcut : cutAt ":" (t :: rest) with
        | none =>
          rw [← ht.tok, Sheet.nameAt, lifted_map]
          rfl
        | some cut =>
          obtain ⟨before, target⟩ := cut
          obtain ⟨colon, hsplit, -⟩ := cutAt_some hcut
          have hsizes := congrArg widthOfAll hsplit
          rw [hsplit] at h hbehind
          obtain ⟨-, htarget⟩ := allAt_cons.mp (allAt_append.mp h).2
          rw [width_leaf] at htarget
          rw [widthOfAll_append, widthOfAll_cons, width_leaf, ← Nat.add_assoc, ← Nat.add_assoc] at hbehind
          rw [widthOfAll_cons, widthOfAll_append, widthOfAll_cons, width_leaf] at hsizes
          dsimp only [Option.map_some, bind, Except.bind]
          cases target with
          | nil =>
            rw [widthOfAll_nil, Nat.add_zero] at hbehind
            exact hbare.targetNames hbehind fuel
          | cons u more =>
            rw [widthOfAll_cons] at hsizes
            exact hread u _ (allAt_cons.mp htarget).1 (by omega)

lemma AllAt.elementsNames (h : AllAt s i trees) (isObject : Bool) {fuel : Nat}
    (hread : ReadsTargets s (fuel + 1))
    (hwidth : widthOfAll trees ≤ fuel + 1) (hends : Ends s (i + widthOfAll trees) after) :
    ((placesFrom i (splitAtCommas trees)).mapM
        (s.elementNames (s.targetNames (fuel + 1)) isObject)).map List.flatten =
      lifted (namesInElements isObject after .start trees) := by
  induction hlength : trees.length using Nat.strongRecOn generalizing trees i with
  | _ length ih =>
    rcases comma_cases trees with hfree | ⟨front, comma, more, rfl, hfree, hcomma⟩
    · have hpart := h.elementNames isObject hread hwidth hends.bare hends.tok
      have hnames := namesInElements_part isObject after hfree (.inl rfl)
      rw [List.append_nil] at hnames
      rw [hnames, splitAtCommas_part hfree]
      by_cases hempty : trees = []
      · subst hempty
        rfl
      · rw [if_neg hempty, placesFrom, placesFrom, List.mapM_cons, hpart]
        change _ = lifted (namesBefore isObject after (namesInPart isObject after trees) [])
        rw [namesBefore, namesInElements]
        cases namesInPart isObject after trees with
        | error e => rfl
        | ok bound => simp [lifted, Except.mapError, Except.map, bind, Except.bind, pure, Except.pure]
    · obtain ⟨hfront, hbehind⟩ := allAt_append.mp h
      obtain ⟨hcommaAt, hmore⟩ := allAt_cons.mp hbehind
      rw [widthOfAll_append, widthOfAll_cons, width_leaf] at hwidth
      rw [width_leaf] at hmore
      have hends' : Ends s (i + widthOfAll front + 1 + widthOfAll more) after := by
        rw [widthOfAll_append, widthOfAll_cons, width_leaf, ← Nat.add_assoc, ← Nat.add_assoc] at hends
        exact hends
      have hpart := hfront.elementNames isObject hread (by omega) (.comma hcomma)
        hcommaAt.tok
      have hrest := ih more.length (by simp [← hlength]; omega) hmore (by omega) hends' rfl
      have hmark : (leaf comma).isPunct "," = true := hcomma
      rw [splitAtCommas_comma hfree hcomma, placesFrom, List.mapM_cons, hpart,
        namesInElements_part isObject after hfree (.inr ⟨comma, more, rfl, hcomma⟩), namesBefore, namesInElements,
        if_pos hmark]
      dsimp only [ahead, Tree.first] at hpart ⊢
      cases namesInPart isObject comma front with
      | error e => rfl
      | ok bound =>
        revert hrest
        generalize (placesFrom (i + widthOfAll front + 1) (splitAtCommas more)).mapM
          (s.elementNames (s.targetNames (fuel + 1)) isObject) = found
        cases namesInElements isObject after .start more <;> cases found <;>
          simp [lifted, Except.mapError, Except.map, bind, Except.bind, pure, Except.pure]

/-- A target is read by indexes as its tree is. -/
lemma readsTargets (s : Sheet) (fuel : Nat) : ReadsTargets s fuel := by
  induction fuel with
  | zero =>
    intro t i _ hwidth
    have hpos := width_pos t
    omega
  | succ fuel ih =>
    intro t i ht hwidth
    rw [Sheet.targetNames]
    cases t with
    | leaf token =>
      have hplain := (at_leaf.mp ht).1
      have hfirst : s.tok i = token := ht.tok
      rw [hfirst, hplain.not_opener "\x7b" rfl, hplain.not_opener "[" rfl,
        Bool.or_self, if_neg Bool.false_ne_true, namesOfTarget, Sheet.nameAt, hfirst, lifted_map]
    | group opener inside closer =>
      have hgroup := at_group.mp ht
      have hfirst : s.tok i = opener := ht.tok
      rw [width_group] at hwidth
      obtain ⟨fuel, rfl⟩ := Nat.exists_eq_succ_of_ne_zero (show fuel ≠ 0 by omega)
      have hinside : ∀ isObject, (do
          let close ← s.partner i
          let parts ← s.splitCommas (i + 1) close
          let names ← parts.mapM (s.elementNames (s.targetNames (fuel + 1)) isObject)
          .ok names.flatten) = lifted (namesInElements isObject closer .start inside) := by
        intro isObject
        rw [Sheet.partner_eq hgroup.partner]
        dsimp only [bind, Except.bind]
        rw [hgroup.lies.stand.splitCommas,
          ← hgroup.lies.stand.elementsNames isObject ih (by omega) hgroup.lies.ends]
        rfl
      rw [hfirst, namesOfTarget]
      by_cases hobject : opener.isPunct "\x7b" = true
      · rw [hobject, Bool.true_or, if_pos rfl, if_pos rfl, hinside]
      · rw [eq_false_of_ne_true hobject, Bool.false_or, if_neg Bool.false_ne_true]
        by_cases harray : opener.isPunct "[" = true
        · rw [if_pos harray, if_pos harray, hinside]
        · rw [if_neg harray, if_neg harray, Sheet.nameAt, hfirst, nameOfToken, hgroup.fit.noWord.name?]
          rfl

end Patterns

end TaskRunner.Proofs
