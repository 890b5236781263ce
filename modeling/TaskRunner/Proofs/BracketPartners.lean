import Mathlib.Data.List.Forall2
import TaskRunner.Proofs.NestedTokens
import TaskRunner.Proofs.PositionChecks

/-!
# Tokens with a table of partners

A reading of tokens by their indexes jumps over a group by a table that gives the partner of every bracket.
The table is filled by one walk along the tokens with a stack of open brackets. Brackets are refused where
the nesting of the tokens refuses them, and otherwise the trees stand at the indexes that their widths add
up to.
-/

namespace TaskRunner.Proofs
open Source Tree

/-- The tokens of a file with the partners of their brackets. -/
structure Sheet where
  tokens : List Token
  partners : List (Option Nat)
  nonempty : tokens ≠ []

namespace Sheet

variable (s : Sheet)

/-- The token at an index; behind the last token stands the last one again. -/
def tok (i : Nat) : Token :=
  s.tokens.get ⟨min i (s.tokens.length - 1), by
    have hpos := List.length_pos_iff.mpr s.nonempty
    omega⟩

/-- The partner of a bracket. -/
def partner? (i : Nat) : Option Nat :=
  s.partners[i]?.join

/-- The partner of a bracket, where one has to be. -/
def partner (i : Nat) : Checked Nat :=
  match s.partner? i with
  | some j => .ok j
  | none => refuse (unexpected (s.tok i))

/-- The index behind a token, or behind the group that it opens. -/
def step (i : Nat) : Nat :=
  match s.partner? i with
  | some close => if i < close then close + 1 else i + 1
  | none => i + 1

end Sheet

/-! ## The walk along the tokens -/

/-- The table with an entry, whose place has to be in it. -/
def setPartner (table : List (Option Nat)) (i j : Nat) : Checked (List (Option Nat)) :=
  if i < table.length then .ok (table.set i (some j)) else .error .outOfRange

/-- Pairs the brackets among tokens, the first of which has the index `i`. -/
def pairFrom : List (Nat × String) → List (Option Nat) → Nat → List Token →
    Checked (List (Nat × String) × List (Option Nat))
  | stack, table, _, [] => .ok (stack, table)
  | stack, table, i, t :: rest =>
    match t.kind with
    | .punct mark =>
      if isOpener mark then pairFrom ((i, mark) :: stack) table (i + 1) rest
      else
        match openerOf mark with
        | none => pairFrom stack table (i + 1) rest
        | some expected =>
          match stack with
          | [] => refuse (unexpected t)
          | (opener, kind) :: further =>
            if kind == expected then do
              let table ← setPartner table opener i
              let table ← setPartner table i opener
              pairFrom further table (i + 1) rest
            else refuse (unexpected t)
    | _ => pairFrom stack table (i + 1) rest

/-- The partners of the brackets among tokens. -/
def pairBrackets (tokens : List Token) : Checked (List (Option Nat)) := do
  let (stack, table) ← pairFrom [] (List.replicate tokens.length none) 0 tokens
  match stack, tokens.getLast? with
  | _ :: _, some ending => refuse (unexpected ending)
  | _, _ => .ok table

/-- The tokens with their table. -/
def sheetOf (tokens : List Token) : Checked Sheet := do
  let partners ← pairBrackets tokens
  if h : tokens ≠ [] then .ok ⟨tokens, partners, h⟩ else .error .outOfRange

/-! ## Where trees stand -/

/-- A token that is no bracket and not the end of the file. -/
structure PlainToken (t : Token) : Prop where
  notEnd : t.kind ≠ .endOfFile
  notBracket : ∀ mark, t.kind = .punct mark → isOpener mark = false ∧ openerOf mark = none

/-- An opening bracket and the closing one that fits it. -/
def Fit (opener closer : Token) : Prop :=
  ∃ mark closing, opener.kind = .punct mark ∧ isOpener mark = true ∧ closer.kind = .punct closing ∧
    isOpener closing = false ∧ openerOf closing = some mark

/-- How many tokens a tree has. -/
def width (t : Tree) : Nat :=
  t.tokens.length

/-- How many tokens trees have. -/
def widthOfAll (trees : List Tree) : Nat :=
  (tokensOfAll trees).length

@[simp] lemma width_leaf (t : Token) : width (leaf t) = 1 := by
  rw [width, tokens_leaf, List.length_singleton]

@[simp] lemma width_group (opener closer : Token) (inside : List Tree) :
    width (group opener inside closer) = widthOfAll inside + 2 := by
  rw [width, tokens_group, List.length_cons, List.length_append, List.length_singleton, widthOfAll]

@[simp] lemma widthOfAll_nil : widthOfAll [] = 0 := by
  rw [widthOfAll, tokensOfAll_nil, List.length_nil]

@[simp] lemma widthOfAll_cons (t : Tree) (trees : List Tree) :
    widthOfAll (t :: trees) = width t + widthOfAll trees := by
  rw [widthOfAll, tokensOfAll_cons, List.length_append, width, widthOfAll]

@[simp] lemma widthOfAll_append (trees more : List Tree) :
    widthOfAll (trees ++ more) = widthOfAll trees + widthOfAll more := by
  rw [widthOfAll, tokensOfAll_append, List.length_append, widthOfAll, widthOfAll]

lemma width_pos (t : Tree) : 0 < width t := by
  cases t <;> simp

lemma length_le_widthOfAll (trees : List Tree) : trees.length ≤ widthOfAll trees := by
  induction trees with
  | nil => exact Nat.zero_le _
  | cons t rest ih =>
    have hpos := width_pos t
    rw [List.length_cons, widthOfAll_cons]
    omega

mutual

/-- Every leaf is plain and the brackets of every group fit. -/
def Proper : Tree → Prop
  | leaf t => PlainToken t
  | group opener inside closer => Fit opener closer ∧ ProperAll inside

/-- The trees are proper. -/
def ProperAll : List Tree → Prop
  | [] => True
  | t :: rest => Proper t ∧ ProperAll rest

end

mutual

/-- The entries of a tree in the table, if it stands at the index `i`. -/
def partnersOf (i : Nat) : Tree → List (Option Nat)
  | leaf _ => [none]
  | group _ inside _ =>
    some (i + 1 + widthOfAll inside) :: (partnersOfAll (i + 1) inside ++ [some i])

/-- The entries of trees in the table. -/
def partnersOfAll (i : Nat) : List Tree → List (Option Nat)
  | [] => []
  | t :: rest => partnersOf i t ++ partnersOfAll (i + width t) rest

end

mutual

/-- The tree stands at an index: its tokens are there, and the entries of its brackets. -/
def At (s : Sheet) (i : Nat) : Tree → Prop
  | leaf t => PlainToken t ∧ s.tokens[i]? = some t ∧ s.partners[i]? = some none
  | group opener inside closer => Fit opener closer ∧ AllAt s (i + 1) inside ∧
    s.tokens[i]? = some opener ∧ s.partners[i]? = some (some (i + 1 + widthOfAll inside)) ∧
    s.tokens[i + 1 + widthOfAll inside]? = some closer ∧
    s.partners[i + 1 + widthOfAll inside]? = some (some i)

/-- The trees stand at an index, one behind the other. -/
def AllAt (s : Sheet) (i : Nat) : List Tree → Prop
  | [] => True
  | t :: rest => At s i t ∧ AllAt s (i + width t) rest

end

/-! ## Nesting gives proper trees -/

@[simp] lemma properAll_nil : ProperAll [] := by
  rw [ProperAll]
  trivial

@[simp] lemma properAll_cons {t : Tree} {trees : List Tree} :
    ProperAll (t :: trees) ↔ Proper t ∧ ProperAll trees := by
  rw [ProperAll]

@[simp] lemma proper_leaf {t : Token} : Proper (leaf t) ↔ PlainToken t := by
  rw [Proper]

@[simp] lemma proper_group {opener closer : Token} {inside : List Tree} :
    Proper (group opener inside closer) ↔ Fit opener closer ∧ ProperAll inside := by
  rw [Proper]

lemma properAll_append {trees more : List Tree} :
    ProperAll (trees ++ more) ↔ ProperAll trees ∧ ProperAll more := by
  induction trees with
  | nil => simp
  | cons t rest ih => simp [ih, and_assoc]

lemma properAll_reverse {trees : List Tree} : ProperAll trees.reverse ↔ ProperAll trees := by
  induction trees with
  | nil => simp
  | cons t rest ih => simp [properAll_append, ih, and_comm]

/-- Open groups, each with an opening bracket and proper trees before it. -/
def ProperOuter (outer : List (Token × List Tree)) : Prop :=
  ∀ group ∈ outer, (∃ mark, group.1.kind = .punct mark ∧ isOpener mark = true) ∧ ProperAll group.2

lemma ProperOuter.open {outer : List (Token × List Tree)} {level : List Tree} {t : Token} {mark : String}
    (houter : ProperOuter outer) (hlevel : ProperAll level) (hmark : t.kind = .punct mark)
    (hopen : isOpener mark = true) : ProperOuter ((t, level) :: outer) := by
  intro group hgroup
  rcases List.mem_cons.mp hgroup with rfl | hgroup
  · exact ⟨⟨mark, hmark, hopen⟩, hlevel⟩
  · exact houter group hgroup

lemma nestFrom_proper {outer : List (Token × List Tree)} {level : List Tree} {tokens : List Token}
    {nested : Nested} (hlevel : ProperAll level) (houter : ProperOuter outer)
    (h : nestFrom outer level tokens = .ok nested) : ProperAll nested.trees := by
  induction tokens generalizing outer level with
  | nil =>
    cases h
    exact properAll_reverse.mpr hlevel
  | cons t rest ih =>
    unfold nestFrom at h
    split at h
    · split at h
      · cases h
        exact properAll_reverse.mpr hlevel
      · cases h
    · rename_i mark hmark
      split at h
      · rename_i hopen
        exact ih properAll_nil (houter.open hlevel hmark hopen) h
      · rename_i hopen
        rw [Bool.not_eq_true] at hopen
        split at h
        · rename_i hplain
          have ht : PlainToken t := by
            refine ⟨by simp [hmark], fun other hother => ?_⟩
            obtain rfl : mark = other := Kind.punct.inj (hmark.symm.trans hother)
            exact ⟨hopen, hplain⟩
          exact ih (properAll_cons.mpr ⟨proper_leaf.mpr ht, hlevel⟩) houter h
        · rename_i expected hexpected
          split at h
          · cases h
          · rename_i opener before further
            split at h
            · rename_i hfits
              obtain ⟨⟨kind, hkind, hkindOpen⟩, hbefore⟩ := houter _ List.mem_cons_self
              obtain rfl : kind = expected := by
                dsimp only at hkind
                simpa [Token.isPunct, hkind] using hfits
              have hfit : Fit opener t := ⟨kind, mark, hkind, hkindOpen, hmark, hopen, hexpected⟩
              have hgroup : Proper (group opener level.reverse t) :=
                proper_group.mpr ⟨hfit, properAll_reverse.mpr hlevel⟩
              exact ih (properAll_cons.mpr ⟨hgroup, hbefore⟩)
                (fun group hgroup => houter group (List.mem_cons_of_mem _ hgroup)) h
            · cases h
    · rename_i hend hmark
      have ht : PlainToken t := ⟨hend, fun other hother => absurd hother (hmark other)⟩
      exact ih (properAll_cons.mpr ⟨proper_leaf.mpr ht, hlevel⟩) houter h

lemma nest_proper {tokens : List Token} {nested : Nested} (h : nest tokens = .ok nested) :
    ProperAll nested.trees :=
  nestFrom_proper properAll_nil (fun _ hgroup => absurd hgroup List.not_mem_nil) h

/-! ## The table of proper trees -/

mutual

lemma length_partnersOf (i : Nat) : ∀ t : Tree, (partnersOf i t).length = width t
  | leaf _ => by simp [partnersOf]
  | group _ inside _ => by simp [partnersOf, length_partnersOfAll (i + 1) inside]

lemma length_partnersOfAll (i : Nat) : ∀ trees : List Tree,
    (partnersOfAll i trees).length = widthOfAll trees
  | [] => by simp [partnersOfAll]
  | t :: rest => by
    simp [partnersOfAll, length_partnersOf i t, length_partnersOfAll (i + width t) rest]

end

/-- A table that is filled up to an index. -/
def tableAt (entries : List (Option Nat)) (free : Nat) : List (Option Nat) :=
  entries ++ List.replicate free none

lemma setPartner_eq {front behind : List (Option Nat)} {old : Option Nat} {i j : Nat}
    (h : front.length = i) : setPartner (front ++ old :: behind) i j = .ok (front ++ some j :: behind) := by
  subst h
  rw [setPartner, if_pos (by simp)]
  simp

mutual

/-- The walk over the tokens of a proper tree enters the partners of its brackets. -/
lemma pairFrom_tree : ∀ (t : Tree), Proper t → ∀ (stack : List (Nat × String))
    (entries : List (Option Nat)) (free : Nat) (rest : List Token),
    pairFrom stack (tableAt entries (width t + free)) entries.length (t.tokens ++ rest) =
      pairFrom stack (tableAt (entries ++ partnersOf entries.length t) free)
        (entries.length + width t) rest
  | leaf token, hproper, stack, entries, free, rest => by
    obtain ⟨-, hplain⟩ := proper_leaf.mp hproper
    have hskip : pairFrom stack (tableAt entries (1 + free)) entries.length (token :: rest) =
        pairFrom stack (tableAt entries (1 + free)) (entries.length + 1) rest := by
      rw [pairFrom]
      split
      · rename_i mark hmark
        obtain ⟨hopen, hclose⟩ := hplain mark hmark
        rw [hopen, if_neg Bool.false_ne_true, hclose]
      · rfl
    have htable : tableAt entries (1 + free) = tableAt (entries ++ [none]) free := by
      rw [tableAt, Nat.add_comm, List.replicate_succ, tableAt, List.append_assoc, List.singleton_append]
    rw [tokens_leaf, width_leaf, List.singleton_append, hskip, htable, partnersOf]
  | group opener inside closer, hproper, stack, entries, free, rest => by
    obtain ⟨⟨mark, closing, hmark, hopen, hclosing, hnotOpen, hfits⟩, hinside⟩ := proper_group.mp hproper
    have hrest := pairFrom_trees inside hinside ((entries.length, mark) :: stack) (entries ++ [none])
      (1 + free) (closer :: rest)
    rw [List.length_append, List.length_singleton] at hrest
    have htable : tableAt entries (width (group opener inside closer) + free) =
        tableAt (entries ++ [none]) (widthOfAll inside + (1 + free)) := by
      rw [width_group, tableAt, tableAt, List.append_assoc, List.singleton_append,
        ← List.replicate_succ]
      congr 2
      omega
    rw [tokens_group, List.cons_append, List.append_assoc, List.singleton_append, htable, pairFrom, hmark]
    dsimp only
    rw [if_pos hopen, hrest, pairFrom, hclosing]
    dsimp only
    rw [hnotOpen, if_neg Bool.false_ne_true, hfits]
    dsimp only
    rw [if_pos (beq_self_eq_true mark)]
    have hopener : setPartner
        (tableAt (entries ++ [none] ++ partnersOfAll (entries.length + 1) inside) (1 + free))
        entries.length (entries.length + 1 + widthOfAll inside) =
        .ok (tableAt (entries ++ some (entries.length + 1 + widthOfAll inside) ::
          partnersOfAll (entries.length + 1) inside) (1 + free)) := by
      simp only [tableAt, List.append_assoc, List.singleton_append]
      exact setPartner_eq rfl
    have hcloser : setPartner (tableAt (entries ++ some (entries.length + 1 + widthOfAll inside) ::
          partnersOfAll (entries.length + 1) inside) (1 + free))
        (entries.length + 1 + widthOfAll inside) entries.length =
        .ok (tableAt (entries ++ partnersOf entries.length (group opener inside closer)) free) := by
      rw [tableAt, Nat.add_comm 1 free, List.replicate_succ]
      refine (setPartner_eq ?_).trans ?_
      · rw [List.length_append, List.length_cons, length_partnersOfAll]
        omega
      · rw [partnersOf, tableAt]
        simp
    rw [hopener]
    dsimp only [bind, Except.bind]
    rw [hcloser]
    dsimp only
    rw [width_group]
    congr 1
    omega

lemma pairFrom_trees : ∀ (trees : List Tree), ProperAll trees → ∀ (stack : List (Nat × String))
    (entries : List (Option Nat)) (free : Nat) (rest : List Token),
    pairFrom stack (tableAt entries (widthOfAll trees + free)) entries.length (tokensOfAll trees ++ rest) =
      pairFrom stack (tableAt (entries ++ partnersOfAll entries.length trees) free)
        (entries.length + widthOfAll trees) rest
  | [], _, stack, entries, free, rest => by
    simp [partnersOfAll]
  | t :: more, hproper, stack, entries, free, rest => by
    have hfirst := pairFrom_tree t hproper.1 stack entries (widthOfAll more + free)
      (tokensOfAll more ++ rest)
    have hmore := pairFrom_trees more hproper.2 stack (entries ++ partnersOf entries.length t) free rest
    rw [List.length_append, length_partnersOf] at hmore
    rw [widthOfAll_cons, tokensOfAll_cons, List.append_assoc, Nat.add_assoc, hfirst, hmore,
      List.append_assoc, partnersOfAll, Nat.add_assoc]

end

/-! ## Refused brackets -/

/-- The open brackets of the walk are those of the open groups, and their places are in the table. -/
def SameOpen (size : Nat) (stack : List (Nat × String)) (outer : List (Token × List Tree)) : Prop :=
  List.Forall₂ (fun open_ group => open_.1 < size ∧ group.1.kind = .punct open_.2) stack outer

/-- Where the nesting refuses a bracket or the end, so does the walk. -/
lemma pairFrom_error {outer : List (Token × List Tree)} {level : List Tree} {before : List Token}
    {ending : Token} {e : SyntaxError} {stack : List (Nat × String)} {table : List (Option Nat)} {i : Nat}
    (hending : ending.kind = .endOfFile) (hbefore : ∀ t ∈ before, t.kind ≠ .endOfFile)
    (hopen : SameOpen table.length stack outer) (hsize : i + before.length < table.length)
    (h : nestFrom outer level (before ++ [ending]) = .error e) :
    pairFrom stack table i (before ++ [ending]) = refuse e ∨
      ∃ first further table', pairFrom stack table i (before ++ [ending]) = .ok (first :: further, table') ∧
        e = unexpected ending := by
  induction before generalizing outer level stack table i with
  | nil =>
    have hend : pairFrom stack table i [ending] = .ok (stack, table) := by
      unfold pairFrom
      rw [hending]
      rfl
    rw [List.nil_append] at h
    unfold nestFrom at h
    rw [hending] at h
    cases hopen with
    | nil => cases h
    | cons _ _ =>
      cases h
      exact .inr ⟨_, _, _, hend, rfl⟩
  | cons t rest ih =>
    have hkind := hbefore t List.mem_cons_self
    have hrest : ∀ t ∈ rest, t.kind ≠ .endOfFile := fun t ht =>
      hbefore t (List.mem_cons_of_mem _ ht)
    rw [List.length_cons] at hsize
    have hnext : i + 1 + rest.length < table.length := by omega
    rw [List.cons_append] at h ⊢
    unfold nestFrom at h
    unfold pairFrom
    cases hcase : t.kind with
    | punct mark =>
      rw [hcase] at h
      dsimp only at h ⊢
      by_cases hopener : isOpener mark = true
      · rw [if_pos hopener] at h ⊢
        exact ih hrest (hopen.cons ⟨by omega, hcase⟩) hnext h
      · rw [if_neg hopener] at h ⊢
        cases hexpected : openerOf mark with
        | none =>
          rw [hexpected] at h
          exact ih hrest hopen hnext h
        | some expected =>
          rw [hexpected] at h
          dsimp only at h ⊢
          -- a closing bracket is refused if nothing is open, or if the last open group has another mark
          cases hopen with
          | nil =>
            cases h
            exact .inl rfl
          | @cons open_ group stack outer hgroup hmore =>
            obtain ⟨index, kind⟩ := open_
            obtain ⟨opener, inside⟩ := group
            obtain ⟨hindex, hopenerKind⟩ := hgroup
            dsimp only at hindex hopenerKind h ⊢
            by_cases hfits : kind = expected
            · subst hfits
              rw [if_pos (by simp [Token.isPunct, hopenerKind])] at h
              have hfirst : setPartner table index i = .ok (table.set index (some i)) := if_pos hindex
              have hsecond : setPartner (table.set index (some i)) i index =
                  .ok ((table.set index (some i)).set i (some index)) :=
                if_pos (by rw [List.length_set]; omega)
              rw [if_pos (beq_self_eq_true kind), hfirst]
              dsimp only [bind, Except.bind]
              rw [hsecond]
              dsimp only
              exact ih hrest (by simpa [SameOpen] using hmore) (by simpa using hnext) h
            · rw [if_neg (by simp [Token.isPunct, hopenerKind, hfits])] at h
              cases h
              rw [if_neg (by simpa using hfits)]
              exact .inl rfl
    | endOfFile => exact absurd hcase hkind
    | ident _ | privateName _ | text _ | number _ | template | regex =>
      rw [hcase] at h
      exact ih hrest hopen hnext h

/-! ## Trees of the tokens stand in the table -/

lemma get_behind {α : Type} {front more : List α} {a : α} {i : Nat} (h : front.length = i) :
    (front ++ a :: more)[i]? = some a := by
  subst h
  simp

mutual

lemma at_of_lists {s : Sheet} : ∀ (t : Tree) {i : Nat} {front behind : List Token}
    {before beyond : List (Option Nat)}, Proper t → front.length = i → before.length = i →
    s.tokens = front ++ (t.tokens ++ behind) → s.partners = before ++ (partnersOf i t ++ beyond) →
    At s i t
  | leaf token, i, front, behind, before, beyond, hproper, hfront, hbefore, htokens, hpartners => by
    rw [tokens_leaf, List.singleton_append] at htokens
    rw [partnersOf, List.singleton_append] at hpartners
    rw [At]
    refine ⟨proper_leaf.mp hproper, ?_, ?_⟩
    · rw [htokens]
      exact get_behind hfront
    · rw [hpartners]
      exact get_behind hbefore
  | group opener inside closer, i, front, behind, before, beyond, hproper, hfront, hbefore, htokens,
      hpartners => by
    obtain ⟨hfit, hinside⟩ := proper_group.mp hproper
    rw [tokens_group, List.cons_append] at htokens
    rw [partnersOf, List.cons_append] at hpartners
    have htokens' : s.tokens = (front ++ [opener]) ++ (tokensOfAll inside ++ (closer :: behind)) := by
      rw [htokens]
      simp
    have hpartners' : s.partners = (before ++ [some (i + 1 + widthOfAll inside)]) ++
        (partnersOfAll (i + 1) inside ++ (some i :: beyond)) := by
      rw [hpartners]
      simp
    rw [At]
    refine ⟨hfit, ?_, ?_, ?_, ?_, ?_⟩
    · exact allAt_of_lists inside hinside (by simp [hfront]) (by simp [hbefore]) htokens' hpartners'
    · rw [htokens]
      exact get_behind hfront
    · rw [hpartners]
      exact get_behind hbefore
    · rw [htokens', ← List.append_assoc]
      refine get_behind ?_
      rw [List.length_append, List.length_append, hfront, List.length_singleton]
      rfl
    · rw [hpartners', ← List.append_assoc]
      refine get_behind ?_
      rw [List.length_append, List.length_append, hbefore, List.length_singleton, length_partnersOfAll]

lemma allAt_of_lists {s : Sheet} : ∀ (trees : List Tree) {i : Nat} {front behind : List Token}
    {before beyond : List (Option Nat)}, ProperAll trees → front.length = i → before.length = i →
    s.tokens = front ++ (tokensOfAll trees ++ behind) →
    s.partners = before ++ (partnersOfAll i trees ++ beyond) → AllAt s i trees
  | [], _, _, _, _, _, _, _, _, _, _ => by
    rw [AllAt]
    trivial
  | t :: rest, i, front, behind, before, beyond, hproper, hfront, hbefore, htokens, hpartners => by
    obtain ⟨ht, hrest⟩ := properAll_cons.mp hproper
    rw [tokensOfAll_cons, List.append_assoc] at htokens
    rw [partnersOfAll, List.append_assoc] at hpartners
    rw [AllAt]
    refine ⟨at_of_lists t ht hfront hbefore htokens hpartners, ?_⟩
    rw [← List.append_assoc] at htokens hpartners
    refine allAt_of_lists rest hrest ?_ ?_ htokens hpartners
    · rw [List.length_append, hfront]
      rfl
    · rw [List.length_append, hbefore, length_partnersOf]

end

/-- The trees of a file stand at its start, and its end behind them. -/
structure Carries (s : Sheet) (nested : Nested) : Prop where
  trees : AllAt s 0 nested.trees
  ending : s.tokens[widthOfAll nested.trees]? = some nested.ending
  last : s.tokens.length = widthOfAll nested.trees + 1
  isEnd : nested.ending.kind = .endOfFile

/-- The table is filled without leaving it, and brackets are refused where the nesting refuses them. -/
lemma sheetOf_agrees {tokens before : List Token} {ending : Token} (hsplit : tokens = before ++ [ending])
    (hending : ending.kind = .endOfFile) (hbefore : ∀ t ∈ before, t.kind ≠ .endOfFile) :
    Agrees (fun s nested => s.tokens = tokens ∧ Carries s nested) (sheetOf tokens) (nest tokens) := by
  have hne : tokens ≠ [] := by rw [hsplit]; simp
  have hlength : tokens.length = before.length + 1 := by rw [hsplit]; simp
  have hlast : tokens.getLast? = some ending := by rw [hsplit]; simp
  rw [sheetOf, pairBrackets]
  cases hnest : nest tokens with
  | error e =>
    have hroom : 0 + before.length < (List.replicate tokens.length (none : Option Nat)).length := by
      simp [hlength]
    have hrefused : nestFrom [] [] (before ++ [ending]) = .error e := by
      rw [← hsplit]
      exact hnest
    have hwalk := pairFrom_error hending hbefore .nil hroom hrefused
    rw [← hsplit] at hwalk
    rcases hwalk with hwalk | ⟨first, further, table, hwalk, rfl⟩
    · rw [hwalk]
      exact .refused e
    · rw [hwalk, hlast]
      exact .refused _
  | ok nested =>
    have hproper := nest_proper hnest
    rw [hsplit] at hnest
    obtain ⟨htrees, hend⟩ := nestFrom_tokens hending hbefore hnest
    have htrees : tokens = tokensOfAll nested.trees ++ [ending] := by
      rw [hsplit, ← htrees]
      simp [openTokens]
    have hsize : tokens.length = widthOfAll nested.trees + 1 := by
      rw [htrees, List.length_append, List.length_singleton]
      rfl
    have hwalk : pairFrom [] (List.replicate tokens.length none) 0 tokens =
        .ok ([], partnersOfAll 0 nested.trees ++ [none]) := by
      have htable : List.replicate tokens.length none = tableAt [] (widthOfAll nested.trees + 1) := by
        rw [hsize, tableAt, List.nil_append]
      have hall := pairFrom_trees nested.trees hproper [] [] 1 [ending]
      rw [htable]
      conv_lhs => rw [htrees]
      refine hall.trans ?_
      rw [pairFrom, hending]
      rfl
    rw [hwalk, hlast]
    dsimp only [bind, Except.bind]
    rw [dif_pos hne]
    refine .ok ⟨rfl, ⟨?_, ?_, hsize, hend ▸ hending⟩⟩
    · exact allAt_of_lists nested.trees hproper (List.length_nil) (List.length_nil) htrees rfl
    · rw [hend]
      change tokens[widthOfAll nested.trees]? = some ending
      rw [htrees]
      exact get_behind rfl

end TaskRunner.Proofs
