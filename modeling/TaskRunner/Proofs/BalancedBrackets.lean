import TaskRunner.Proofs.IndexedLookups

/-!
# Balanced brackets

The brackets among tokens make a word, and the walk along the tokens accepts exactly the balanced words. Its
stack holds what the word read so far leaves open, and its table pairs what is closed already. A walk that stops
has met a closing bracket that does not close the last open one; one that comes to the end may find brackets
open there.
-/

namespace TaskRunner.Proofs
open Source Tree

/-- The three kinds of brackets. -/
inductive Shape where
  | round
  | square
  | curly
deriving DecidableEq, Repr

/-- A bracket. -/
inductive Bracket where
  | opening (shape : Shape)
  | closing (shape : Shape)
deriving DecidableEq, Repr

/-- The opening bracket of a kind. -/
def Shape.opener : Shape → String
  | round => "("
  | square => "["
  | curly => "\x7b"

/-- The bracket that a token is. -/
def bracketOf? (t : Token) : Option Bracket :=
  match t.kind with
  | .punct "(" => some (.opening .round)
  | .punct ")" => some (.closing .round)
  | .punct "[" => some (.opening .square)
  | .punct "]" => some (.closing .square)
  | .punct "\x7b" => some (.opening .curly)
  | .punct "\x7d" => some (.closing .curly)
  | _ => none

/-- The brackets among tokens. -/
def bracketsIn (tokens : List Token) : List Bracket :=
  tokens.filterMap bracketOf?

/-! ## Words of brackets -/

/-- A balanced word: every opening bracket is closed by one of its kind, with a balanced word between. -/
inductive Balanced : List Bracket → Prop
  | empty : Balanced []
  | pair (shape : Shape) {inside behind : List Bracket} : Balanced inside → Balanced behind →
      Balanced (.opening shape :: (inside ++ .closing shape :: behind))

/-- The word leaves opening brackets of these kinds open, the last one first. -/
inductive LeavesOpen : List Bracket → List Shape → Prop
  | none {word : List Bracket} : Balanced word → LeavesOpen word []
  | more {word behind : List Bracket} {shape : Shape} {outer : List Shape} : LeavesOpen word outer →
      Balanced behind → LeavesOpen (word ++ .opening shape :: behind) (shape :: outer)

/-- What is open behind a word, if every closing bracket closes the last open one. -/
def closeAll : List Shape → List Bracket → Option (List Shape)
  | outer, [] => some outer
  | outer, .opening shape :: rest => closeAll (shape :: outer) rest
  | [], .closing _ :: _ => none
  | open_ :: outer, .closing shape :: rest => if open_ = shape then closeAll outer rest else none

variable {word behind : List Bracket} {shape : Shape} {outer : List Shape}

lemma Balanced.append (h : Balanced word) (hbehind : Balanced behind) : Balanced (word ++ behind) := by
  induction h with
  | empty => exact hbehind
  | pair shape hinside _ _ ih =>
    rw [List.cons_append, List.append_assoc, List.cons_append]
    exact .pair shape hinside ih

lemma LeavesOpen.append (h : LeavesOpen word outer) (hbehind : Balanced behind) :
    LeavesOpen (word ++ behind) outer := by
  cases h with
  | none hword => exact .none (hword.append hbehind)
  | more hword hmore =>
    rw [List.append_assoc, List.cons_append]
    exact .more hword (hmore.append hbehind)

lemma LeavesOpen.opening (h : LeavesOpen word outer) (shape : Shape) :
    LeavesOpen (word ++ [.opening shape]) (shape :: outer) :=
  .more h .empty

lemma LeavesOpen.closing (h : LeavesOpen word (shape :: outer)) :
    LeavesOpen (word ++ [.closing shape]) outer := by
  cases h with
  | more hword hmore =>
    rw [List.append_assoc, List.cons_append]
    exact hword.append (.pair shape hmore .empty)

lemma Balanced.closeAll_append (h : Balanced word) (outer : List Shape) (behind : List Bracket) :
    closeAll outer (word ++ behind) = closeAll outer behind := by
  induction h generalizing outer behind with
  | empty => rfl
  | pair shape _ _ ihInside ihBehind =>
    rw [List.cons_append, List.append_assoc, List.cons_append, closeAll, ihInside, closeAll, if_pos rfl,
      ihBehind]

lemma LeavesOpen.closeAll_append (h : LeavesOpen word outer) (behind : List Bracket) :
    closeAll [] (word ++ behind) = closeAll outer behind := by
  induction h generalizing behind with
  | none hword => exact hword.closeAll_append [] behind
  | more _ hmore ih => rw [List.append_assoc, List.cons_append, ih, closeAll, hmore.closeAll_append]

lemma Balanced.closeAll_eq (h : Balanced word) : closeAll [] word = some [] := by
  rw [← List.append_nil word, h.closeAll_append]
  rfl

/-- A balanced word leaves nothing open. -/
lemma LeavesOpen.nothing (h : LeavesOpen word outer) (hword : Balanced word) : outer = [] := by
  have hclosed := h.closeAll_append []
  rw [List.append_nil, hword.closeAll_eq] at hclosed
  exact (Option.some.inj hclosed).symm

lemma LeavesOpen.balanced (h : LeavesOpen word outer) (hnothing : outer = []) : Balanced word := by
  cases h with
  | none hword => exact hword
  | more _ _ => cases hnothing

/-- In a balanced word every closing bracket closes the last open one. -/
lemma LeavesOpen.last_open (h : LeavesOpen word outer)
    (hword : Balanced (word ++ .closing shape :: behind)) : outer.head? = some shape := by
  have hclosed := h.closeAll_append (.closing shape :: behind)
  rw [hword.closeAll_eq] at hclosed
  cases outer with
  | nil => cases hclosed
  | cons open_ further =>
    rw [closeAll] at hclosed
    split at hclosed
    · rename_i hsame
      rw [hsame]
      rfl
    · cases hclosed

/-! ## What the walk sees -/

variable {t : Token} {tokens rest : List Token} {stack : List (Nat × String)} {table : List (Option Nat)}
  {i : Nat}

lemma opener_inj {a b : Shape} : a.opener = b.opener ↔ a = b := by
  cases a <;> cases b <;> decide

/-- A token opens or closes a group of one kind, or it is no bracket. -/
lemma bracket_cases (t : Token) :
    (∃ shape, bracketOf? t = some (.opening shape) ∧ t.kind = .punct shape.opener ∧
      isOpener shape.opener = true) ∨
    (∃ shape mark, bracketOf? t = some (.closing shape) ∧ t.kind = .punct mark ∧ isOpener mark = false ∧
      openerOf mark = some shape.opener) ∨
    (bracketOf? t = none ∧ ∀ mark, t.kind = .punct mark → isOpener mark = false ∧ openerOf mark = none) := by
  unfold bracketOf?
  split
  · rename_i hkind
    exact .inl ⟨.round, rfl, hkind, by decide⟩
  · rename_i hkind
    exact .inr (.inl ⟨.round, _, rfl, hkind, by decide, rfl⟩)
  · rename_i hkind
    exact .inl ⟨.square, rfl, hkind, by decide⟩
  · rename_i hkind
    exact .inr (.inl ⟨.square, _, rfl, hkind, by decide, rfl⟩)
  · rename_i hkind
    exact .inl ⟨.curly, rfl, hkind, by decide⟩
  · rename_i hkind
    exact .inr (.inl ⟨.curly, _, rfl, hkind, by decide, rfl⟩)
  · rename_i h₁ h₂ h₃ h₄ h₅ h₆
    refine .inr (.inr ⟨rfl, fun mark hmark => ?_⟩)
    rw [hmark] at h₁ h₂ h₃ h₄ h₅ h₆
    have hmarks : mark ≠ "(" ∧ mark ≠ ")" ∧ mark ≠ "[" ∧ mark ≠ "]" ∧ mark ≠ "\x7b" ∧
        mark ≠ "\x7d" := by
      refine ⟨?_, ?_, ?_, ?_, ?_, ?_⟩ <;> rintro rfl <;> simp at *
    obtain ⟨m₁, m₂, m₃, m₄, m₅, m₆⟩ := hmarks
    refine ⟨by simp [isOpener, m₁, m₃, m₅], ?_⟩
    unfold openerOf
    split
    · exact absurd rfl m₂
    · exact absurd rfl m₄
    · exact absurd rfl m₆
    · rfl

lemma pairFrom_plain (h : bracketOf? t = none) :
    pairFrom stack table i (t :: rest) = pairFrom stack table (i + 1) rest := by
  rcases bracket_cases t with ⟨_, h', -⟩ | ⟨_, _, h', -⟩ | ⟨-, hplain⟩
  · rw [h] at h'
    cases h'
  · rw [h] at h'
    cases h'
  · rw [pairFrom]
    split
    · rename_i mark hmark
      obtain ⟨hopen, hclose⟩ := hplain mark hmark
      rw [hopen, if_neg Bool.false_ne_true, hclose]
    · rfl

lemma pairFrom_opening (h : bracketOf? t = some (.opening shape)) :
    pairFrom stack table i (t :: rest) = pairFrom ((i, shape.opener) :: stack) table (i + 1) rest := by
  rcases bracket_cases t with ⟨_, h', hkind, hopen⟩ | ⟨_, _, h', -⟩ | ⟨h', -⟩
  · rw [h] at h'
    cases h'
    rw [pairFrom, hkind]
    exact if_pos hopen
  · rw [h] at h'
    cases h'
  · rw [h] at h'
    cases h'

/-- A closing bracket takes the last open one off the stack, if that is of its kind. -/
lemma pairFrom_closing {o : Nat} {open_ : Shape} (h : bracketOf? t = some (.closing shape)) (ho : o < table.length)
    (hi : i < table.length) :
    pairFrom ((o, open_.opener) :: stack) table i (t :: rest) =
      if open_ = shape then pairFrom stack ((table.set o (some i)).set i (some o)) (i + 1) rest
      else refuse (unexpected t) := by
  rcases bracket_cases t with ⟨_, h', -⟩ | ⟨_, mark, h', hkind, hopen, hopener⟩ | ⟨h', -⟩
  · rw [h] at h'
    cases h'
  · rw [h] at h'
    cases h'
    rw [pairFrom, hkind]
    dsimp only
    rw [hopen, if_neg Bool.false_ne_true, hopener]
    dsimp only
    by_cases hsame : open_ = shape
    · rw [if_pos (by simpa using congrArg Shape.opener hsame), if_pos hsame, setPartner, if_pos ho]
      dsimp only [bind, Except.bind]
      rw [setPartner, if_pos (by rw [List.length_set]; exact hi)]
    · rw [if_neg (by simpa [opener_inj] using hsame), if_neg hsame]
  · rw [h] at h'
    cases h'

lemma pairFrom_closing_nothing (h : bracketOf? t = some (.closing shape)) :
    pairFrom [] table i (t :: rest) = refuse (unexpected t) := by
  rcases bracket_cases t with ⟨_, h', -⟩ | ⟨_, mark, h', hkind, hopen, hopener⟩ | ⟨h', -⟩
  · rw [h] at h'
    cases h'
  · rw [pairFrom, hkind]
    dsimp only
    rw [hopen, if_neg Bool.false_ne_true, hopener]
  · rw [h] at h'
    cases h'

/-! ## What the walk keeps -/

/-- The bracket at an index. -/
def bracketAt (tokens : List Token) (i : Nat) : Option Bracket :=
  tokens[i]?.bind bracketOf?

/-- An opening bracket and a later closing one of its kind. -/
def Couple (tokens : List Token) (a b : Nat) : Prop :=
  a < b ∧ ∃ shape, bracketAt tokens a = some (.opening shape) ∧ bracketAt tokens b = some (.closing shape)

/-- The entries of the table pair brackets, symmetrically, an opening one with a later closing one of its
kind, and any two pairs are nested or disjoint. -/
structure Paired (tokens : List Token) (table : List (Option Nat)) : Prop where
  size : table.length = tokens.length
  symmetric : ∀ a b : Nat, table[a]? = some (some b) → table[b]? = some (some a)
  couples : ∀ a b : Nat, table[a]? = some (some b) → Couple tokens a b ∨ Couple tokens b a
  nested : ∀ a b c d : Nat, table[a]? = some (some b) → table[c]? = some (some d) → a < b → c < d → a < c →
    b < c ∨ d < b

/-- The table pairs brackets, and exactly the brackets have an entry. -/
structure PairsUp (tokens : List Token) (table : List (Option Nat)) : Prop extends Paired tokens table where
  entered : ∀ i : Nat, (∃ j, table[i]? = some (some j)) ↔ (bracketAt tokens i).isSome

/-- The walk has come to an index: what it read leaves the brackets of the stack open, which stand where the
stack says and in no pair, and every other bracket has an entry. -/
structure Walked (tokens : List Token) (i : Nat) (stack : List (Nat × Shape)) (table : List (Option Nat)) :
    Prop where
  paired : Paired tokens table
  word : LeavesOpen (bracketsIn (tokens.take i)) (stack.map Prod.snd)
  opened : ∀ p ∈ stack, p.1 < i ∧ bracketAt tokens p.1 = some (.opening p.2)
  sorted : stack.Pairwise fun p q => q.1 < p.1
  apart : ∀ p ∈ stack, ∀ a b : Nat, table[a]? = some (some b) → a < b → b < p.1 ∨ p.1 < a
  behind : ∀ a b : Nat, table[a]? = some (some b) → a < i
  covered : ∀ k < i, (bracketAt tokens k).isSome → (∃ j, table[k]? = some (some j)) ∨ k ∈ stack.map Prod.fst

/-- The stack of the walk, with the marks of the open brackets. -/
def stackedMarks (stack : List (Nat × Shape)) : List (Nat × String) :=
  stack.map fun p => (p.1, p.2.opener)

/-- A closing bracket that does not close the last open bracket in front of it; all closing brackets in front
of it do. -/
def StraysAt (tokens : List Token) (t : Token) : Prop :=
  ∃ front behind shape outer, tokens = front ++ t :: behind ∧ bracketOf? t = some (.closing shape) ∧
    LeavesOpen (bracketsIn front) outer ∧ outer.head? ≠ some shape

variable {open_ : List (Nat × Shape)}

lemma bracketsIn_take_succ (tokens : List Token) (i : Nat) :
    bracketsIn (tokens.take (i + 1)) = bracketsIn (tokens.take i) ++ (bracketAt tokens i).toList := by
  rw [bracketsIn, List.take_add_one, List.filterMap_append, bracketsIn, bracketAt]
  cases tokens[i]? with
  | none => rfl
  | some t => cases ht : bracketOf? t <;> simp [ht]

lemma walked_start (tokens : List Token) : Walked tokens 0 [] (List.replicate tokens.length none) := by
  have hnone : ∀ a b : Nat, (List.replicate tokens.length (none : Option Nat))[a]? ≠ some (some b) := by
    intro a b h
    rw [List.getElem?_replicate] at h
    split at h <;> cases h
  refine ⟨⟨List.length_replicate, fun a b h => absurd h (hnone a b), fun a b h => absurd h (hnone a b),
    fun a b _ _ h => absurd h (hnone a b)⟩, ?_, by simp, List.Pairwise.nil, by simp,
    fun a b h => absurd h (hnone a b), by simp⟩
  exact .none .empty

lemma Walked.plain (h : Walked tokens i open_ table) (ht : bracketAt tokens i = none) :
    Walked tokens (i + 1) open_ table := by
  refine { h with word := ?_, opened := ?_, behind := ?_, covered := ?_ }
  · rw [bracketsIn_take_succ, ht]
    simpa using h.word
  · exact fun p hp => ⟨Nat.lt_succ_of_lt (h.opened p hp).1, (h.opened p hp).2⟩
  · exact fun a b hab => Nat.lt_succ_of_lt (h.behind a b hab)
  · intro k hk hbracket
    rcases Nat.lt_succ_iff_lt_or_eq.mp hk with hlt | rfl
    · exact h.covered k hlt hbracket
    · rw [ht] at hbracket
      cases hbracket

lemma Walked.opening (h : Walked tokens i open_ table) (ht : bracketAt tokens i = some (.opening shape)) :
    Walked tokens (i + 1) ((i, shape) :: open_) table := by
  refine { paired := h.paired, word := ?_, opened := ?_, sorted := ?_, apart := ?_, behind := ?_,
           covered := ?_ }
  · rw [bracketsIn_take_succ, ht]
    exact h.word.opening shape
  · intro p hp
    rcases List.mem_cons.mp hp with rfl | hp
    · exact ⟨Nat.lt_succ_self i, ht⟩
    · exact ⟨Nat.lt_succ_of_lt (h.opened p hp).1, (h.opened p hp).2⟩
  · exact List.pairwise_cons.mpr ⟨fun p hp => (h.opened p hp).1, h.sorted⟩
  · intro p hp a b hab hlt
    rcases List.mem_cons.mp hp with rfl | hp
    · exact .inl (h.behind b a (h.paired.symmetric a b hab))
    · exact h.apart p hp a b hab hlt
  · exact fun a b hab => Nat.lt_succ_of_lt (h.behind a b hab)
  · intro k hk hbracket
    rcases Nat.lt_succ_iff_lt_or_eq.mp hk with hlt | rfl
    · exact (h.covered k hlt hbracket).imp_right (List.mem_cons_of_mem _)
    · exact .inr List.mem_cons_self

/-- A bracket that is open has no entry. -/
lemma Walked.free (h : Walked tokens i open_ table) {p : Nat × Shape} (hp : p ∈ open_) (b : Nat) :
    table[p.1]? ≠ some (some b) := by
  intro hb
  rcases h.paired.couples p.1 b hb with ⟨hlt, -⟩ | ⟨hlt, -⟩
  · have hapart := h.apart p hp p.1 b hb hlt
    omega
  · have hapart := h.apart p hp b p.1 (h.paired.symmetric _ _ hb) hlt
    omega

/-- The entries of a table with one more pair. -/
lemma entry_paired {o a b : Nat} (ho : o < i) (hi : i < table.length) :
    ((table.set o (some i)).set i (some o))[a]? = some (some b) ↔
      (a = o ∧ b = i) ∨ (a = i ∧ b = o) ∨ (a ≠ o ∧ a ≠ i ∧ table[a]? = some (some b)) := by
  rw [List.getElem?_set, List.getElem?_set, List.length_set]
  by_cases hai : i = a
  · subst hai
    rw [if_pos rfl, if_pos hi]
    simp only [Option.some.injEq, ne_eq, not_true_eq_false, false_and, and_false, or_false, true_and]
    omega
  · rw [if_neg hai]
    by_cases hao : o = a
    · subst hao
      rw [if_pos rfl, if_pos (Nat.lt_trans ho hi)]
      simp only [Option.some.injEq, ne_eq, not_true_eq_false, false_and, or_false, true_and]
      omega
    · rw [if_neg hao]
      simp [Ne.symm hao, Ne.symm hai]

lemma Walked.closing {o : Nat} (h : Walked tokens i ((o, shape) :: open_) table) (hi : i < tokens.length)
    (ht : bracketAt tokens i = some (.closing shape)) :
    Walked tokens (i + 1) open_ ((table.set o (some i)).set i (some o)) := by
  obtain ⟨ho, hopen⟩ := h.opened _ List.mem_cons_self
  dsimp only at ho hopen
  have hsize : i < table.length := h.paired.size ▸ hi
  have hfree : ∀ b, table[o]? ≠ some (some b) := h.free List.mem_cons_self
  have hbelow : ∀ p ∈ open_, p.1 < o := (List.pairwise_cons.mp h.sorted).1
  -- old pairs lie behind the bracket that is closed, or in front of it
  have hold : ∀ a b : Nat, table[a]? = some (some b) → a < b → (b < o ∨ o < a) ∧ b < i := fun a b hab hlt =>
    ⟨h.apart _ List.mem_cons_self a b hab hlt, h.behind b a (h.paired.symmetric a b hab)⟩
  have hentry := fun a b => entry_paired (a := a) (b := b) ho hsize
  refine { paired := ⟨?_, ?_, ?_, ?_⟩, word := ?_, opened := ?_, sorted := ?_, apart := ?_, behind := ?_,
           covered := ?_ }
  · rw [List.length_set, List.length_set, h.paired.size]
  · intro a b hab
    rw [hentry] at hab ⊢
    rcases hab with ⟨rfl, rfl⟩ | ⟨rfl, rfl⟩ | ⟨hao, hai, hab⟩
    · exact .inr (.inl ⟨rfl, rfl⟩)
    · exact .inl ⟨rfl, rfl⟩
    · have hba := h.paired.symmetric a b hab
      refine .inr (.inr ⟨?_, Nat.ne_of_lt (h.behind b a hba), hba⟩)
      rintro rfl
      exact hfree _ hba
  · intro a b hab
    rw [hentry] at hab
    rcases hab with ⟨rfl, rfl⟩ | ⟨rfl, rfl⟩ | ⟨-, -, hab⟩
    · exact .inl ⟨ho, shape, hopen, ht⟩
    · exact .inr ⟨ho, shape, hopen, ht⟩
    · exact h.paired.couples a b hab
  · intro a b c d hab hcd hlt hlt' hac
    rw [hentry] at hab hcd
    rcases hab with ⟨rfl, rfl⟩ | ⟨rfl, rfl⟩ | ⟨-, -, hab⟩ <;>
      rcases hcd with ⟨rfl, rfl⟩ | ⟨rfl, rfl⟩ | ⟨-, -, hcd⟩
    · omega
    · omega
    · exact .inr (hold c d hcd hlt').2
    · omega
    · omega
    · omega
    · have hside := hold a b hab hlt
      omega
    · omega
    · exact h.paired.nested a b c d hab hcd hlt hlt' hac
  · rw [bracketsIn_take_succ, ht]
    exact h.word.closing
  · intro p hp
    obtain ⟨hlt, hbracket⟩ := h.opened p (List.mem_cons_of_mem _ hp)
    exact ⟨Nat.lt_succ_of_lt hlt, hbracket⟩
  · exact (List.pairwise_cons.mp h.sorted).2
  · intro p hp a b hab hlt
    rw [hentry] at hab
    rcases hab with ⟨rfl, rfl⟩ | ⟨rfl, rfl⟩ | ⟨-, -, hab⟩
    · exact .inr (hbelow p hp)
    · omega
    · exact h.apart p (List.mem_cons_of_mem _ hp) a b hab hlt
  · intro a b hab
    rw [hentry] at hab
    rcases hab with ⟨rfl, rfl⟩ | ⟨rfl, rfl⟩ | ⟨-, -, hab⟩
    · omega
    · omega
    · exact Nat.lt_succ_of_lt (h.behind a b hab)
  · intro k hk hbracket
    by_cases hko : k = o
    · exact .inl ⟨i, (hentry k i).mpr (.inl ⟨hko, rfl⟩)⟩
    · by_cases hki : k = i
      · exact .inl ⟨o, (hentry k o).mpr (.inr (.inl ⟨hki, rfl⟩))⟩
      · rcases h.covered k (by omega) hbracket with ⟨j, hj⟩ | hmem
        · exact .inl ⟨j, (hentry k j).mpr (.inr (.inr ⟨hko, hki, hj⟩))⟩
        · rw [List.map_cons, List.mem_cons] at hmem
          exact .inr (hmem.resolve_left hko)

/-! ## The whole walk -/

/-- The walk over the rest of the tokens comes to the end, or it stops at a bracket that strays. -/
lemma Walked.walk (h : Walked tokens i open_ table) (hrest : tokens.drop i = rest) :
    (∃ open_' table', pairFrom (stackedMarks open_) table i rest = .ok (stackedMarks open_', table') ∧
      Walked tokens (i + rest.length) open_' table') ∨
    ∃ t, pairFrom (stackedMarks open_) table i rest = refuse (unexpected t) ∧ StraysAt tokens t := by
  induction rest generalizing i open_ table with
  | nil => exact .inl ⟨open_, table, by rw [pairFrom], h⟩
  | cons t rest ih =>
    have hi : i < tokens.length := by
      rw [← List.drop_eq_nil_iff.not.trans Nat.not_le, hrest]
      exact List.cons_ne_nil _ _
    have hsplit : tokens = tokens.take i ++ t :: rest := by rw [← hrest, List.take_append_drop]
    have ht : tokens[i]? = some t := by
      rw [← List.head?_drop, hrest]
      rfl
    have hbracket : bracketAt tokens i = bracketOf? t := by
      rw [bracketAt, ht]
      rfl
    have hnext : tokens.drop (i + 1) = rest := by
      rw [← List.tail_drop, hrest]
      rfl
    rw [List.length_cons, ← Nat.add_assoc, Nat.add_right_comm]
    cases hcase : bracketOf? t with
    | none =>
      rw [pairFrom_plain hcase]
      exact ih (h.plain (hbracket.trans hcase)) hnext
    | some bracket =>
      cases bracket with
      | opening shape =>
        rw [pairFrom_opening hcase]
        exact ih (h.opening (hbracket.trans hcase)) hnext
      | closing shape =>
        cases open_ with
        | nil =>
          exact .inr ⟨t, pairFrom_closing_nothing hcase, _, _, shape, [], hsplit, hcase, h.word, by simp⟩
        | cons last further =>
          obtain ⟨o, kind⟩ := last
          have ho : o < i := (h.opened _ List.mem_cons_self).1
          have hsize := h.paired.size
          rw [stackedMarks, List.map_cons, pairFrom_closing hcase (by omega) (by omega)]
          by_cases hsame : kind = shape
          · subst hsame
            rw [if_pos rfl]
            exact ih (h.closing hi (hbracket.trans hcase)) hnext
          · rw [if_neg hsame]
            refine .inr ⟨t, rfl, _, _, shape, _, hsplit, hcase, h.word, ?_⟩
            simpa using hsame

lemma StraysAt.not_balanced (h : StraysAt tokens t) : ¬ Balanced (bracketsIn tokens) := by
  obtain ⟨front, behind, shape, outer, rfl, ht, hfront, hother⟩ := h
  intro hbalanced
  rw [bracketsIn, List.filterMap_append, List.filterMap_cons, ht] at hbalanced
  exact hother (hfront.last_open hbalanced)

/-- At the end of the walk with nothing open, every bracket has its partner. -/
lemma Walked.pairsUp (h : Walked tokens tokens.length [] table) : PairsUp tokens table := by
  refine { h.paired with entered := fun i => ⟨?_, fun hbracket => ?_⟩ }
  · rintro ⟨j, hj⟩
    rcases h.paired.couples i j hj with ⟨-, shape, hopen, -⟩ | ⟨-, shape, -, hclose⟩
    · rw [hopen]
      rfl
    · rw [hclose]
      rfl
  · have hi : i < tokens.length := by
      by_contra hout
      rw [bracketAt, List.getElem?_eq_none (Nat.not_lt.mp hout)] at hbracket
      cases hbracket
    exact (h.covered i hi hbracket).resolve_right List.not_mem_nil

/-- Either the brackets are balanced and the table pairs them up, or the walk stops at a bracket that strays
or comes to the end with brackets open. -/
lemma pairBrackets_cases {ending : Token} (hlast : tokens.getLast? = some ending) :
    (∃ table, pairBrackets tokens = .ok table ∧ PairsUp tokens table ∧ Balanced (bracketsIn tokens)) ∨
    ∃ t, pairBrackets tokens = refuse (unexpected t) ∧ ¬ Balanced (bracketsIn tokens) ∧
      (StraysAt tokens t ∨
        t = ending ∧ ∃ shape outer, LeavesOpen (bracketsIn tokens) (shape :: outer)) := by
  have hwalk := (walked_start tokens).walk (List.drop_zero)
  rw [Nat.zero_add] at hwalk
  rw [pairBrackets, hlast]
  rcases hwalk with ⟨open_, table, hrun, hend⟩ | ⟨t, hrun, hstray⟩
  · have hword := hend.word
    rw [List.take_length] at hword
    rw [show ([] : List (Nat × String)) = stackedMarks [] from rfl, hrun]
    cases open_ with
    | nil => exact .inl ⟨table, rfl, hend.pairsUp, hword.balanced rfl⟩
    | cons last further =>
      refine .inr ⟨ending, rfl, fun hbalanced => ?_, .inr ⟨rfl, _, _, hword⟩⟩
      exact List.cons_ne_nil _ _ (hword.nothing hbalanced)
  · rw [show ([] : List (Nat × String)) = stackedMarks [] from rfl, hrun]
    exact .inr ⟨t, rfl, hstray.not_balanced, .inl hstray⟩

/-- Tokens that end the file are paired up if and only if their brackets are balanced, and the table then pairs
all of them and nothing else, each opening bracket with a later closing one of its kind, without any two pairs
crossing. Otherwise the complaint is about the first closing bracket that does not close the last open one, or,
if all do, about the end that leaves brackets open. Where the end comes only once, the nesting of the tokens
complains about the same, or it gives the trees that stand in the table. -/
theorem pairs_up_iff_balanced (before : List Token) (ending : Token) (hending : ending.kind = .endOfFile) :
    ((∃ table, pairBrackets (before ++ [ending]) = .ok table) ↔ Balanced (bracketsIn (before ++ [ending]))) ∧
    (∀ table, pairBrackets (before ++ [ending]) = .ok table → PairsUp (before ++ [ending]) table) ∧
    (¬ Balanced (bracketsIn (before ++ [ending])) →
      ∃ t, pairBrackets (before ++ [ending]) = refuse (unexpected t) ∧
        (StraysAt (before ++ [ending]) t ∨
          t = ending ∧ ∃ shape outer, LeavesOpen (bracketsIn (before ++ [ending])) (shape :: outer))) ∧
    ((∀ t ∈ before, t.kind ≠ .endOfFile) →
      Agrees (fun s nested => s.tokens = before ++ [ending] ∧ Carries s nested)
        (sheetOf (before ++ [ending])) (nest (before ++ [ending]))) := by
  have hlast : (before ++ [ending]).getLast? = some ending := by simp
  refine ⟨?_, ?_, ?_, fun honce => sheetOf_agrees rfl hending honce⟩ <;>
    rcases pairBrackets_cases hlast with ⟨table, hok, hpairs, hbalanced⟩ | ⟨t, hrefused, hnot, hwhere⟩
  · exact iff_of_true ⟨table, hok⟩ hbalanced
  · refine iff_of_false ?_ hnot
    rintro ⟨table, hok⟩
    rw [hrefused] at hok
    cases hok
  · intro table' hok'
    rw [hok] at hok'
    cases hok'
    exact hpairs
  · intro table hok
    rw [hrefused] at hok
    cases hok
  · exact fun hnot => absurd hbalanced hnot
  · exact fun _ => ⟨t, hrefused, hwhere⟩

/-- Tokens of the given kinds, each one column wide. -/
def lineOf (kinds : List Kind) : List Token :=
  kinds.zipIdx.map fun (kind, n) => ⟨kind, ⟨n, n + 1⟩, ⟨1, n + 1⟩, false, []⟩

/-- The end behind tokens of the given number. -/
def endAfter (n : Nat) : Token :=
  ⟨.endOfFile, ⟨n, n⟩, ⟨1, n + 1⟩, false, []⟩

/-- In a call with a list the brackets are paired up, and a list that is closed by a parenthesis is refused
there. -/
theorem pairs_up_iff_balanced_call :
    (endAfter 5).kind = .endOfFile ∧
    PairsUp (lineOf [.ident "f", .punct "(", .punct "[", .punct "]", .punct ")"] ++ [endAfter 5])
      [none, some 4, some 3, some 2, some 1, none] ∧
    ¬ Balanced (bracketsIn (lineOf [.punct "(", .punct "[", .punct ")"] ++ [endAfter 3])) := by
  obtain ⟨-, hcall, -, -⟩ := pairs_up_iff_balanced
    (lineOf [.ident "f", .punct "(", .punct "[", .punct "]", .punct ")"]) (endAfter 5) rfl
  obtain ⟨hcrossed, -, -, -⟩ := pairs_up_iff_balanced
    (lineOf [.punct "(", .punct "[", .punct ")"]) (endAfter 3) rfl
  refine ⟨rfl, hcall _ rfl, fun hbalanced => ?_⟩
  obtain ⟨table, hok⟩ := hcrossed.mpr hbalanced
  cases hok

end TaskRunner.Proofs
