import Mathlib.Tactic.Conv
import TaskRunner.Proofs.ExportEnds

/-!
# Parts between commas

Trees are cut at marks that stand outside of their groups. Trees without a comma are one part, and a comma
ends the part in front of it, which may be empty.
-/

namespace TaskRunner.Proofs
open Source Tree

variable {trees front part : List Tree}

lemma cutAt_some {mark : String} {before behind : List Tree}
    (h : cutAt mark trees = some (before, behind)) :
    ∃ token, trees = before ++ leaf token :: behind ∧ token.isPunct mark = true := by
  induction trees generalizing before with
  | nil => cases h
  | cons t rest ih =>
    rw [cutAt] at h
    by_cases hpunct : t.isPunct mark = true
    · rw [if_pos hpunct] at h
      obtain ⟨rfl, rfl⟩ := Prod.mk.inj (Option.some.inj h)
      cases t with
      | leaf token => exact ⟨token, rfl, hpunct⟩
      | group opener inside closer => cases hpunct
    · rw [if_neg hpunct] at h
      obtain ⟨⟨front, more⟩, hcut, heq⟩ := Option.map_eq_some_iff.mp h
      obtain ⟨rfl, rfl⟩ := Prod.mk.inj heq
      obtain ⟨token, rfl, htoken⟩ := ih hcut
      exact ⟨token, rfl, htoken⟩

/-- No comma stands outside of the groups. -/
def CommaFree (trees : List Tree) : Prop :=
  ∀ t ∈ trees, t.isPunct "," = false

lemma commaFree_nil : CommaFree [] :=
  fun _ ht => absurd ht List.not_mem_nil

lemma commaFree_cons {t : Tree} {rest : List Tree} :
    CommaFree (t :: rest) ↔ t.isPunct "," = false ∧ CommaFree rest :=
  List.forall_mem_cons

lemma splitAtCommas_part (h : CommaFree front) :
    splitAtCommas front = if front = [] then [] else [front] := by
  induction front with
  | nil => rfl
  | cons t rest ih =>
    obtain ⟨ht, hrest⟩ := commaFree_cons.mp h
    have hparts := ih hrest
    rw [if_neg (List.cons_ne_nil t rest)]
    cases rest with
    | nil => simp [splitAtCommas, ht]
    | cons next rest =>
      rw [if_neg (List.cons_ne_nil next rest)] at hparts
      conv_lhs => unfold splitAtCommas
      simp [ht, hparts, hrest next List.mem_cons_self]

lemma splitAtCommas_comma (h : CommaFree front) {comma : Token} (hcomma : comma.isPunct "," = true)
    (more : List Tree) : splitAtCommas (front ++ leaf comma :: more) = front :: splitAtCommas more := by
  have hmark : (leaf comma).isPunct "," = true := hcomma
  induction front with
  | nil =>
    rw [List.nil_append]
    conv_lhs => unfold splitAtCommas
    exact if_pos hmark
  | cons t rest ih =>
    obtain ⟨ht, hrest⟩ := commaFree_cons.mp h
    have hparts := ih hrest
    rw [List.cons_append]
    conv_lhs => unfold splitAtCommas
    rw [hparts, ht, if_neg Bool.false_ne_true]
    cases rest with
    | nil => simp [hmark]
    | cons next rest => simp [hrest next List.mem_cons_self]

/-- Trees have no comma, or a first one. -/
lemma comma_cases (trees : List Tree) : CommaFree trees ∨
    ∃ front comma more, trees = front ++ leaf comma :: more ∧ CommaFree front ∧
      comma.isPunct "," = true := by
  induction trees with
  | nil => exact .inl commaFree_nil
  | cons t rest ih =>
    by_cases hcomma : t.isPunct "," = true
    · obtain ⟨comma, rfl, -⟩ := leaf_of_isPunct hcomma
      exact .inr ⟨[], comma, rest, rfl, commaFree_nil, hcomma⟩
    · have hplain := eq_false_of_ne_true hcomma
      rcases ih with hfree | ⟨front, comma, more, rfl, hfree, hmark⟩
      · exact .inl (commaFree_cons.mpr ⟨hplain, hfree⟩)
      · exact .inr ⟨t :: front, comma, more, rfl, commaFree_cons.mpr ⟨hplain, hfree⟩, hmark⟩

/-- The parts between commas consist of trees of the list. -/
lemma mem_of_splitAtCommas (h : part ∈ splitAtCommas trees) : ∀ t ∈ part, t ∈ trees := by
  induction trees generalizing part with
  | nil => cases h
  | cons t rest ih =>
    rw [splitAtCommas.eq_def] at h
    dsimp only at h
    split at h
    · rcases List.mem_cons.mp h with rfl | h
      · exact List.forall_mem_nil _
      · exact fun u hu => List.mem_cons_of_mem _ (ih h u hu)
    · split at h
      · rename_i first more hsplit
        have hmore : ∀ part ∈ first :: more, ∀ u ∈ part, u ∈ _ :=
          fun part hpart => ih (by rw [hsplit]; exact hpart)
        split at h
        · rcases List.mem_cons.mp h with rfl | h
          · exact fun u hu => by rw [List.mem_singleton.mp hu]; exact List.mem_cons_self
          · exact fun u hu => List.mem_cons_of_mem _ (hmore part (List.mem_cons_of_mem _ h) u hu)
        · rcases List.mem_cons.mp h with rfl | h
          · exact List.forall_mem_cons.mpr
              ⟨List.mem_cons_self, fun u hu => List.mem_cons_of_mem _ (hmore first List.mem_cons_self u hu)⟩
          · exact fun u hu => List.mem_cons_of_mem _ (hmore part (List.mem_cons_of_mem _ h) u hu)
      · rcases List.mem_cons.mp h with rfl | h
        · exact fun u hu => by rw [List.mem_singleton.mp hu]; exact List.mem_cons_self
        · exact fun u hu => List.mem_cons_of_mem _ (ih h u hu)

end TaskRunner.Proofs
