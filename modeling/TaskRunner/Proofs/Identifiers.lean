import Mathlib.Tactic.Lemma
import TaskRunner.Command.Naming
import TaskRunner.Source.Lexer

/-!
# Identifiers

The names that a script gives to functions, parameters and properties. The flag of a property is its
dash-separated form, which is never empty and holds no equals sign, so the value behind an equals sign is
always told from the flag.
-/

namespace TaskRunner.Proofs
open Source

/-- A name written without escapes. -/
def IsIdentifier (name : String) : Prop :=
  ∃ c rest, name.toList = c :: rest ∧ isNameStart c = true ∧ ∀ d ∈ rest, isNamePart d = true

instance (name : String) : Decidable (IsIdentifier name) :=
  match h : name.toList with
  | [] => isFalse fun ⟨_, _, hname, _⟩ => nomatch h.symm.trans hname
  | c :: rest =>
    decidable_of_iff (isNameStart c = true ∧ rest.all isNamePart = true)
      ⟨fun ⟨hc, hrest⟩ => ⟨c, rest, h, hc, List.all_eq_true.mp hrest⟩, fun ⟨_, _, hname, hc, hrest⟩ => by
        obtain ⟨rfl, rfl⟩ := List.cons.inj (h.symm.trans hname)
        exact ⟨hc, List.all_eq_true.mpr hrest⟩⟩

lemma isNamePart_of_isNameStart {c : Char} (h : isNameStart c = true) : isNamePart c = true := by
  simp [isNamePart, h]

lemma IsIdentifier.namePart {name : String} (h : IsIdentifier name) :
    ∀ c ∈ name.toList, isNamePart c = true := by
  obtain ⟨c, rest, hname, hc, hrest⟩ := h
  rw [hname]
  intro d hd
  rcases List.mem_cons.mp hd with rfl | hd
  · exact isNamePart_of_isNameStart hc
  · exact hrest d hd

/-! ## Small letters -/

lemma toLower_ascii : ∀ n < 128, (Char.ofNat n).toLower = '=' → n = 61 := by
  decide

/-- The table of small letters leads beyond the equals sign, whose code point is 61. -/
lemma lowerRuns_beyond : ∀ run ∈ Text.lowerRuns, 62 ≤ (run.first : Int) + run.offset := by
  decide +kernel

/-- Only its own code point makes a character, unless it is the one that stands for all invalid ones. -/
lemma eq_toNat_of_ofNat {n : Nat} {c : Char} (h : Char.ofNat n = c) (hc : c.toNat ≠ 0) : n = c.toNat := by
  by_cases hvalid : n.isValidChar
  · rw [Char.ofNat, dif_pos hvalid] at h
    exact congrArg Char.toNat h
  · rw [Char.ofNat, dif_neg hvalid] at h
    exact absurd (congrArg Char.toNat h.symm) hc

lemma recase_ne_equals {c d : Char} (hc : c ≠ '=')
    (hd : d ∈ Text.recase Text.lowerRuns Text.lowerExpansions c) : d ≠ '=' := by
  unfold Text.recase at hd
  dsimp only at hd
  split at hd
  · rename_i entry hentry
    have hmem := List.mem_of_find?_eq_some hentry
    rw [Text.lowerExpansions, List.mem_singleton] at hmem
    rw [hmem] at hd
    rintro rfl
    revert hd
    decide
  · split at hd
    · rename_i run hrun
      have hbeyond := lowerRuns_beyond run (List.mem_of_find?_eq_some hrun)
      have hfound := List.find?_some hrun
      simp only [Bool.and_eq_true, decide_eq_true_eq] at hfound
      rw [List.mem_singleton] at hd
      rintro rfl
      have hcode : _ = 61 := eq_toNat_of_ofNat hd.symm (by decide)
      omega
    · rw [List.mem_singleton] at hd
      rwa [hd]

lemma lowerChar_ne_equals {c d : Char} (hc : c ≠ '=') (hd : d ∈ Text.lowerChar c) : d ≠ '=' := by
  unfold Text.lowerChar at hd
  split at hd
  · rename_i hascii
    rw [List.mem_singleton] at hd
    rintro rfl
    rw [← Char.ofNat_toNat c] at hd
    have hcode := toLower_ascii c.toNat hascii hd.symm
    rw [← Char.ofNat_toNat c, hcode] at hc
    exact hc rfl
  · exact recase_ne_equals hc hd

lemma lowerChar_ne_nil (c : Char) : Text.lowerChar c ≠ [] := by
  unfold Text.lowerChar
  split
  · exact List.cons_ne_nil _ _
  · unfold Text.recase
    dsimp only
    split
    · rename_i entry hentry
      have hmem := List.mem_of_find?_eq_some hentry
      rw [Text.lowerExpansions, List.mem_singleton] at hmem
      rw [hmem]
      exact List.cons_ne_nil _ _
    · split <;> exact List.cons_ne_nil _ _

/-! ## Dash-separated forms -/

lemma kebabFrom_ne_equals {chars : List Char} (h : ∀ c ∈ chars, c ≠ '=') (previous : Option Char) :
    ∀ d ∈ kebabFrom previous chars, d ≠ '=' := by
  induction chars generalizing previous with
  | nil => exact fun d hd => absurd hd List.not_mem_nil
  | cons c rest ih =>
    have hc := h c List.mem_cons_self
    have hrest := ih (fun d hd => h d (List.mem_cons_of_mem _ hd)) (some c)
    have hdash : ∀ {b : Bool} {d : Char}, d ∈ (if b = true then ['-'] else []) → d ≠ '=' := by
      intro b d hd
      cases b with
      | true =>
        rw [List.mem_singleton.mp hd]
        decide
      | false => exact absurd hd List.not_mem_nil
    intro d hd
    rw [kebabFrom.eq_def] at hd
    dsimp only at hd
    split at hd
    · simp only [List.mem_append] at hd
      rcases hd with (hd | hd) | hd
      · exact hdash hd
      · exact lowerChar_ne_equals hc hd
      · exact hrest d hd
    · rcases List.mem_cons.mp hd with rfl | hd
      · exact hc
      · exact hrest d hd

lemma kebabFrom_ne_nil (previous : Option Char) (c : Char) (rest : List Char) :
    kebabFrom previous (c :: rest) ≠ [] := by
  rw [kebabFrom.eq_def]
  dsimp only
  split
  · intro hnil
    simp only [List.append_eq_nil_iff] at hnil
    exact lowerChar_ne_nil c hnil.1.2
  · exact List.cons_ne_nil _ _

/-- The flag of an identifier. -/
lemma IsIdentifier.kebab {name : String} (h : IsIdentifier name) :
    (kebab name).toList ≠ [] ∧ ∀ c ∈ (kebab name).toList, c ≠ '=' := by
  have hequals : ∀ c ∈ name.toList, c ≠ '=' := by
    intro c hc
    rintro rfl
    exact absurd (h.namePart '=' hc) (by decide)
  rw [TaskRunner.kebab, String.toList_ofList]
  refine ⟨?_, kebabFrom_ne_equals hequals none⟩
  obtain ⟨c, rest, hname, -⟩ := h
  rw [hname]
  exact kebabFrom_ne_nil none c rest

end TaskRunner.Proofs
