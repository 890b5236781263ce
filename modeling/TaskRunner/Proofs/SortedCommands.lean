import Mathlib.Data.List.Nodup
import Mathlib.Data.String.Basic
import TaskRunner.CommandLine.Registry

/-!
# Sorted commands

The commands of a run come from several files and from package scripts, and may have one name. They are sorted
by name, and a command is dropped if its name is built in or repeats that of the last one kept. As the sorting
leaves commands of one name in their order, the first of each name is kept, whatever stands between.
-/

namespace TaskRunner.Proofs
open CommandLine

variable {commands sorted : List Command} {c : Command} {name : String} {last : Option String}

/-- The commands sorted by their names. -/
def sortedByName (commands : List Command) : List Command :=
  commands.mergeSort fun a b => a.cliName ≤ b.cliName

lemma name_le_trans (a b c : Command) (hab : decide (a.cliName ≤ b.cliName) = true)
    (hbc : decide (b.cliName ≤ c.cliName) = true) : decide (a.cliName ≤ c.cliName) = true :=
  decide_eq_true (le_trans (of_decide_eq_true hab) (of_decide_eq_true hbc))

lemma name_le_total (a b : Command) :
    (decide (a.cliName ≤ b.cliName) || decide (b.cliName ≤ a.cliName)) = true := by
  rw [Bool.or_eq_true, decide_eq_true_iff, decide_eq_true_iff]
  exact le_total _ _

lemma sortedByName_pairwise (commands : List Command) :
    (sortedByName commands).Pairwise fun a b => a.cliName ≤ b.cliName :=
  (List.pairwise_mergeSort name_le_trans name_le_total commands).imp of_decide_eq_true

lemma sortedByName_perm (commands : List Command) : (sortedByName commands).Perm commands :=
  List.mergeSort_perm _ _

/-- Commands of one name stay in their order. -/
lemma filter_sortedByName (commands : List Command) (name : String) :
    (sortedByName commands).filter (·.cliName == name) = commands.filter (·.cliName == name) := by
  have hsame : (commands.filter (·.cliName == name)).Pairwise
      fun a b => decide (a.cliName ≤ b.cliName) = true := by
    refine List.pairwise_of_forall_mem_list fun a ha b hb => ?_
    have hnames : a.cliName = name ∧ b.cliName = name :=
      ⟨by simpa using (List.mem_filter.mp ha).2, by simpa using (List.mem_filter.mp hb).2⟩
    rw [hnames.1, hnames.2]
    exact decide_eq_true (le_refl _)
  have hkept : (commands.filter (·.cliName == name)).Sublist (sortedByName commands) :=
    List.sublist_mergeSort name_le_trans name_le_total hsame List.filter_sublist
  have hsub := hkept.filter (·.cliName == name)
  rw [List.filter_filter] at hsub
  simp only [Bool.and_self] at hsub
  exact (hsub.eq_of_length ((sortedByName_perm commands).filter _).length_eq.symm).symm

lemma find?_sortedByName (commands : List Command) (name : String) :
    (sortedByName commands).find? (·.cliName == name) = commands.find? (·.cliName == name) := by
  rw [← List.head?_filter, filter_sortedByName, List.head?_filter]

/-! ## What is kept -/

/-- The first command of a name is kept, unless the name is built in or the one kept before. -/
lemma find?_keepDistinct (hlast : last ≠ some name) :
    (keepDistinct last sorted).find? (·.cliName == name) =
      if name = initCommand then none else sorted.find? (·.cliName == name) := by
  induction sorted generalizing last with
  | nil => simp [keepDistinct]
  | cons c rest ih =>
    rw [keepDistinct]
    by_cases hname : c.cliName = name
    · by_cases hinit : name = initCommand
      · rw [if_pos (by simp [hname, hinit]), ih hlast, if_pos hinit, if_pos hinit]
      · rw [if_neg (by simp [hname, hinit, hlast.symm]), if_neg hinit, List.find?_cons_of_pos (by simpa using hname),
          List.find?_cons_of_pos (by simpa using hname)]
    · rw [List.find?_cons_of_neg (by simpa using hname)]
      split
      · exact ih hlast
      · rw [List.find?_cons_of_neg (by simpa using hname)]
        exact ih (by simpa using hname)

/-- Among sorted commands the names that are kept increase, from the one kept before on. -/
lemma keepDistinct_increasing (hsorted : sorted.Pairwise fun a b => a.cliName ≤ b.cliName)
    (hlast : ∀ before, last = some before → ∀ c ∈ sorted, before ≤ c.cliName) :
    ((keepDistinct last sorted).map Command.cliName).Pairwise (· < ·) ∧
      ∀ before, last = some before → ∀ c ∈ keepDistinct last sorted, before < c.cliName := by
  induction sorted generalizing last with
  | nil => simp [keepDistinct]
  | cons c rest ih =>
    obtain ⟨hfirst, hrest⟩ := List.pairwise_cons.mp hsorted
    rw [keepDistinct]
    split
    · exact ih hrest fun before h d hd => hlast before h d (List.mem_cons_of_mem _ hd)
    · rename_i hkept
      rw [Bool.or_eq_true, not_or, beq_iff_eq, beq_iff_eq] at hkept
      have hfrom : ∀ before, some c.cliName = some before → ∀ d ∈ rest, before ≤ d.cliName :=
        fun before h d hd => Option.some.inj h ▸ hfirst d hd
      obtain ⟨hincreasing, hbehind⟩ := ih hrest hfrom
      have hnext : ∀ d ∈ keepDistinct (some c.cliName) rest, c.cliName < d.cliName := hbehind _ rfl
      refine ⟨?_, fun before h d hd => ?_⟩
      · rw [List.map_cons, List.pairwise_cons]
        refine ⟨fun other hother => ?_, hincreasing⟩
        obtain ⟨d, hd, rfl⟩ := List.mem_map.mp hother
        exact hnext d hd
      · have hc : before < c.cliName :=
          lt_of_le_of_ne (hlast before h c List.mem_cons_self) fun hsame => hkept.2 (hsame ▸ h.symm)
        rcases List.mem_cons.mp hd with rfl | hd
        · exact hc
        · exact hc.trans (hnext d hd)

lemma find?_ofCommands (commands : List Command) (name : String) :
    (Registry.ofCommands commands).find? name =
      if name = initCommand then none else commands.find? (·.cliName == name) := by
  rw [← find?_sortedByName]
  exact find?_keepDistinct (by simp)

lemma ofCommands_increasing (commands : List Command) :
    ((Registry.ofCommands commands).commands.map Command.cliName).Pairwise (· < ·) :=
  (keepDistinct_increasing (sortedByName_pairwise commands) (by simp)).1

lemma name_of_find? {r : Registry} (h : r.find? name = some c) : c.cliName = name := by
  have hname := List.find?_some h
  simpa using hname

/-- A name finds the command that has it. -/
lemma find?_eq_some_iff {r : Registry} (hincreasing : (r.commands.map Command.cliName).Pairwise (· < ·)) :
    r.find? name = some c ↔ c ∈ r.commands ∧ c.cliName = name := by
  have hnodup : (r.commands.map Command.cliName).Nodup := hincreasing.imp ne_of_lt
  constructor
  · intro h
    exact ⟨List.mem_of_find?_eq_some h, name_of_find? h⟩
  · rintro ⟨hc, rfl⟩
    cases hfound : r.find? c.cliName with
    | none =>
      have hother := List.find?_eq_none.mp hfound c hc
      exact absurd (beq_self_eq_true _) hother
    | some d =>
      exact congrArg some (List.inj_on_of_nodup_map hnodup (List.mem_of_find?_eq_some hfound) hc
        (name_of_find? hfound))

/-- Of commands with distinct names, the order does not matter. -/
lemma sortedByName_eq_of_perm {other : List Command} (hperm : other.Perm commands)
    (hnodup : (commands.map Command.cliName).Nodup) : sortedByName other = sortedByName commands := by
  have hsame := (sortedByName_perm other).trans (hperm.trans (sortedByName_perm commands).symm)
  refine hsame.eq_of_pairwise (fun a b ha hb hab hba => ?_) (sortedByName_pairwise other)
    (sortedByName_pairwise commands)
  have ha' : a ∈ commands := hperm.mem_iff.mp ((sortedByName_perm other).mem_iff.mp ha)
  have hb' : b ∈ commands := (sortedByName_perm commands).mem_iff.mp hb
  exact List.inj_on_of_nodup_map hnodup ha' hb' (le_antisymm hab hba)

/-- Whatever commands there are, those of the registry have increasing names, namely all names that are there
except the built-in one; each is the first command of its name, and a name finds the command that has it, or
nothing. Of commands with distinct names the order does not matter. -/
theorem registry_by_name (commands : List Command) :
    ((Registry.ofCommands commands).commands.map Command.cliName).Pairwise (· < ·) ∧
    (∀ name, name ∈ (Registry.ofCommands commands).commands.map Command.cliName ↔
      name ∈ commands.map Command.cliName ∧ name ≠ initCommand) ∧
    (∀ c ∈ (Registry.ofCommands commands).commands, ∃ before behind, commands = before ++ c :: behind ∧
      ∀ d ∈ before, d.cliName ≠ c.cliName) ∧
    (∀ name c, (Registry.ofCommands commands).find? name = some c ↔
      c ∈ (Registry.ofCommands commands).commands ∧ c.cliName = name) ∧
    (∀ other : List Command, other.Perm commands → (commands.map Command.cliName).Nodup →
      Registry.ofCommands other = Registry.ofCommands commands) := by
  have hincreasing := ofCommands_increasing commands
  have hfind : ∀ name c, (Registry.ofCommands commands).find? name = some c ↔
      c ∈ (Registry.ofCommands commands).commands ∧ c.cliName = name :=
    fun name c => find?_eq_some_iff hincreasing
  refine ⟨hincreasing, fun name => ?_, fun c hc => ?_, hfind, fun other hperm hnodup => ?_⟩
  · have hnames : ∀ items : List Command,
        name ∈ items.map Command.cliName ↔ (items.find? (·.cliName == name)).isSome := by
      intro items
      rw [List.mem_map, List.find?_isSome]
      simp only [beq_iff_eq]
    have hkept : ((Registry.ofCommands commands).commands.find? (·.cliName == name)).isSome =
        ((Registry.ofCommands commands).find? name).isSome := rfl
    rw [hnames, hnames, hkept, find?_ofCommands]
    split <;> simp_all
  · have hfirst := (hfind c.cliName c).mpr ⟨hc, rfl⟩
    rw [find?_ofCommands] at hfirst
    split at hfirst
    · cases hfirst
    · obtain ⟨-, before, behind, hsplit, hbefore⟩ := List.find?_eq_some_iff_append.mp hfirst
      exact ⟨before, behind, hsplit, fun d hd => by simpa using hbefore d hd⟩
  · exact congrArg (fun sorted => (⟨keepDistinct none sorted⟩ : Registry))
      (sortedByName_eq_of_perm hperm hnodup)

end TaskRunner.Proofs
