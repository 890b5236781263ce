import Mathlib.Algebra.BigOperators.Group.Finset.Basic
import Mathlib.Algebra.GroupWithZero.Nat
import TaskRunner.Proofs.KeptMemory

/-!
# How promises come to be settled

What is to be done after a promise waits with it until it is settled, and is then among the jobs. A task of
the script is held by what its end waits for: by a frame of its function, by a promise, or by a job. Changes
of the memory with new jobs lose nothing that waits, and hold no task more often than before.
-/

namespace TaskRunner.Proofs
open Script Machine

/-! ## Who holds a task -/

/-- The task whose function a frame runs. -/
def taskOfFrame : Frame → Option Handle
  | .taskBody task _ => some task
  | _ => none

/-- The tasks that a handler holds. -/
def tasksOfHandler : Handler → List Handle
  | .endTask task => [task]
  | .resume frames => frames.filterMap taskOfFrame
  | _ => []

/-- The tasks that a job holds. -/
def tasksOfJob : Job → List Handle
  | .react handler _ _ _ => tasksOfHandler handler
  | _ => []

/-- How often jobs hold a task. -/
def heldByJobs (jobs : List Job) (h : Handle) : Nat :=
  (jobs.flatMap tasksOfJob).count h

/-- How often a reaction may hold a task, by the one or the other handler. -/
def heldByReaction (h : Handle) (r : Reaction) : Nat :=
  max ((tasksOfHandler r.fulfilled).count h) ((tasksOfHandler r.rejected).count h)

/-- How often a promise holds a task. -/
def heldByPromise (h : Handle) : Option PromiseState → Nat
  | some (.pending reactions) => (reactions.map (heldByReaction h)).sum
  | _ => 0

/-- How often the promises of the memory hold a task. -/
def heldInMemory (m : Memory) (h : Handle) : Nat :=
  ∑ r ∈ Finset.range m.objects.size, heldByPromise h (promiseAt m r)

/-! ## Promises and jobs -/

/-- A handler that ends no task. -/
def EndsNone (f : Handler) : Prop :=
  ∀ task, f ≠ .endTask task

/-- A reaction that ends no task. -/
def Ordinary (r : Reaction) : Prop :=
  EndsNone r.fulfilled ∧ EndsNone r.rejected

/-- A job that ends no task. -/
def OrdinaryJob : Job → Prop
  | .react handler _ _ _ => EndsNone handler
  | _ => True

/-- How far a promise has come that was settled. -/
def settledAs (ok : Bool) (v : Value) : PromiseState :=
  if ok then .fulfilled v else .rejected v

/-- How a promise may go on, with jobs that are added: it waits on, or it is settled and what waited for it
is among the jobs. -/
inductive Goes (new : List Job) : PromiseState → PromiseState → Prop where
  | waits {rs more : List Reaction} (hmore : ∀ r ∈ more, Ordinary r) :
    Goes new (.pending rs) (.pending (rs ++ more))
  | settles {rs : List Reaction} {ok : Bool} {v : Value} (hjobs : ∀ r ∈ rs, Reaction.job r ok v ∈ new) :
    Goes new (.pending rs) (settledAs ok v)
  | stays (ok : Bool) (v : Value) : Goes new (settledAs ok v) (settledAs ok v)

/-- A job that comes of a promise that was settled. -/
def StemsFrom (m m' : Memory) (j : Job) : Prop :=
  ∃ p rs r ok v, promiseAt m p = some (.pending rs) ∧ r ∈ rs ∧ j = Reaction.job r ok v ∧
    promiseAt m' p = some (settledAs ok v)

/-- A change of the memory that adds jobs. -/
structure Flows (m : Memory) (new : List Job) (m' : Memory) : Prop where
  results : KeepsResults m m'
  states : ∀ p s, promiseAt m p = some s → ∃ s', promiseAt m' p = some s' ∧ Goes new s s'
  fresh : ∀ p rs, promiseAt m p = none → promiseAt m' p = some (.pending rs) → ∀ r ∈ rs, Ordinary r
  jobs : ∀ j ∈ new, OrdinaryJob j ∨ StemsFrom m m' j

/-- How often the parts of a running script hold a task. -/
def heldBy (m : Machine) (h : Handle) : Nat :=
  (m.stack.filterMap taskOfFrame).count h + heldByJobs m.jobs h + heldInMemory m.memory h

variable {m m' m'' : Memory} {new new' : List Job}

@[simp] lemma heldByJobs_nil (h : Handle) : heldByJobs [] h = 0 := rfl

@[simp] lemma heldByJobs_append (jobs more : List Job) (h : Handle) :
    heldByJobs (jobs ++ more) h = heldByJobs jobs h + heldByJobs more h := by
  simp [heldByJobs]

lemma goes_refl (s : PromiseState) : Goes new s s := by
  cases s with
  | pending rs =>
    have hwaits : Goes new (.pending rs) (.pending (rs ++ [])) :=
      .waits fun _ h => absurd h List.not_mem_nil
    rwa [List.append_nil] at hwaits
  | fulfilled v => exact .stays true v
  | rejected v => exact .stays false v

lemma settledAs_ne_pending (ok : Bool) (v : Value) (rs : List Reaction) :
    settledAs ok v ≠ .pending rs := by
  cases ok <;> nofun

lemma goes_settledAs {ok : Bool} {v : Value} {s : PromiseState} (h : Goes new (settledAs ok v) s) :
    s = settledAs ok v := by
  generalize hstate : settledAs ok v = state at h
  cases h with
  | waits => exact absurd hstate (settledAs_ne_pending ok v _)
  | settles => exact absurd hstate (settledAs_ne_pending ok v _)
  | stays => rfl

lemma goes_pending {s : PromiseState} {rs : List Reaction} (h : Goes new s (.pending rs)) :
    ∃ before more, s = .pending before ∧ rs = before ++ more ∧ ∀ r ∈ more, Ordinary r := by
  generalize hstate : PromiseState.pending rs = state at h
  cases h with
  | @waits before more hmore =>
    cases hstate
    exact ⟨before, more, rfl, rfl, hmore⟩
  | @settles _ ok v => exact absurd hstate.symm (settledAs_ne_pending ok v _)
  | @stays ok v => exact absurd hstate.symm (settledAs_ne_pending ok v _)

lemma goes_trans {s s' s'' : PromiseState} (h : Goes new s s') (h' : Goes new' s' s'') :
    Goes (new ++ new') s s'' := by
  cases h with
  | @waits rs more hmore =>
    generalize hstate : PromiseState.pending (rs ++ more) = state at h'
    cases h' with
    | @waits _ more' hmore' =>
      cases hstate
      rw [List.append_assoc]
      exact .waits fun r hr => (List.mem_append.mp hr).elim (hmore r) (hmore' r)
    | settles hjobs =>
      cases hstate
      exact .settles fun r hr =>
        List.mem_append_right _ (hjobs r (List.mem_append_left _ hr))
    | @stays ok v => exact absurd hstate.symm (settledAs_ne_pending ok v _)
  | settles hjobs =>
    rw [goes_settledAs h']
    exact .settles fun r hr => List.mem_append_left _ (hjobs r hr)
  | stays =>
    rw [goes_settledAs h']
    exact .stays _ _

lemma ordinaryJob_of_mem {r : Reaction} (h : Ordinary r) (ok : Bool) (v : Value) :
    OrdinaryJob (Reaction.job r ok v) := by
  cases ok
  · exact h.2
  · exact h.1

namespace Flows

lemma refl (m : Memory) : Flows m [] m where
  results := .refl m
  states := fun _ s hs => ⟨s, hs, goes_refl s⟩
  fresh := fun p rs hnone hsome => by rw [hnone] at hsome; cases hsome
  jobs := fun _ h => absurd h List.not_mem_nil

lemma trans (f : Flows m new m') (f' : Flows m' new' m'') : Flows m (new ++ new') m'' where
  results := f.results.trans f'.results
  states := by
    intro p s hs
    obtain ⟨s', hs', hgoes⟩ := f.states p s hs
    obtain ⟨s'', hs'', hgoes'⟩ := f'.states p s' hs'
    exact ⟨s'', hs'', goes_trans hgoes hgoes'⟩
  fresh := by
    intro p rs hnone hsome r hr
    cases hmiddle : promiseAt m' p with
    | none => exact f'.fresh p rs hmiddle hsome r hr
    | some s' =>
      obtain ⟨s'', hs'', hgoes⟩ := f'.states p s' hmiddle
      rw [hsome, Option.some.injEq] at hs''
      obtain ⟨before, more, rfl, rfl, hmore⟩ := goes_pending (hs'' ▸ hgoes)
      exact (List.mem_append.mp hr).elim (f.fresh p before hnone hmiddle r) (hmore r)
  jobs := by
    intro j hj
    obtain hj | hj := List.mem_append.mp hj
    · obtain hordinary | ⟨p, rs, r, ok, v, hpending, hr, hjob, hsettled⟩ := f.jobs j hj
      · exact .inl hordinary
      · obtain ⟨s'', hs'', hgoes⟩ := f'.states p _ hsettled
        exact .inr ⟨p, rs, r, ok, v, hpending, hr, hjob, by rw [hs'', goes_settledAs hgoes]⟩
    · obtain hordinary | ⟨p, rs, r, ok, v, hpending, hr, rfl, hsettled⟩ := f'.jobs j hj
      · exact .inl hordinary
      · cases hstart : promiseAt m p with
        | none => exact .inl (ordinaryJob_of_mem (f.fresh p rs hstart hpending r hr) ok v)
        | some s =>
          obtain ⟨s', hs', hgoes⟩ := f.states p s hstart
          rw [hpending, Option.some.injEq] at hs'
          obtain ⟨before, more, rfl, rfl, hmore⟩ := goes_pending (hs' ▸ hgoes)
          obtain hr | hr := List.mem_append.mp hr
          · exact .inr ⟨p, before, r, ok, v, hstart, hr, rfl, hsettled⟩
          · exact .inl (ordinaryJob_of_mem (hmore r hr) ok v)

/-- Changes that settle no promise add no job. -/
lemma of_keeps {safe : Ref → Prop} (k : Retains safe m m') : Flows m [] m' where
  results := k.results
  states := by
    intro p s hs
    refine ⟨s, ?_, goes_refl s⟩
    obtain hsame | ⟨hnone, -⟩ := k.promises p
    · rw [hsame, hs]
    · rw [hs] at hnone
      cases hnone
  fresh := by
    intro p rs hnone hsome
    obtain hsame | ⟨-, hnew⟩ := k.promises p
    · rw [hsame, hnone] at hsome
      cases hsome
    · rw [hsome] at hnew
      cases hnew
      exact fun _ h => absurd h List.not_mem_nil
  jobs := fun _ h => absurd h List.not_mem_nil

/-- A job that comes of no promise. -/
lemma later (m : Memory) {j : Job} (hj : OrdinaryJob j) : Flows m [j] m where
  results := .refl m
  states := fun _ s hs => ⟨s, hs, goes_refl s⟩
  fresh := fun p rs hnone hsome => by rw [hnone] at hsome; cases hsome
  jobs := fun j' hj' => .inl (by rwa [List.mem_singleton.mp hj'])

end Flows

/-! ## One promise -/

section Promise

variable {p : Ref} {rs : List Reaction} (hp : promiseAt m p = some (.pending rs))
include hp

lemma promiseAt_setKind (s : PromiseState) (q : Ref) :
    promiseAt (m.setKind p (.promise s)) q = if q = p then some s else promiseAt m q := by
  have hobject : ∃ o, m.object? p = some o := by
    cases ho : m.object? p with
    | none => simp [promiseAt, Memory.kind?, ho] at hp
    | some o => exact ⟨o, rfl⟩
  obtain ⟨o, ho⟩ := hobject
  by_cases hq : q = p
  · subst hq
    simp [promiseAt, Memory.kind?, Memory.setKind, object?_change, ho, stateOf]
  · simp [promiseAt, Memory.kind?, Memory.setKind, object?_change, hq, Ne.symm hq]

lemma keeps_setPromise (s : PromiseState) : KeepsResults m (m.setKind p (.promise s)) := by
  obtain ⟨k, hkind, hk⟩ := Option.bind_eq_some_iff.mp hp
  exact .setKind hkind _ (by rintro rfl; cases hk) (by rintro rfl; cases hk)

lemma Flows.settle (ok : Bool) (v : Value) :
    Flows m (rs.map fun r => Reaction.job r ok v) (m.setKind p (.promise (settledAs ok v))) where
  results := keeps_setPromise hp _
  states := by
    intro q s hs
    rw [promiseAt_setKind hp]
    by_cases hq : q = p
    · subst hq
      rw [hp, Option.some.injEq] at hs
      subst hs
      exact ⟨_, if_pos rfl, .settles fun r hr => List.mem_map_of_mem hr⟩
    · exact ⟨s, by rw [if_neg hq, hs], goes_refl s⟩
  fresh := by
    intro q rs' hnone hsome
    rw [promiseAt_setKind hp] at hsome
    by_cases hq : q = p
    · rw [if_pos hq, Option.some.injEq] at hsome
      exact absurd hsome (settledAs_ne_pending ok v rs')
    · rw [if_neg hq, hnone] at hsome
      cases hsome
  jobs := by
    intro j hj
    obtain ⟨r, hr, rfl⟩ := List.mem_map.mp hj
    exact .inr ⟨p, rs, r, ok, v, hp, hr, rfl, by rw [promiseAt_setKind hp, if_pos rfl]⟩

/-- A reaction waits for a promise. -/
lemma Flows.wait {r : Reaction} (hr : Ordinary r) : Flows m [] (m.setKind p (.promise (.pending (rs ++ [r])))) where
  results := keeps_setPromise hp _
  states := by
    intro q s hs
    rw [promiseAt_setKind hp]
    by_cases hq : q = p
    · subst hq
      rw [hp, Option.some.injEq] at hs
      subst hs
      exact ⟨_, if_pos rfl, .waits fun x hx => by rwa [List.mem_singleton.mp hx]⟩
    · exact ⟨s, by rw [if_neg hq, hs], goes_refl s⟩
  fresh := by
    intro q rs' hnone hsome
    rw [promiseAt_setKind hp] at hsome
    by_cases hq : q = p
    · rw [hq, hp] at hnone
      cases hnone
    · rw [if_neg hq, hnone] at hsome
      cases hsome
  jobs := fun _ h => absurd h List.not_mem_nil

/-! ## Tasks that the memory holds -/

lemma held_setKind (s : PromiseState) (h : Handle) :
    heldInMemory (m.setKind p (.promise s)) h + heldByPromise h (some (.pending rs)) =
      heldInMemory m h + heldByPromise h (some s) := by
  have hin : p ∈ Finset.range m.objects.size := by
    rw [Finset.mem_range]
    by_contra hout
    simp [promiseAt, Memory.kind?, Memory.object?, Nat.not_lt.mp hout] at hp
  have hsize : (m.setKind p (.promise s)).objects.size = m.objects.size := by
    simp [Memory.setKind, Memory.change]
  have hothers : ∑ q ∈ (Finset.range m.objects.size).erase p,
      heldByPromise h (promiseAt (m.setKind p (.promise s)) q) =
      ∑ q ∈ (Finset.range m.objects.size).erase p, heldByPromise h (promiseAt m q) := by
    refine Finset.sum_congr rfl fun q hq => ?_
    rw [promiseAt_setKind hp, if_neg (Finset.ne_of_mem_erase hq)]
  rw [heldInMemory, heldInMemory, hsize, ← Finset.add_sum_erase _ _ hin, hothers,
    ← Finset.add_sum_erase (Finset.range m.objects.size) (fun q => heldByPromise h (promiseAt m q)) hin,
    promiseAt_setKind hp, if_pos rfl, hp]
  omega

lemma held_settle (ok : Bool) (v : Value) (h : Handle) :
    heldInMemory (m.setKind p (.promise (settledAs ok v))) h +
      heldByJobs (rs.map fun r => Reaction.job r ok v) h ≤ heldInMemory m h := by
  have hmoved : ∀ rs : List Reaction, heldByJobs (rs.map fun r => Reaction.job r ok v) h ≤
      (rs.map (heldByReaction h)).sum := by
    intro rs
    induction rs with
    | nil => simp
    | cons r rest ih =>
      have hfirst : (tasksOfJob (Reaction.job r ok v)).count h ≤ heldByReaction h r := by
        cases ok
        · exact Nat.le_max_right _ _
        · exact Nat.le_max_left _ _
      simp only [heldByJobs, List.map_cons, List.flatMap_cons, List.count_append, List.sum_cons]
        at ih ⊢
      omega
  have hset := held_setKind hp (settledAs ok v) h
  have hnone : heldByPromise h (some (settledAs ok v)) = 0 := by cases ok <;> rfl
  have hjobs := hmoved rs
  rw [heldByPromise] at hset
  omega

lemma held_wait (r : Reaction) (h : Handle) :
    heldInMemory (m.setKind p (.promise (.pending (rs ++ [r])))) h =
      heldInMemory m h + heldByReaction h r := by
  have hset := held_setKind hp (.pending (rs ++ [r])) h
  simp only [heldByPromise, List.map_append, List.sum_append, List.map_singleton,
    List.sum_singleton] at hset
  omega

end Promise

lemma heldInMemory_keeps {safe : Ref → Prop} (k : Retains safe m m') (h : Handle) :
    heldInMemory m' h = heldInMemory m h := by
  have hplace : ∀ p, heldByPromise h (promiseAt m' p) = heldByPromise h (promiseAt m p) := by
    intro p
    obtain hsame | ⟨hnone, hnew⟩ := k.promises p
    · rw [hsame]
    · rw [hnone, hnew]
      rfl
  have hbeyond : ∀ p ∈ Finset.range m'.objects.size, p ∉ Finset.range m.objects.size →
      heldByPromise h (promiseAt m p) = 0 := by
    intro p _ hp
    rw [Finset.mem_range] at hp
    simp [promiseAt, Memory.kind?, Memory.object?, Nat.not_lt.mp hp, heldByPromise]
  rw [heldInMemory, heldInMemory, Finset.sum_congr rfl fun p _ => hplace p]
  exact (Finset.sum_subset (Finset.range_subset_range.mpr k.size) hbeyond).symm

end TaskRunner.Proofs
