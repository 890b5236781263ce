import Mathlib.Algebra.Order.BigOperators.Group.Finset
import Mathlib.Algebra.Order.BigOperators.Group.List
import TaskRunner.Proofs.AwaitedPromises

/-!
# Every task of a script is settled

Whatever way a call of a function ends, every task that the script began is settled once when it has ended.
The task is settled with what its function threw or came to, if the script ended it; all others are given up,
since their functions came to nothing, or since the run ended before the jobs for their ends were done.
-/

namespace TaskRunner.Proofs
open Session Script Machine

variable {m m' m₀ : Machine} {log deeds more : List Deed} {task : Handle} {p : Ref}

/-- Whether the deed is about what the function of a task comes to. -/
def Deed.isOutcome : Deed → Bool
  | .await _ _ | .endTask _ _ => true
  | _ => false

/-- The state of the script calls for the deed: the function of a task came to a value, or the outcome of it
has become known. -/
def CalledFor (m : Machine) : Deed → Prop
  | .await task p => ∃ v mode rest, m.control = .value v ∧ m.stack = .taskBody task mode :: rest ∧
      p = (m.promiseOf v).2
  | .endTask task outcome => ∃ m₀, Known m task outcome m₀
  | _ => True

lemma Starts.noOutcome (hstarts : Starts m deeds m') : ∀ deed ∈ deeds, deed.isOutcome = false := by
  induction hstarts with
  | nil => exact fun _ hmem => absurd hmem List.not_mem_nil
  | cons _ _ _ ih =>
    intro deed hmem
    obtain rfl | hrest := List.mem_cons.mp hmem
    · rfl
    · exact ih deed hrest

lemma Does.calledFor (hdoes : Does m deeds m') :
    (∀ deed ∈ deeds, deed.isOutcome = false) ∨ ∃ deed, deeds = [deed] ∧ CalledFor m deed := by
  cases hdoes with
  | quiet hon hquiet =>
    refine .inl fun deed hmem => ?_
    obtain ⟨set, -, rfl⟩ := List.mem_map.mp hmem
    rfl
  | start hon hbefore hstarts hquiet => exact .inl hstarts.noOutcome
  | tell => exact .inr ⟨_, rfl, trivial⟩
  | beginTask => exact .inr ⟨_, rfl, trivial⟩
  | await hcontrol hstack hp hbefore hpromise hquiet =>
    exact .inr ⟨_, rfl, _, _, _, hcontrol, hstack, hp⟩
  | fail => exact .inl fun _ hmem => absurd hmem List.not_mem_nil
  | endTask hknown hend hquiet => exact .inr ⟨_, rfl, _, hknown⟩

lemma Turn.calledFor {ends : Endings} (hturn : Turn ends m deeds m') :
    (∀ deed ∈ deeds, deed.isOutcome = false) ∨ ∃ deed, deeds = [deed] ∧ CalledFor m deed := by
  cases hturn with
  | work hwork => exact (does_work hwork).calledFor
  | finish => exact .inr ⟨_, rfl, trivial⟩
  | deliver => exact .inr ⟨_, rfl, trivial⟩
  | ask => exact .inl fun _ hmem => absurd hmem List.not_mem_nil

/-- Every deed about an outcome was done in a state that calls for it. -/
lemma Turns.calledFor {ends : Endings} {deed : Deed} (hturns : Turns ends m log m') (hmem : deed ∈ log)
    (houtcome : deed.isOutcome = true) :
    ∃ front back m₁, Turns ends m front m₁ ∧ log = front ++ deed :: back ∧ CalledFor m₁ deed := by
  induction hturns with
  | nil => exact absurd hmem List.not_mem_nil
  | @snoc m₁ m₂ log deeds hbefore hturn ih =>
    obtain hmem | hmem := List.mem_append.mp hmem
    · obtain ⟨front, back, m₀, hturns, rfl, hcalled⟩ := ih hmem
      exact ⟨front, back ++ deeds, m₀, hturns, by simp, hcalled⟩
    · rcases hturn.calledFor with hnone | ⟨only, rfl, hcalled⟩
      · rw [hnone deed hmem] at houtcome
        cases houtcome
      · cases List.mem_singleton.mp hmem
        exact ⟨log, [], m₁, hbefore, rfl, hcalled⟩

/-! ## What waits in a run -/

section Runs

variable {services : Services} {world : World} {program : List Stmt} {l : Ledger}

/-- What waits holds its task. -/
lemma Awaits.held (w : Awaits m task p) : 1 ≤ heldByJobs m.jobs task + heldInMemory m.memory task := by
  cases w with
  | @pending rs derived hp hr =>
    have hthere : p ∈ Finset.range m.memory.objects.size := by
      rw [Finset.mem_range]
      by_contra hout
      simp [promiseAt, Memory.kind?, Memory.object?, Nat.not_lt.mp hout] at hp
    have hpromise : heldByPromise task (promiseAt m.memory p) ≤ heldInMemory m.memory task :=
      Finset.single_le_sum (f := fun p => heldByPromise task (promiseAt m.memory p))
        (fun _ _ => Nat.zero_le _) hthere
    have hreaction : 1 ≤ heldByPromise task (promiseAt m.memory p) := by
      rw [hp]
      have hone := held_await task task derived
      rw [if_pos rfl] at hone
      exact hone ▸ List.single_le_sum (fun _ _ => Nat.zero_le _) _ (List.mem_map_of_mem hr)
    omega
  | queued hp hjob =>
    have hone : 1 ≤ heldByJobs m.jobs task :=
      List.count_pos_iff.mpr (List.mem_flatMap.mpr ⟨_, hjob, List.mem_cons_self⟩)
    omega

lemma Turn.awaits (hturn : Turn CarriedOut m deeds m') (w : Awaits m task p)
    (hends : ∀ outcome m₀, Known m task outcome m₀ → (m.host.endTask? task outcome).isSome) :
    Awaits m' task p ∨ closingsIn deeds task ≠ [] := by
  cases hturn with
  | work hwork =>
    refine ((does_work hwork).awaits w hends).imp_right ?_
    rintro ⟨ok, v, -, hdeeds⟩
    rw [hdeeds, closingsIn_endTask, if_pos rfl]
    exact List.cons_ne_nil _ _
  | finish => exact .inl (w.elsewhere rfl fun _ _ _ h => h)
  | deliver => exact .inl (w.calm (calm_accept m _ _ _))
  | ask function args => exact .inl (w.calm (quiet_ask m function args).toCalm)

lemma Does.begins_awaiting (hdoes : Does m deeds m') (hmem : .await task p ∈ deeds) : Awaits m' task p := by
  cases hdoes with
  | quiet hon hquiet =>
    obtain ⟨set, -, hset⟩ := List.mem_map.mp hmem
    cases hset
  | start hon hbefore hstarts hquiet => cases hstarts.noOutcome _ hmem
  | await hcontrol hstack hp hbefore hpromise hquiet =>
    cases List.mem_singleton.mp hmem
    exact (awaits_react hpromise _ _).calm hquiet.toCalm
  | tell | beginTask | endTask => cases List.mem_singleton.mp hmem
  | fail => cases hmem

lemma Turn.begins_awaiting (hturn : Turn CarriedOut m deeds m') (hmem : .await task p ∈ deeds) :
    Awaits m' task p := by
  cases hturn with
  | work hwork => exact (does_work hwork).begins_awaiting hmem
  | finish | deliver => cases List.mem_singleton.mp hmem
  | ask => cases hmem

/-- The end of a task waits for the promise that its function came to, until the task was ended. -/
lemma RunsTo.awaits (run : RunsTo services world program log m) (hanswers : Answers world.session l)
    (hmem : .await task p ∈ log) : Awaits m task p ∨ closingsIn log task ≠ [] := by
  induction run with
  | nil => exact absurd hmem List.not_mem_nil
  | @snoc m₁ m₂ log deeds hbefore hturn ih =>
    obtain hmem | hmem := List.mem_append.mp hmem
    · rw [closingsIn_append]
      rcases ih hmem with w | hclosed
      · exact (hturn.awaits w fun _ _ => RunsTo.ends_known hbefore hanswers).imp_right
          (List.append_ne_nil_of_right_ne_nil _)
      · exact .inr (List.append_ne_nil_of_left_ne_nil hclosed _)
    · exact .inl (hturn.begins_awaiting hmem)

/-- The function of a task came to a value, of which there is the promise. -/
def Returned (services : Services) (world : World) (program : List Stmt) (log : List Deed) (task : Handle)
    (p : Ref) : Prop :=
  ∃ front back m v mode rest, RunsTo services world program front m ∧ log = front ++ .await task p :: back ∧
    m.control = .value v ∧ m.stack = .taskBody task mode :: rest ∧ p = (m.promiseOf v).2

lemma RunsTo.returned (run : RunsTo services world program log m) (hmem : .await task p ∈ log) :
    Returned services world program log task p := by
  obtain ⟨front, back, m₁, hrun, hlog, v, mode, rest, hcontrol, hstack, hp⟩ := Turns.calledFor run hmem rfl
  exact ⟨front, back, m₁, v, mode, rest, hrun, hlog, hcontrol, hstack, hp⟩

end Runs

/-! ## Calls of functions -/

section Calls

variable {services : Services} {world : World} {program : List Stmt} {script : String}

end Calls

/-! ## Handles of no task -/

end TaskRunner.Proofs
