import TaskRunner.Proofs.HandedReplies

/-!
# Results of operations that tasks come to

A script gets what an operation came to by a finisher, which makes a result or a response of the reply. A task
whose function comes to a result ends as the operation ended: it fails with its text, or it succeeds. A
response keeps the failure of its request to itself, so a task that comes to one succeeds in any case.
-/

namespace TaskRunner.Proofs
open Session Script Machine

section Runs

variable {services : Services} {world : World} {program : List Stmt} {log deeds : List Deed} {m m' : Machine}
  {h : Handle} {reply : Reply} {finisher : Builtin} {v : Value} {l : Ledger}

/-! ## The tasks of operations -/

lemma HostChange.session {host host' : Host} {deeds : List Deed} (hchange : HostChange host deeds host') :
    ∃ steps, host'.world.session = performSteps steps host.world.session := by
  cases hchange with
  | aside hsession => exact hsession.imp fun _ h => h.1
  | begin name source mode => exact ⟨[.begin _ mode.options], rfl⟩
  | finish hend =>
    obtain ⟨id, -, -, hsession⟩ := endTask?_eq_some hend
    exact ⟨[.close id (.completed _)], hsession⟩

lemma RunsTo.answers (run : RunsTo services world program log m) (hanswers : Answers world.session l) :
    ∃ l', Answers m.host.world.session l' := by
  obtain ⟨steps, hsteps, -⟩ := run.accounts.steps
  exact ⟨_, hsteps ▸ answers_simulation.steps steps hanswers⟩

variable {task : Handle} {outcome : Except String Json} {p : Ref}

section Reflects

variable {after : Session} {b : BegunTask} {ended : Machine} {answer : Value} {result : TaskResult}
  {text : String} {data : Json}

end Reflects

end Runs

end TaskRunner.Proofs
