import TaskRunner.Proofs.ScriptTasks

/-!
# What the end of a task waits for

A task is held by the frame of its function, then by the promise that the function came to, then by a job, and
never by two of them. So the outcome of the function becomes known once, and the task is ended with it at that
moment.

The end of a task waits for the promise that its function came to. A promise that was settled keeps nothing
waiting: what waited for it is among the jobs, or was done. And the job for the end of a task always comes of
the promise of that task.
-/

namespace TaskRunner.Proofs
open Session Script Machine

variable {m m' m₀ : Machine} {log deeds more : List Deed} {task other : Handle} {safe : Ref → Prop}

/-! ## Single turns -/

lemma Continues.held (hon : Continues m m₀) (task : Handle) : heldBy m₀ task ≤ heldBy m task := by
  cases hon with
  | step => exact Nat.le_refl _
  | job hjobs hj =>
    simp only [heldBy, hjobs, heldByJobs, List.flatMap_cons, List.count_append]
    omega
  | resume hjobs =>
    simp only [heldBy, hjobs, heldByJobs, List.flatMap_cons, List.count_append, tasksOfJob, tasksOfHandler]
    omega

lemma Known.held {outcome : Except String Json} (hknown : Known m task outcome m₀) (other : Handle) :
    heldBy m₀ other + (if task = other then 1 else 0) ≤ heldBy m other := by
  cases hknown with
  | thrown hcontrol hstack =>
    simp only [heldBy, hstack, List.filterMap_cons, taskOfFrame, List.count_cons, beq_iff_eq]
    omega
  | settled hjobs =>
    simp only [heldBy, hjobs, heldByJobs, List.flatMap_cons, List.count_append, tasksOfJob, tasksOfHandler,
      List.count_cons, List.count_nil, beq_iff_eq]
    omega

lemma held_launch (m : Machine) (r : Ref) (o : Operation) (task : Handle) :
    heldBy (m.launch r o).1 task ≤ heldBy m task := by
  let started : Machine := { m with host := (m.host.start o).1 }
  have hexpecting : Quiet (fun _ => True) started _ :=
    (Quiet.refl started).makePromise.makeKind (.latch false) rfl
  have hthen := quiet_followed m o (((expecting m o).memory.field? r "_finish").getD .undefined)
  have hset (memory : Memory) (p : Ref) : Retains (fun _ => False) memory
      (memory.writeField r "_promise" (.object p)) :=
    .writeField _ r _ _ False.elim fun _ => rfl
  rw [launch_fst]
  simp only [heldBy, Machine.update, heldInMemory_keeps (hset _ _)]
  exact Nat.le_trans (hthen.held task) (hexpecting.held task)

lemma Starts.held (hstarts : Starts m deeds m') (task : Handle) : heldBy m' task ≤ heldBy m task := by
  induction hstarts with
  | nil => exact Nat.le_refl _
  | cons _ _ _ ih => exact Nat.le_trans ih (held_launch _ _ _ task)

lemma held_push (m : Machine) (new : Handle) (mode : TaskMode) (task : Handle) :
    heldBy (m.push (.taskBody new mode)) task = heldBy m task + if new = task then 1 else 0 := by
  simp only [heldBy, Machine.push, List.filterMap_cons, taskOfFrame, List.count_cons, beq_iff_eq]
  omega

/-- What waits for the outcome of a task holds it, whatever that is. -/
lemma held_await (waiting task : Handle) (derived : Option Ref) :
    heldByReaction task ⟨derived, .endTask waiting, .endTask waiting⟩ = if waiting = task then 1 else 0 := by
  simp only [heldByReaction, tasksOfHandler, List.count_cons, List.count_nil, beq_iff_eq, Nat.max_self,
    Nat.zero_add]

/-- What a script does holds no task that it does not begin, and lets go of what it ends. -/
lemma Does.held (hdoes : Does m deeds m') (task : Handle) :
    heldBy m' task + (closingsIn deeds task).length ≤
      heldBy m task + ((begunIn deeds).map BegunTask.handle).count task := by
  cases hdoes with
  | quiet hon hquiet =>
    rw [closingsIn_assign, begunIn_assign]
    exact Nat.le_trans (hquiet.held task) (hon.held task)
  | tell htold hquiet => exact hquiet.held task
  | start hon hbefore hstarts hquiet =>
    obtain ⟨-, -, -, hbegun, hended⟩ := hstarts.hostChange
    rw [hbegun, hended]
    exact Nat.le_trans (hquiet.held task)
      (Nat.le_trans (hstarts.held task) (Nat.le_trans (hbefore.held task) (hon.held task)))
  | @beginTask m' name source mode host new hhost hquiet =>
    have hnew : new = m.host.bridge.lastHandle + 1 := (congrArg Prod.snd hhost).symm
    have hafter : heldBy m' task ≤ heldBy m task + if new = task then 1 else 0 :=
      held_push { m with host } new mode task ▸ hquiet.held task
    rw [hnew] at hafter
    simpa only [begunIn, closingsIn, List.filterMap_cons, List.filterMap_nil, List.map_cons, List.map_nil,
      List.length_nil, List.count_cons, List.count_nil, beq_iff_eq, Nat.zero_add,
      Nat.add_zero] using hafter
  | @await m₁ m' v waiting mode rest p derived hcontrol hstack hp hbefore hpromise hquiet =>
    have hpopped : heldBy m task =
        heldBy { m with stack := rest } task + if waiting = task then 1 else 0 := by
      rw [← held_push _ _ mode, Machine.push, ← hstack]
    have hreact := heldBy_react m₁ p ⟨some derived, .endTask waiting, .endTask waiting⟩ task
    rw [held_await] at hreact
    have hall := Nat.le_trans (hquiet.held task)
      (Nat.le_trans hreact (Nat.add_le_add_right (hbefore.held task) _))
    exact hpopped ▸ hall
  | fail hknown hend hquiet =>
    exact Nat.le_trans (hquiet.held task) (Nat.le_trans (Nat.le_add_right _ _) (hknown.held task))
  | endTask hknown hend hquiet =>
    rw [closingsIn_endTask, apply_ite List.length]
    exact Nat.le_trans (Nat.add_le_add_right (hquiet.held task) _) (hknown.held task)

lemma Turn.held {ends : Endings} (hturn : Turn ends m deeds m') (task : Handle) :
    heldBy m' task + (closingsIn deeds task).length ≤
      heldBy m task + ((begunIn deeds).map BegunTask.handle).count task := by
  cases hturn with
  | work hwork => exact (does_work hwork).held task
  | finish hrunning hends => exact Nat.le_refl _
  | deliver hidle htake => exact (quiet_accept m _ _ _).held task
  | ask function args => exact (quiet_ask m function args).held task

lemma promiseAt_record (fields : List (String × Value)) (scopes : Array Scope) (p : Ref) :
    promiseAt ⟨#[⟨.record, fields⟩], scopes⟩ p = none := by
  cases p with
  | zero => rfl
  | succ n => rfl

/-- Before the statements are loaded nothing waits for a promise. -/
lemma promiseAt_start (host : Host) (program : List Stmt) (p : Ref) :
    promiseAt (Machine.start host program).memory p = none ∨
      promiseAt (Machine.start host program).memory p = some (.pending []) := by
  have hdeclared : Retains (fun _ => True) _ (Machine.start host program).memory := .declare _ _ _
  rcases hdeclared.promises p with hsame | ⟨-, hnew⟩
  · exact .inl (hsame.trans (promiseAt_record _ _ p))
  · exact .inr hnew

lemma held_start (host : Host) (program : List Stmt) (task : Handle) :
    heldBy (Machine.start host program) task = 0 := by
  have hmemory : heldInMemory (Machine.start host program).memory task = 0 := by
    refine Finset.sum_eq_zero fun p _ => ?_
    rcases promiseAt_start host program p with hnone | hpending
    · rw [hnone]
      rfl
    · rw [hpending]
      rfl
  rw [heldBy, hmemory]
  rfl

/-- No task is held once it was ended, and none is held twice. -/
lemma Turns.held {ends : Endings} (hturns : Turns ends m log m') (hstart : ∀ task, heldBy m task = 0)
    (task : Handle) :
    heldBy m' task + (closingsIn log task).length ≤ ((begunIn log).map BegunTask.handle).count task := by
  induction hturns with
  | nil => exact Nat.le_of_eq (hstart task)
  | snoc _ hturn ih =>
    have hstep := hturn.held task
    rw [closingsIn_append, begunIn_append, List.length_append, List.map_append, List.count_append]
    omega

/-! ## Runs of a script -/

section Runs

variable {services : Services} {world : World} {program : List Stmt} {l : Ledger}

/-- A state that a run of statements comes to. -/
abbrev RunsTo (services : Services) (world : World) (program : List Stmt) (log : List Deed)
    (m : Machine) : Prop :=
  Turns CarriedOut (Machine.start ⟨services, world, .empty⟩ program) log m

lemma RunsTo.accounts (run : RunsTo services world program log m) : Accounts world.session log m.host :=
  Turns.accounts run (.nil services world)

/-- No task is held once it was ended, and none is held twice. -/
lemma RunsTo.held (run : RunsTo services world program log m) (task : Handle) :
    heldBy m task + (closingsIn log task).length ≤ 1 :=
  Nat.le_trans (Turns.held run (held_start _ _) task)
    (List.nodup_iff_count_le_one.mp run.accounts.handles task)

/-- Whenever the outcome of a task's function becomes known, the task is there to be ended with it. -/
theorem RunsTo.ends_known (run : RunsTo services world program log m) (hanswers : Answers world.session l)
    {outcome : Except String Json} (hknown : Known m task outcome m₀) :
    (m.host.endTask? task outcome).isSome := by
  have hheld := Turns.held run (held_start _ _) task
  have hone : 1 ≤ heldBy m task := by
    have hletGo := hknown.held task
    rw [if_pos rfl] at hletGo
    omega
  obtain ⟨b, hb, rfl⟩ : ∃ b ∈ begunIn log, b.handle = task :=
    List.mem_map.mp (List.count_pos_iff.mp (by omega))
  have hnone : closingsIn log b.handle = [] := by
    have hle := run.held b.handle
    exact List.length_eq_zero_iff.mp (by omega)
  have hmem : b.handle ∈ m.host.bridge.tasks.map Prod.fst := by
    rw [run.accounts.tasks, List.map_map]
    exact List.mem_map_of_mem (mem_openIn.mpr ⟨hb, hnone⟩)
  obtain ⟨id, hlookup, -⟩ := exists_lookup hmem
  obtain ⟨b', hopen, hsame, rfl⟩ := run.accounts.begun_of_lookup hlookup
  obtain rfl : b' = b := List.inj_on_of_nodup_map run.accounts.handles (mem_openIn.mp hopen).1 hb hsame
  obtain ⟨steps, hsteps, hasks⟩ := run.accounts.steps
  have hcompletes := (hnone ▸ hasks b' hb).completes hanswers outcome
  rw [← hsteps] at hcompletes
  simpa [Host.endTask?, Bridge.endTask?, hlookup] using hcompletes

end Runs

/-! ## Awaited promises -/

/-- The end of a task waits for a promise, or the promise was settled and the job for the end is there. -/
inductive Awaits (m : Machine) (task : Handle) (p : Ref) : Prop where
  | pending {rs : List Reaction} {derived : Option Ref} (hp : promiseAt m.memory p = some (.pending rs))
    (hr : ⟨derived, .endTask task, .endTask task⟩ ∈ rs) : Awaits m task p
  | queued {derived : Option Ref} {ok : Bool} {v : Value}
    (hp : promiseAt m.memory p = some (settledAs ok v))
    (hjob : .react (.endTask task) derived ok v ∈ m.jobs) : Awaits m task p

/-- What may become of a promise that is pending. -/
lemma goes_of_pending {new : List Job} {s : PromiseState} {rs : List Reaction}
    (hgoes : Goes new (.pending rs) s) :
    (∃ more, s = .pending (rs ++ more) ∧ ∀ r ∈ more, Ordinary r) ∨
      ∃ ok v, s = settledAs ok v ∧ ∀ r ∈ rs, Reaction.job r ok v ∈ new := by
  generalize hstate : PromiseState.pending rs = state at hgoes
  cases hgoes with
  | waits hmore =>
    cases hstate
    exact .inl ⟨_, rfl, hmore⟩
  | settles hjobs =>
    cases hstate
    exact .inr ⟨_, _, rfl, hjobs⟩
  | @stays ok v => exact absurd hstate.symm (settledAs_ne_pending ok v _)

lemma job_endTask (task : Handle) (derived : Option Ref) (ok : Bool) (v : Value) :
    Reaction.job ⟨derived, .endTask task, .endTask task⟩ ok v = .react (.endTask task) derived ok v := by
  cases ok <;> rfl

/-- A reaction is added to a promise that is pending, or becomes a job if the promise was settled. -/
lemma react_cases (m : Machine) (p : Ref) (r : Reaction) :
    (∃ rs, promiseAt m.memory p = some (.pending rs) ∧
      m.react p r = m.update (·.setKind p (.promise (.pending (rs ++ [r]))))) ∨
    (∃ ok v, promiseAt m.memory p = some (settledAs ok v) ∧ m.react p r = m.later (Reaction.job r ok v)) ∨
    promiseAt m.memory p = none ∧ m.react p r = m := by
  unfold Machine.react promiseAt
  cases hkind : m.memory.kind? p with
  | none => exact .inr (.inr ⟨rfl, rfl⟩)
  | some kind =>
    cases kind with
    | promise state =>
      cases state with
      | pending rs => exact .inl ⟨rs, rfl, rfl⟩
      | fulfilled v => exact .inr (.inl ⟨true, v, rfl, rfl⟩)
      | rejected v => exact .inr (.inl ⟨false, v, rfl, rfl⟩)
    | _ => exact .inr (.inr ⟨rfl, rfl⟩)

namespace Awaits

variable {p : Ref} (w : Awaits m task p)
include w

/-- What waits goes on waiting, whatever else is done. -/
lemma calm (c : Calm safe m m') : Awaits m' task p := by
  obtain ⟨new, hjobs, flows⟩ := c.flows
  cases w with
  | pending hp hr =>
    obtain ⟨s, hs, hgoes⟩ := flows.states _ _ hp
    rcases goes_of_pending hgoes with ⟨more, rfl, -⟩ | ⟨ok, v, rfl, hnew⟩
    · exact .pending hs (List.mem_append_left _ hr)
    · have hjob := hnew _ hr
      rw [job_endTask] at hjob
      exact .queued hs (hjobs ▸ List.mem_append_right _ hjob)
  | queued hp hjob =>
    obtain ⟨s, hs, hgoes⟩ := flows.states _ _ hp
    exact .queued (goes_settledAs hgoes ▸ hs) (hjobs ▸ List.mem_append_left _ hjob)

/-- What waits does not notice other jobs, nor anything outside of memory and jobs. -/
lemma elsewhere (hmemory : m'.memory = m.memory)
    (hjobs : ∀ derived ok v, .react (.endTask task) derived ok v ∈ m.jobs →
      .react (.endTask task) derived ok v ∈ m'.jobs) : Awaits m' task p := by
  cases w with
  | pending hp hr => exact .pending (hmemory ▸ hp) hr
  | queued hp hjob => exact .queued (hmemory ▸ hp) (hjobs _ _ _ hjob)

lemma continues (hon : Continues m m') : Awaits m' task p := by
  refine w.elsewhere hon.memory fun derived ok v hmem => ?_
  cases hon with
  | step => exact hmem
  | job hjobs hj =>
    rw [hjobs] at hmem
    obtain rfl | hrest := List.mem_cons.mp hmem
    · exact absurd rfl (hj task)
    · exact hrest
  | resume hjobs =>
    rw [hjobs] at hmem
    obtain hsame | hrest := List.mem_cons.mp hmem
    · cases hsame
    · exact hrest

/-- An outcome that becomes known is not what waits, or it is just that. -/
lemma known {outcome : Except String Json} (hknown : Known m other outcome m') :
    Awaits m' task p ∨ task = other ∧ ∃ ok v, promiseAt m.memory p = some (settledAs ok v) ∧
      outcome = outcomeOf m.memory ok v := by
  cases hknown with
  | thrown hcontrol hstack => exact .inl (w.elsewhere rfl fun _ _ _ hmem => hmem)
  | settled hjobs =>
    cases w with
    | pending hp hr => exact .inl (.pending hp hr)
    | queued hp hjob =>
      rw [hjobs] at hjob
      obtain hsame | hrest := List.mem_cons.mp hjob
      · cases hsame
        exact .inr ⟨rfl, _, _, hp, rfl⟩
      · exact .inl (.queued hp hrest)

lemma react (q : Ref) (r : Reaction) : Awaits (m.react q r) task p := by
  rcases react_cases m q r with ⟨rs, hq, hreact⟩ | ⟨ok, v, -, hreact⟩ | ⟨-, hreact⟩
  · rw [hreact]
    have hafter := promiseAt_setKind hq (.pending (rs ++ [r])) p
    cases w with
    | pending hp hr =>
      by_cases hsame : p = q
      · rw [hsame, hq, Option.some.injEq, PromiseState.pending.injEq] at hp
        rw [if_pos hsame] at hafter
        exact .pending hafter (List.mem_append_left _ (hp ▸ hr))
      · rw [if_neg hsame] at hafter
        exact .pending (hafter.trans hp) hr
    | queued hp hjob =>
      have hother : p ≠ q := by
        rintro rfl
        exact settledAs_ne_pending _ _ _ (Option.some.inj (hp.symm.trans hq))
      rw [if_neg hother] at hafter
      exact .queued (hafter.trans hp) hjob
  · rw [hreact]
    exact w.elsewhere rfl fun _ _ _ => List.mem_append_left _
  · rwa [hreact]

lemma starts (hstarts : Starts m deeds m') : Awaits m' task p := by
  induction hstarts with
  | nil => exact w
  | cons hr ho _ ih => exact ih (w.calm (calm_launch ho).1)

end Awaits

lemma awaits_react {p : Ref} (hpromise : (promiseAt m.memory p).isSome) (task : Handle)
    (derived : Option Ref) : Awaits (m.react p ⟨derived, .endTask task, .endTask task⟩) task p := by
  rcases react_cases m p ⟨derived, .endTask task, .endTask task⟩ with
    ⟨rs, hp, hreact⟩ | ⟨ok, v, hp, hreact⟩ | ⟨hp, -⟩
  · have hafter := promiseAt_setKind hp (.pending (rs ++ [⟨derived, .endTask task, .endTask task⟩])) p
    rw [if_pos rfl] at hafter
    rw [hreact]
    exact .pending hafter (List.mem_append_right _ List.mem_cons_self)
  · rw [hreact, job_endTask]
    exact .queued hp (List.mem_append_right _ List.mem_cons_self)
  · rw [hp] at hpromise
    cases hpromise

/-- Something that waits goes on waiting, unless the job begins that it was waiting for. -/
lemma Does.awaits {p : Ref} (hdoes : Does m deeds m') (w : Awaits m task p)
    (hends : ∀ outcome m₀, Known m task outcome m₀ → (m.host.endTask? task outcome).isSome) :
    Awaits m' task p ∨ ∃ ok v, promiseAt m.memory p = some (settledAs ok v) ∧
      deeds = [.endTask task (outcomeOf m.memory ok v)] := by
  have hlater {m₁ m₂ : Machine} (c : Calm (fun _ => True) m₁ m₂) (hmemory : m₁.memory = m.memory)
      (hjobs : m₁.jobs = m.jobs) : Awaits m₂ task p :=
    (w.elsewhere hmemory fun _ _ _ hmem => hjobs ▸ hmem).calm c
  cases hdoes with
  | quiet hon hquiet => exact .inl ((w.continues hon).calm hquiet.toCalm)
  | tell htold hquiet => exact .inl (hlater hquiet.toCalm rfl rfl)
  | start hon hbefore hstarts hquiet =>
    exact .inl ((((w.continues hon).calm hbefore.toCalm).starts hstarts).calm hquiet.toCalm)
  | beginTask hhost hquiet => exact .inl (hlater hquiet.toCalm rfl rfl)
  | await hcontrol hstack hp hbefore hpromise hquiet =>
    exact .inl (((hlater hbefore.toCalm rfl rfl).react _ _).calm hquiet.toCalm)
  | @fail m₀ m' other outcome hknown hend hquiet =>
    rcases w.known hknown with hrest | ⟨rfl, -⟩
    · exact .inl (hrest.calm hquiet.toCalm)
    · have hthere := hends _ _ hknown
      rw [hend] at hthere
      cases hthere
  | @endTask m₀ m' other outcome host result hknown hend hquiet =>
    rcases w.known hknown with hrest | ⟨rfl, ok, v, hp, rfl⟩
    · have hended : Awaits { m₀ with host } task p := hrest.elsewhere rfl fun _ _ _ h => h
      exact .inl (hended.calm hquiet.toCalm)
    · exact .inr ⟨ok, v, hp, rfl⟩

/-! ## Where the jobs for the ends of tasks come from -/

/-- Every job for the end of a task comes of the promise that the end waits for, and no other promise keeps
such a reaction. -/
structure Traced (log : List Deed) (m : Machine) : Prop where
  jobs : ∀ task derived ok v, .react (.endTask task) derived ok v ∈ m.jobs →
    ∃ p, .await task p ∈ log ∧ promiseAt m.memory p = some (settledAs ok v)
  reactions : ∀ p rs r task, promiseAt m.memory p = some (.pending rs) → r ∈ rs →
    r.fulfilled = .endTask task ∨ r.rejected = .endTask task → .await task p ∈ log

lemma Ordinary.endsNone {r : Reaction} (hr : Ordinary r) (task : Handle) :
    ¬(r.fulfilled = .endTask task ∨ r.rejected = .endTask task) := by
  rintro (hends | hends)
  · exact hr.1 task hends
  · exact hr.2 task hends

lemma handler_of_job {r : Reaction} {ok ok' : Bool} {v v' : Value} {derived : Option Ref}
    (hjob : Job.react (.endTask task) derived ok v = Reaction.job r ok' v') :
    (r.fulfilled = .endTask task ∨ r.rejected = .endTask task) ∧ ok = ok' ∧ v = v' := by
  simp only [Reaction.job, Job.react.injEq] at hjob
  obtain ⟨hhandler, -, rfl, rfl⟩ := hjob
  cases ok
  · exact ⟨.inr hhandler.symm, rfl, rfl⟩
  · exact ⟨.inl hhandler.symm, rfl, rfl⟩

namespace Traced

lemma start (host : Host) (program : List Stmt) : Traced [] (Machine.start host program) where
  jobs := fun _ _ _ _ hmem => absurd hmem List.not_mem_nil
  reactions := fun p rs r task hp hr _ => by
    rcases promiseAt_start host program p with hnone | hpending
    · rw [hnone] at hp
      cases hp
    · rw [hpending, Option.some.injEq, PromiseState.pending.injEq] at hp
      rw [← hp] at hr
      cases hr

variable (t : Traced log m)
include t

lemma calm (c : Calm safe m m') : Traced log m' := by
  obtain ⟨new, hjobs, flows⟩ := c.flows
  refine ⟨fun task derived ok v hmem => ?_, fun p rs r task hp hr hends => ?_⟩
  · rw [hjobs] at hmem
    obtain hold | hnew := List.mem_append.mp hmem
    · obtain ⟨p, hawait, hp⟩ := t.jobs task derived ok v hold
      obtain ⟨s, hs, hgoes⟩ := flows.states p _ hp
      exact ⟨p, hawait, goes_settledAs hgoes ▸ hs⟩
    · rcases flows.jobs _ hnew with hordinary | ⟨p, rs, r, ok', v', hp, hr, hjob, hsettled⟩
      · exact absurd rfl (hordinary task)
      · obtain ⟨hends, rfl, rfl⟩ := handler_of_job hjob
        exact ⟨p, t.reactions p rs r task hp hr hends, hsettled⟩
  · cases hbefore : promiseAt m.memory p with
    | none => exact absurd hends ((flows.fresh p rs hbefore hp r hr).endsNone task)
    | some s =>
      obtain ⟨s', hs', hgoes⟩ := flows.states p s hbefore
      rw [hp, Option.some.injEq] at hs'
      obtain ⟨before, more, rfl, rfl, hmore⟩ := goes_pending (hs' ▸ hgoes)
      obtain hr | hr := List.mem_append.mp hr
      · exact t.reactions p before r task hbefore hr hends
      · exact absurd hends ((hmore r hr).endsNone task)

lemma elsewhere (hmemory : m'.memory = m.memory) (hjobs : ∀ j ∈ m'.jobs, j ∈ m.jobs) : Traced log m' where
  jobs := fun task derived ok v hmem => hmemory ▸ t.jobs task derived ok v (hjobs _ hmem)
  reactions := fun p rs r task hp => t.reactions p rs r task (hmemory ▸ hp)

lemma append (more : List Deed) : Traced (log ++ more) m where
  jobs := fun task derived ok v hmem => by
    obtain ⟨p, hawait, hp⟩ := t.jobs task derived ok v hmem
    exact ⟨p, List.mem_append_left _ hawait, hp⟩
  reactions := fun p rs r task hp hr hends => List.mem_append_left _ (t.reactions p rs r task hp hr hends)

lemma continues (hon : Continues m m') : Traced log m' := by
  refine t.elsewhere hon.memory fun j hj => ?_
  cases hon with
  | step => exact hj
  | job hjobs _ | resume hjobs => exact hjobs ▸ List.mem_cons_of_mem _ hj

lemma known {outcome : Except String Json} (hknown : Known m task outcome m') : Traced log m' := by
  refine t.elsewhere hknown.memory fun j hj => ?_
  cases hknown with
  | thrown => exact hj
  | settled hjobs => exact hjobs ▸ List.mem_cons_of_mem _ hj

lemma starts (hstarts : Starts m deeds m') : Traced log m' := by
  induction hstarts with
  | nil => exact t
  | cons hr ho _ ih => exact ih (t.calm (calm_launch ho).1)

/-- The end of a task waits for a promise. -/
lemma await (waiting : Handle) (p : Ref) (derived : Option Ref) :
    Traced (log ++ [.await waiting p]) (m.react p ⟨derived, .endTask waiting, .endTask waiting⟩) := by
  have hnew : .await waiting p ∈ log ++ [.await waiting p] := List.mem_append_right _ List.mem_cons_self
  have hold := t.append [.await waiting p]
  rcases react_cases m p ⟨derived, .endTask waiting, .endTask waiting⟩ with
    ⟨rs, hp, hreact⟩ | ⟨ok, v, hp, hreact⟩ | ⟨-, hreact⟩
  · have hafter := promiseAt_setKind hp (.pending (rs ++ [⟨derived, .endTask waiting, .endTask waiting⟩]))
    rw [hreact]
    refine ⟨fun task derived' ok v hmem => ?_, fun q rs' r task hq hr hends => ?_⟩
    · obtain ⟨q, hawait, hq⟩ := hold.jobs task derived' ok v hmem
      have hother : q ≠ p := by
        rintro rfl
        exact settledAs_ne_pending _ _ _ (Option.some.inj (hq.symm.trans hp))
      exact ⟨q, hawait, by rw [Machine.update, hafter, if_neg hother, hq]⟩
    · rw [Machine.update, hafter] at hq
      split at hq
      · rename_i hsame
        subst hsame
        cases hq
        obtain hr | hr := List.mem_append.mp hr
        · exact hold.reactions q rs r task hp hr hends
        · cases List.mem_singleton.mp hr
          rcases hends with hends | hends <;> cases hends <;> exact hnew
      · exact hold.reactions q rs' r task hq hr hends
  · rw [hreact, job_endTask]
    refine ⟨fun task derived' ok' v' hmem => ?_, hold.reactions⟩
    obtain hmem | hmem := List.mem_append.mp hmem
    · exact hold.jobs task derived' ok' v' hmem
    · cases List.mem_singleton.mp hmem
      exact ⟨p, hnew, hp⟩
  · rwa [hreact]

end Traced

/-- What a script does leaves every job for the end of a task traced to its promise. -/
lemma Does.traced (hdoes : Does m deeds m') (t : Traced log m) : Traced (log ++ deeds) m' := by
  have hlater {m₁ m₂ : Machine} (c : Calm (fun _ => True) m₁ m₂) (hmemory : m₁.memory = m.memory)
      (hjobs : m₁.jobs = m.jobs) : Traced log m₂ :=
    (t.elsewhere hmemory fun _ hmem => hjobs ▸ hmem).calm c
  cases hdoes with
  | quiet hon hquiet => exact ((t.continues hon).calm hquiet.toCalm).append _
  | tell htold hquiet => exact (hlater hquiet.toCalm rfl rfl).append _
  | start hon hbefore hstarts hquiet =>
    exact ((((t.continues hon).calm hbefore.toCalm).starts hstarts).calm hquiet.toCalm).append _
  | beginTask hhost hquiet => exact (hlater hquiet.toCalm rfl rfl).append _
  | await hcontrol hstack hp hbefore hpromise hquiet =>
    exact ((hlater hbefore.toCalm rfl rfl).await _ _ _).calm hquiet.toCalm
  | fail hknown hend hquiet => exact ((t.known hknown).calm hquiet.toCalm).append _
  | @endTask m₀ m' ended outcome host result hknown hend hquiet =>
    have hended : Traced log { m₀ with host } := (t.known hknown).elsewhere rfl fun _ h => h
    exact (hended.calm hquiet.toCalm).append _

lemma Turn.traced {ends : Endings} (hturn : Turn ends m deeds m') (t : Traced log m) :
    Traced (log ++ deeds) m' := by
  cases hturn with
  | work hwork => exact (does_work hwork).traced t
  | finish => exact ⟨(t.append _).jobs, (t.append _).reactions⟩
  | deliver => exact (t.calm (calm_accept m _ _ _)).append _
  | ask function args => exact (t.calm (quiet_ask m function args).toCalm).append _

lemma Turns.traced {ends : Endings} (hturns : Turns ends m log m') (hstart : Traced [] m) :
    Traced log m' := by
  induction hturns with
  | nil => exact hstart
  | snoc _ hturn ih => exact hturn.traced ih

end TaskRunner.Proofs
