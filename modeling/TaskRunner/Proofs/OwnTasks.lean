import TaskRunner.Proofs.CapturedSwitches
import TaskRunner.Script.Operation

/-!
# Work in tasks of its own

Every operation that a script may ask for begins a task, works for it and completes it. The work asks nothing
of other tasks, so those that were there before are left as they are, and the task is settled with the result
of the operation.
-/

namespace TaskRunner.Proofs
open Session Script

/-- The session goes on by steps that ask nothing of other tasks, and leave the task open. -/
def WorksFor (id : TaskId) (s s' : Session) : Prop :=
  ∃ steps, s' = performSteps steps s ∧ (∀ other, other ≠ id → callsOn other steps = []) ∧
    firstClosing (callsOn id steps) = none

/-- The session goes on by steps that ask nothing of the tasks that it has. -/
def LeavesTasks (s s' : Session) : Prop :=
  ∃ steps, s' = performSteps steps s ∧ ∀ id : TaskId, id.number < s.nextId → callsOn id steps = []

/-- The session begins a task, works for it and completes it with an outcome, of which there is the result. -/
def CompletesOwn (s s' : Session) (result : TaskResult) : Prop :=
  ∃ name kind outcome worked, WorksFor ⟨s.nextId⟩ (s.startTask name (.ofKind kind)).1 worked ∧
    s' = (worked.complete ⟨s.nextId⟩ outcome).1 ∧
    result = ((worked.complete ⟨s.nextId⟩ outcome).2.getD (FailureMode.fail.resultOf outcome))

variable {s s' s'' : Session} {id : TaskId} {result : TaskResult}

lemma callsOn_append (id : TaskId) (steps more : List Step) :
    callsOn id (steps ++ more) = callsOn id steps ++ callsOn id more :=
  List.filterMap_append

lemma firstClosing_append (calls more : List Call) :
    firstClosing (calls ++ more) = (firstClosing calls).or (firstClosing more) := by
  induction calls with
  | nil => rfl
  | cons call rest ih =>
    cases call with
    | output line isError => exact ih
    | close closing => rfl

lemma perform_nextId_le (step : Step) (s : Session) : s.nextId ≤ (step.perform s).nextId := by
  cases step with
  | begin name options => exact startTask_nextId s name options ▸ Nat.le_succ _
  | close id closing => exact Nat.le_of_eq (settle_nextId s id _ _).symm
  | output id line isError => exact Nat.le_of_eq (output_nextId s id line isError).symm
  | _ => exact Nat.le_refl _

/-- Numbers of tasks are not given out again. -/
lemma performSteps_nextId_le (steps : List Step) (s : Session) :
    s.nextId ≤ (performSteps steps s).nextId := by
  induction steps generalizing s with
  | nil => exact Nat.le_refl _
  | cons step rest ih => exact Nat.le_trans (perform_nextId_le step s) (ih _)

/-! ## Work for a task -/

namespace WorksFor

lemma refl (s : Session) : WorksFor id s s :=
  ⟨[], rfl, fun _ _ => rfl, rfl⟩

lemma trans (h : WorksFor id s s') (h' : WorksFor id s' s'') : WorksFor id s s'' := by
  obtain ⟨steps, rfl, hnone, hopen⟩ := h
  obtain ⟨more, rfl, hnone', hopen'⟩ := h'
  refine ⟨steps ++ more, (performSteps_append _ _ _).symm, fun other hother => ?_, ?_⟩
  · rw [callsOn_append, hnone other hother, hnone' other hother, List.append_nil]
  · rw [callsOn_append, firstClosing_append, hopen, hopen', Option.none_or]

lemma of_step (s : Session) (step : Step) (h : ∀ other, other ≠ id → step.call? other = none)
    (hopen : ∀ closing, step.call? id ≠ some (.close closing)) : WorksFor id s (step.perform s) := by
  refine ⟨[step], rfl, fun other hother => by rw [callsOn_cons, h other hother]; rfl, ?_⟩
  rw [callsOn_cons]
  cases hcall : step.call? id with
  | none => rfl
  | some call =>
    cases call with
    | output line isError => rfl
    | close closing => exact absurd hcall (hopen closing)

lemma output (s : Session) (line : String) (isError : Bool) :
    WorksFor id s (s.output id line isError) :=
  of_step s (.output id line isError) (fun _ hother => if_neg hother) fun _ => by simp [Step.call?]

lemma outputs {α : Type} (lines : List α) (line : α → String) (isError : α → Bool) (s : Session) :
    WorksFor id s (lines.foldl (fun (s : Session) a => s.output id (line a) (isError a)) s) := by
  induction lines generalizing s with
  | nil => exact refl s
  | cons a rest ih => exact (output s (line a) (isError a)).trans (ih _)

lemma setExitCode (s : Session) (code : Int) : WorksFor id s (s.setExitCode id code) :=
  of_step s (.setExitCode id code) (fun _ _ => rfl) fun _ => nofun

lemma setStatusCode (s : Session) (code : Nat) : WorksFor id s (s.setStatusCode id code) :=
  of_step s (.setStatusCode id code) (fun _ _ => rfl) fun _ => nofun

end WorksFor

lemma leavesTasks_refl (s : Session) : LeavesTasks s s :=
  ⟨[], rfl, fun _ _ => rfl⟩

namespace CompletesOwn

lemma of_runWith (s : Session) (name : String) (kind : TaskKind)
    (work : TaskId → Session → Session × Except String Json) (h : ∀ id s, WorksFor id s (work id s).1) :
    CompletesOwn s (s.runWith name (.ofKind kind) work).1 (s.runWith name (.ofKind kind) work).2 :=
  ⟨name, kind, _, _, h _ _, rfl, rfl⟩

/-- A task that is begun, worked for and completed has nothing to do with the tasks before it. -/
lemma leavesTasks (h : CompletesOwn s s' result) : LeavesTasks s s' := by
  obtain ⟨name, kind, outcome, _, ⟨steps, rfl, hnone, -⟩, rfl, -⟩ := h
  refine ⟨.begin name (.ofKind kind) :: (steps ++ [.close ⟨s.nextId⟩ (.completed outcome)]), ?_, fun id hid => ?_⟩
  · rw [performSteps_cons, performSteps_append]
    rfl
  · have hother : id ≠ ⟨s.nextId⟩ := fun h => Nat.lt_irrefl _ (h ▸ hid)
    have hclose : (Step.close ⟨s.nextId⟩ (.completed outcome)).call? id = none := if_neg hother
    rw [callsOn_cons, callsOn_append, hnone id hother, callsOn_cons, hclose]
    rfl

/-- The task is settled with the result, which is a success or a failure with a text. -/
lemma settled {l : Ledger} (h : CompletesOwn s s' result) (hanswers : Answers s l) :
    (∃ outcome, result = FailureMode.fail.resultOf outcome) ∧ resultIn s' ⟨s.nextId⟩ = some result := by
  obtain ⟨name, kind, outcome, _, ⟨steps, rfl, -, hopen⟩, rfl, hresult⟩ := h
  obtain ⟨n, hnext, haccount, -⟩ := hanswers.begun name (.ofKind kind)
  rw [hnext] at hopen hresult ⊢
  have hbegun := answers_simulation.step (.begin name (.ofKind kind)) hanswers
  have hworked := (answers_simulation.steps steps hbegun).task (recordSteps_account haccount steps)
  rw [hopen] at hworked
  obtain ⟨t, htask, hasked⟩ := hworked
  have ht : (performSteps steps (s.startTask name (.ofKind kind)).1).task? ⟨n + 1⟩ = some t := htask
  have hruns : t.settlement = none := hasked.settlement
  have hmode : t.mode = .fail := hasked.mode
  have hown : result = FailureMode.fail.resultOf outcome := by
    rw [hresult, Session.complete, Proofs.settle_running ht hruns, Option.getD_some, hmode]
  have hclosed := hbegun.result_steps haccount rfl (steps ++ [.close ⟨n + 1⟩ (.completed outcome)])
  have hfirst : firstClosing (callsOn ⟨n + 1⟩ (steps ++ [.close ⟨n + 1⟩ (.completed outcome)])) =
      some (.completed outcome) := by
    rw [callsOn_append, firstClosing_append, hopen]
    simp [callsOn, Step.call?, firstClosing]
  rw [hfirst, performSteps_append] at hclosed
  exact ⟨⟨outcome, hown⟩, hown ▸ hclosed⟩

end CompletesOwn

/-! ## Operations -/

lemma settle_worksFor (id : TaskId) (s : Session) (o : Shell.Outcome) :
    WorksFor id s (ExecRequest.settle id s o).1 := by
  unfold ExecRequest.settle
  dsimp only
  have hlines : WorksFor id s _ := .outputs (OutputBuffers.empty.lines o.written) Prod.snd Prod.fst s
  split
  · exact hlines.trans (.setExitCode _ _)
  · exact hlines.trans (.setExitCode _ _)

lemma receive_worksFor (r : FetchRequest) (id : TaskId) (s : Session) (url : Web.Url)
    (response : Web.Response) : WorksFor id s (r.receive id s url response).1 :=
  (WorksFor.setStatusCode s _).trans (.outputs _ (fun line => line) (fun _ => false) _)

lemma exec_completes (r : ExecRequest) (environment : List (String × String)) (base : Files.Location)
    (tree : Files.Tree) (s : Session) :
    CompletesOwn s (r.run environment base tree s).1 (r.run environment base tree s).2.2 := by
  unfold ExecRequest.run
  dsimp only
  refine .of_runWith _ _ _ _ fun id s => ?_
  split
  · exact settle_worksFor id s _
  · exact .refl s

lemma fetch_completes (r : FetchRequest) (client : Web.Client) (network : Web.Network) (s : Session) :
    CompletesOwn s (r.run client network s).1 (r.run client network s).2.2.1 := by
  unfold FetchRequest.run
  dsimp only
  cases (r.send client network).2 with
  | error e => exact ⟨r.taskName, .fetch, .error e.message, _, .refl _, rfl, rfl⟩
  | ok answer =>
    obtain ⟨url, response⟩ := answer
    exact ⟨r.taskName, .fetch, _, _, receive_worksFor r _ _ url response, rfl, rfl⟩

lemma write_completes (r : WriteRequest) (cwd : Files.Location) (tree : Files.Tree) (s : Session) :
    CompletesOwn s (r.run cwd tree s).1 (r.run cwd tree s).2.2 := by
  unfold WriteRequest.run
  dsimp only
  refine .of_runWith _ _ _ _ fun id s => ?_
  split
  · exact .refl s
  · exact .output s _ _

lemma generate_completes (r : GenerateRequest) (provider : Except Ai.AiError Ai.Provider)
    (client : Web.Client) (network : Web.Network) (s : Session) :
    CompletesOwn s (r.run provider client network s).1 (r.run provider client network s).2.2 := by
  unfold GenerateRequest.run
  dsimp only
  refine .of_runWith _ _ _ _ fun id s => ?_
  dsimp only
  split
  · exact .output s _ _
  · exact .refl s

/-- An operation that asks for a request by a method that there is not. -/
def RefusedRequest (o : Operation) (reason : String) : Prop :=
  ∃ url method headers body, o = .fetch url method headers body ∧ Web.Method.ofText? method = .error reason

/-- An operation is done in a task of its own, or refused before it has one. -/
theorem operation_completes (o : Operation) (services : Services) (world : World) :
    CompletesOwn world.session (o.run services world).1.session (o.run services world).2.result ∨
      ∃ reason, RefusedRequest o reason ∧ o.run services world = (world, ⟨.fail (.text reason), none⟩) := by
  unfold Operation.run
  split
  · exact .inl (exec_completes _ _ _ _ _)
  · rename_i url method headers body
    split
    · rename_i reason hmethod
      exact .inr ⟨reason, ⟨url, method, headers, body, rfl, hmethod⟩, rfl⟩
    · dsimp only
      exact .inl (fetch_completes _ _ _ _)
  · dsimp only
    exact .inl (write_completes _ _ _ _)
  · dsimp only
    exact .inl (generate_completes _ _ _ _ _)

/-- An operation leaves the tasks alone that there are. -/
theorem operation_leavesTasks (o : Operation) (services : Services) (world : World) :
    LeavesTasks world.session (o.run services world).1.session := by
  rcases operation_completes o services world with hcompletes | ⟨reason, -, hrefused⟩
  · exact hcompletes.leavesTasks
  · rw [hrefused]
    exact leavesTasks_refl _

end TaskRunner.Proofs
