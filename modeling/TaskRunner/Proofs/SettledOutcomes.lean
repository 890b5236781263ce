import TaskRunner.Proofs.CapturedSwitches

/-!
# The outcome of a task

When a task is settled its outcome is answered, recorded in the history and reported. The three agree, and
whatever is done to the session afterwards, the entry in the history and the report stay as they are.
-/

namespace TaskRunner.Proofs
open Session

/-- What the history shows of a task. -/
structure HistoryEntry where
  id : TaskId
  name : String
  kind : TaskKind
  status : Status
  duration : Option Duration
  result : Option TaskResult

/-- The entry of a task in the history. -/
def entryIn (s : Session) (id : TaskId) : Option HistoryEntry :=
  (s.task? id).map fun t =>
    ⟨t.id, t.name, t.kind, t.status, t.settlement.map Settlement.duration,
      t.settlement.map Settlement.result⟩

/-- How the result of a task tells of its outcome. -/
structure Tells (mode : FailureMode) (outcome : Except String Json) (r : TaskResult) : Prop where
  success : r.status = .success ↔ ∃ value, outcome = .ok value
  succeeded : r.succeeded = true ↔ ∃ value, outcome = .ok value
  value : ∀ value, outcome = .ok value → r.output = value
  failure : ∀ message, outcome = .error message →
    r.output = .text message ∧ r.status = if mode = .warn then .warning else .fail

lemma tells_resultOf (mode : FailureMode) (outcome : Except String Json) :
    Tells mode outcome (mode.resultOf outcome) := by
  cases outcome with
  | ok value =>
    refine ⟨⟨fun _ => ⟨value, rfl⟩, fun _ => by cases mode <;> rfl⟩,
      ⟨fun _ => ⟨value, rfl⟩, fun _ => by cases mode <;> rfl⟩, ?_, fun _ h => nomatch h⟩
    rintro _ ⟨⟩
    cases mode <;> rfl
  | error message =>
    refine ⟨⟨?_, fun ⟨_, h⟩ => nomatch h⟩, ⟨?_, fun ⟨_, h⟩ => nomatch h⟩, ?_, ?_⟩
    · cases mode <;> exact fun h => nomatch h
    · cases mode <;> exact fun h => nomatch h
    · exact fun _ h => nomatch h
    · rintro _ ⟨⟩
      cases mode <;> exact ⟨rfl, rfl⟩

variable {s : Session} {l : Ledger}

/-- Work succeeds only with a value, and with every value. -/
lemma outcome_ok_iff (ending : Ending) :
    (∃ value, ending.outcome = .ok value) ↔ ∃ value, ending = .value value := by
  cases ending <;> simp [Ending.outcome]

/-! ## What stays -/

lemma status_of_settlement (t : Task) :
    t.status = ((t.settlement.map Settlement.result).elim .running TaskResult.status) := by
  unfold Task.status
  cases t.settlement <;> rfl

/-- The history shows what the account of a task says. -/
lemma Answers.entryIn_eq (h : Answers s l) {n : Nat} {a : Account} (ha : l.accounts[n]? = some a)
    {closing : Closing} (hclosing : a.closing = some closing) :
    entryIn s ⟨n + 1⟩ = some ⟨⟨n + 1⟩, a.name, a.options.kind,
      (a.options.mode.resultOf closing.outcome).status, some .zero,
      some (a.options.mode.resultOf closing.outcome)⟩ := by
  obtain ⟨t, ht, hasked⟩ := h.task ha
  have hid := task?_id ht
  have hsettlement := hasked.settlement
  rw [hclosing, Option.map_some] at hsettlement
  rw [entryIn, ht, Option.map_some, status_of_settlement, hsettlement, hid, hasked.name, hasked.kind]
  rfl

/-- Steps only add to the reports. -/
lemma reports_step (step : Step) (s : Session) : s.reports <+: (step.perform s).reports := by
  cases step with
  | begin name options => exact ⟨_, (startTask_reports s name options).symm⟩
  | close id closing =>
    exact settle_cases (P := fun s' => s.reports <+: s'.reports) id closing.outcome closing.mayExit
      (fun _ => List.prefix_refl _) fun _ _ _ _ hs => ⟨_, hs.reports.symm⟩
  | output id line isError =>
    exact output_cases (P := fun s' => s.reports <+: s'.reports) id line isError (List.prefix_refl _)
      fun _ _ _ => ⟨_, (reports_report s _).symm⟩
  | say message loud => exact ⟨_, (reports_report s _).symm⟩
  | exit code => exact ⟨[], by rw [Step.perform, reports_exit, List.append_nil]⟩
  | print channel text => exact ⟨[], by rw [Step.perform, reports_print, List.append_nil]⟩
  | setExitCode id code | setStatusCode id code | setSwitches switches | setListening listening =>
    exact List.prefix_refl _

lemma reports_steps (steps : List Step) (s : Session) :
    s.reports <+: (performSteps steps s).reports := by
  induction steps generalizing s with
  | nil => exact List.prefix_refl _
  | cons step rest ih => exact (reports_step step s).trans (ih (step.perform s))

/-- Of a closed task that is not silent there is one last report, and its place in the reports is that of
any report of an end that was ever made. -/
lemma Answers.last_report (h : Answers s l) {n : Nat} {a : Account} (ha : l.accounts[n]? = some a)
    {closing : Closing} (hclosing : a.closing = some closing) (hsilent : a.silent = false) {e : Event}
    (he : e ∈ s.reports) (htask : taskOf e = some ⟨n + 1⟩) (hend : isEnd e = true) :
    (reportsAbout s ⟨n + 1⟩).filter isEnd = [e] := by
  have hreported := h.follows.reports n a ha
  rw [Reported, hsilent, if_neg Bool.false_ne_true, hclosing] at hreported
  obtain ⟨last, hlast, -⟩ := hreported.ending
  have hmem : e ∈ (reportsAbout s ⟨n + 1⟩).filter isEnd := by
    rw [reportsAbout, List.mem_filter, List.mem_filter, htask]
    exact ⟨⟨he, beq_self_eq_true _⟩, hend⟩
  rw [hlast, List.mem_singleton] at hmem
  rw [hlast, hmem]

/-- The report about the end of a task, as far as it tells of the outcome. -/
structure Announces (r : TaskResult) (outcome : Except String Json) (e : Event) : Prop where
  status : ∃ snapshot, e.snapshot? = some snapshot ∧ snapshot.status = r.status
  form : (∃ snapshot value, outcome = .ok value ∧ e = .finish snapshot) ∨
    ∃ snapshot message, outcome = .error message ∧ e = .error snapshot message

lemma announces_endEvent (s : Session) (t : Task) (outcome : Except String Json) :
    Announces (t.mode.resultOf outcome) outcome (endEvent s t outcome) := by
  cases outcome with
  | ok value => exact ⟨⟨_, rfl, rfl⟩, .inl ⟨_, value, rfl, rfl⟩⟩
  | error message => exact ⟨⟨_, rfl, rfl⟩, .inr ⟨_, message, rfl, rfl⟩⟩

/-- The first closing of a task stays in its account. -/
lemma closed_account {n : Nat} {a : Account} (ha : l.accounts[n]? = some a) (hopen : a.closing = none)
    (closing : Closing) (after : List Step) :
    (recordSteps (.close ⟨n + 1⟩ closing :: after) l).accounts[n]? =
      some { a with closing := some closing } := by
  have hcall : (Step.close ⟨n + 1⟩ closing).call? ⟨n + 1⟩ = some (.close closing) := if_pos rfl
  rw [recordSteps_account ha, callsOn_cons, hcall, hopen]
  rfl

/-- The report of the end of a task that is not silent stays its only one. -/
lemma Answers.announced (h : Answers s l) {n : Nat} {a : Account} (ha : l.accounts[n]? = some a)
    (hopen : a.closing = none) (closing : Closing) (hsilent : a.silent = false) (after : List Step) :
    ∃ e, (reportsAbout (performSteps (.close ⟨n + 1⟩ closing :: after) s) ⟨n + 1⟩).filter isEnd = [e] ∧
      Announces (a.options.mode.resultOf closing.outcome) closing.outcome e := by
  obtain ⟨t, ht, hasked⟩ := h.task ha
  have hsettles := settle_settles ht (hasked.running_iff.mpr hopen) closing.outcome closing.mayExit
  have hreports := hsettles.reports
  rw [hasked.silent, hsilent, if_neg Bool.false_ne_true] at hreports
  have hmem : endEvent s t closing.outcome ∈
      (performSteps (.close ⟨n + 1⟩ closing :: after) s).reports := by
    refine (reports_steps after _).subset ?_
    change _ ∈ (s.settle ⟨n + 1⟩ closing.outcome closing.mayExit).1.reports
    rw [hreports]
    exact List.mem_append_right _ List.mem_cons_self
  have hend : isEnd (endEvent s t closing.outcome) = true := by
    rw [endEvent]
    cases closing.outcome <;> rfl
  have hlast := (answers_simulation.steps (.close ⟨n + 1⟩ closing :: after) h).last_report
    (closed_account ha hopen closing after) rfl hsilent hmem
    (by rw [taskOf_endEvent, task?_id ht]) hend
  exact ⟨_, hlast, hasked.mode ▸ announces_endEvent s t closing.outcome⟩

/-- When a task that was not settled before is settled, by a completion, by being dropped or at the end of a
run of work, its outcome is answered, and ever after the history shows the same result and the one report
of its end, unless the task is silent, tells the same status and the same message. -/
theorem outcome_views_agree (switches : Switches) (before : List Step) (n : Nat) (closing : Closing)
    {a : Account} (ha : (recordSteps before (ledgerWith switches)).accounts[n]? = some a)
    (hopen : a.closing = none) :
    let start := sessionWith switches
    let id : TaskId := ⟨n + 1⟩
    let settling := (performSteps before start).settle id closing.outcome closing.mayExit
    let r := a.options.mode.resultOf closing.outcome
    settling.2 = some r ∧ Tells a.options.mode closing.outcome r ∧
    (∀ after, entryIn (performSteps after settling.1) id =
      some ⟨id, a.name, a.options.kind, r.status, some .zero, some r⟩) ∧
    (∀ after, if a.silent then reportsAbout (performSteps after settling.1) id = []
      else ∃ e, (reportsAbout (performSteps after settling.1) id).filter isEnd = [e] ∧
        Announces r closing.outcome e) ∧
    ∀ front name options work ending,
      let s := performSteps front start
      before = front ++ .begin name options :: stepsOfAll (s.nextId + 1) work → n + 1 = s.nextId →
      closing = .completed (Ending.outcome ending) →
      s.runWith name options (fun _ s => (performAll work s, ending.outcome)) = (settling.1, r) ∧
        (r.succeeded = true ↔ ∃ value, ending = .value value) := by
  intro start id settling r
  have h : Answers (performSteps before start) (recordSteps before (ledgerWith switches)) :=
    answers_performSteps switches before
  obtain ⟨t, ht, hasked⟩ := h.task ha
  have hanswer : settling.2 = some r := by
    have hrunning := settle_running ht (hasked.running_iff.mpr hopen) closing.outcome closing.mayExit
    rw [show settling.2 = _ from congrArg Prod.snd hrunning, hasked.mode]
  have hlater := fun after => answers_simulation.steps (.close id closing :: after) h
  have hclosed := closed_account ha hopen closing
  refine ⟨hanswer, tells_resultOf _ _, ?_, ?_, ?_⟩
  · intro after
    exact (hlater after).entryIn_eq (hclosed after) rfl
  · intro after
    by_cases hsilent : a.silent
    · rw [if_pos hsilent]
      have hquiet : ({ a with closing := some closing } : Account).silent = true := hsilent
      have hreported := (hlater after).follows.reports n _ (hclosed after)
      rwa [Reported, if_pos hquiet] at hreported
    · rw [if_neg hsilent]
      exact h.announced ha hopen closing (Bool.not_eq_true _ ▸ hsilent) after
  · intro front name options work ending s hbefore hnumber hclosing
    have hwork : performSteps before start = performAll work (s.startTask name options).1 := by
      rw [hbefore, performSteps_append, performSteps_cons, performAll_eq_steps, startTask_nextId]
      rfl
    have hrun : s.runWith name options (fun _ s => (performAll work s, ending.outcome)) =
        (settling.1, settling.2.getD (options.mode.resultOf ending.outcome)) := by
      simp only [settling, hwork, id, hnumber, hclosing]
      rfl
    refine ⟨by rw [hrun, hanswer, Option.getD_some], ?_⟩
    rw [(tells_resultOf _ _).succeeded, show closing.outcome = ending.outcome by rw [hclosing]; rfl,
      outcome_ok_iff]

/-- A task that prints a line from within another one and whose failure is only a warning: the warning
stands, although the task is completed again, dropped, and the switches are changed. -/
theorem outcome_views_agree_unreachable :
    let deploy : TaskOptions := ⟨.task, .warn, false⟩
    let before : List Step :=
      [.begin "build" (.ofKind .exec), .begin "deploy" deploy, .output ⟨2⟩ "connecting" false]
    let closing : Closing := .completed (Ending.outcome (.error "unreachable"))
    let after : List Step := [.setSwitches ⟨true, true, true, true⟩,
      .close ⟨2⟩ (.completed (.ok .null)),
      .close ⟨2⟩ .dropped, .close ⟨1⟩ .dropped]
    let settling := (performSteps before (sessionWith .off)).settle ⟨2⟩ closing.outcome closing.mayExit
    settling.2 = some (.warning (.text "unreachable")) ∧
    entryIn (performSteps after settling.1) ⟨2⟩ =
      some ⟨⟨2⟩, "deploy", .task, .warning, some .zero, some (.warning (.text "unreachable"))⟩ ∧
    (∃ e, (reportsAbout (performSteps after settling.1) ⟨2⟩).filter isEnd = [e] ∧
      Announces (.warning (.text "unreachable")) (.error "unreachable") e) ∧
    ((sessionWith .off).startTask "build" (.ofKind .exec)).1.runWith "deploy" deploy
      (fun _ s => (performAll [.output ⟨2⟩ "connecting" false] s, .error "unreachable")) =
        (settling.1, .warning (.text "unreachable")) := by
  intro deploy before closing after settling
  obtain ⟨hanswer, -, hentry, hreport, hrun⟩ :=
    outcome_views_agree .off before 1 closing (a := ⟨"deploy", deploy, .off, none⟩) rfl rfl
  refine ⟨hanswer, hentry after, hreport after, ?_⟩
  exact (hrun [.begin "build" (.ofKind .exec)] "deploy" deploy [.output ⟨2⟩ "connecting" false]
    (.error "unreachable") rfl rfl rfl).1

end TaskRunner.Proofs
