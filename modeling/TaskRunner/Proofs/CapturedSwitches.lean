import TaskRunner.Proofs.SessionSteps

/-!
# Switches count when a task begins

What is reported about a task, what it results in, and whether its end asks for the end of the run, are
settled by its options, by the switches at its begin, and by what is then asked of the task itself. So
later changes of the switches make no difference to it.
-/

namespace TaskRunner.Proofs
open Session

/-- A report about a task without what other tasks and clocks have to do with it. -/
inductive Mark where
  | start
  | line (line : String) (isError : Bool)
  | finish
  | failure (message : String)
deriving DecidableEq

/-- What a report about a task says. -/
def markOf : Event → Option Mark
  | .start _ => some .start
  | .output _ line isError => some (.line line isError)
  | .finish _ => some .finish
  | .error _ message => some (.failure message)
  | .say _ _ => none

/-- What the reports about a task say, in order. -/
def marksAbout (s : Session) (id : TaskId) : List Mark :=
  (reportsAbout s id).filterMap markOf

/-- Something asked of a task that was begun. -/
inductive Call where
  | output (line : String) (isError : Bool)
  | close (closing : Closing)

/-- What a step asks of a task. -/
def Step.call? (id : TaskId) : Step → Option Call
  | .output other line isError => if id = other then some (.output line isError) else none
  | .close other closing => if id = other then some (.close closing) else none
  | _ => none

/-- What steps ask of a task. -/
def callsOn (id : TaskId) (steps : List Step) : List Call :=
  steps.filterMap (Step.call? id)

/-- What the report about a closing says. -/
def Closing.mark (closing : Closing) : Mark :=
  match closing.outcome with
  | .ok _ => .finish
  | .error message => .failure message

/-- Whether the closing is a completion with an error. -/
def Closing.fails : Closing → Bool
  | .completed (.error _) => true
  | _ => false

/-- What calls on a task make the reports say: any line, and the first closing if the task runs. -/
def marksOf : Bool → List Call → List Mark
  | _, [] => []
  | running, .output line isError :: rest => .line line isError :: marksOf running rest
  | true, .close closing :: rest => closing.mark :: marksOf false rest
  | false, .close _ :: rest => marksOf false rest

/-- The first closing among calls. -/
def firstClosing : List Call → Option Closing
  | [] => none
  | .output _ _ :: rest => firstClosing rest
  | .close closing :: _ => some closing

/-- The result of a task, if it has one. -/
def resultIn (s : Session) (id : TaskId) : Option TaskResult :=
  (s.task? id).bind fun t => t.settlement.map Settlement.result

/-- The exit codes that a step asks for. -/
def Step.exits (step : Step) (s : Session) : List Int :=
  (step.perform s).exits.drop s.exits.length

/-- The exit codes that closings of a task ask for. -/
def exitsFor (id : TaskId) : List Step → Session → List Int
  | [], _ => []
  | .close other closing :: rest, s =>
    (if id = other then (Step.close other closing).exits s else []) ++
      exitsFor id rest ((Step.close other closing).perform s)
  | step :: rest, s => exitsFor id rest (step.perform s)

/-- Whether a closing of a task ends the run: the task is open and its failures do so. -/
def Ledger.endsRun (l : Ledger) (id : TaskId) (closing : Closing) : Bool :=
  (l.account? id).any fun a => a.closing.isNone && a.stops && closing.fails

/-- The exit codes that a step is to ask for. -/
def Step.askedExits (l : Ledger) : Step → List Int
  | .exit code => [code]
  | .close id closing => if l.endsRun id closing then [1] else []
  | _ => []

/-- The exit codes that steps are to ask for. -/
def askedExits : List Step → Ledger → List Int
  | [], _ => []
  | step :: rest, l => step.askedExits l ++ askedExits rest (step.record l)

/-- Whether the step changes the switches. -/
def Step.isSwitching : Step → Bool
  | .setSwitches _ => true
  | _ => false

/-- The same steps but for changes of the switches. -/
def SameButSwitches (steps steps' : List Step) : Prop :=
  steps.filter (!·.isSwitching) = steps'.filter (!·.isSwitching)

variable {s : Session} {l : Ledger}

/-! ## Exit codes -/

@[simp] lemma exits_report (s : Session) (e : Event) : (s.report e).exits = s.exits := by
  unfold report note exits
  cases s.listening <;> simp

@[simp] lemma exits_exit (s : Session) (code : Int) : (s.exit code).exits = s.exits ++ [code] := by
  simp [Session.exit, note, exits]

lemma exits_startTask (s : Session) (name : String) (options : TaskOptions) :
    (s.startTask name options).1.exits = s.exits := by
  rw [startTask_eq]
  split
  · rfl
  · rw [exits_report]
    rfl

lemma exits_output (s : Session) (id : TaskId) (line : String) (isError : Bool) :
    (s.output id line isError).exits = s.exits :=
  output_cases (P := fun s' => s'.exits = s.exits) id line isError rfl fun _ _ _ => exits_report s _

lemma exits_settled (s : Session) (t : Task) (outcome : Except String Json) :
    (settled s t outcome).exits = s.exits := by
  have hrecorded : (recorded s t outcome).exits = s.exits := rfl
  unfold settled
  by_cases hs : t.silent
  · simp only [hs, if_true]
    exact hrecorded
  · simp only [hs]
    exact (exits_report (recorded s t outcome) _).trans hrecorded

/-- A failure that is not a warning ends the run if the task was to do so and was completed. -/
lemma ends_iff {t : Task} {a : Account} (h : AsAsked t a) (closing : Closing) :
    ((t.mode.resultOf closing.outcome).failed && t.stopsRun && closing.mayExit) =
      (a.stops && closing.fails) := by
  rw [h.mode, h.stopsRun, Account.stops]
  cases closing with
  | dropped => simp [Closing.mayExit, Closing.fails]
  | completed outcome =>
    cases outcome with
    | ok value =>
      have hsucceeds : (a.options.mode.resultOf (.ok value)).failed = false := by
        cases a.options.mode <;> rfl
      simp [Closing.outcome, Closing.fails, hsucceeds]
    | error message =>
      have hfails : (a.options.mode.resultOf (.error message)).failed = (a.options.mode == .fail) := by
        cases a.options.mode <;> rfl
      rw [Closing.outcome, hfails]
      cases a.options.mode <;> simp [Closing.mayExit, Closing.fails]

lemma Answers.exits_close (h : Answers s l) (id : TaskId) (closing : Closing) :
    (s.settle id closing.outcome closing.mayExit).1.exits =
      s.exits ++ if l.endsRun id closing then [1] else [] := by
  rcases h.task?_cases id with ⟨ht, ha⟩ | ⟨t, a, ht, ha, hasked⟩
  · simp [Session.settle, ht, Ledger.endsRun, ha]
  · have hends : l.endsRun id closing = (a.closing.isNone && a.stops && closing.fails) := by
      rw [Ledger.endsRun, ha, Option.any_some]
    rw [hends]
    cases hn : t.settlement with
    | some settlement =>
      have hclosed : a.closing.isNone = false := by
        rw [Option.isNone_eq_false_iff, Option.isSome_iff_ne_none, ne_eq, ← hasked.running_iff, hn]
        exact Option.some_ne_none _
      simp [Session.settle, ht, hn, hclosed]
    | none =>
      have hopen : a.closing.isNone = true := by
        rw [Option.isNone_iff_eq_none]
        exact hasked.running_iff.mp hn
      rw [Proofs.settle_running ht hn, ends_iff hasked, hopen, Bool.true_and]
      split
      · rw [exits_exit, exits_settled]
      · rw [exits_settled, List.append_nil]

/-- A step asks for the exit codes that it is to ask for, and for no others. -/
lemma Answers.exits_step (h : Answers s l) (step : Step) :
    (step.perform s).exits = s.exits ++ step.askedExits l := by
  cases step with
  | begin name options =>
    exact (exits_startTask s name options).trans (List.append_nil _).symm
  | close id closing => exact h.exits_close id closing
  | output id line isError =>
    exact (exits_output s id line isError).trans (List.append_nil _).symm
  | say message loud => exact (exits_report s _).trans (List.append_nil _).symm
  | exit code => exact exits_exit s code
  | print channel text => simp [Step.perform, Session.print, note, exits, Step.askedExits]
  | setExitCode id code | setStatusCode id code | setSwitches switches | setListening listening =>
    exact (List.append_nil _).symm

lemma Answers.step_exits (h : Answers s l) (step : Step) : step.exits s = step.askedExits l := by
  rw [Step.exits, h.exits_step, List.drop_left]

lemma Answers.exits_steps (h : Answers s l) (steps : List Step) :
    (performSteps steps s).exits = s.exits ++ askedExits steps l := by
  induction steps generalizing s l with
  | nil => exact (List.append_nil _).symm
  | cons step rest ih =>
    rw [performSteps_cons, ih (answers_simulation.step step h), h.exits_step, askedExits,
      List.append_assoc]

/-! ## What is asked of one task -/

/-- The account after a call on its task. -/
def Account.after (a : Account) : Option Call → Account
  | some (.close closing) => a.close closing
  | _ => a

lemma record_account {n : Nat} {a : Account} (ha : l.accounts[n]? = some a) (step : Step) :
    (step.record l).accounts[n]? = some (a.after (step.call? ⟨n + 1⟩)) := by
  cases step with
  | begin name options =>
    rw [Step.record, Ledger.add, List.getElem?_append_left (List.getElem?_eq_some_iff.mp ha).1, ha]
    rfl
  | close id closing =>
    rw [Step.record, close_getElem?, ha, Option.map_some, Step.call?]
    by_cases hid : id = ⟨n + 1⟩
    · rw [if_pos hid, if_pos hid.symm, Account.after]
    · rw [if_neg hid, if_neg (Ne.symm hid), Account.after]
      simp
  | output id line isError =>
    rw [Step.call?]
    split <;> exact ha
  | setExitCode id code | setStatusCode id code | setSwitches switches | setListening listening
  | say message loud | print channel text | exit code => exact ha

lemma after_silent (a : Account) (call : Option Call) : (a.after call).silent = a.silent := by
  rcases call with _ | ⟨line, isError⟩ | closing <;> rfl

lemma after_stops (a : Account) (call : Option Call) : (a.after call).stops = a.stops := by
  rcases call with _ | ⟨line, isError⟩ | closing <;> rfl

lemma after_options (a : Account) (call : Option Call) : (a.after call).options = a.options := by
  rcases call with _ | ⟨line, isError⟩ | closing <;> rfl

lemma close_isNone (a : Account) (closing : Closing) : (a.close closing).closing.isNone = false := by
  unfold Account.close
  cases a.closing <;> rfl

/-- The marks that one call leaves. -/
def Call.marks (running : Bool) : Call → List Mark
  | .output line isError => [.line line isError]
  | .close closing => if running then [closing.mark] else []

lemma marksOf_cons (a : Account) (call : Call) (rest : List Call) :
    marksOf a.closing.isNone (call :: rest) =
      call.marks a.closing.isNone ++ marksOf (a.after (some call)).closing.isNone rest := by
  cases call with
  | output line isError => rfl
  | close closing =>
    rw [Account.after, close_isNone]
    cases a.closing <;> rfl

lemma callsOn_cons (id : TaskId) (step : Step) (rest : List Step) :
    callsOn id (step :: rest) = (step.call? id).toList ++ callsOn id rest := by
  unfold callsOn
  rw [List.filterMap_cons]
  cases step.call? id <;> rfl

/-! ## Reports -/

lemma marksAbout_of_append {s s' : Session} {id : TaskId} {events : List Event}
    (h : reportsAbout s' id = reportsAbout s id ++ events) :
    marksAbout s' id = marksAbout s id ++ events.filterMap markOf := by
  rw [marksAbout, h, List.filterMap_append]
  rfl

lemma markOf_endEvent (s : Session) (t : Task) (closing : Closing) :
    markOf (endEvent s t closing.outcome) = some closing.mark := by
  unfold endEvent finalEvent Closing.mark
  cases closing.outcome <;> rfl

/-- What a step adds to the reports about a task is what it asks of the task, unless that is silent. -/
lemma Answers.marks_step (h : Answers s l) {n : Nat} {a : Account} (ha : l.accounts[n]? = some a)
    (step : Step) :
    marksAbout (step.perform s) ⟨n + 1⟩ = marksAbout s ⟨n + 1⟩ ++
      if a.silent then [] else ((step.call? ⟨n + 1⟩).toList.flatMap (Call.marks a.closing.isNone)) := by
  obtain ⟨t, ht, hasked⟩ := h.task ha
  have hnothing : ∀ s', reportsAbout s' ⟨n + 1⟩ = reportsAbout s ⟨n + 1⟩ →
      marksAbout s' ⟨n + 1⟩ = marksAbout s ⟨n + 1⟩ ++ if a.silent then [] else [] := by
    intro s' hsame
    rw [marksAbout, hsame, ite_self, List.append_nil, marksAbout]
  cases step with
  | begin name options =>
    have hother : (⟨n + 1⟩ : TaskId) ≠ ⟨s.nextId⟩ := by
      have hn := (List.getElem?_eq_some_iff.mp ha).1
      rw [answers_simulation.nextId h, ne_eq, TaskId.mk.injEq]
      omega
    refine hnothing _ ?_
    rw [Step.perform, reportsAbout_startTask, if_pos (.inr hother), List.append_nil]
  | close id closing =>
    by_cases hid : (⟨n + 1⟩ : TaskId) = id
    · subst hid
      rw [Step.perform, Step.call?, if_pos rfl]
      cases hn : t.settlement with
      | some settlement =>
        have hclosed : a.closing.isNone = false := by
          rw [Option.isNone_eq_false_iff, Option.isSome_iff_ne_none, ne_eq, ← hasked.running_iff, hn]
          exact Option.some_ne_none _
        simp [Session.settle, ht, hn, Call.marks, hclosed]
      | none =>
        have hopen : a.closing.isNone = true := by
          rw [Option.isNone_iff_eq_none]
          exact hasked.running_iff.mp hn
        have hsettles := settle_settles ht hn closing.outcome closing.mayExit
        rw [marksAbout_of_append (hsettles.reportsAbout ⟨n + 1⟩), hasked.silent, task?_id ht]
        cases a.silent <;> simp [Call.marks, hopen, markOf_endEvent]
    · rw [Step.call?, if_neg hid]
      refine hnothing _ ?_
      refine settle_cases (P := fun s' => reportsAbout s' ⟨n + 1⟩ = reportsAbout s ⟨n + 1⟩) id
        closing.outcome closing.mayExit (fun _ => rfl) fun u s' hu _ hs => ?_
      rw [hs.reportsAbout, task?_id hu, if_pos (.inr hid), List.append_nil]
  | output id line isError =>
    by_cases hid : (⟨n + 1⟩ : TaskId) = id
    · subst hid
      rw [Step.perform, Step.call?, if_pos rfl, Session.output, ht]
      simp only [hasked.silent]
      cases a.silent with
      | true => simp
      | false =>
        have habout := reportsAbout_output ht line isError ⟨n + 1⟩
        rw [if_pos rfl] at habout
        exact marksAbout_of_append habout
    · rw [Step.call?, if_neg hid]
      refine hnothing _ ?_
      refine output_cases (P := fun s' => reportsAbout s' ⟨n + 1⟩ = reportsAbout s ⟨n + 1⟩) id line
        isError rfl fun u hu _ => ?_
      rw [reportsAbout_output hu, if_neg hid, List.append_nil]
  | say message loud =>
    refine hnothing _ ?_
    exact (reportsAbout_of_append (reports_report s (.say message loud)) _).trans (List.append_nil _)
  | exit code =>
    refine hnothing _ ?_
    rw [reportsAbout, Step.perform, reports_exit, reportsAbout]
  | print channel text =>
    refine hnothing _ ?_
    rw [reportsAbout, Step.perform, reports_print, reportsAbout]
  | setExitCode id code | setStatusCode id code | setSwitches switches | setListening listening =>
    exact hnothing _ rfl

lemma Answers.marks_steps (h : Answers s l) {n : Nat} {a : Account} (ha : l.accounts[n]? = some a)
    (steps : List Step) :
    marksAbout (performSteps steps s) ⟨n + 1⟩ = marksAbout s ⟨n + 1⟩ ++
      if a.silent then [] else marksOf a.closing.isNone (callsOn ⟨n + 1⟩ steps) := by
  induction steps generalizing s l a with
  | nil => simp [callsOn, marksOf]
  | cons step rest ih =>
    rw [performSteps_cons, ih (answers_simulation.step step h) (record_account ha step),
      h.marks_step ha, after_silent, List.append_assoc, callsOn_cons]
    congr 1
    cases a.silent with
    | true => rfl
    | false =>
      cases hcall : step.call? ⟨n + 1⟩ with
      | none => rfl
      | some call =>
        simp only [Bool.false_eq_true, if_false, Option.toList_some, List.flatMap_singleton,
          List.singleton_append, marksOf_cons]

/-! ## Results and ends -/

lemma after_cons (a : Account) (call : Call) (rest : List Call) :
    ({ a.after (some call) with
      closing := (a.after (some call)).closing.or (firstClosing rest) } : Account) =
    { a with closing := a.closing.or (firstClosing (call :: rest)) } := by
  cases call with
  | output line isError => rfl
  | close closing =>
    rw [Account.after, Account.close, firstClosing]
    cases a.closing <;> rfl

/-- Steps close the account of a task with the first closing asked for, unless it was closed before. -/
lemma recordSteps_account {n : Nat} {a : Account} (ha : l.accounts[n]? = some a)
    (steps : List Step) :
    (recordSteps steps l).accounts[n]? =
      some { a with closing := a.closing.or (firstClosing (callsOn ⟨n + 1⟩ steps)) } := by
  induction steps generalizing l a with
  | nil => simpa [callsOn, firstClosing] using ha
  | cons step rest ih =>
    rw [recordSteps_cons, ih (record_account ha step), callsOn_cons]
    cases hcall : step.call? ⟨n + 1⟩ with
    | none => rfl
    | some call => rw [Option.toList_some, List.singleton_append, after_cons]

/-- The task has the result of its first closing. -/
lemma Answers.result_steps (h : Answers s l) {n : Nat} {a : Account} (ha : l.accounts[n]? = some a)
    (hopen : a.closing = none) (steps : List Step) :
    resultIn (performSteps steps s) ⟨n + 1⟩ =
      (firstClosing (callsOn ⟨n + 1⟩ steps)).map fun closing =>
        a.options.mode.resultOf closing.outcome := by
  obtain ⟨t, ht, hasked⟩ := (answers_simulation.steps steps h).task (recordSteps_account ha steps)
  rw [resultIn, ht, Option.bind_some, hasked.settlement, hopen, Option.none_or, Option.map_map]
  rfl

/-- Closings of a task ask for the end of the run once, if the first one fails and failures do so. -/
lemma Answers.exitsFor_steps (h : Answers s l) {n : Nat} {a : Account}
    (ha : l.accounts[n]? = some a) (steps : List Step) :
    exitsFor ⟨n + 1⟩ steps s =
      if a.closing.isNone && a.stops && (firstClosing (callsOn ⟨n + 1⟩ steps)).any Closing.fails
      then [1] else [] := by
  induction steps generalizing s l a with
  | nil => simp [exitsFor, callsOn, firstClosing]
  | cons step rest ih =>
    have hrest := ih (answers_simulation.step step h) (record_account ha step)
    rw [after_stops] at hrest
    by_cases hclose : ∃ closing, step = .close ⟨n + 1⟩ closing
    · obtain ⟨closing, rfl⟩ := hclose
      have haccount : l.account? ⟨n + 1⟩ = some a := account?_eq_some_iff.mpr ⟨n, rfl, ha⟩
      have hcall : (Step.close ⟨n + 1⟩ closing).call? ⟨n + 1⟩ = some (.close closing) := if_pos rfl
      rw [hcall, Account.after, close_isNone] at hrest
      rw [exitsFor, if_pos rfl, hrest, h.step_exits, Step.askedExits, Ledger.endsRun, haccount,
        callsOn_cons, hcall, Option.toList_some, List.singleton_append, firstClosing]
      simp
    · have hnot : ∀ closing, step.call? ⟨n + 1⟩ ≠ some (.close closing) := by
        intro closing hcall
        cases step with
        | close id closing =>
          rw [Step.call?] at hcall
          split at hcall
          · exact hclose ⟨closing, by rw [‹(⟨n + 1⟩ : TaskId) = id›]⟩
          · cases hcall
        | output id line isError =>
          rw [Step.call?] at hcall
          split at hcall <;> cases hcall
        | _ => cases hcall
      have hpass : exitsFor ⟨n + 1⟩ (step :: rest) s = exitsFor ⟨n + 1⟩ rest (step.perform s) := by
        cases step with
        | close id closing =>
          have hid : (⟨n + 1⟩ : TaskId) ≠ id := fun heq => hclose ⟨closing, by rw [heq]⟩
          rw [exitsFor, if_neg hid, List.nil_append]
        | _ => rfl
      rw [hpass, hrest, callsOn_cons]
      rcases hcall : step.call? ⟨n + 1⟩ with _ | ⟨line, isError⟩ | closing
      · rfl
      · rfl
      · exact absurd hcall (hnot closing)

/-- The end of the run is asked for when the task has left the live ones and its end is reported. -/
lemma Answers.exits_last (h : Answers s l) {id : TaskId} {closing : Closing}
    (hexits : (Step.close id closing).exits s ≠ []) :
    ∃ t s', s.task? id = some t ∧ (Step.close id closing).perform s = s'.exit 1 ∧ id ∉ s'.live.ids ∧
      marksAbout s' id = marksAbout s id ++ if t.silent then [] else [closing.mark] := by
  rcases h.task?_cases id with ⟨ht, ha⟩ | ⟨t, a, ht, ha, hasked⟩
  · simp [h.step_exits, Step.askedExits, Ledger.endsRun, ha] at hexits
  · have hends : a.closing.isNone && a.stops && closing.fails := by
      by_contra hnot
      simp [h.step_exits, Step.askedExits, Ledger.endsRun, ha, hnot] at hexits
    simp only [Bool.and_eq_true] at hends
    have hn : t.settlement = none := hasked.running_iff.mpr (Option.isNone_iff_eq_none.mp hends.1.1)
    have hs := settles_settled (s := s) t closing.outcome
    have hid := task?_id ht
    refine ⟨t, settled s t closing.outcome, ht, ?_, ?_, ?_⟩
    · rw [Step.perform, Proofs.settle_running ht hn, ends_iff hasked, hends.1.2, hends.2]
      rfl
    · rw [hs.live, hid, remove_ids]
      exact h.follows.consistent.nodup_live.not_mem_erase
    · rw [marksAbout_of_append (hs.reportsAbout id), hid]
      cases t.silent <;> simp [markOf_endEvent]

lemma callsOn_sameButSwitches {steps steps' : List Step} (h : SameButSwitches steps steps')
    (id : TaskId) : callsOn id steps = callsOn id steps' := by
  have hfilter : ∀ steps, callsOn id (steps.filter (!·.isSwitching)) = callsOn id steps := by
    intro steps
    induction steps with
    | nil => rfl
    | cons step rest ih =>
      cases step with
      | setSwitches switches => exact ih
      | _ =>
        rw [callsOn_cons, ← ih, ← callsOn_cons]
        rfl
  rw [← hfilter steps, h, hfilter]

/-- What a begin leaves in the ledger and in the reports. -/
lemma Answers.begun (h : Answers s l) (name : String) (options : TaskOptions) :
    ∃ n, s.nextId = n + 1 ∧
      ((Step.begin name options).record l).accounts[n]? = some ⟨name, options, s.switches, none⟩ ∧
      marksAbout ((Step.begin name options).perform s) ⟨n + 1⟩ =
        if options.silent || s.switches.silent then [] else [.start] := by
  have hnext : s.nextId = l.accounts.length + 1 := answers_simulation.nextId h
  refine ⟨l.accounts.length, hnext, ?_, ?_⟩
  · simp [Step.record, Ledger.add, h.follows.switches]
  · have hnone := h.follows.unknown ⟨l.accounts.length + 1⟩ (.inr (Nat.lt_succ_self _))
    rw [marksAbout, Step.perform, reportsAbout_startTask, hnone, List.nil_append, hnext]
    simp only [newTask, ne_eq, not_true_eq_false, or_false]
    cases options.silent || s.switches.silent <;> rfl

/-- A task that begins is reported by its own option and the switches of that moment, and so it is settled
whether its end asks, once and last of all, for the end of the run; nothing else does but requests of its
own. Runs that differ in later changes of the switches give the task the same result and the same marks, and
ask for the same exits on its behalf. -/
theorem switches_count_at_begin (switches : Switches) (before : List Step) (name : String)
    (options : TaskOptions) (after : List Step) :
    let start := sessionWith switches
    let s := performSteps before start
    let id : TaskId := ⟨s.nextId⟩
    let begun := (Step.begin name options).perform s
    let silent := options.silent || s.switches.silent
    let stops := options.mode == .fail && s.switches.stopOnFailure
    (∀ actions, performAll actions start = performSteps (stepsOfAll 1 actions) start) ∧
    marksAbout (performSteps after begun) id =
      (if silent then [] else .start :: marksOf true (callsOn id after)) ∧
    exitsFor id after begun =
      (if stops && (firstClosing (callsOn id after)).any Closing.fails then [1] else []) ∧
    (∀ front closing rest, after = front ++ .close id closing :: rest →
      (Step.close id closing).exits (performSteps front begun) ≠ [] →
      ∃ s', performSteps (front ++ [.close id closing]) begun = s'.exit 1 ∧ id ∉ s'.live.ids ∧
        marksAbout s' id = marksAbout (performSteps front begun) id ++
          if silent then [] else [closing.mark]) ∧
    (performSteps after begun).exits =
      askedExits (before ++ .begin name options :: after) (ledgerWith switches) ∧
    ∀ after', SameButSwitches after after' →
      resultIn (performSteps after begun) id = resultIn (performSteps after' begun) id ∧
      marksAbout (performSteps after begun) id = marksAbout (performSteps after' begun) id ∧
      exitsFor id after begun = exitsFor id after' begun := by
  intro start s id begun silent stops
  have h : Answers s (recordSteps before (ledgerWith switches)) := answers_performSteps switches before
  have hbegun := answers_simulation.step (.begin name options) h
  obtain ⟨n, hnext, ha, hmarks⟩ := h.begun name options
  have hid : id = ⟨n + 1⟩ := congrArg TaskId.mk hnext
  have marks : ∀ steps, marksAbout (performSteps steps begun) id =
      if silent then [] else .start :: marksOf true (callsOn id steps) := by
    intro steps
    rw [hid, hbegun.marks_steps ha, hmarks]
    change (if silent then [] else [.start]) ++
      (if silent then [] else marksOf true (callsOn ⟨n + 1⟩ steps)) = _
    split <;> rfl
  have exits : ∀ steps, exitsFor id steps begun =
      if stops && (firstClosing (callsOn id steps)).any Closing.fails then [1] else [] := by
    intro steps
    rw [hid, hbegun.exitsFor_steps ha]
    rfl
  have result : ∀ steps, resultIn (performSteps steps begun) id =
      (firstClosing (callsOn id steps)).map fun closing => options.mode.resultOf closing.outcome := by
    intro steps
    rw [hid, hbegun.result_steps ha rfl]
  refine ⟨fun actions => performAll_eq_steps actions start, marks after, exits after, ?_, ?_, ?_⟩
  · rintro front closing rest - hexits
    have hfront := answers_simulation.steps front hbegun
    obtain ⟨t, s', ht, hperform, hlive, hlast⟩ := hfront.exits_last hexits
    obtain ⟨u, hu, hasked⟩ := hfront.task (recordSteps_account ha front)
    have hsilent : t.silent = silent := by
      rw [hid, hu, Option.some.injEq] at ht
      rw [← ht, hasked.silent]
      rfl
    rw [hsilent] at hlast
    exact ⟨s', by rw [performSteps_append]; exact hperform, hlive, hlast⟩
  · have hall := (answers_sessionWith switches).exits_steps (before ++ .begin name options :: after)
    rw [performSteps_append] at hall
    exact hall
  · intro after' hsame
    have hcalls := callsOn_sameButSwitches hsame id
    refine ⟨?_, ?_, ?_⟩
    · rw [result, result, hcalls]
    · rw [marks, marks, hcalls]
    · rw [exits, exits, hcalls]

/-- A task begins while failures end the run. That it no longer holds when the task fails, and that reports
are turned off meanwhile, changes nothing for the task. -/
theorem switches_count_at_begin_failing :
    let begun := (Step.begin "deploy" (.ofKind .task)).perform (sessionWith ⟨true, false, false, false⟩)
    let work : List Step :=
      [.output ⟨1⟩ "connecting" false, .close ⟨1⟩ (.completed (.error "unreachable"))]
    let switched := .setSwitches ⟨false, true, true, false⟩ :: work
    marksAbout (performSteps switched begun) ⟨1⟩ =
      [.start, .line "connecting" false, .failure "unreachable"] ∧
    exitsFor ⟨1⟩ switched begun = [1] ∧ exitsFor ⟨1⟩ work begun = [1] ∧
    resultIn (performSteps switched begun) ⟨1⟩ = resultIn (performSteps work begun) ⟨1⟩ := by
  intro begun work switched
  obtain ⟨-, hmarks, hexits, -, -, hsame⟩ :=
    switches_count_at_begin ⟨true, false, false, false⟩ [] "deploy" (.ofKind .task) switched
  obtain ⟨hresult, -, hsame⟩ := hsame work rfl
  exact ⟨hmarks, hexits, hsame.symm.trans hexits, hresult⟩

end TaskRunner.Proofs
