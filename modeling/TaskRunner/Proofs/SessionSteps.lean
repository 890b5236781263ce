import TaskRunner.Proofs.EventProtocol

/-!
# Runs in single steps

A run of work is nothing but a begin, the steps of the work, and a closing of the task begun. So every
sequence of actions amounts to a sequence of single steps, and what one step keeps is kept by all runs. Of
the tasks of a session this file shows that they are what was asked for: each has the options of its begin,
the switches of that moment, and the result of its first closing.
-/

namespace TaskRunner.Proofs
open Session

/-- A single operation on a session. -/
inductive Step where
  | begin (name : String) (options : TaskOptions)
  | close (id : TaskId) (closing : Closing)
  | output (id : TaskId) (line : String) (isError : Bool)
  | setExitCode (id : TaskId) (code : Int)
  | setStatusCode (id : TaskId) (code : Nat)
  | setSwitches (switches : Switches)
  | setListening (listening : Bool)
  | say (message : String) (loud : Bool)
  | print (channel : Channel) (text : String)
  | exit (code : Int)

/-- The session after a step. -/
def Step.perform : Step → Session → Session
  | .begin name options, s => (s.startTask name options).1
  | .close id closing, s => (s.settle id closing.outcome closing.mayExit).1
  | .output id line isError, s => s.output id line isError
  | .setExitCode id code, s => s.setExitCode id code
  | .setStatusCode id code, s => s.setStatusCode id code
  | .setSwitches switches, s => { s with switches }
  | .setListening listening, s => { s with listening }
  | .say message loud, s => s.say message loud
  | .print channel text, s => s.print channel text
  | .exit code, s => s.exit code

/-- The ledger after a step. -/
def Step.record : Step → Ledger → Ledger
  | .begin name options, l => l.add name options
  | .close id closing, l => l.close id closing
  | .setSwitches switches, l => { l with switches }
  | _, l => l

/-- The session after steps. -/
def performSteps (steps : List Step) (s : Session) : Session :=
  steps.foldl (fun s step => step.perform s) s

/-- The ledger after steps. -/
def recordSteps (steps : List Step) (l : Ledger) : Ledger :=
  steps.foldl (fun l step => step.record l) l

mutual

/-- How many tasks an action begins. -/
def Action.begins : Action → Nat
  | .begin _ _ => 1
  | .run _ _ work _ => 1 + beginsOfAll work
  | _ => 0

/-- How many tasks actions begin. -/
def beginsOfAll : List Action → Nat
  | [] => 0
  | a :: rest => a.begins + beginsOfAll rest

end

mutual

/-- The single steps of an action, where `next` is the number of the next task. -/
def Action.steps (next : Nat) : Action → List Step
  | .begin name options => [.begin name options]
  | .complete id outcome => [.close id (.completed outcome)]
  | .drop id => [.close id .dropped]
  | .output id line isError => [.output id line isError]
  | .setExitCode id code => [.setExitCode id code]
  | .setStatusCode id code => [.setStatusCode id code]
  | .setSwitches switches => [.setSwitches switches]
  | .setListening listening => [.setListening listening]
  | .say message loud => [.say message loud]
  | .print channel text => [.print channel text]
  | .exit code => [.exit code]
  | .run name options work ending =>
    .begin name options :: (stepsOfAll (next + 1) work ++ [.close ⟨next⟩ (.completed ending.outcome)])

/-- The single steps of actions. -/
def stepsOfAll (next : Nat) : List Action → List Step
  | [] => []
  | a :: rest => a.steps next ++ stepsOfAll (next + a.begins) rest

end

variable {s : Session} {l : Ledger}

@[simp] lemma performSteps_nil (s : Session) : performSteps [] s = s := rfl

@[simp] lemma performSteps_cons (step : Step) (steps : List Step) (s : Session) :
    performSteps (step :: steps) s = performSteps steps (step.perform s) := rfl

@[simp] lemma performSteps_append (steps more : List Step) (s : Session) :
    performSteps (steps ++ more) s = performSteps more (performSteps steps s) :=
  List.foldl_append

@[simp] lemma recordSteps_nil (l : Ledger) : recordSteps [] l = l := rfl

@[simp] lemma recordSteps_cons (step : Step) (steps : List Step) (l : Ledger) :
    recordSteps (step :: steps) l = recordSteps steps (step.record l) := rfl

@[simp] lemma recordSteps_append (steps more : List Step) (l : Ledger) :
    recordSteps (steps ++ more) l = recordSteps more (recordSteps steps l) :=
  List.foldl_append

/-! ## Actions as steps -/

lemma settle_nextId (s : Session) (id : TaskId) (outcome : Except String Json) (mayExit : Bool) :
    (s.settle id outcome mayExit).1.nextId = s.nextId :=
  settle_cases (P := fun s' => s'.nextId = s.nextId) id outcome mayExit (fun _ => rfl)
    fun _ _ _ _ hsettles => hsettles.nextId

lemma output_nextId (s : Session) (id : TaskId) (line : String) (isError : Bool) :
    (s.output id line isError).nextId = s.nextId :=
  output_cases (P := fun s' => s'.nextId = s.nextId) id line isError rfl fun _ _ _ => rfl

mutual

lemma Action.perform_nextId :
    ∀ (a : Action) (s : Session), (a.perform s).nextId = s.nextId + a.begins
  | .begin name options, s => startTask_nextId s name options
  | .complete id outcome, s => settle_nextId s id outcome true
  | .drop id, s => settle_nextId s id _ false
  | .output id line isError, s => output_nextId s id line isError
  | .setExitCode _ _, _ | .setStatusCode _ _, _ | .setSwitches _, _ | .setListening _, _
  | .say _ _, _ | .print _ _, _ | .exit _, _ => rfl
  | .run name options work ending, s => by
    simp only [Action.perform, Session.runWith, Session.complete, settle_nextId,
      performAll_nextId work, startTask_nextId, Action.begins]
    omega

lemma performAll_nextId :
    ∀ (actions : List Action) (s : Session),
      (performAll actions s).nextId = s.nextId + beginsOfAll actions
  | [], _ => rfl
  | a :: rest, s => by
    rw [performAll, performAll_nextId rest, Action.perform_nextId a, beginsOfAll, Nat.add_assoc]

end

mutual

lemma Action.perform_eq_steps :
    ∀ (a : Action) (s : Session), a.perform s = performSteps (a.steps s.nextId) s
  | .begin _ _, _ | .complete _ _, _ | .drop _, _ | .output _ _ _, _ | .setExitCode _ _, _
  | .setStatusCode _ _, _ | .setSwitches _, _ | .setListening _, _ | .say _ _, _ | .print _ _, _
  | .exit _, _ => rfl
  | .run name options work ending, s => by
    rw [Action.steps, performSteps_cons, performSteps_append, ← startTask_nextId s name options]
    exact congrArg (fun s' : Session => (s'.complete ⟨s.nextId⟩ ending.outcome).1)
      (performAll_eq_steps work (s.startTask name options).1)

/-- Actions amount to their single steps. -/
lemma performAll_eq_steps :
    ∀ (actions : List Action) (s : Session),
      performAll actions s = performSteps (stepsOfAll s.nextId actions) s
  | [], _ => rfl
  | a :: rest, s => by
    rw [performAll, performAll_eq_steps rest, Action.perform_nextId a, Action.perform_eq_steps a,
      stepsOfAll, performSteps_append]

end

/-- What every single step keeps is kept by all of them. -/
lemma Simulation.step {R : Session → Ledger → Prop} (h : Simulation R) (step : Step) (hr : R s l) :
    R (step.perform s) (step.record l) := by
  cases step with
  | begin name options => exact h.startTask name options hr
  | close id closing => exact h.settle id closing hr
  | output id line isError => exact h.output id line isError hr
  | setExitCode id code => exact h.setExitCode id code hr
  | setStatusCode id code => exact h.setStatusCode id code hr
  | setSwitches switches => exact h.setSwitches switches hr
  | setListening listening => exact h.setListening listening hr
  | say message loud => exact h.say message loud hr
  | print channel text => exact h.print channel text hr
  | exit code => exact h.exit code hr

lemma Simulation.steps {R : Session → Ledger → Prop} (h : Simulation R) (steps : List Step)
    (hr : R s l) : R (performSteps steps s) (recordSteps steps l) := by
  induction steps generalizing s l with
  | nil => exact hr
  | cons step rest ih => exact ih (h.step step hr)

/-! ## Tasks and their accounts -/

/-- The account of a task. -/
def Ledger.account? (l : Ledger) (id : TaskId) : Option Account :=
  if id.number = 0 then none else l.accounts[id.number - 1]?

lemma account?_eq_some_iff {id : TaskId} {a : Account} :
    l.account? id = some a ↔ ∃ n, id = ⟨n + 1⟩ ∧ l.accounts[n]? = some a := by
  obtain ⟨number⟩ := id
  cases number with
  | zero => simp [Ledger.account?]
  | succ n => simp [Ledger.account?]

/-- Whether a failure of the task ends the run. -/
def Account.stops (a : Account) : Bool :=
  a.options.mode == .fail && a.switches.stopOnFailure

/-- The task is what its account asks for. -/
structure AsAsked (t : Task) (a : Account) : Prop where
  name : t.name = a.name
  kind : t.kind = a.options.kind
  mode : t.mode = a.options.mode
  silent : t.silent = a.silent
  stopsRun : t.stopsRun = a.stops
  settlement : t.settlement =
    a.closing.map fun closing => ⟨a.options.mode.resultOf closing.outcome, .zero⟩

/-- Every task of the session is what its account asks for. -/
structure Answers (s : Session) (l : Ledger) : Prop where
  follows : Follows s l
  tasks : ∀ (n : Nat) (t : Task) (a : Account),
    s.tasks[n]? = some t → l.accounts[n]? = some a → AsAsked t a

lemma answers_sessionWith (switches : Switches) :
    Answers (sessionWith switches) (ledgerWith switches) :=
  ⟨follows_sessionWith switches, fun _ _ _ ht => by simp [sessionWith, Session.empty] at ht⟩

lemma AsAsked.running_iff {t : Task} {a : Account} (h : AsAsked t a) :
    t.settlement = none ↔ a.closing = none := by
  rw [h.settlement, Option.map_eq_none_iff]

namespace Answers

variable {s' : Session} (h : Answers s l)
include h

lemma task {n : Nat} {a : Account} (ha : l.accounts[n]? = some a) :
    ∃ t, s.task? ⟨n + 1⟩ = some t ∧ AsAsked t a := by
  obtain ⟨t, ht, htask, -, -, -⟩ := h.follows.task_of_account ha
  exact ⟨t, htask, h.tasks n t a ht ha⟩

/-- A task and its account are found under the same identifier. -/
lemma task?_cases (id : TaskId) :
    (s.task? id = none ∧ l.account? id = none) ∨
      ∃ t a, s.task? id = some t ∧ l.account? id = some a ∧ AsAsked t a := by
  rw [h.follows.consistent.task?_eq, Ledger.account?]
  by_cases hzero : id.number = 0
  · rw [if_pos hzero, if_pos hzero]
    exact .inl ⟨rfl, rfl⟩
  · rw [if_neg hzero, if_neg hzero]
    by_cases hn : id.number - 1 < s.tasks.length
    · have ht : s.tasks[id.number - 1]? = some s.tasks[id.number - 1] := List.getElem?_eq_getElem hn
      have ha := List.getElem?_eq_getElem (h.follows.length ▸ hn)
      exact .inr ⟨_, _, ht, ha, h.tasks _ _ _ ht ha⟩
    · have hlength := h.follows.length
      exact .inl ⟨List.getElem?_eq_none (by omega), List.getElem?_eq_none (by omega)⟩

lemma startTask (name : String) (options : TaskOptions) :
    Answers (s.startTask name options).1 (l.add name options) := by
  refine ⟨h.follows.startTask name options, fun n t a ht ha => ?_⟩
  rw [startTask_tasks] at ht
  rw [Ledger.add] at ha
  by_cases hn : n < s.tasks.length
  · rw [List.getElem?_append_left hn] at ht
    rw [List.getElem?_append_left (h.follows.length ▸ hn)] at ha
    exact h.tasks n t a ht ha
  · rw [List.getElem?_append_right (Nat.not_lt.mp hn), List.getElem?_singleton] at ht
    rw [List.getElem?_append_right (h.follows.length ▸ Nat.not_lt.mp hn),
      List.getElem?_singleton, ← h.follows.length] at ha
    split at ht
    · rename_i hlast
      rw [if_pos hlast] at ha
      cases ht
      cases ha
      have hswitches := h.follows.switches
      exact ⟨rfl, rfl, rfl, by simp [newTask, Account.silent, hswitches],
        by simp [newTask, Account.stops, hswitches], rfl⟩
    · cases ht

/-- Changes that no account tells leave the agreement alone. -/
lemma map_tasks (hfollows : Follows s' l) (f : Task → Task) (htasks : s'.tasks = s.tasks.map f)
    (hasked : ∀ t a, AsAsked t a → AsAsked (f t) a) : Answers s' l := by
  refine ⟨hfollows, fun n t a ht ha => ?_⟩
  rw [htasks, List.getElem?_map] at ht
  obtain ⟨u, hu, rfl⟩ := Option.map_eq_some_iff.mp ht
  exact hasked u a (h.tasks n u a hu ha)

lemma same_tasks (hfollows : Follows s' l) (htasks : s'.tasks = s.tasks) : Answers s' l :=
  h.map_tasks hfollows id (by rw [htasks, List.map_id]) fun _ _ hasked => hasked

lemma settle_running {id : TaskId} {t : Task} (closing : Closing) (ht : s.task? id = some t)
    (hn : t.settlement = none) (hs : Settles s t closing.outcome s') :
    Answers s' (l.close id closing) := by
  refine ⟨h.follows.settle_running closing ht hn hs, fun n u' a' hu' ha' => ?_⟩
  have hid : t.id = id := task?_id ht
  rw [hs.tasks, recorded, Session.updateTask] at hu'
  simp only [List.getElem?_map] at hu'
  rw [close_getElem?] at ha'
  obtain ⟨u, hu, rfl⟩ := Option.map_eq_some_iff.mp hu'
  obtain ⟨a, ha, rfl⟩ := Option.map_eq_some_iff.mp ha'
  have hasked := h.tasks n u a hu ha
  have hnumber := h.follows.consistent.ids n u hu
  simp only [hnumber, hid, beq_iff_eq, eq_comm (a := (⟨n + 1⟩ : TaskId))]
  by_cases hsame : id = ⟨n + 1⟩
  · -- The account that is closed is that of the task itself, so it was open.
    have hself : t = u := by
      have htask := h.follows.consistent.task?_eq id
      rw [ht, hsame] at htask
      simpa [hu] using htask
    subst hself
    have hopen := hasked.running_iff.mp hn
    rw [if_pos hsame, if_pos hsame]
    exact ⟨hasked.name, hasked.kind, hasked.mode, hasked.silent, hasked.stopsRun,
      by simp [Account.close, hopen, hasked.mode]⟩
  · rw [if_neg hsame, if_neg hsame]
    exact hasked

lemma settle (id : TaskId) (closing : Closing) :
    Answers (s.settle id closing.outcome closing.mayExit).1 (l.close id closing) := by
  refine settle_cases (P := fun s' => Answers s' (l.close id closing)) id closing.outcome
    closing.mayExit ?_ ?_
  · intro hsettled
    rw [h.follows.close_same id closing hsettled]
    exact h
  · intro t s' ht hn hs
    exact h.settle_running closing ht hn hs

lemma output (id : TaskId) (line : String) (isError : Bool) :
    Answers (s.output id line isError) l :=
  h.same_tasks (h.follows.output id line isError)
    (output_cases (P := fun s' => s'.tasks = s.tasks) id line isError rfl fun _ _ _ => rfl)

lemma updateTask (id : TaskId) (change : Task → Task) (hfollows : Follows (s.updateTask id change) l)
    (hasked : ∀ t a, AsAsked t a → AsAsked (change t) a) : Answers (s.updateTask id change) l := by
  refine h.map_tasks hfollows (fun t => if t.id == id then change t else t) rfl fun t a ht => ?_
  split
  · exact hasked t a ht
  · exact ht

end Answers

lemma answers_simulation : Simulation Answers where
  nextId := fun h => follows_simulation.nextId h.follows
  startTask := fun name options h => h.startTask name options
  settle := fun id closing h => h.settle id closing
  output := fun id line isError h => h.output id line isError
  setExitCode := fun id code h => h.updateTask id _ (follows_simulation.setExitCode id code h.follows)
    fun _ _ ⟨name, kind, mode, silent, stopsRun, settlement⟩ =>
      ⟨name, kind, mode, silent, stopsRun, settlement⟩
  setStatusCode := fun id code h =>
    h.updateTask id _ (follows_simulation.setStatusCode id code h.follows)
      fun _ _ ⟨name, kind, mode, silent, stopsRun, settlement⟩ =>
        ⟨name, kind, mode, silent, stopsRun, settlement⟩
  setSwitches := fun switches h =>
    ⟨follows_simulation.setSwitches switches h.follows, h.tasks⟩
  setListening := fun listening h =>
    h.same_tasks (follows_simulation.setListening listening h.follows) rfl
  say := fun message loud h => h.same_tasks (follows_simulation.say message loud h.follows) rfl
  print := fun channel text h => h.same_tasks (follows_simulation.print channel text h.follows) rfl
  exit := fun code h => h.same_tasks (follows_simulation.exit code h.follows) rfl

lemma answers_performSteps (switches : Switches) (steps : List Step) :
    Answers (performSteps steps (sessionWith switches)) (recordSteps steps (ledgerWith switches)) :=
  answers_simulation.steps steps (answers_sessionWith switches)

end TaskRunner.Proofs
