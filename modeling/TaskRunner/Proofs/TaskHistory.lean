import Mathlib.Tactic.Lemma
import Mathlib.Data.List.Nodup
import TaskRunner.Task.Session

/-!
# The history of a session

Whatever is done to a session is a sequence of actions on any of its tasks, in any order; the work of a
task that is run is such a sequence itself. Beside the session, a ledger notes what was asked for each
task: its options, the switches at its begin, and how it was closed. The induction over all actions compares
a session with its ledger.

Reports and requests to end the run only add to the journal. Settling a task that runs records its result,
reports it once unless the task is silent, and takes it out of the live ones; settling any other task
changes nothing.

Tasks are numbered in order of creation, and the live tasks are those without a settlement, in the same
order. Every action keeps this, so the counts, the live tasks and the exit code of a session can be read
off its history.
-/

namespace TaskRunner.Proofs
open Session

/-! ## Actions -/

/-- Something done to a session. Ordinary, lenient and silent runs differ in the options of `run`. -/
inductive Action where
  | begin (name : String) (options : TaskOptions)
  | complete (id : TaskId) (outcome : Except String Json)
  | drop (id : TaskId)
  | output (id : TaskId) (line : String) (isError : Bool)
  | setExitCode (id : TaskId) (code : Int)
  | setStatusCode (id : TaskId) (code : Nat)
  | setSwitches (switches : Switches)
  | setListening (listening : Bool)
  | say (message : String) (loud : Bool)
  | print (channel : Channel) (text : String)
  | exit (code : Int)
  | run (name : String) (options : TaskOptions) (work : List Action) (ending : Ending)

mutual

/-- The session after an action. -/
def Action.perform : Action → Session → Session
  | .begin name options, s => (s.startTask name options).1
  | .complete id outcome, s => (s.complete id outcome).1
  | .drop id, s => s.drop id
  | .output id line isError, s => s.output id line isError
  | .setExitCode id code, s => s.setExitCode id code
  | .setStatusCode id code, s => s.setStatusCode id code
  | .setSwitches switches, s => { s with switches }
  | .setListening listening, s => { s with listening }
  | .say message loud, s => s.say message loud
  | .print channel text, s => s.print channel text
  | .exit code, s => s.exit code
  | .run name options work ending, s =>
    (s.runWith name options fun _ s => (performAll work s, ending.outcome)).1

/-- The session after actions. -/
def performAll : List Action → Session → Session
  | [], s => s
  | a :: rest, s => performAll rest (a.perform s)

end

/-- How a task was closed. -/
inductive Closing where
  | completed (outcome : Except String Json)
  | dropped

namespace Closing

/-- The outcome that a task is closed with. -/
def outcome : Closing → Except String Json
  | completed outcome => outcome
  | dropped => .error Session.droppedMessage

/-- Whether the closing may end the run. -/
def mayExit : Closing → Bool
  | completed _ => true
  | dropped => false

end Closing

/-- What was asked for a task. -/
structure Account where
  name : String
  options : TaskOptions
  /-- The switches when the task began. -/
  switches : Switches
  closing : Option Closing

/-- Whether nothing may be reported about the task. -/
def Account.silent (a : Account) : Bool :=
  a.options.silent || a.switches.silent

/-- The account closed, unless it was closed before. -/
def Account.close (a : Account) (closing : Closing) : Account :=
  { a with closing := a.closing.or (some closing) }

/-- The accounts of all tasks in order of creation, and the switches. -/
structure Ledger where
  switches : Switches
  accounts : List Account

namespace Ledger

/-- Opens the account of a new task. -/
def add (l : Ledger) (name : String) (options : TaskOptions) : Ledger :=
  { l with accounts := l.accounts ++ [⟨name, options, l.switches, none⟩] }

/-- The number of the next task. -/
def nextId (l : Ledger) : TaskId :=
  ⟨l.accounts.length + 1⟩

/-- Closes the account of a task, if there is one. -/
def close (l : Ledger) (id : TaskId) (closing : Closing) : Ledger :=
  { l with
    accounts := l.accounts.mapIdx fun n a => if id = ⟨n + 1⟩ then a.close closing else a }

end Ledger

mutual

/-- The ledger after an action. -/
def Action.record : Action → Ledger → Ledger
  | .begin name options, l => l.add name options
  | .complete id outcome, l => l.close id (.completed outcome)
  | .drop id, l => l.close id .dropped
  | .setSwitches switches, l => { l with switches }
  | .run name options work ending, l =>
    (recordAll work (l.add name options)).close l.nextId (.completed ending.outcome)
  | _, l => l

/-- The ledger after actions. -/
def recordAll : List Action → Ledger → Ledger
  | [], l => l
  | a :: rest, l => recordAll rest (a.record l)

end

/-- A session before its first task. -/
def sessionWith (switches : Switches) : Session :=
  { Session.empty with switches }

/-- The ledger before the first task. -/
def ledgerWith (switches : Switches) : Ledger :=
  ⟨switches, []⟩

/-- A relation between sessions and ledgers that every single action keeps. -/
structure Simulation (R : Session → Ledger → Prop) : Prop where
  nextId : ∀ {s l}, R s l → s.nextId = l.accounts.length + 1
  startTask : ∀ {s l} name options, R s l → R (s.startTask name options).1 (l.add name options)
  settle : ∀ {s l} id closing, R s l →
    R (s.settle id (Closing.outcome closing) closing.mayExit).1 (l.close id closing)
  output : ∀ {s l} id line isError, R s l → R (s.output id line isError) l
  setExitCode : ∀ {s l} id code, R s l → R (s.setExitCode id code) l
  setStatusCode : ∀ {s l} id code, R s l → R (s.setStatusCode id code) l
  setSwitches : ∀ {s l} switches, R s l → R { s with switches } { l with switches }
  setListening : ∀ {s l} listening, R s l → R { s with listening } l
  say : ∀ {s l} message loud, R s l → R (s.say message loud) l
  print : ∀ {s l} channel text, R s l → R (s.print channel text) l
  exit : ∀ {s l} code, R s l → R (s.exit code) l

mutual

/-- Every action keeps the relation; the work of a run is an induction of its own. -/
theorem Simulation.perform {R : Session → Ledger → Prop} (h : Simulation R) :
    ∀ (a : Action) {s : Session} {l : Ledger}, R s l → R (a.perform s) (a.record l)
  | .begin name options, _, _, hr => h.startTask name options hr
  | .complete id outcome, _, _, hr => h.settle id (.completed outcome) hr
  | .drop id, _, _, hr => h.settle id .dropped hr
  | .output id line isError, _, _, hr => h.output id line isError hr
  | .setExitCode id code, _, _, hr => h.setExitCode id code hr
  | .setStatusCode id code, _, _, hr => h.setStatusCode id code hr
  | .setSwitches switches, _, _, hr => h.setSwitches switches hr
  | .setListening listening, _, _, hr => h.setListening listening hr
  | .say message loud, _, _, hr => h.say message loud hr
  | .print channel text, _, _, hr => h.print channel text hr
  | .exit code, _, _, hr => h.exit code hr
  | .run name options work ending, s, l, hr => by
    have hid : (s.startTask name options).2 = l.nextId := by
      simp only [Session.startTask, Ledger.nextId, h.nextId hr]
    have hwork := h.performAll work (h.startTask name options hr)
    simp only [Action.perform, Action.record, Session.runWith, hid]
    exact h.settle l.nextId (.completed ending.outcome) hwork

/-- Every sequence of actions keeps the relation. -/
theorem Simulation.performAll {R : Session → Ledger → Prop} (h : Simulation R) :
    ∀ (actions : List Action) {s : Session} {l : Ledger}, R s l →
      R (performAll actions s) (recordAll actions l)
  | [], _, _, hr => hr
  | a :: rest, _, _, hr => h.performAll rest (h.perform a hr)

end

/-! ## What the operations change -/

section Effects

variable (s : Session)

@[simp] lemma reports_report (e : Event) : (s.report e).reports = s.reports ++ [e] := by
  unfold report note reports
  cases s.listening <;> simp

@[simp] lemma reports_exit (code : Int) : (s.exit code).reports = s.reports := by
  simp [Session.exit, note, reports]

@[simp] lemma reports_print (channel : Channel) (text : String) :
    (s.print channel text).reports = s.reports := by
  simp [Session.print, note, reports]

lemma map_updateTask {β : Type} (f : Task → β) (id : TaskId) {change : Task → Task}
    (h : ∀ t, f (change t) = f t) : (s.updateTask id change).tasks.map f = s.tasks.map f := by
  simp only [Session.updateTask, List.map_map]
  apply List.map_congr_left
  intro t _
  simp only [Function.comp_apply]
  split
  · exact h t
  · rfl

/-! ## Starting -/

/-- The task that a session starts next. -/
def newTask (name : String) (options : TaskOptions) : Task :=
  { id := ⟨s.nextId⟩, name, kind := options.kind, mode := options.mode,
    silent := options.silent || s.switches.silent,
    stopsRun := options.mode == .fail && s.switches.stopOnFailure,
    exitCode := none, statusCode := none, settlement := none }

/-- The session with a new task that is not reported yet. -/
def withNewTask (name : String) (options : TaskOptions) : Session :=
  { s with
    tasks := s.tasks ++ [newTask s name options], nextId := s.nextId + 1,
    live := s.live.insert ⟨s.nextId⟩ }

/-- The first report about a new task. -/
def startEvent (name : String) (options : TaskOptions) : Event :=
  .start ((withNewTask s name options).snapshot (newTask s name options) .running)

lemma startTask_eq (name : String) (options : TaskOptions) :
    (s.startTask name options).1 =
      if (newTask s name options).silent then withNewTask s name options
      else (withNewTask s name options).report (startEvent s name options) := rfl

lemma startTask_tasks (name : String) (options : TaskOptions) :
    (s.startTask name options).1.tasks = s.tasks ++ [newTask s name options] := by
  rw [startTask_eq]
  split <;> rfl

lemma startTask_nextId (name : String) (options : TaskOptions) :
    (s.startTask name options).1.nextId = s.nextId + 1 := by
  rw [startTask_eq]
  split <;> rfl

lemma startTask_live (name : String) (options : TaskOptions) :
    (s.startTask name options).1.live = s.live.insert ⟨s.nextId⟩ := by
  rw [startTask_eq]
  split <;> rfl

lemma startTask_switches (name : String) (options : TaskOptions) :
    (s.startTask name options).1.switches = s.switches := by
  rw [startTask_eq]
  split <;> rfl

lemma startTask_reports (name : String) (options : TaskOptions) :
    (s.startTask name options).1.reports =
      s.reports ++ if (newTask s name options).silent then [] else [startEvent s name options] := by
  have hnew : (withNewTask s name options).reports = s.reports := rfl
  rw [startTask_eq]
  split
  · rw [hnew, List.append_nil]
  · rw [reports_report, hnew]

/-! ## Settling -/

/-- The session with the result of a task recorded. -/
def recorded (t : Task) (outcome : Except String Json) : Session :=
  s.updateTask t.id fun u => { u with settlement := some ⟨t.mode.resultOf outcome, .zero⟩ }

/-- The last report about a task. -/
def endEvent (t : Task) (outcome : Except String Json) : Event :=
  finalEvent ((recorded s t outcome).snapshot
    { t with settlement := some ⟨t.mode.resultOf outcome, .zero⟩ } (t.mode.resultOf outcome).status)
    outcome

/-- The session after a task has been settled, before the run may be ended. -/
def settled (t : Task) (outcome : Except String Json) : Session :=
  let s' := if t.silent then recorded s t outcome
    else (recorded s t outcome).report (endEvent s t outcome)
  { s' with live := s'.live.remove t.id }

variable {s}

lemma task?_id {id : TaskId} {t : Task} (h : s.task? id = some t) : t.id = id := by
  simpa using List.find?_some h

lemma settle_running {id : TaskId} {t : Task} (ht : s.task? id = some t) (hn : t.settlement = none)
    (outcome : Except String Json) (mayExit : Bool) :
    s.settle id outcome mayExit =
      (if (t.mode.resultOf outcome).failed && t.stopsRun && mayExit then (settled s t outcome).exit 1
        else settled s t outcome, some (t.mode.resultOf outcome)) := by
  have hid := task?_id ht
  subst hid
  simp only [settle, ht, hn, Option.isSome_none, Bool.false_eq_true, if_false]
  rfl

/-- What settling a running task changes. -/
structure Settles (s : Session) (t : Task) (outcome : Except String Json) (after : Session) :
    Prop where
  tasks : after.tasks = (recorded s t outcome).tasks
  nextId : after.nextId = s.nextId
  live : after.live = s.live.remove t.id
  switches : after.switches = s.switches
  reports : after.reports = s.reports ++ if t.silent then [] else [endEvent s t outcome]

lemma settles_settled (t : Task) (outcome : Except String Json) :
    Settles s t outcome (settled s t outcome) := by
  unfold settled
  by_cases hs : t.silent
  · simp only [hs, if_true]
    exact ⟨rfl, rfl, rfl, rfl, by rw [if_pos hs, List.append_nil]; rfl⟩
  · have hreport := reports_report (recorded s t outcome) (endEvent s t outcome)
    simp only [hs]
    exact ⟨rfl, rfl, rfl, rfl, by rw [if_neg hs]; exact hreport⟩

/-- Settling a running task changes the session in one way, whether the run may end with it or not. -/
lemma settle_settles {id : TaskId} {t : Task} (ht : s.task? id = some t) (hn : t.settlement = none)
    (outcome : Except String Json) (mayExit : Bool) :
    Settles s t outcome (s.settle id outcome mayExit).1 := by
  have h := settles_settled (s := s) t outcome
  rw [settle_running ht hn]
  dsimp only
  split
  · exact ⟨h.tasks, h.nextId, h.live, h.switches, by rw [reports_exit]; exact h.reports⟩
  · exact h

/-- Settling either changes nothing, since no such task runs, or settles a running task. -/
lemma settle_cases {P : Session → Prop} (id : TaskId) (outcome : Except String Json) (mayExit : Bool)
    (hsame : (∀ t, s.task? id = some t → t.settlement.isSome) → P s)
    (hsettles : ∀ t s', s.task? id = some t → t.settlement = none → Settles s t outcome s' → P s') :
    P (s.settle id outcome mayExit).1 := by
  cases ht : s.task? id with
  | none =>
    have hunknown : (s.settle id outcome mayExit).1 = s := by simp [settle, ht]
    rw [hunknown]
    exact hsame (by simp [ht])
  | some t =>
    cases hn : t.settlement with
    | none => exact hsettles t _ ht hn (settle_settles ht hn outcome mayExit)
    | some settlement =>
      have hsettled : (s.settle id outcome mayExit).1 = s := by simp [settle, ht, hn]
      rw [hsettled]
      refine hsame fun u hu => ?_
      rw [ht, Option.some.injEq] at hu
      rw [← hu, hn]
      rfl

/-! ## Output -/

/-- Output either changes nothing, since no such task may report, or is reported once. -/
lemma output_cases {P : Session → Prop} (id : TaskId) (line : String) (isError : Bool)
    (hsame : P s)
    (hreport : ∀ t, s.task? id = some t → t.silent = false →
      P (s.report (.output (s.snapshot t .running) line isError))) :
    P (s.output id line isError) := by
  unfold Session.output
  cases ht : s.task? id with
  | none => exact hsame
  | some t =>
    cases hs : t.silent with
    | true => simpa [hs] using hsame
    | false => simpa [hs] using hreport t ht hs

end Effects

/-! ## The history -/

section History

/-- The separate pieces of a session's state agree. -/
structure Consistent (s : Session) : Prop where
  ids : ∀ (n : Nat) (t : Task), s.tasks[n]? = some t → t.id = ⟨n + 1⟩
  nextId : s.nextId = s.tasks.length + 1
  live : s.live.ids = (s.tasks.filter fun t => t.settlement.isNone).map Task.id

lemma remove_ids (l : LiveTasks) (id : TaskId) : (l.remove id).ids = l.ids.erase id := by
  rw [LiveTasks.remove, LiveTasks.take, List.erase_eq_eraseIdx]
  cases l.ids.idxOf? id <;> rfl

lemma consistent_sessionWith (switches : Switches) : Consistent (sessionWith switches) :=
  ⟨by simp [sessionWith, Session.empty], rfl, rfl⟩

namespace Consistent

variable {s s' : Session} (h : Consistent s)
include h

lemma map_id : s.tasks.map Task.id = (List.range s.tasks.length).map fun n => ⟨n + 1⟩ := by
  apply List.ext_getElem?
  intro n
  rw [List.getElem?_map, List.getElem?_map]
  by_cases hn : n < s.tasks.length
  · have ht := h.ids n s.tasks[n] (List.getElem?_eq_getElem hn)
    simp [hn, ht]
  · simp [Nat.not_lt.mp hn]

lemma map_number : s.tasks.map (fun t => t.id.number) = List.range' 1 s.tasks.length := by
  have hids := congrArg (List.map TaskId.number) h.map_id
  simpa [List.map_map, Function.comp_def, List.range'_eq_map_range, Nat.add_comm] using hids

lemma nodup_ids : (s.tasks.map Task.id).Nodup := by
  rw [h.map_id]
  refine List.Nodup.map ?_ List.nodup_range
  intro a b hab
  simpa using hab

lemma nodup_live : s.live.ids.Nodup := by
  rw [h.live]
  exact h.nodup_ids.sublist (List.filter_sublist.map _)

lemma task?_eq (id : TaskId) :
    s.task? id = if id.number = 0 then none else s.tasks[id.number - 1]? := by
  unfold task?
  by_cases hzero : id.number = 0
  · rw [if_pos hzero, List.find?_eq_none]
    intro t ht
    obtain ⟨n, hn⟩ := List.getElem?_of_mem ht
    have hid := h.ids n t hn
    simp only [beq_iff_eq]
    intro hcontra
    rw [hcontra] at hid
    rw [hid] at hzero
    exact Nat.succ_ne_zero n hzero
  · rw [if_neg hzero]
    cases ht : s.tasks[id.number - 1]? with
    | none =>
      rw [List.find?_eq_none]
      intro t hmem
      obtain ⟨n, hn⟩ := List.getElem?_of_mem hmem
      have hid := h.ids n t hn
      have hlt := (List.getElem?_eq_some_iff.mp hn).1
      have hge := List.getElem?_eq_none_iff.mp ht
      simp only [beq_iff_eq]
      intro hcontra
      rw [hid] at hcontra
      rw [← hcontra] at hge
      simp only [Nat.add_sub_cancel] at hge
      omega
    | some t =>
      obtain ⟨hlt, hget⟩ := List.getElem?_eq_some_iff.mp ht
      rw [List.find?_eq_some_iff_getElem]
      have hid : t.id = id := by
        rw [h.ids _ t ht, Nat.sub_add_cancel (by omega)]
      refine ⟨by simp [hid], id.number - 1, hlt, hget, ?_⟩
      -- The tasks in front of it have smaller numbers, so the search passes them.
      intro m hm
      have hmid := h.ids m s.tasks[m] (List.getElem?_eq_getElem _)
      simp only [Bool.not_eq_eq_eq_not, Bool.not_true, beq_eq_false_iff_ne, hmid]
      intro hcontra
      rw [← hcontra] at hm
      simp only [Nat.add_sub_cancel] at hm
      omega

lemma number_of_task? {id : TaskId} {t : Task} (ht : s.task? id = some t) :
    0 < id.number ∧ id.number ≤ s.tasks.length := by
  rw [h.task?_eq] at ht
  split at ht
  · cases ht
  · have hlt := (List.getElem?_eq_some_iff.mp ht).1
    omega

/-- Changes to tasks other than their identifiers and settlements keep the pieces in agreement. -/
lemma map_tasks (f : Task → Task) (hid : ∀ t, (f t).id = t.id)
    (hsettlement : ∀ t, (f t).settlement = t.settlement) (htasks : s'.tasks = s.tasks.map f)
    (hnext : s'.nextId = s.nextId) (hlive : s'.live = s.live) : Consistent s' := by
  refine ⟨?_, ?_, ?_⟩
  · intro n t ht
    rw [htasks, List.getElem?_map] at ht
    obtain ⟨u, hu, rfl⟩ := Option.map_eq_some_iff.mp ht
    rw [hid, h.ids n u hu]
  · rw [hnext, htasks, List.length_map, h.nextId]
  · rw [hlive, htasks, h.live, List.filter_map, List.map_map]
    have hsame : (fun t : Task => t.settlement.isNone) ∘ f = fun t => t.settlement.isNone := by
      funext t
      simp [hsettlement]
    rw [hsame]
    apply List.map_congr_left
    intro t _
    exact (hid t).symm

lemma same_tasks (htasks : s'.tasks = s.tasks) (hnext : s'.nextId = s.nextId)
    (hlive : s'.live = s.live) : Consistent s' :=
  h.map_tasks id (fun _ => rfl) (fun _ => rfl) (by rw [htasks, List.map_id]) hnext hlive

lemma updateTask (id : TaskId) (change : Task → Task) (hid : ∀ t, (change t).id = t.id)
    (hsettlement : ∀ t, (change t).settlement = t.settlement) :
    Consistent (s.updateTask id change) := by
  refine h.map_tasks (fun t => if t.id == id then change t else t) ?_ ?_ rfl rfl rfl
  · intro t
    split
    · exact hid t
    · rfl
  · intro t
    split
    · exact hsettlement t
    · rfl

lemma startTask (name : String) (options : TaskOptions) :
    Consistent (s.startTask name options).1 := by
  refine ⟨?_, ?_, ?_⟩
  · intro n t ht
    rw [startTask_tasks] at ht
    by_cases hn : n < s.tasks.length
    · rw [List.getElem?_append_left hn] at ht
      exact h.ids n t ht
    · rw [List.getElem?_append_right (Nat.not_lt.mp hn), List.getElem?_singleton] at ht
      split at ht
      · rename_i hlast
        cases ht
        simp only [newTask, h.nextId, TaskId.mk.injEq]
        omega
      · cases ht
  · rw [startTask_nextId, startTask_tasks, h.nextId, List.length_append, List.length_singleton]
  · -- The live tasks have smaller numbers, so the new one is really inserted.
    have hfresh : (⟨s.nextId⟩ : TaskId) ∉ s.live.ids := by
      rw [h.live]
      intro hmem
      obtain ⟨t, ht, hid⟩ := List.mem_map.mp hmem
      obtain ⟨n, hn⟩ := List.getElem?_of_mem (List.mem_of_mem_filter ht)
      have hlt := (List.getElem?_eq_some_iff.mp hn).1
      have hnumber := h.ids n t hn
      rw [hid, h.nextId, TaskId.mk.injEq] at hnumber
      omega
    rw [startTask_live, startTask_tasks, LiveTasks.insert, if_neg (by simpa using hfresh)]
    simp [h.live, newTask]

lemma settle_running {t : Task} (outcome : Except String Json)
    (hs : Settles s t outcome s') : Consistent s' := by
  refine ⟨?_, ?_, ?_⟩
  · intro n u hu
    rw [hs.tasks] at hu
    simp only [recorded, Session.updateTask, List.getElem?_map] at hu
    obtain ⟨v, hv, rfl⟩ := Option.map_eq_some_iff.mp hu
    split <;> exact h.ids n v hv
  · rw [hs.nextId, hs.tasks, h.nextId]
    simp [recorded, Session.updateTask]
  · have hopen : ∀ u : Task, (if u.id == t.id then
        { u with settlement := some ⟨t.mode.resultOf outcome, .zero⟩ } else u).settlement.isNone =
        (u.id != t.id && u.settlement.isNone) := by
      intro u
      by_cases hu : u.id = t.id <;> simp [hu]
    have hkept : ∀ u : Task, (if u.id == t.id then
        { u with settlement := some ⟨t.mode.resultOf outcome, .zero⟩ } else u).id = u.id := by
      intro u
      split <;> rfl
    -- No task is live twice, so erasing its first entry leaves out the task.
    rw [hs.live, hs.tasks, remove_ids, h.nodup_live.erase_eq_filter, h.live]
    simp only [recorded, Session.updateTask, List.filter_map, List.map_map, Function.comp_def, hopen,
      hkept, List.filter_filter]

lemma settle (id : TaskId) (outcome : Except String Json) (mayExit : Bool) :
    Consistent (s.settle id outcome mayExit).1 :=
  settle_cases id outcome mayExit (fun _ => h)
    fun _ _ _ _ hsettles => h.settle_running outcome hsettles

lemma output (id : TaskId) (line : String) (isError : Bool) :
    Consistent (s.output id line isError) :=
  output_cases id line isError h fun _ _ _ => h.same_tasks rfl rfl rfl

end Consistent

lemma settle_length (s : Session) (id : TaskId) (outcome : Except String Json) (mayExit : Bool) :
    (s.settle id outcome mayExit).1.tasks.length = s.tasks.length := by
  refine settle_cases (P := fun s' => s'.tasks.length = s.tasks.length) id outcome mayExit
    (fun _ => rfl) fun t s' _ _ hsettles => ?_
  rw [hsettles.tasks, recorded, Session.updateTask, List.length_map]

lemma output_length (s : Session) (id : TaskId) (line : String) (isError : Bool) :
    (s.output id line isError).tasks.length = s.tasks.length :=
  output_cases (P := fun s' => s'.tasks.length = s.tasks.length) id line isError rfl
    fun _ _ _ => rfl

lemma close_length (l : Ledger) (id : TaskId) (closing : Closing) :
    (l.close id closing).accounts.length = l.accounts.length :=
  List.length_mapIdx

lemma consistent_simulation :
    Simulation fun s l => Consistent s ∧ s.tasks.length = l.accounts.length where
  nextId := fun ⟨h, hlength⟩ => by rw [h.nextId, hlength]
  startTask := fun name options ⟨h, hlength⟩ =>
    ⟨h.startTask name options, by simp [startTask_tasks, Ledger.add, hlength]⟩
  settle := fun id closing ⟨h, hlength⟩ =>
    ⟨h.settle id _ _, by rw [settle_length, close_length, hlength]⟩
  output := fun id line isError ⟨h, hlength⟩ =>
    ⟨h.output id line isError, by rw [output_length, hlength]⟩
  setExitCode := fun id _ ⟨h, hlength⟩ =>
    ⟨h.updateTask id _ (fun _ => rfl) (fun _ => rfl), by
      simpa [Session.setExitCode, Session.updateTask] using hlength⟩
  setStatusCode := fun id _ ⟨h, hlength⟩ =>
    ⟨h.updateTask id _ (fun _ => rfl) (fun _ => rfl), by
      simpa [Session.setStatusCode, Session.updateTask] using hlength⟩
  setSwitches := fun _ ⟨h, hlength⟩ => ⟨h.same_tasks rfl rfl rfl, hlength⟩
  setListening := fun _ ⟨h, hlength⟩ => ⟨h.same_tasks rfl rfl rfl, hlength⟩
  say := fun _ _ ⟨h, hlength⟩ => ⟨h.same_tasks rfl rfl rfl, hlength⟩
  print := fun _ _ ⟨h, hlength⟩ => ⟨h.same_tasks rfl rfl rfl, hlength⟩
  exit := fun _ ⟨h, hlength⟩ => ⟨h.same_tasks rfl rfl rfl, hlength⟩

lemma consistent_performAll (switches : Switches) (actions : List Action) :
    Consistent (performAll actions (sessionWith switches)) :=
  (consistent_simulation.performAll actions (l := ledgerWith switches)
    ⟨consistent_sessionWith switches, rfl⟩).1

/-! ## Statuses and counts -/

lemma status_eq_running_iff (t : Task) : t.status = .running ↔ t.settlement = none := by
  unfold Task.status
  cases t.settlement with
  | none => simp
  | some settlement => cases hr : settlement.result <;> simp [hr, TaskResult.status]

lemma sum_of_counts (tasks : List Task) :
    tasks.countP (·.status == .running) + tasks.countP (·.status == .success) +
      tasks.countP (·.status == .fail) + tasks.countP (·.status == .warning) = tasks.length := by
  induction tasks with
  | nil => rfl
  | cons t rest ih =>
    simp only [List.countP_cons, List.length_cons]
    cases ht : t.status <;> simp <;> omega

/-- What can be read off the history of a session, whatever was done to it: the identifiers, the live
tasks, which tasks have a result and a duration, the counts, and the exit code. -/
theorem history_determines_session (switches : Switches) (actions : List Action) :
    let s := performAll actions (sessionWith switches)
    s.tasks.map (fun t => t.id.number) = List.range' 1 s.tasks.length ∧
    s.live.ids = (s.tasks.filter fun t => t.status == .running).map Task.id ∧
    s.live.ids.Nodup ∧
    (∀ t ∈ s.tasks,
      ((t.settlement.map Settlement.result).isSome ↔ t.status ≠ .running) ∧
      ((t.settlement.map Settlement.duration).isSome ↔ t.status ≠ .running)) ∧
    s.summary.total = s.tasks.length ∧
    s.summary.running + s.summary.succeeded + s.summary.failed + s.summary.warnings =
      s.summary.total ∧
    s.summary.running = s.live.size ∧
    (s.exitCode = 1 ↔ (∃ t ∈ s.tasks, t.status = .fail) ∧
      s.switches.ignoreFailures = false ∧ s.switches.testMode = false) := by
  intro s
  have h : Consistent s := consistent_performAll switches actions
  have hlive : s.live.ids = (s.tasks.filter fun t => t.status == .running).map Task.id := by
    rw [h.live]
    congr 2
    funext t
    have hstatus := status_eq_running_iff t
    cases ht : t.settlement <;> simp [ht] at hstatus ⊢ <;> assumption
  refine ⟨?_, hlive, h.nodup_live, ?_, rfl, sum_of_counts s.tasks, ?_, ?_⟩
  · exact h.map_number
  · intro t _
    have hstatus := status_eq_running_iff t
    cases ht : t.settlement <;> simp [ht] at hstatus ⊢ <;> assumption
  · simp only [LiveTasks.size, hlive, List.length_map, summary, countOf, List.countP_eq_length_filter]
  · have hfailed : 0 < s.summary.failed ↔ ∃ t ∈ s.tasks, t.status = .fail := by
      simp [summary, countOf, List.countP_pos_iff]
    unfold exitCode
    cases hi : s.switches.ignoreFailures <;> cases htest : s.switches.testMode <;>
      simp [← hfailed, Nat.pos_iff_ne_zero]

end History

end TaskRunner.Proofs
