import Mathlib.Data.List.Count
import TaskRunner.Proofs.OwnTasks
import TaskRunner.Proofs.ScriptTurns
import TaskRunner.Proofs.StartedOperations

/-!
# Tasks that scripts begin

What a run asks of the session for a task of the script is its begin, and at most one end, which the script
asks for by the handle of the task. The bridge keeps the tasks that were not ended, and closing it gives them
up; so in the end every task was closed once.
-/

namespace TaskRunner.Proofs
open Session Script Machine

/-- A task that a script began, with the handle that the script has for it. -/
structure BegunTask where
  handle : Handle
  id : TaskId
  name : String
  mode : TaskMode
deriving DecidableEq

/-- The tasks that were begun. -/
def begunIn (log : List Deed) : List BegunTask :=
  log.filterMap fun
    | .beginTask h id name mode => some ⟨h, id, name, mode⟩
    | _ => none

/-- The ends of a task that were asked for. -/
def closingsIn (log : List Deed) (h : Handle) : List Closing :=
  log.filterMap fun
    | .endTask h' outcome => if h' = h then some (.completed outcome) else none
    | _ => none

/-- The tasks that were begun and not ended. -/
def openIn (log : List Deed) : List BegunTask :=
  (begunIn log).filter fun b => (closingsIn log b.handle).isEmpty

/-- How a task is closed in the end: with the outcome that the script ended it with, or given up. -/
def closingOf (log : List Deed) (h : Handle) : Closing :=
  (closingsIn log h).headD .dropped

/-- The steps begin the task, and what they ask of it then is to close it. -/
def Asks (s₀ : Session) (steps : List Step) (b : BegunTask) (closings : List Closing) : Prop :=
  ∃ front back, steps = front ++ .begin b.name b.mode.options :: back ∧
    b.id = ⟨(performSteps front s₀).nextId⟩ ∧ callsOn b.id back = closings.map .close

/-- What a turn of a run changes in the host of a script. -/
inductive HostChange (h : Host) : List Deed → Host → Prop where
  | aside {deeds : List Deed} {h' : Host} (hsession : LeavesTasks h.world.session h'.world.session)
    (hhandle : h.bridge.lastHandle ≤ h'.bridge.lastHandle) (htasks : h'.bridge.tasks = h.bridge.tasks)
    (hbegun : begunIn deeds = []) (hended : ∀ task, closingsIn deeds task = []) : HostChange h deeds h'
  | begin (name source : String) (mode : TaskMode) :
    HostChange h [.beginTask (h.bridge.lastHandle + 1) ⟨h.world.session.nextId⟩
      (if Text.isAllBlank name then inferName source else name) mode] (h.beginTask name source mode).1
  | finish {task : Handle} {outcome : Except String Json} {h' : Host} {result : TaskResult}
    (hend : h.endTask? task outcome = some (h', result)) : HostChange h [.endTask task outcome] h'

variable {m m' : Machine} {log deeds more : List Deed} {h h' : Host} {s₀ : Session}

@[simp] lemma begunIn_append (log more : List Deed) : begunIn (log ++ more) = begunIn log ++ begunIn more :=
  List.filterMap_append

@[simp] lemma closingsIn_append (log more : List Deed) (task : Handle) :
    closingsIn (log ++ more) task = closingsIn log task ++ closingsIn more task :=
  List.filterMap_append

lemma closingsIn_endTask (task other : Handle) (outcome : Except String Json) :
    closingsIn [.endTask task outcome] other = if task = other then [.completed outcome] else [] := by
  by_cases hsame : task = other <;> simp [closingsIn, hsame]

/-- Ending a task by its handle takes it off the bridge, and closes it in the session. -/
lemma endTask?_eq_some {task : Handle} {outcome : Except String Json} {result : TaskResult}
    (hend : h.endTask? task outcome = some (h', result)) :
    ∃ id, h.bridge.tasks.lookup task = some id ∧
      h'.bridge = { h.bridge with tasks := h.bridge.tasks.filter (·.1 != task) } ∧
      h'.world.session = (Step.close id (.completed outcome)).perform h.world.session := by
  unfold Host.endTask? Bridge.endTask? at hend
  cases hlookup : h.bridge.tasks.lookup task with
  | none => simp [hlookup] at hend
  | some id =>
    rw [hlookup] at hend
    obtain ⟨_, -, hparts⟩ := Option.map_eq_some_iff.mp hend
    cases hparts
    exact ⟨id, rfl, rfl, rfl⟩

/-! ## What the host sees of a turn -/

section Turns

/-- A change that only others see. -/
lemma HostChange.same (hworld : h'.world = h.world) (hhandle : h'.bridge.lastHandle = h.bridge.lastHandle)
    (htasks : h'.bridge.tasks = h.bridge.tasks) (hbegun : begunIn deeds = [])
    (hended : ∀ task, closingsIn deeds task = []) : HostChange h deeds h' :=
  .aside (hworld ▸ leavesTasks_refl _) (Nat.le_of_eq hhandle.symm) htasks hbegun hended

lemma Told.leavesTasks {step : Step} (htold : Told step) (s : Session) : LeavesTasks s (step.perform s) := by
  refine ⟨[step], rfl, fun id _ => ?_⟩
  cases step with
  | say | print | setSwitches | exit => rfl
  | begin | close | output | setExitCode | setStatusCode | setListening => exact htold.elim

lemma Starts.hostChange (hstarts : Starts m deeds m') :
    m'.host.world = m.host.world ∧ m.host.bridge.lastHandle ≤ m'.host.bridge.lastHandle ∧
      m'.host.bridge.tasks = m.host.bridge.tasks ∧ begunIn deeds = [] ∧
        ∀ task, closingsIn deeds task = [] := by
  induction hstarts with
  | nil m => exact ⟨rfl, Nat.le_refl _, rfl, rfl, fun _ => rfl⟩
  | @cons m m' r o deeds hr ho hrest ih =>
    obtain ⟨hworld, hhandle, htasks, hbegun, hended⟩ := ih
    rw [launch_host] at hworld hhandle htasks
    exact ⟨hworld, Nat.le_trans (Nat.le_succ _) hhandle, htasks, hbegun, hended⟩

lemma begunIn_assign (sets : List (Ref × String)) :
    begunIn (sets.map fun set => .assign set.1 set.2) = [] := by
  simp [begunIn]

lemma closingsIn_assign (sets : List (Ref × String)) (task : Handle) :
    closingsIn (sets.map fun set => .assign set.1 set.2) task = [] := by
  simp [closingsIn]

lemma Does.hostChange (hdoes : Does m deeds m') : HostChange m.host deeds m'.host := by
  have hsame {deeds : List Deed} {host : Host} (hhost : host = m.host) (hbegun : begunIn deeds = [])
      (hended : ∀ task, closingsIn deeds task = []) : HostChange m.host deeds host :=
    .same (hhost ▸ rfl) (hhost ▸ rfl) (hhost ▸ rfl) hbegun hended
  cases hdoes with
  | quiet hon hquiet =>
    exact hsame (hquiet.host.trans hon.host) (begunIn_assign _) (closingsIn_assign _)
  | tell htold hquiet =>
    rw [hquiet.host]
    exact .aside (htold.leavesTasks _) (Nat.le_refl _) rfl rfl fun _ => rfl
  | start hon hbefore hstarts hquiet =>
    obtain ⟨hworld, hhandle, htasks, hbegun, hended⟩ := hstarts.hostChange
    rw [hbefore.host.trans hon.host] at hworld hhandle htasks
    rw [hquiet.host]
    exact .aside (hworld ▸ leavesTasks_refl _) hhandle htasks hbegun hended
  | beginTask hhost hquiet =>
    rw [hquiet.host]
    cases hhost
    exact .begin _ _ _
  | await hcontrol hstack hp hbefore hpromise hquiet =>
    exact hsame (hquiet.host.trans ((react_host _ _ _).trans hbefore.host)) rfl fun _ => rfl
  | fail hknown hend hquiet => exact hsame (hquiet.host.trans hknown.host) rfl fun _ => rfl
  | endTask hknown hend hquiet =>
    rw [hquiet.host]
    exact .finish hend

lemma take?_tasks {b rest : Bridge Operation Reply Resolver} {reply : Handle × Reply}
    (htake : b.take? = some (reply, rest)) : rest.tasks = b.tasks ∧ rest.lastHandle = b.lastHandle := by
  unfold Bridge.take? at htake
  split at htake
  · cases htake
  · split at htake
    · cases htake
    · cases htake
      exact ⟨rfl, rfl⟩

/-- A turn of a run leaves the tasks of the session alone, or begins a task, or ends one. -/
theorem Turn.hostChange (hturn : Turn CarriedOut m deeds m') : HostChange m.host deeds m'.host := by
  cases hturn with
  | work hwork => exact (does_work hwork).hostChange
  | @finish task o reply world hrunning hends =>
    have hleaves := operation_leavesTasks o m.host.services m.host.world
    rw [show o.run m.host.services m.host.world = (world, reply) from hends] at hleaves
    exact .aside hleaves (Nat.le_refl _) rfl rfl fun _ => rfl
  | deliver hidle htake =>
    obtain ⟨htasks, hhandle⟩ := take?_tasks htake
    rw [(quiet_accept m _ _ _).host]
    exact .same rfl hhandle htasks rfl fun _ => rfl
  | ask function args =>
    rw [(quiet_ask m function args).host]
    exact .same rfl rfl rfl rfl fun _ => rfl

end Turns

/-! ## Accounts of the tasks -/

/-- The tasks of the script, as the bridge keeps them and as the session has been asked for them. -/
structure Accounts (s₀ : Session) (log : List Deed) (h : Host) : Prop where
  handles : ((begunIn log).map BegunTask.handle).Nodup
  ids : ((begunIn log).map BegunTask.id).Nodup
  there : ∀ b ∈ begunIn log, b.handle ≤ h.bridge.lastHandle ∧ b.id.number < h.world.session.nextId
  /-- What was ended had begun. -/
  ended : ∀ task, closingsIn log task ≠ [] → task ≤ h.bridge.lastHandle
  once : ∀ task, (closingsIn log task).length ≤ 1
  tasks : h.bridge.tasks = (openIn log).map fun b => (b.handle, b.id)
  steps : ∃ steps, h.world.session = performSteps steps s₀ ∧
    ∀ b ∈ begunIn log, Asks s₀ steps b (closingsIn log b.handle)

lemma Asks.append {steps more : List Step} {b : BegunTask} {closings closings' : List Closing}
    (hasks : Asks s₀ steps b closings) (hmore : callsOn b.id more = closings'.map .close) :
    Asks s₀ (steps ++ more) b (closings ++ closings') := by
  obtain ⟨front, back, rfl, hid, hcalls⟩ := hasks
  refine ⟨front, back ++ more, by simp, hid, ?_⟩
  rw [callsOn_append, hcalls, hmore, List.map_append]

/-- Nothing more is asked of a task. -/
lemma Asks.unasked {steps more : List Step} {b : BegunTask} {closings : List Closing}
    (hasks : Asks s₀ steps b closings) (hmore : callsOn b.id more = []) :
    Asks s₀ (steps ++ more) b closings := by
  have hnone : callsOn b.id more = ([] : List Closing).map .close := hmore
  simpa using hasks.append hnone

lemma mem_openIn {b : BegunTask} : b ∈ openIn log ↔ b ∈ begunIn log ∧ closingsIn log b.handle = [] := by
  rw [openIn, List.mem_filter, List.isEmpty_iff]

namespace Accounts

lemma nil (services : Services) (world : World) : Accounts world.session [] ⟨services, world, .empty⟩ where
  handles := List.nodup_nil
  ids := List.nodup_nil
  there := fun _ hb => absurd hb List.not_mem_nil
  ended := fun _ hne => absurd rfl hne
  once := fun _ => Nat.zero_le _
  tasks := rfl
  steps := ⟨[], rfl, fun _ hb => absurd hb List.not_mem_nil⟩

variable (a : Accounts s₀ log h)
include a

lemma aside (hsession : LeavesTasks h.world.session h'.world.session)
    (hhandle : h.bridge.lastHandle ≤ h'.bridge.lastHandle) (htasks : h'.bridge.tasks = h.bridge.tasks)
    (hbegun : begunIn deeds = []) (hended : ∀ task, closingsIn deeds task = []) :
    Accounts s₀ (log ++ deeds) h' := by
  obtain ⟨more, hmore, hleaves⟩ := hsession
  have hsameBegun : begunIn (log ++ deeds) = begunIn log := by rw [begunIn_append, hbegun, List.append_nil]
  have hsameEnded : closingsIn (log ++ deeds) = closingsIn log :=
    funext fun task => by rw [closingsIn_append, hended, List.append_nil]
  have hnext := hmore ▸ performSteps_nextId_le more h.world.session
  constructor
  · exact hsameBegun ▸ a.handles
  · exact hsameBegun ▸ a.ids
  · intro b hb
    obtain ⟨hb₁, hb₂⟩ := a.there b (hsameBegun ▸ hb)
    exact ⟨Nat.le_trans hb₁ hhandle, Nat.lt_of_lt_of_le hb₂ hnext⟩
  · exact fun task hne => Nat.le_trans (a.ended task (hsameEnded ▸ hne)) hhandle
  · exact hsameEnded ▸ a.once
  · rw [htasks, a.tasks, openIn, openIn, hsameBegun, hsameEnded]
  · obtain ⟨steps, hsteps, hasks⟩ := a.steps
    refine ⟨steps ++ more, by rw [hmore, hsteps, performSteps_append], fun b hb => ?_⟩
    rw [hsameBegun] at hb
    rw [hsameEnded]
    exact (hasks b hb).unasked (hleaves b.id (a.there b hb).2)

lemma begin (name source : String) (mode : TaskMode) :
    Accounts s₀ (log ++ [.beginTask (h.bridge.lastHandle + 1) ⟨h.world.session.nextId⟩
      (if Text.isAllBlank name then inferName source else name) mode]) (h.beginTask name source mode).1 := by
  let label := if Text.isAllBlank name then inferName source else name
  let new : BegunTask := ⟨h.bridge.lastHandle + 1, ⟨h.world.session.nextId⟩, label, mode⟩
  have hnew : begunIn (log ++ [.beginTask new.handle new.id new.name new.mode]) = begunIn log ++ [new] :=
    begunIn_append _ _
  have hsame : closingsIn (log ++ [.beginTask new.handle new.id new.name new.mode]) = closingsIn log :=
    funext fun task => (closingsIn_append _ _ _).trans (List.append_nil _)
  have hunended : closingsIn log new.handle = [] := by
    by_contra hne
    exact absurd (a.ended _ hne) (Nat.not_succ_le_self _)
  have hnext : (h.beginTask name source mode).1.world.session.nextId = h.world.session.nextId + 1 :=
    startTask_nextId _ _ _
  have hsnoc {α : Type} {l : List α} {x : α} (hl : l.Nodup) (hx : x ∉ l) : (l ++ [x]).Nodup :=
    List.concat_eq_append ▸ hl.concat hx
  constructor
  · rw [hnew, List.map_append]
    refine hsnoc a.handles fun hmem => ?_
    obtain ⟨b, hb, hsame⟩ := List.mem_map.mp hmem
    exact Nat.not_succ_le_self _ (hsame ▸ (a.there b hb).1 : new.handle ≤ h.bridge.lastHandle)
  · rw [hnew, List.map_append]
    refine hsnoc a.ids fun hmem => ?_
    obtain ⟨b, hb, hsame⟩ := List.mem_map.mp hmem
    exact Nat.lt_irrefl _ (hsame ▸ (a.there b hb).2 : new.id.number < h.world.session.nextId)
  · intro b hb
    rw [hnew] at hb
    rw [hnext]
    obtain hb | hb := List.mem_append.mp hb
    · obtain ⟨hhandle, hid⟩ := a.there b hb
      exact ⟨Nat.le_succ_of_le hhandle, Nat.lt_succ_of_lt hid⟩
    · rw [List.mem_singleton.mp hb]
      exact ⟨Nat.le_refl _, Nat.lt_succ_self _⟩
  · exact fun task hne => Nat.le_succ_of_le (a.ended task (hsame ▸ hne))
  · exact hsame ▸ a.once
  · have hopen : openIn (log ++ [.beginTask new.handle new.id new.name new.mode]) = openIn log ++ [new] := by
      rw [openIn, hnew, hsame, List.filter_append, openIn]
      simp [hunended]
    rw [hopen, List.map_append, ← a.tasks]
    rfl
  · obtain ⟨steps, hsteps, hasks⟩ := a.steps
    refine ⟨steps ++ [.begin label mode.options], by rw [performSteps_append, ← hsteps]; rfl, fun b hb => ?_⟩
    rw [hnew] at hb
    rw [hsame]
    obtain hb | hb := List.mem_append.mp hb
    · exact (hasks b hb).unasked rfl
    · rw [List.mem_singleton.mp hb, hunended]
      exact ⟨steps, [], rfl, by rw [← hsteps], rfl⟩

/-- The task that a handle stands for. -/
lemma begun_of_lookup {task : Handle} {id : TaskId} (hlookup : h.bridge.tasks.lookup task = some id) :
    ∃ b ∈ openIn log, b.handle = task ∧ b.id = id := by
  obtain ⟨front, back, hsplit, -⟩ := List.lookup_eq_some_iff.mp hlookup
  have hmem : (task, id) ∈ (openIn log).map fun b => (b.handle, b.id) := by
    rw [← a.tasks, hsplit]
    exact List.mem_append_right _ List.mem_cons_self
  obtain ⟨b, hb, hsame⟩ := List.mem_map.mp hmem
  cases hsame
  exact ⟨b, hb, rfl, rfl⟩

lemma finish {task : Handle} {outcome : Except String Json} {result : TaskResult}
    (hend : h.endTask? task outcome = some (h', result)) :
    Accounts s₀ (log ++ [.endTask task outcome]) h' := by
  obtain ⟨id, hlookup, hbridge, hsession⟩ := endTask?_eq_some hend
  obtain ⟨b, hopen, hhandle, hid⟩ := a.begun_of_lookup hlookup
  obtain ⟨hbegun, hunended⟩ := mem_openIn.mp hopen
  have hsame : begunIn (log ++ [.endTask task outcome]) = begunIn log :=
    (begunIn_append _ _).trans (List.append_nil _)
  have hclosings (other : Handle) : closingsIn (log ++ [.endTask task outcome]) other =
      closingsIn log other ++ if task = other then [.completed outcome] else [] := by
    rw [closingsIn_append, closingsIn_endTask]
  have hnext : h'.world.session.nextId = h.world.session.nextId := hsession ▸ settle_nextId _ _ _ _
  constructor
  · exact hsame ▸ a.handles
  · exact hsame ▸ a.ids
  · rw [hsame, hbridge, hnext]
    exact a.there
  · intro other hne
    rw [hbridge]
    by_cases hother : task = other
    · rw [← hother, ← hhandle]
      exact (a.there b hbegun).1
    · exact a.ended other (by simpa [hclosings, hother] using hne)
  · intro other
    rw [hclosings]
    split
    · rename_i hother
      rw [← hother, ← hhandle, hunended]
      exact Nat.le_refl _
    · rw [List.append_nil]
      exact a.once other
  · have hfilter : openIn (log ++ [.endTask task outcome]) = (openIn log).filter (·.handle != task) := by
      rw [openIn, hsame, openIn, List.filter_filter]
      refine List.filter_congr fun b' _ => ?_
      by_cases hother : task = b'.handle
      · rw [hclosings, if_pos hother]
        simp [hother]
      · rw [hclosings, if_neg hother]
        simp [Ne.symm hother]
    rw [hbridge, a.tasks, hfilter, List.filter_map]
    rfl
  · obtain ⟨steps, hsteps, hasks⟩ := a.steps
    refine ⟨steps ++ [.close id (.completed outcome)], by rw [hsession, hsteps, performSteps_append]; rfl, ?_⟩
    intro b' hb'
    rw [hsame] at hb'
    rw [hclosings]
    by_cases hother : task = b'.handle
    · have hb : b' = b := List.inj_on_of_nodup_map a.handles hb' hbegun (hother.symm.trans hhandle.symm)
      rw [if_pos hother]
      refine (hasks b' hb').append ?_
      rw [hb, hid, callsOn_cons]
      simp [Step.call?, callsOn]
    · rw [if_neg hother, List.append_nil]
      refine (hasks b' hb').unasked ?_
      have hne : b'.id ≠ id := by
        intro hsameId
        have hb : b' = b := List.inj_on_of_nodup_map a.ids hb' hbegun (hsameId.trans hid.symm)
        exact hother (hb ▸ hhandle.symm)
      simp [callsOn, Step.call?, hne]

lemma change (hchange : HostChange h deeds h') : Accounts s₀ (log ++ deeds) h' := by
  cases hchange with
  | aside hsession hhandle htasks hbegun hended => exact a.aside hsession hhandle htasks hbegun hended
  | begin name source mode => exact a.begin name source mode
  | finish hend => exact a.finish hend

end Accounts

/-- The accounts are right after any turns. -/
theorem Turns.accounts (hturns : Turns CarriedOut m log m') (hstart : Accounts s₀ [] m.host) :
    Accounts s₀ log m'.host := by
  induction hturns with
  | nil => exact hstart
  | snoc _ hturn ih => exact ih.change hturn.hostChange

/-! ## The end of a run -/

lemma closingsIn_eq {task : Handle} (hclosings : closingsIn log task ≠ [])
    (honce : (closingsIn log task).length ≤ 1) : closingsIn log task = [closingOf log task] := by
  unfold closingOf
  cases hlist : closingsIn log task with
  | nil => exact absurd hlist hclosings
  | cons closing rest =>
    rw [hlist, List.length_cons, Nat.succ_le_succ_iff, Nat.le_zero, List.length_eq_zero_iff] at honce
    rw [honce, List.headD_cons]

lemma callsOn_drops (id : TaskId) (ids : List TaskId) :
    callsOn id (ids.map fun other => .close other .dropped) =
      List.replicate (ids.count id) (.close .dropped) := by
  induction ids with
  | nil => rfl
  | cons other rest ih =>
    rw [List.map_cons, callsOn_cons, ih, Step.call?, List.count_cons]
    by_cases hsame : id = other
    · simp [hsame, List.replicate_succ]
    · simp [hsame, Ne.symm hsame]

/-- When the bridge is closed every task that was begun is closed, once. -/
theorem Accounts.close (a : Accounts s₀ log h) :
    ∃ steps, h.close.session = performSteps steps s₀ ∧
      ∀ b ∈ begunIn log, Asks s₀ steps b [closingOf log b.handle] := by
  obtain ⟨steps, hsteps, hasks⟩ := a.steps
  let open_ := (openIn log).map BegunTask.id
  have hids : open_ = h.bridge.tasks.map Prod.snd := by
    rw [a.tasks, List.map_map]
    rfl
  have hnodup : open_.Nodup := a.ids.sublist (List.filter_sublist.map _)
  refine ⟨steps ++ open_.map fun id => .close id .dropped, ?_, fun b hb => ?_⟩
  · rw [performSteps_append, ← hsteps, hids, performSteps, List.map_map, List.foldl_map]
    rfl
  · by_cases hclosings : closingsIn log b.handle = []
    · have hopen : b.id ∈ open_ := List.mem_map_of_mem (mem_openIn.mpr ⟨hb, hclosings⟩)
      have hdrops : callsOn b.id (open_.map fun id => .close id .dropped) = [Closing.dropped].map .close := by
        rw [callsOn_drops, List.count_eq_one_of_mem hnodup hopen]
        rfl
      have hone := (hasks b hb).append hdrops
      rw [hclosings] at hone
      rwa [closingOf, hclosings]
    · have hclosed : b.id ∉ open_ := by
        intro hmem
        obtain ⟨b', hb', hsame⟩ := List.mem_map.mp hmem
        obtain ⟨hbegun, hopen⟩ := mem_openIn.mp hb'
        rw [List.inj_on_of_nodup_map a.ids hbegun hb hsame] at hopen
        exact hclosings hopen
      rw [← closingsIn_eq hclosings (a.once b.handle)]
      refine (hasks b hb).unasked ?_
      rw [callsOn_drops, List.count_eq_zero_of_not_mem hclosed]
      rfl

/-! ## What was asked for is done -/

section Answered

variable {l : Ledger} {steps : List Step} {b : BegunTask} {closings : List Closing}

lemma firstClosing_closes (closings : List Closing) :
    firstClosing (closings.map .close) = closings.head? := by
  cases closings <;> rfl

/-- The task is in the session as it was asked for. -/
lemma Asks.task (hasks : Asks s₀ steps b closings) (hanswers : Answers s₀ l) :
    ∃ t switches, (performSteps steps s₀).task? b.id = some t ∧
      AsAsked t ⟨b.name, b.mode.options, switches, closings.head?⟩ := by
  obtain ⟨front, back, rfl, hid, hcalls⟩ := hasks
  have hfront := answers_simulation.steps front hanswers
  obtain ⟨n, hnext, ha, -⟩ := hfront.begun b.name b.mode.options
  have hid' : b.id = ⟨n + 1⟩ := hid.trans (congrArg TaskId.mk hnext)
  have hbegun := answers_simulation.step (.begin b.name b.mode.options) hfront
  have hback := recordSteps_account ha back
  rw [← hid', hcalls, firstClosing_closes] at hback
  obtain ⟨t, ht, hasked⟩ := (answers_simulation.steps back hbegun).task hback
  rw [performSteps_append, performSteps_cons, hid']
  exact ⟨t, _, ht, hasked⟩

/-- A task that was closed has a result, and is not among the live ones. -/
lemma Asks.settled {closing : Closing} {rest : List Closing} (hasks : Asks s₀ steps b (closing :: rest))
    (hanswers : Answers s₀ l) :
    resultIn (performSteps steps s₀) b.id = some (b.mode.options.mode.resultOf closing.outcome) ∧
      b.id ∉ (performSteps steps s₀).live.ids := by
  have hafter := (answers_simulation.steps steps hanswers).follows.consistent
  obtain ⟨t, switches, ht, hasked⟩ := hasks.task hanswers
  refine ⟨by rw [resultIn, ht, Option.bind_some, hasked.settlement]; rfl, ?_⟩
  rw [hafter.live]
  intro hmem
  obtain ⟨u, hu, hid⟩ := List.mem_map.mp hmem
  obtain ⟨htask, hopen⟩ := List.mem_filter.mp hu
  obtain ⟨n, hn⟩ := List.getElem?_of_mem htask
  have hfound : (performSteps steps s₀).task? b.id = some u := by
    rw [hafter.task?_eq, ← hid, hafter.ids n u hn]
    simpa using hn
  rw [Option.some.inj (ht.symm.trans hfound)] at hasked
  rw [hasked.settlement] at hopen
  cases hopen

/-- A task that was not closed runs, so it can be completed. -/
lemma Asks.completes (hasks : Asks s₀ steps b []) (hanswers : Answers s₀ l) (outcome : Except String Json) :
    ((performSteps steps s₀).complete b.id outcome).2.isSome := by
  obtain ⟨t, switches, ht, hasked⟩ := hasks.task hanswers
  rw [Session.complete, Proofs.settle_running ht (hasked.running_iff.mpr rfl)]
  rfl

end Answered

end TaskRunner.Proofs
