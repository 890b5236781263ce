import TaskRunner.Proofs.TaskHistory

/-!
# The protocol of reports

Of every task that is not silent there is one report of its start, before all others, and one report of
its end as soon as it was completed or dropped; of a silent task there is none. This holds for all tasks
at once, whatever is done to them and in whatever order, whether somebody listens or not.
-/

namespace TaskRunner.Proofs
open Session

/-- The task that a report is about. -/
def taskOf (e : Event) : Option TaskId :=
  e.snapshot?.map Snapshot.id

/-- Whether a report is about the start of a task. -/
def isStart : Event → Bool
  | .start _ => true
  | _ => false

/-- Whether a report is about the end of a task. -/
def isEnd : Event → Bool
  | .finish _ => true
  | .error _ _ => true
  | _ => false

/-- The reports about a task. -/
def reportsAbout (s : Session) (id : TaskId) : List Event :=
  s.reports.filter fun e => taskOf e == some id

/-- A task that succeeded is reported as finished, any other one with its message. -/
def EndsAs (closing : Closing) (e : Event) : Prop :=
  match closing.outcome with
  | .ok _ => ∃ snapshot, e = .finish snapshot
  | .error message => ∃ snapshot, e = .error snapshot message

/-- The reports about a task that is not silent. -/
structure Protocol (closing : Option Closing) (reports : List Event) : Prop where
  start : ∃ snapshot rest, reports = .start snapshot :: rest ∧ ∀ e ∈ rest, isStart e = false
  ending : match closing with
    | none => reports.filter isEnd = []
    | some closing => ∃ e, reports.filter isEnd = [e] ∧ EndsAs closing e

/-- The reports about a task agree with its account. -/
def Reported (a : Account) (reports : List Event) : Prop :=
  if a.silent then reports = [] else Protocol a.closing reports

lemma protocol_start (snapshot : Snapshot) : Protocol none [.start snapshot] :=
  ⟨⟨snapshot, [], rfl, by simp⟩, rfl⟩

lemma Protocol.start_append {closing : Option Closing} {reports : List Event}
    (h : Protocol closing reports) {e : Event} (he : isStart e = false) :
    ∃ snapshot rest, reports ++ [e] = .start snapshot :: rest ∧ ∀ e ∈ rest, isStart e = false := by
  obtain ⟨snapshot, rest, hreports, hrest⟩ := h.start
  refine ⟨snapshot, rest ++ [e], by rw [hreports]; rfl, ?_⟩
  intro e' hmem
  rcases List.mem_append.mp hmem with hmem | hmem
  · exact hrest e' hmem
  · rw [List.mem_singleton.mp hmem]
    exact he

lemma Protocol.output {closing : Option Closing} {reports : List Event} (h : Protocol closing reports)
    (snapshot : Snapshot) (line : String) (isError : Bool) :
    Protocol closing (reports ++ [Event.output snapshot line isError]) := by
  refine ⟨h.start_append rfl, ?_⟩
  have hsame : (reports ++ [Event.output snapshot line isError]).filter isEnd =
      reports.filter isEnd := by
    rw [List.filter_append]
    exact List.append_nil _
  rw [hsame]
  exact h.ending

lemma Protocol.finalEvent {reports : List Event} (h : Protocol none reports) (closing : Closing)
    (snapshot : Snapshot) :
    Protocol (some closing) (reports ++ [finalEvent snapshot closing.outcome]) := by
  have hnone : reports.filter isEnd = [] := h.ending
  refine ⟨h.start_append ?_, Session.finalEvent snapshot closing.outcome, ?_, ?_⟩
  · cases closing.outcome <;> rfl
  · rw [List.filter_append, hnone]
    cases closing.outcome <;> rfl
  · unfold EndsAs
    cases closing.outcome with
    | ok value => exact ⟨snapshot, rfl⟩
    | error message => exact ⟨snapshot, rfl⟩

/-- Closing an account calls for one more report unless the task is silent. -/
lemma Reported.close {a : Account} {reports : List Event} (h : Reported a reports)
    (hopen : a.closing = none) (closing : Closing) (snapshot : Snapshot) :
    Reported (a.close closing)
      (reports ++ if a.silent then [] else [Session.finalEvent snapshot closing.outcome]) := by
  have hsame : (a.close closing).silent = a.silent := rfl
  have hclose : (a.close closing).closing = some closing := by
    rw [Account.close, hopen, Option.none_or]
  rw [Reported, hopen] at h
  rw [Reported, hsame, hclose]
  split
  · rename_i hquiet
    rw [if_pos hquiet] at h
    rw [h, List.append_nil]
  · rename_i hloud
    rw [if_neg hloud] at h
    exact h.finalEvent closing snapshot

/-! ## Reports about one task -/

lemma reportsAbout_of_append {s s' : Session} {events : List Event}
    (h : s'.reports = s.reports ++ events) (id : TaskId) :
    reportsAbout s' id = reportsAbout s id ++ events.filter fun e => taskOf e == some id := by
  rw [reportsAbout, h, List.filter_append]
  rfl

lemma taskOf_endEvent (s : Session) (t : Task) (outcome : Except String Json) :
    taskOf (endEvent s t outcome) = some t.id := by
  cases outcome <;> rfl

lemma reportsAbout_startTask (s : Session) (name : String) (options : TaskOptions) (id : TaskId) :
    reportsAbout (s.startTask name options).1 id = reportsAbout s id ++
      if (newTask s name options).silent ∨ id ≠ ⟨s.nextId⟩ then [] else [startEvent s name options] := by
  have htask : taskOf (startEvent s name options) = some ⟨s.nextId⟩ := rfl
  rw [reportsAbout_of_append (startTask_reports s name options)]
  congr 1
  by_cases hid : id = ⟨s.nextId⟩
  · cases (newTask s name options).silent <;> simp [hid, htask]
  · have hne : ¬(⟨s.nextId⟩ : TaskId) = id := fun heq => hid heq.symm
    cases (newTask s name options).silent <;> simp [hid, hne, htask]

lemma Settles.reportsAbout {s s' : Session} {t : Task} {outcome : Except String Json}
    (h : Settles s t outcome s') (id : TaskId) :
    reportsAbout s' id = reportsAbout s id ++
      if t.silent ∨ id ≠ t.id then [] else [endEvent s t outcome] := by
  rw [reportsAbout_of_append h.reports]
  congr 1
  by_cases hid : id = t.id
  · cases t.silent <;> simp [hid, taskOf_endEvent]
  · have hne : ¬t.id = id := fun heq => hid heq.symm
    cases t.silent <;> simp [hid, hne, taskOf_endEvent]

lemma reportsAbout_output {s : Session} {id : TaskId} {t : Task} (ht : s.task? id = some t)
    (line : String) (isError : Bool) (other : TaskId) :
    reportsAbout (s.report (.output (s.snapshot t .running) line isError)) other =
      reportsAbout s other ++
        if other = id then [.output (s.snapshot t .running) line isError] else [] := by
  have htask : taskOf (.output (s.snapshot t .running) line isError) = some id := by
    rw [← task?_id ht]
    rfl
  rw [reportsAbout_of_append (reports_report s _)]
  by_cases hother : other = id
  · simp [hother, htask]
  · have hne : ¬id = other := fun heq => hother heq.symm
    simp [hother, hne, htask]

/-! ## Accounts -/

lemma close_getElem? (l : Ledger) (id : TaskId) (closing : Closing) (n : Nat) :
    (l.close id closing).accounts[n]? =
      l.accounts[n]?.map fun a => if id = ⟨n + 1⟩ then a.close closing else a := by
  rw [Ledger.close, List.getElem?_mapIdx]

lemma close_silent (l : Ledger) (id : TaskId) (closing : Closing) :
    (l.close id closing).accounts.map Account.silent = l.accounts.map Account.silent := by
  apply List.ext_getElem?
  intro n
  rw [List.getElem?_map, List.getElem?_map, close_getElem?, Option.map_map]
  congr 1
  funext a
  simp only [Function.comp_apply]
  split <;> rfl

lemma close_of_closed {a : Account} (h : a.closing.isSome) (closing : Closing) :
    a.close closing = a := by
  obtain ⟨c, hc⟩ := Option.isSome_iff_exists.mp h
  cases a
  simp_all [Account.close]

/-- A session does what its ledger notes. -/
structure Follows (s : Session) (l : Ledger) : Prop where
  consistent : Consistent s
  switches : s.switches = l.switches
  silent : s.tasks.map Task.silent = l.accounts.map Account.silent
  closed : s.tasks.map (·.settlement.isSome) = l.accounts.map (·.closing.isSome)
  reports : ∀ (n : Nat) (a : Account), l.accounts[n]? = some a → Reported a (reportsAbout s ⟨n + 1⟩)
  unknown : ∀ id : TaskId, id.number = 0 ∨ l.accounts.length < id.number → reportsAbout s id = []

lemma follows_sessionWith (switches : Switches) : Follows (sessionWith switches) (ledgerWith switches) :=
  ⟨consistent_sessionWith switches, rfl, rfl, rfl, by simp [ledgerWith], fun _ _ => rfl⟩

namespace Follows

variable {s s' : Session} {l : Ledger} (h : Follows s l)
include h

lemma length : s.tasks.length = l.accounts.length := by
  have hlength := congrArg List.length h.silent
  simpa using hlength

/-- What no account tells leaves the agreement alone. -/
lemma unseen (hc : Consistent s') (hswitches : s'.switches = s.switches)
    (hsilent : s'.tasks.map Task.silent = s.tasks.map Task.silent)
    (hclosed : s'.tasks.map (·.settlement.isSome) = s.tasks.map (·.settlement.isSome))
    (habout : ∀ id, reportsAbout s' id = reportsAbout s id) : Follows s' l := by
  refine ⟨hc, by rw [hswitches, h.switches], by rw [hsilent, h.silent], by rw [hclosed, h.closed], ?_, ?_⟩
  · intro n a ha
    rw [habout]
    exact h.reports n a ha
  · intro id hid
    rw [habout]
    exact h.unknown id hid

lemma startTask (name : String) (options : TaskOptions) :
    Follows (s.startTask name options).1 (l.add name options) := by
  have hnext : s.nextId = l.accounts.length + 1 := by rw [h.consistent.nextId, h.length]
  refine ⟨h.consistent.startTask name options, ?_, ?_, ?_, ?_, ?_⟩
  · rw [startTask_switches, h.switches]
    rfl
  · rw [startTask_tasks, List.map_append, h.silent]
    simp [Ledger.add, newTask, Account.silent, h.switches]
  · rw [startTask_tasks, List.map_append, h.closed]
    simp [Ledger.add, newTask]
  · intro n a ha
    rw [reportsAbout_startTask]
    by_cases hn : n < l.accounts.length
    · have hid : (⟨n + 1⟩ : TaskId) ≠ ⟨s.nextId⟩ := by
        rw [hnext, ne_eq, TaskId.mk.injEq]
        omega
      rw [Ledger.add, List.getElem?_append_left hn] at ha
      rw [if_pos (.inr hid), List.append_nil]
      exact h.reports n a ha
    · rw [Ledger.add, List.getElem?_append_right (Nat.not_lt.mp hn), List.getElem?_singleton] at ha
      split at ha
      · rename_i hlast
        have hnew : n = l.accounts.length := by omega
        cases ha
        rw [h.unknown ⟨n + 1⟩ (.inr (by rw [hnew]; exact Nat.lt_succ_self _)), List.nil_append, hnext,
          hnew]
        simp only [ne_eq, not_true_eq_false, or_false, Reported, newTask, Account.silent, h.switches]
        split
        · rfl
        · exact protocol_start _
      · cases ha
  · intro id hid
    have hlength : (l.add name options).accounts.length = l.accounts.length + 1 := by
      simp [Ledger.add]
    rw [hlength] at hid
    have hne : id ≠ ⟨s.nextId⟩ := by
      rintro rfl
      rw [hnext] at hid
      simp only at hid
      omega
    rw [reportsAbout_startTask, if_pos (.inr hne), List.append_nil]
    exact h.unknown id (by omega)

lemma task_of_account {n : Nat} {a : Account} (ha : l.accounts[n]? = some a) :
    ∃ t, s.tasks[n]? = some t ∧ s.task? ⟨n + 1⟩ = some t ∧ t.id = ⟨n + 1⟩ ∧ t.silent = a.silent ∧
      t.settlement.isSome = a.closing.isSome := by
  have hn : n < s.tasks.length := by
    rw [h.length]
    exact (List.getElem?_eq_some_iff.mp ha).1
  have ht : s.tasks[n]? = some s.tasks[n] := List.getElem?_eq_getElem hn
  have hsilent := congrArg (·[n]?) h.silent
  have hclosed := congrArg (·[n]?) h.closed
  simp only [List.getElem?_map, ht, ha, Option.map_some, Option.some.injEq] at hsilent hclosed
  exact ⟨s.tasks[n], ht, by simp [h.consistent.task?_eq, ht], h.consistent.ids n _ ht,
    hsilent, hclosed⟩

lemma ne_of_unknown {id other : TaskId} {t : Task} (ht : s.task? id = some t)
    (hother : other.number = 0 ∨ l.accounts.length < other.number) : other ≠ id := by
  rintro rfl
  have hbound := h.consistent.number_of_task? ht
  rw [← h.length] at hother
  omega

/-- A settlement that changes nothing is noted as nothing. -/
lemma close_same (id : TaskId) (closing : Closing)
    (hsettled : ∀ t, s.task? id = some t → t.settlement.isSome) : l.close id closing = l := by
  have haccounts : (l.close id closing).accounts = l.accounts := by
    apply List.ext_getElem?
    intro n
    rw [close_getElem?]
    cases ha : l.accounts[n]? with
    | none => rfl
    | some a =>
      rw [Option.map_some, Option.some.injEq]
      split
      · rename_i hid
        obtain ⟨t, -, ht, -, -, hclosed⟩ := h.task_of_account ha
        rw [hid] at hsettled
        exact close_of_closed (hclosed ▸ hsettled t ht) closing
      · rfl
  cases l
  simpa [Ledger.close] using haccounts

/-- Recording the result of a task closes its account and no other. -/
lemma closed_recorded (t : Task) (closing : Closing) :
    (recorded s t closing.outcome).tasks.map (·.settlement.isSome) =
      (l.close t.id closing).accounts.map (·.closing.isSome) := by
  apply List.ext_getElem?
  intro n
  rw [List.getElem?_map, List.getElem?_map, close_getElem?]
  simp only [recorded, Session.updateTask, List.getElem?_map]
  cases ha : l.accounts[n]? with
  | none =>
    have hnone : s.tasks[n]? = none := by
      rw [List.getElem?_eq_none_iff, h.length]
      exact List.getElem?_eq_none_iff.mp ha
    rw [hnone]
    rfl
  | some a =>
    obtain ⟨u, hu, -, huid, -, hclosed⟩ := h.task_of_account ha
    rw [hu]
    simp only [Option.map_some, huid, beq_iff_eq, Option.some.injEq]
    by_cases hnumber : t.id = ⟨n + 1⟩
    · simp [hnumber, Account.close]
    · have hne : ¬(⟨n + 1⟩ : TaskId) = t.id := fun heq => hnumber heq.symm
      rw [if_neg hnumber, if_neg hne]
      exact hclosed

lemma settle_running {id : TaskId} {t : Task} (closing : Closing) (ht : s.task? id = some t)
    (hn : t.settlement = none) (hs : Settles s t closing.outcome s') :
    Follows s' (l.close id closing) := by
  have hid : t.id = id := task?_id ht
  have hlength : (l.close id closing).accounts.length = l.accounts.length := close_length l id closing
  refine ⟨h.consistent.settle_running _ hs, by rw [hs.switches, h.switches]; rfl, ?_, ?_, ?_, ?_⟩
  · rw [hs.tasks, close_silent, ← h.silent]
    exact map_updateTask s Task.silent t.id fun _ => rfl
  · rw [hs.tasks, ← hid]
    exact h.closed_recorded t closing
  · intro n a' ha'
    rw [close_getElem?] at ha'
    obtain ⟨a, ha, rfl⟩ := Option.map_eq_some_iff.mp ha'
    have hreported := h.reports n a ha
    obtain ⟨u, -, hu, -, hsilent, hclosed⟩ := h.task_of_account ha
    rw [hs.reportsAbout, hid]
    by_cases hnumber : id = ⟨n + 1⟩
    · rw [← hnumber, ht, Option.some.injEq] at hu
      subst hu
      have hopen : a.closing = none := by simpa [hn] using hclosed
      rw [if_pos hnumber, ← hnumber]
      rw [← hnumber] at hreported
      simp only [hsilent, ne_eq, not_true_eq_false, or_false]
      exact hreported.close hopen closing _
    · have hne : (⟨n + 1⟩ : TaskId) ≠ id := fun heq => hnumber heq.symm
      rw [if_neg hnumber, if_pos (.inr hne), List.append_nil]
      exact hreported
  · intro other hother
    rw [hlength] at hother
    rw [hs.reportsAbout, if_pos (.inr (hid ▸ h.ne_of_unknown ht hother)), List.append_nil]
    exact h.unknown other hother

lemma settle (id : TaskId) (closing : Closing) :
    Follows (s.settle id closing.outcome closing.mayExit).1 (l.close id closing) := by
  refine settle_cases (P := fun s' => Follows s' (l.close id closing)) id closing.outcome
    closing.mayExit ?_ ?_
  · intro hsettled
    rw [h.close_same id closing hsettled]
    exact h
  · intro t s' ht hn hs
    exact h.settle_running closing ht hn hs

lemma output (id : TaskId) (line : String) (isError : Bool) :
    Follows (s.output id line isError) l := by
  refine output_cases (P := fun s' => Follows s' l) id line isError h ?_
  intro t ht hs
  have habout := reportsAbout_output ht line isError
  refine ⟨h.consistent.same_tasks rfl rfl rfl, h.switches, h.silent, h.closed, ?_, ?_⟩
  · intro n a ha
    have hreported := h.reports n a ha
    rw [habout]
    by_cases hnumber : (⟨n + 1⟩ : TaskId) = id
    · obtain ⟨u, -, hu, -, hsilent, -⟩ := h.task_of_account ha
      rw [hnumber, ht, Option.some.injEq] at hu
      subst hu
      have hloud : ¬a.silent = true := by rw [← hsilent, hs]; exact Bool.false_ne_true
      rw [Reported, if_neg hloud] at hreported ⊢
      rw [if_pos hnumber]
      exact hreported.output _ line isError
    · rw [if_neg hnumber, List.append_nil]
      exact hreported
  · intro other hother
    rw [habout, if_neg (h.ne_of_unknown ht hother), List.append_nil]
    exact h.unknown other hother

lemma updateTask (id : TaskId) (change : Task → Task) (hid : ∀ t, (change t).id = t.id)
    (hsilent : ∀ t, (change t).silent = t.silent)
    (hsettlement : ∀ t, (change t).settlement = t.settlement) :
    Follows (s.updateTask id change) l := by
  refine h.unseen (h.consistent.updateTask id change hid hsettlement) rfl ?_ ?_ fun _ => rfl
  · exact map_updateTask s Task.silent id hsilent
  · exact map_updateTask s (·.settlement.isSome) id fun t => by rw [hsettlement t]

end Follows

lemma follows_simulation : Simulation Follows where
  nextId := fun h => by rw [h.consistent.nextId, h.length]
  startTask := fun name options h => h.startTask name options
  settle := fun id closing h => h.settle id closing
  output := fun id line isError h => h.output id line isError
  setExitCode := fun id _ h => h.updateTask id _ (fun _ => rfl) (fun _ => rfl) (fun _ => rfl)
  setStatusCode := fun id _ h => h.updateTask id _ (fun _ => rfl) (fun _ => rfl) (fun _ => rfl)
  setSwitches := fun _ h =>
    ⟨h.consistent.same_tasks rfl rfl rfl, rfl, h.silent, h.closed, h.reports, h.unknown⟩
  setListening := fun _ h => h.unseen (h.consistent.same_tasks rfl rfl rfl) rfl rfl rfl fun _ => rfl
  say := fun {s _} message loud h =>
    h.unseen (h.consistent.same_tasks rfl rfl rfl) rfl rfl rfl fun id =>
      (reportsAbout_of_append (reports_report s (.say message loud)) id).trans (List.append_nil _)
  print := fun {s _} channel text h =>
    h.unseen (h.consistent.same_tasks rfl rfl rfl) rfl rfl rfl fun _ => by
      rw [reportsAbout, reports_print, reportsAbout]
  exit := fun {s _} code h =>
    h.unseen (h.consistent.same_tasks rfl rfl rfl) rfl rfl rfl fun _ => by
      rw [reportsAbout, reports_exit, reportsAbout]

/-- The reports about each task, after any actions, are those that its account calls for: none for a
silent task; for any other one a start before everything else, and one end if and only if the task was
closed, which tells how. No report is about a task that was never begun. -/
theorem reports_follow_protocol (switches : Switches) (actions : List Action) :
    let s := performAll actions (sessionWith switches)
    let l := recordAll actions (ledgerWith switches)
    s.tasks.map (fun t => t.id.number) = List.range' 1 l.accounts.length ∧
    (∀ (n : Nat) (a : Account), l.accounts[n]? = some a → Reported a (reportsAbout s ⟨n + 1⟩)) ∧
    ∀ e ∈ s.reports, ∀ id, taskOf e = some id → 1 ≤ id.number ∧ id.number ≤ l.accounts.length := by
  intro s l
  have h : Follows s l := follows_simulation.performAll actions (follows_sessionWith switches)
  refine ⟨?_, h.reports, ?_⟩
  · rw [h.consistent.map_number, h.length]
  · intro e he id hid
    by_contra hrange
    have hnone := h.unknown id (by omega)
    rw [reportsAbout, List.filter_eq_nil_iff] at hnone
    exact hnone e he (by rw [hid]; exact beq_self_eq_true _)

end TaskRunner.Proofs
