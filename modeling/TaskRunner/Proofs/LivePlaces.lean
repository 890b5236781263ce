import Mathlib.Data.List.Induction
import Mathlib.Data.Finset.Card
import TaskRunner.Proofs.SettledOutcomes

/-!
# Places among the live tasks

A report shows the place of its task among the tasks that are live when the report is made, if these are two or
more. Which tasks are live can be read off what was asked so far: they were begun and not closed yet. A task is
live already when its start is reported and still live when its end is; a line that is printed later on is
reported without a place.

Tasks may also be added and taken out in any order, and also those that are live already or that nobody knows.
A task is live if it was added and not taken out since, and the live tasks stand in the order in which they
came in for the last time. So their markers are the numbers from one on, each shown once, as soon as there
are two of them.
-/

namespace TaskRunner.Proofs
open Session

/-- The tasks that were begun and are not closed, in order of creation. -/
def Ledger.openTasks (l : Ledger) : List TaskId :=
  ((List.range l.accounts.length).filter fun n => l.accounts[n]?.any (·.closing.isNone)).map
    fun n => ⟨n + 1⟩

/-- What a report shows for the place of a task among live tasks: nothing if there is at most one of them, or
if the task is none of them, and otherwise the place, counted from one. -/
structure ShowsPlace (live : List TaskId) (id : TaskId) (tag : String) : Prop where
  alone : live.length < 2 → tag = ""
  place : 2 ≤ live.length → ∀ n, live[n]? = some id → tag = "❰" ++ toString (n + 1) ++ "❱"
  absent : id ∉ live → tag = ""

/-- The step makes the report, and the report shows the place of its task at this moment. A start counts the
new task as the last live one. -/
def ReportsPlace (l : Ledger) (step : Step) : Event → Prop
  | .start t => (∃ name options, step = .begin name options) ∧ t.id ∉ l.openTasks ∧
    ShowsPlace (l.openTasks ++ [t.id]) t.id t.tag
  | .finish t | .error t _ => (∃ closing, step = .close t.id closing) ∧ t.id ∈ l.openTasks ∧
    ShowsPlace l.openTasks t.id t.tag
  | .output t line isError => step = .output t.id line isError ∧ ShowsPlace l.openTasks t.id t.tag
  | .say message loud => step = .say message loud

variable {s : Session} {l : Ledger}

/-! ## Live tasks -/

/-- What a filter keeps of a list, told by places. -/
lemma map_filter_eq_places {α β : Type} (items : List α) (p : α → Bool) (f : α → β) (g : Nat → β)
    (h : ∀ n a, items[n]? = some a → f a = g n) :
    (items.filter p).map f =
      ((List.range items.length).filter fun n => items[n]?.any p).map g := by
  induction items using List.reverseRecOn with
  | nil => rfl
  | append_singleton items a ih =>
    have hfront : ∀ n < items.length, (items ++ [a])[n]? = items[n]? :=
      fun n hn => List.getElem?_append_left hn
    have hlast : (items ++ [a])[items.length]? = some a := List.getElem?_concat_length
    have hitems := ih fun n b hb => h n b (by
      rw [hfront n (List.getElem?_eq_some_iff.mp hb).1, hb])
    have hcongr : ((List.range items.length).filter fun n => (items ++ [a])[n]?.any p) =
        (List.range items.length).filter fun n => items[n]?.any p := by
      apply List.filter_congr
      intro n hn
      rw [hfront n (List.mem_range.mp hn)]
    rw [List.filter_append, List.map_append, hitems, List.length_append, List.length_singleton,
      List.range_succ, List.filter_append, List.map_append, hcongr]
    congr 1
    by_cases hp : p a
    · simp [hp, h _ a hlast]
    · simp [hp]

lemma Follows.live_ids (h : Follows s l) : s.live.ids = l.openTasks := by
  rw [h.consistent.live, map_filter_eq_places s.tasks _ Task.id (fun n => ⟨n + 1⟩) h.consistent.ids,
    Ledger.openTasks, h.length]
  congr 1
  apply List.filter_congr
  intro n _
  have hclosed := congrArg (·[n]?) h.closed
  simp only [List.getElem?_map] at hclosed
  cases ht : s.tasks[n]? <;> cases ha : l.accounts[n]? <;> rw [ht, ha] at hclosed <;>
    simp_all [← Option.not_isSome]

lemma Follows.next_not_open (h : Follows s l) : (⟨s.nextId⟩ : TaskId) ∉ l.openTasks := by
  rw [Ledger.openTasks, List.mem_map]
  rintro ⟨n, hn, hid⟩
  have hlt := List.mem_range.mp (List.mem_of_mem_filter hn)
  rw [h.consistent.nextId, h.length, TaskId.mk.injEq] at hid
  omega

lemma Follows.running_open (h : Follows s l) {id : TaskId} {t : Task} (ht : s.task? id = some t)
    (hn : t.settlement = none) : id ∈ l.openTasks := by
  rw [← h.live_ids, h.consistent.live, List.mem_map]
  exact ⟨t, List.mem_filter.mpr ⟨List.mem_of_find?_eq_some ht, by rw [hn]; rfl⟩, task?_id ht⟩

/-- Live tasks are tagged with their places. -/
lemma showsPlace_tag (live : LiveTasks) (hnodup : live.ids.Nodup) (id : TaskId) :
    ShowsPlace live.ids id (live.tag id) := by
  refine ⟨?_, ?_, ?_⟩
  · intro halone
    exact if_pos halone
  · intro hmany n hn
    obtain ⟨hlt, hid⟩ := List.getElem?_eq_some_iff.mp hn
    have hfound : live.ids.idxOf? id = some n := by
      rw [List.idxOf?_eq_some_iff]
      refine ⟨hlt, hid, fun m hm hsame => ?_⟩
      have heq : m = n := hnodup.getElem_inj_iff.mp (hsame.trans hid.symm)
      omega
    rw [LiveTasks.tag, LiveTasks.place?, hfound]
    exact if_neg (Nat.not_lt.mpr hmany)
  · intro habsent
    have hnone : live.ids.idxOf? id = none := List.idxOf?_eq_none_iff.mpr habsent
    rw [LiveTasks.tag, LiveTasks.place?, hnone, Option.map_none, ite_self]

lemma Follows.showsPlace (h : Follows s l) (id : TaskId) : ShowsPlace l.openTasks id (s.live.tag id) := by
  rw [← h.live_ids]
  exact showsPlace_tag s.live h.consistent.nodup_live id

/-! ## What one step reports -/

/-- The step makes at most one report, which shows the place of its task. -/
structure MakesReports (l : Ledger) (step : Step) (s s' : Session) (events : List Event) : Prop where
  reports : s'.reports = s.reports ++ events
  single : events.length ≤ 1
  placed : ∀ e ∈ events, ReportsPlace l step e

lemma makes_none {step : Step} {s' : Session} (h : s'.reports = s.reports) :
    ∃ events, MakesReports l step s s' events :=
  ⟨[], by rw [h, List.append_nil], Nat.zero_le _, by simp⟩

lemma makes_one {step : Step} {s' : Session} {e : Event} (h : s'.reports = s.reports ++ [e])
    (hplaced : ReportsPlace l step e) : ∃ events, MakesReports l step s s' events :=
  ⟨[e], h, Nat.le_refl _, by simpa using hplaced⟩

lemma Follows.begin_reports (h : Follows s l) (name : String) (options : TaskOptions) :
    ∃ events, MakesReports l (.begin name options) s (s.startTask name options).1 events := by
  have hreports := startTask_reports s name options
  by_cases hsilent : (newTask s name options).silent = true
  · rw [if_pos hsilent, List.append_nil] at hreports
    exact makes_none hreports
  · rw [if_neg hsilent] at hreports
    have hids : (s.live.insert ⟨s.nextId⟩).ids = l.openTasks ++ [⟨s.nextId⟩] := by
      rw [LiveTasks.insert, if_neg (by simpa [h.live_ids] using h.next_not_open), h.live_ids]
    have hshows := showsPlace_tag _ (h.startTask name options).consistent.nodup_live ⟨s.nextId⟩
    rw [startTask_live, hids] at hshows
    exact makes_one hreports ⟨⟨name, options, rfl⟩, h.next_not_open, hshows⟩

lemma Follows.close_reports (h : Follows s l) (id : TaskId) (closing : Closing) :
    ∃ events, MakesReports l (.close id closing) s
      (s.settle id closing.outcome closing.mayExit).1 events := by
  refine settle_cases (P := fun s' => ∃ events, MakesReports l (.close id closing) s s' events) id
    closing.outcome closing.mayExit (fun _ => makes_none rfl) fun t s' ht hn hs => ?_
  have hreports := hs.reports
  by_cases hsilent : t.silent = true
  · rw [if_pos hsilent, List.append_nil] at hreports
    exact makes_none hreports
  · rw [if_neg hsilent] at hreports
    refine makes_one hreports ?_
    have hopen := h.running_open ht hn
    have hid := task?_id ht
    subst hid
    -- Recording the result leaves the live tasks alone, so the task that ends still has its place.
    rw [endEvent]
    cases closing.outcome with
    | ok value => exact ⟨⟨closing, rfl⟩, hopen, h.showsPlace t.id⟩
    | error message => exact ⟨⟨closing, rfl⟩, hopen, h.showsPlace t.id⟩

lemma Follows.output_reports (h : Follows s l) (id : TaskId) (line : String) (isError : Bool) :
    ∃ events, MakesReports l (.output id line isError) s (s.output id line isError) events := by
  refine output_cases (P := fun s' => ∃ events, MakesReports l (.output id line isError) s s' events) id
    line isError (makes_none rfl) fun t ht _ => ?_
  have hid := task?_id ht
  subst hid
  exact makes_one (reports_report s _) ⟨rfl, h.showsPlace t.id⟩

lemma Follows.step_reports (h : Follows s l) (step : Step) :
    ∃ events, MakesReports l step s (step.perform s) events := by
  cases step with
  | begin name options => exact h.begin_reports name options
  | close id closing => exact h.close_reports id closing
  | output id line isError => exact h.output_reports id line isError
  | say message loud => exact makes_one (reports_report s _) rfl
  | exit code => exact makes_none (reports_exit s code)
  | print channel text => exact makes_none (reports_print s channel text)
  | setExitCode id code | setStatusCode id code | setSwitches switches | setListening listening =>
    exact makes_none rfl

/-! ## What a run reports -/

/-- Every report of a run is made by one of its steps, and shows the place of its task at that moment. -/
lemma Follows.placed_steps (h : Follows s l) (steps : List Step) {place : Nat} {e : Event}
    (hnew : s.reports.length ≤ place) (he : (performSteps steps s).reports[place]? = some e) :
    ∃ front step rest, steps = front ++ step :: rest ∧
      (performSteps front s).reports.length = place ∧ ReportsPlace (recordSteps front l) step e := by
  induction steps generalizing s l with
  | nil =>
    rw [performSteps_nil, List.getElem?_eq_none hnew] at he
    cases he
  | cons step rest ih =>
    obtain ⟨events, hmakes⟩ := h.step_reports step
    have hlength := congrArg List.length hmakes.reports
    rw [List.length_append] at hlength
    have hsingle := hmakes.single
    by_cases hlater : (step.perform s).reports.length ≤ place
    · obtain ⟨front, later, back, rfl, hplace, hplaced⟩ :=
        ih (follows_simulation.step step h) hlater he
      exact ⟨step :: front, later, back, rfl, hplace, hplaced⟩
    · -- The step itself makes the report, and what follows only adds to the reports.
      obtain ⟨more, hmore⟩ := reports_steps rest (step.perform s)
      rw [performSteps_cons, ← hmore, List.getElem?_append_left (Nat.not_le.mp hlater), hmakes.reports,
        List.getElem?_append_right hnew] at he
      refine ⟨[], step, rest, rfl, ?_, hmakes.placed e (List.mem_of_getElem? he)⟩
      rw [performSteps_nil]
      omega

/-- Every report of a run is made at some step, and is the next report then; it shows the place of its task
among the tasks that are live at that moment, which are the open ones in order of creation. -/
theorem reports_show_places (switches : Switches) (steps : List Step) :
    let start := sessionWith switches
    (∀ actions, performAll actions start = performSteps (stepsOfAll 1 actions) start) ∧
    ∀ (place : Nat) (e : Event), (performSteps steps start).reports[place]? = some e →
      ∃ front step rest, steps = front ++ step :: rest ∧
        (performSteps front start).reports.length = place ∧
        ReportsPlace (recordSteps front (ledgerWith switches)) step e := by
  intro start
  refine ⟨fun actions => performAll_eq_steps actions start, fun place e he => ?_⟩
  exact (follows_sessionWith switches).placed_steps steps (Nat.zero_le _) he

/-- Of three overlapping tasks, one of them silent, the first one has ended when the last one prints a line:
the line shows the second place. -/
theorem reports_show_places_overlapping :
    let steps : List Step := [.begin "build" (.ofKind .exec), .begin "check" ⟨.fetch, .warn, true⟩,
      .begin "deploy" (.ofKind .task), .close ⟨1⟩ (.completed (.ok .null)),
      .output ⟨3⟩ "connecting" false, .close ⟨2⟩ .dropped, .output ⟨3⟩ "connected" false]
    let line : Event :=
      .output ⟨⟨3⟩, "deploy", .task, "❰2❱", .running, none, none, none⟩ "connecting" false
    (performSteps steps (sessionWith .off)).reports[3]? = some line ∧
    ∃ front step rest, steps = front ++ step :: rest ∧
      (performSteps front (sessionWith .off)).reports.length = 3 ∧
      ReportsPlace (recordSteps front (ledgerWith .off)) step line := by
  intro steps line
  have hline : (performSteps steps (sessionWith .off)).reports[3]? = some line := by decide
  exact ⟨hline, (reports_show_places .off steps).2 3 line hline⟩

/-! ## Live tasks after any calls -/

/-- A call that may change which tasks are live. -/
inductive LiveCall where
  | insert (id : TaskId)
  | remove (id : TaskId)
deriving DecidableEq, Repr

/-- The live tasks behind a call. -/
def LiveCall.perform (l : LiveTasks) : LiveCall → LiveTasks
  | insert id => l.insert id
  | remove id => l.remove id

/-- The live tasks after calls, beginning with none. -/
def liveAfter (calls : List LiveCall) : LiveTasks :=
  calls.foldl LiveCall.perform .empty

/-- The task was added and has not been taken out since. -/
def StaysIn (calls : List LiveCall) (id : TaskId) : Prop :=
  ∃ before behind, calls = before ++ .insert id :: behind ∧ .remove id ∉ behind

/-- The call at a place brought the task in for the last time: the task is added there, was not in before,
and has not been taken out since. To add a task that is in brings nothing in. -/
structure CameIn (calls : List LiveCall) (id : TaskId) (n : Nat) : Prop where
  call : calls[n]? = some (.insert id)
  out : ¬ StaysIn (calls.take n) id
  since : .remove id ∉ calls.drop (n + 1)

variable {calls : List LiveCall} {id other : TaskId} {n : Nat}

lemma liveAfter_concat (calls : List LiveCall) (call : LiveCall) :
    liveAfter (calls ++ [call]) = call.perform (liveAfter calls) := by
  rw [liveAfter, List.foldl_append]
  rfl

/-! ## Who stays in -/

lemma not_staysIn_nil : ¬ StaysIn [] id := by
  rintro ⟨before, behind, h, -⟩
  simp at h

lemma StaysIn.concat {call : LiveCall} (h : StaysIn calls id) (hcall : call ≠ .remove id) :
    StaysIn (calls ++ [call]) id := by
  obtain ⟨before, behind, rfl, hbehind⟩ := h
  refine ⟨before, behind ++ [call], by simp, ?_⟩
  rw [List.mem_append, List.mem_singleton]
  exact not_or.mpr ⟨hbehind, hcall.symm⟩

/-- Who stays in behind one more call was in before, unless the call brought it in. -/
lemma StaysIn.before {call : LiveCall} (h : StaysIn (calls ++ [call]) id) :
    call ≠ .remove id ∧ (call = .insert id ∨ StaysIn calls id) := by
  obtain ⟨before, behind, hsplit, hbehind⟩ := h
  rcases List.eq_nil_or_concat behind with rfl | ⟨front, last, rfl⟩
  · obtain ⟨-, rfl⟩ := List.append_singleton_inj.mp hsplit
    exact ⟨LiveCall.noConfusion, .inl rfl⟩
  · rw [List.concat_eq_append, ← List.cons_append, ← List.append_assoc] at hsplit
    obtain ⟨rfl, rfl⟩ := List.append_singleton_inj.mp hsplit
    rw [List.concat_eq_append, List.mem_append, List.mem_singleton, not_or] at hbehind
    exact ⟨fun hcall => hbehind.2 hcall.symm, .inr ⟨before, front, rfl, hbehind.1⟩⟩

lemma staysIn_insert : StaysIn (calls ++ [.insert id]) other ↔ other = id ∨ StaysIn calls other := by
  constructor
  · intro h
    rcases h.before.2 with hsame | hin
    · exact .inl (LiveCall.insert.inj hsame).symm
    · exact .inr hin
  · rintro (rfl | hin)
    · exact ⟨calls, [], rfl, List.not_mem_nil⟩
    · exact hin.concat LiveCall.noConfusion

lemma staysIn_remove : StaysIn (calls ++ [.remove id]) other ↔ other ≠ id ∧ StaysIn calls other := by
  constructor
  · intro h
    obtain ⟨hne, hsame | hin⟩ := h.before
    · cases hsame
    · exact ⟨fun hsame => hne (hsame ▸ rfl), hin⟩
  · rintro ⟨hne, hin⟩
    exact hin.concat fun hsame => hne (LiveCall.remove.inj hsame).symm

/-! ## When they came in -/

lemma CameIn.lt (h : CameIn calls id n) : n < calls.length :=
  (List.getElem?_eq_some_iff.mp h.call).1

lemma CameIn.concat {call : LiveCall} (h : CameIn calls id n) (hcall : call ≠ .remove id) :
    CameIn (calls ++ [call]) id n := by
  have hlt := h.lt
  refine ⟨?_, ?_, ?_⟩
  · rw [List.getElem?_append_left hlt, h.call]
  · rw [List.take_append_of_le_length (by omega)]
    exact h.out
  · rw [List.drop_append_of_le_length (by omega), List.mem_append, List.mem_singleton]
    exact not_or.mpr ⟨h.since, hcall.symm⟩

lemma cameIn_last (h : ¬ StaysIn calls id) : CameIn (calls ++ [.insert id]) id calls.length := by
  refine ⟨by simp, ?_, ?_⟩
  · rw [List.take_left]
    exact h
  · simp

/-- The tasks are those that stay in, in the order in which they came in for the last time. -/
structure InOrder (calls : List LiveCall) (ids : List TaskId) : Prop where
  mem : ∀ id, id ∈ ids ↔ StaysIn calls id
  places : ∃ place : TaskId → Nat, (∀ id ∈ ids, CameIn calls id (place id)) ∧
    ids.Pairwise fun a b => place a < place b

lemma InOrder.nodup {ids : List TaskId} (h : InOrder calls ids) : ids.Nodup := by
  obtain ⟨place, -, hsorted⟩ := h.places
  refine hsorted.imp fun hlt hsame => ?_
  rw [hsame] at hlt
  exact Nat.lt_irrefl _ hlt

lemma InOrder.insert {l : LiveTasks} (h : InOrder calls l.ids) (id : TaskId) :
    InOrder (calls ++ [.insert id]) (l.insert id).ids := by
  obtain ⟨place, hplace, hsorted⟩ := h.places
  by_cases hin : id ∈ l.ids
  · -- a task that is in keeps its place
    rw [LiveTasks.insert, if_pos (by simpa using hin)]
    refine ⟨fun other => ?_, place, fun other hother => ?_, hsorted⟩
    · rw [h.mem, staysIn_insert]
      refine ⟨.inr, ?_⟩
      rintro (rfl | hother)
      · exact (h.mem _).mp hin
      · exact hother
    · exact (hplace other hother).concat LiveCall.noConfusion
  · rw [LiveTasks.insert, if_neg (by simpa using hin)]
    have hne : ∀ other ∈ l.ids, other ≠ id := fun other hother hsame => hin (hsame ▸ hother)
    refine ⟨fun other => ?_, Function.update place id calls.length, ?_, ?_⟩
    · rw [staysIn_insert, ← h.mem, List.mem_append, List.mem_singleton, or_comm]
    · intro other hother
      rcases List.mem_append.mp hother with hold | hnew
      · rw [Function.update_of_ne (hne other hold)]
        exact (hplace other hold).concat LiveCall.noConfusion
      · rw [List.mem_singleton.mp hnew, Function.update_self]
        exact cameIn_last fun hstays => hin ((h.mem id).mpr hstays)
    · refine List.pairwise_append.mpr ⟨?_, List.pairwise_singleton _ _, ?_⟩
      · refine hsorted.imp_of_mem fun ha hb hlt => ?_
        rwa [Function.update_of_ne (hne _ ha), Function.update_of_ne (hne _ hb)]
      · intro a ha b hb
        rw [List.mem_singleton.mp hb, Function.update_self, Function.update_of_ne (hne a ha)]
        exact (hplace a ha).lt

lemma InOrder.remove {l : LiveTasks} (h : InOrder calls l.ids) (id : TaskId) :
    InOrder (calls ++ [.remove id]) (l.remove id).ids := by
  obtain ⟨place, hplace, hsorted⟩ := h.places
  rw [remove_ids]
  refine ⟨fun other => ?_, place, ?_, hsorted.sublist List.erase_sublist⟩
  · rw [h.nodup.mem_erase_iff, staysIn_remove, h.mem]
  · intro other hother
    obtain ⟨hne, hin⟩ := h.nodup.mem_erase_iff.mp hother
    exact (hplace other hin).concat fun hsame => hne (LiveCall.remove.inj hsame).symm

lemma liveAfter_inOrder (calls : List LiveCall) : InOrder calls (liveAfter calls).ids := by
  induction calls using List.reverseRecOn with
  | nil => exact ⟨fun id => iff_of_false List.not_mem_nil not_staysIn_nil, fun _ => 0, by simp [liveAfter,
      LiveTasks.empty], List.Pairwise.nil⟩
  | append_singleton calls call ih =>
    rw [liveAfter_concat]
    cases call with
    | insert id => exact ih.insert id
    | remove id => exact ih.remove id

/-! ## Markers -/

lemma marker_injective : Function.Injective LiveTasks.marker := by
  intro m n h
  have hchars := congrArg String.toList h
  simp only [LiveTasks.marker, String.toList_append, List.append_assoc, List.append_cancel_left_eq,
    List.append_cancel_right_eq] at hchars
  have hdigits : Nat.toDigits 10 m = Nat.toDigits 10 n := by simpa using hchars
  rw [← Nat.ofDigitChars_ten_toDigits (n := m), hdigits, Nat.ofDigitChars_ten_toDigits]

/-- Two or more live tasks are marked with the numbers from one on, in their order. -/
lemma tags_eq {l : LiveTasks} (hnodup : l.ids.Nodup) (hmany : 2 ≤ l.size) :
    l.ids.map l.tag = (List.range' 1 l.size).map LiveTasks.marker := by
  apply List.ext_getElem
  · simp [LiveTasks.size]
  · intro n hn hn'
    rw [List.length_map] at hn
    rw [List.getElem_map, List.getElem_map, List.getElem_range',
      (showsPlace_tag l hnodup l.ids[n]).place hmany n (List.getElem?_eq_getElem hn), LiveTasks.marker]
    congr 2
    rw [Nat.one_mul, Nat.add_comm]

lemma place?_eq_some_iff {l : LiveTasks} (hnodup : l.ids.Nodup) :
    l.place? id = some n ↔ ∃ k, n = k + 1 ∧ l.ids[k]? = some id := by
  rw [LiveTasks.place?, Option.map_eq_some_iff]
  refine exists_congr fun k => ?_
  rw [and_comm, eq_comm (a := k + 1), List.idxOf?_eq_some_iff]
  refine and_congr_right fun _ => ⟨?_, fun hk => ?_⟩
  · rintro ⟨hk, hid, -⟩
    exact hid ▸ List.getElem?_eq_getElem hk
  · obtain ⟨hlt, hid⟩ := List.getElem?_eq_some_iff.mp hk
    refine ⟨hlt, hid, fun j hj hsame => ?_⟩
    have heq : j = k := hnodup.getElem_inj_iff.mp (hsame.trans hid.symm)
    omega

lemma take_answer (l : LiveTasks) (id : TaskId) : (l.take id).2 = true ↔ id ∈ l.ids := by
  rw [LiveTasks.take]
  cases hfound : l.ids.idxOf? id with
  | none => exact iff_of_false Bool.false_ne_true (List.idxOf?_eq_none_iff.mp hfound)
  | some k =>
    refine iff_of_true rfl ?_
    obtain ⟨hk, hid, -⟩ := List.idxOf?_eq_some_iff.mp hfound
    exact hid ▸ List.getElem_mem hk

/-- After any calls the live tasks are those that were added and not taken out since, each once, in the order
in which they came in for the last time. All questions are answered by this list, and so is taking a task
out. Two or more live tasks have the markers from one on, all different, in their order; nothing marks
a task that is alone or not live. -/
theorem live_tasks_in_order (calls : List LiveCall) :
    (liveAfter calls).ids.Nodup ∧
    (∀ id, id ∈ (liveAfter calls).ids ↔ StaysIn calls id) ∧
    (∃ place : TaskId → Nat, (∀ id ∈ (liveAfter calls).ids, CameIn calls id (place id)) ∧
      (liveAfter calls).ids.Pairwise fun a b => place a < place b) ∧
    (∃ live : Finset TaskId, (∀ id, id ∈ live ↔ StaysIn calls id) ∧ (liveAfter calls).size = live.card) ∧
    (∀ id, (liveAfter calls).contains id = true ↔ StaysIn calls id) ∧
    (∀ id, ((liveAfter calls).take id).2 = true ↔ StaysIn calls id) ∧
    (∀ id n, (liveAfter calls).place? id = some n ↔ ∃ k, n = k + 1 ∧ (liveAfter calls).ids[k]? = some id) ∧
    (2 ≤ (liveAfter calls).size → ((liveAfter calls).ids.map (liveAfter calls).tag).Nodup ∧
      (liveAfter calls).ids.map (liveAfter calls).tag =
        (List.range' 1 (liveAfter calls).size).map LiveTasks.marker) ∧
    (∀ id, (liveAfter calls).size < 2 ∨ ¬ StaysIn calls id → (liveAfter calls).tag id = "") := by
  have horder := liveAfter_inOrder calls
  generalize liveAfter calls = l at horder
  have hnodup := horder.nodup
  refine ⟨hnodup, horder.mem, horder.places, ?_, ?_, ?_, ?_, ?_, ?_⟩
  · refine ⟨l.ids.toFinset, fun id => ?_, (List.toFinset_card_of_nodup hnodup).symm⟩
    rw [List.mem_toFinset, horder.mem]
  · intro id
    rw [LiveTasks.contains, List.contains_iff_mem, horder.mem]
  · intro id
    rw [take_answer, horder.mem]
  · intro id n
    exact place?_eq_some_iff hnodup
  · intro hmany
    have htags := tags_eq hnodup hmany
    exact ⟨htags ▸ List.Nodup.map marker_injective List.nodup_range', htags⟩
  · rintro id (halone | hout)
    · exact (showsPlace_tag l hnodup id).alone halone
    · exact (showsPlace_tag l hnodup id).absent fun hin => hout ((horder.mem id).mp hin)

/-- A task that is live already keeps its place, and one that was taken out comes back as the last one. -/
example : (liveAfter [.insert ⟨4⟩, .insert ⟨9⟩, .insert ⟨4⟩]).ids = [⟨4⟩, ⟨9⟩] ∧
    (liveAfter [.insert ⟨4⟩, .insert ⟨9⟩, .remove ⟨4⟩, .insert ⟨4⟩]).ids = [⟨9⟩, ⟨4⟩] := by
  decide

end TaskRunner.Proofs
