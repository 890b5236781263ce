import TaskRunner.Proofs.CapturedSwitches

/-!
# Output and the end of a task

A line that a task prints is reported behind the start of the task, whenever it is asked for. It is reported
before the end of the task if and only if it is asked for before the task is closed: a closed task still takes
lines, and they are reported as well.
-/

namespace TaskRunner.Proofs
open Session

/-- Whether a report is about a line of output. -/
def isOutput : Event → Bool
  | .output _ _ _ => true
  | _ => false

/-- A report of a kind about a task stands at a place among all reports. -/
def ReportedAt (s : Session) (id : TaskId) (kind : Event → Bool) (place : Nat) : Prop :=
  ∃ e, s.reports[place]? = some e ∧ taskOf e = some id ∧ kind e = true

/-- Whether the report says that the task ended. -/
def Mark.isEnd : Mark → Bool
  | .finish | .failure _ => true
  | .start | .line _ _ => false

/-- Whether the report says what the task printed. -/
def Mark.isLine : Mark → Bool
  | .line _ _ => true
  | .start | .finish | .failure _ => false

/-- Whether the call closes the task. -/
def Call.isClosing : Call → Bool
  | .close _ => true
  | .output _ _ => false

/-- Whether the call asks for a line of output. -/
def Call.isOutput : Call → Bool
  | .output _ _ => true
  | .close _ => false

/-- No line is asked for behind a closing. -/
def PrintsInTime (calls : List Call) : Prop :=
  calls.Pairwise fun call later => call.isClosing = true → later.isOutput = false

instance (calls : List Call) : Decidable (PrintsInTime calls) :=
  inferInstanceAs (Decidable (calls.Pairwise _))

/-- No line is reported behind an end. -/
def EndsLast (marks : List Mark) : Prop :=
  marks.Pairwise fun mark later => mark.isEnd = true → later.isLine = false

variable {s : Session} {id : TaskId}

/-! ## What calls make the reports say -/

lemma isEnd_mark (closing : Closing) : closing.mark.isEnd = true := by
  unfold Closing.mark
  cases closing.outcome <;> rfl

/-- What is asked of a closed task is reported if and only if it is a line. -/
lemma marksOf_closed (calls : List Call) :
    (∀ mark ∈ marksOf false calls, mark.isEnd = false) ∧
      ((∀ mark ∈ marksOf false calls, mark.isLine = false) ↔
        ∀ call ∈ calls, call.isOutput = false) := by
  induction calls with
  | nil => simp [marksOf]
  | cons call rest ih =>
    cases call with
    | output line isError => simpa [marksOf, Mark.isEnd, Mark.isLine, Call.isOutput] using ih.1
    | close closing => simpa [marksOf, Call.isOutput] using ih

/-- The end of a running task is its last mark if and only if no line is asked for behind a closing. -/
lemma endsLast_marksOf_iff (calls : List Call) : EndsLast (marksOf true calls) ↔ PrintsInTime calls := by
  induction calls with
  | nil => simp [marksOf, EndsLast, PrintsInTime]
  | cons call rest ih =>
    cases call with
    | output line isError =>
      rw [marksOf, EndsLast, PrintsInTime, List.pairwise_cons, List.pairwise_cons]
      refine (and_iff_right fun _ _ hend => ?_).trans (ih.trans (and_iff_right fun _ _ hclosing => ?_).symm)
      · cases hend
      · cases hclosing
    | close closing =>
      obtain ⟨hends, hlines⟩ := marksOf_closed rest
      rw [marksOf, EndsLast, PrintsInTime, List.pairwise_cons, List.pairwise_cons]
      simp only [isEnd_mark, Call.isClosing, true_imp_iff, hlines]
      -- Behind the first closing nothing ends the task, and a line behind a later closing is behind the first.
      refine and_congr_right fun hquiet => iff_of_true ?_ ?_
      · exact List.pairwise_of_forall_mem_list fun mark hmark _ _ hend =>
          absurd hend (by rw [hends mark hmark]; exact Bool.false_ne_true)
      · exact List.pairwise_of_forall_mem_list fun _ _ later hlater _ => hquiet later hlater

/-! ## Places among all reports -/

lemma isEnd_of_markOf {e : Event} {mark : Mark} (h : markOf e = some mark) : isEnd e = mark.isEnd := by
  cases e <;> cases h <;> rfl

lemma isOutput_of_markOf {e : Event} {mark : Mark} (h : markOf e = some mark) :
    isOutput e = mark.isLine := by
  cases e <;> cases h <;> rfl

lemma markOf_isSome {e : Event} {id : TaskId} (h : taskOf e = some id) : ∃ mark, markOf e = some mark := by
  cases e with
  | say message loud => cases h
  | _ => exact ⟨_, rfl⟩

/-- Among all reports the lines of a task stand before its end if and only if they do so among its own. -/
lemma lines_before_end_iff :
    (∀ i j, ReportedAt s id isOutput i → ReportedAt s id isEnd j → i < j) ↔
      EndsLast (marksAbout s id) := by
  rw [EndsLast, marksAbout, reportsAbout, List.pairwise_filterMap, List.pairwise_filter,
    List.pairwise_iff_getElem]
  constructor
  · intro h i j hi hj hij htask htask' mark hmark mark' hmark' hend
    by_contra hline
    rw [beq_iff_eq] at htask htask'
    rw [← isEnd_of_markOf hmark] at hend
    rw [← isOutput_of_markOf hmark', Bool.not_eq_false] at hline
    have hlt := h j i ⟨_, List.getElem?_eq_getElem hj, htask', hline⟩
      ⟨_, List.getElem?_eq_getElem hi, htask, hend⟩
    omega
  · rintro h i j ⟨e, hi, htask, hline⟩ ⟨e', hj, htask', hend⟩
    obtain ⟨hlti, rfl⟩ := List.getElem?_eq_some_iff.mp hi
    obtain ⟨hltj, rfl⟩ := List.getElem?_eq_some_iff.mp hj
    obtain ⟨mark, hmark⟩ := markOf_isSome htask
    obtain ⟨mark', hmark'⟩ := markOf_isSome htask'
    rw [isOutput_of_markOf hmark] at hline
    rw [isEnd_of_markOf hmark'] at hend
    rcases Nat.lt_trichotomy i j with hlt | rfl | hlt
    · exact hlt
    · rw [hmark, Option.some.injEq] at hmark'
      subst hmark'
      cases mark with
      | line line isError => cases hend
      | start | finish | failure _ => cases hline
    · have hquiet := h j i hltj hlti hlt (beq_iff_eq.mpr htask') (beq_iff_eq.mpr htask) mark' hmark' mark
        hmark hend
      rw [hline] at hquiet
      cases hquiet

/-- If the reports about a task begin with its start, then its lines stand behind that. -/
lemma line_behind_start {snapshot : Snapshot} {rest : List Event}
    (h : reportsAbout s id = .start snapshot :: rest) {i : Nat} (hi : ReportedAt s id isOutput i) :
    ∃ j < i, ReportedAt s id isStart j := by
  obtain ⟨front, back, hreports, hfront, htask, -⟩ := List.filter_eq_cons_iff.mp h
  obtain ⟨e, he, hid, hline⟩ := hi
  have hplace : s.reports[front.length]? = some (.start snapshot) := by
    rw [hreports, List.getElem?_append_right (Nat.le_refl _), Nat.sub_self]
    rfl
  refine ⟨front.length, ?_, .start snapshot, hplace, beq_iff_eq.mp htask, rfl⟩
  by_contra hle
  rcases Nat.eq_or_lt_of_le (Nat.not_lt.mp hle) with heq | hlt
  · rw [heq, hplace, Option.some.injEq] at he
    subst he
    cases hline
  · rw [hreports, List.getElem?_append_left hlt] at he
    exact hfront e (List.mem_of_getElem? he) (beq_iff_eq.mpr hid)

/-- Of a run with a task that begins at some point: every line that the task prints is reported behind its
start; and all its lines are reported before its end if and only if, after its begin, no line is asked for
behind a closing of the task. -/
theorem lines_before_end_iff_in_time (switches : Switches) (before : List Step) (name : String)
    (options : TaskOptions) (after : List Step) :
    let start := sessionWith switches
    let s := performSteps before start
    let id : TaskId := ⟨s.nextId⟩
    let run := performSteps (before ++ .begin name options :: after) start
    (∀ actions, performAll actions start = performSteps (stepsOfAll 1 actions) start) ∧
    (∀ i, ReportedAt run id isOutput i → ∃ j < i, ReportedAt run id isStart j) ∧
    ((options.silent || s.switches.silent) = false →
      ((∀ i j, ReportedAt run id isOutput i → ReportedAt run id isEnd j → i < j) ↔
        PrintsInTime (callsOn id after))) := by
  intro start s id run
  have h : Answers s (recordSteps before (ledgerWith switches)) := answers_performSteps switches before
  have hbegun := answers_simulation.step (.begin name options) h
  obtain ⟨n, hnext, ha, hmarks⟩ := h.begun name options
  have hid : id = ⟨n + 1⟩ := congrArg TaskId.mk hnext
  have hrun : run = performSteps after ((Step.begin name options).perform s) := by
    rw [show run = _ from performSteps_append before _ start, performSteps_cons]
  refine ⟨fun actions => performAll_eq_steps actions start, ?_, ?_⟩
  · intro i hi
    have hfollows := (answers_simulation.steps after hbegun).follows
    have hreported := hfollows.reports n _ (recordSteps_account ha after)
    rw [hrun, hid] at hi ⊢
    rw [Reported] at hreported
    split at hreported
    · -- A silent task has no reports, so it has no line either.
      obtain ⟨e, he, htask, -⟩ := hi
      rw [reportsAbout, List.filter_eq_nil_iff] at hreported
      exact absurd (beq_iff_eq.mpr htask) (hreported e (List.mem_of_getElem? he))
    · obtain ⟨snapshot, rest, hstart, -⟩ := hreported.start
      exact line_behind_start hstart hi
  · intro hloud
    have hsay : marksAbout run id = .start :: marksOf true (callsOn id after) := by
      have hsilent : Account.silent ⟨name, options, s.switches, none⟩ = false := hloud
      rw [hrun, hid, hbegun.marks_steps ha, hmarks, hloud, hsilent]
      rfl
    rw [lines_before_end_iff, hsay, EndsLast, List.pairwise_cons]
    exact (and_iff_right fun _ _ hend => by cases hend).trans (endsLast_marksOf_iff _)

/-- While another task ends, a task prints a line and then fails: its line comes before its end. -/
theorem lines_before_end_iff_in_time_deploying :
    let before : List Step := [.begin "build" (.ofKind .exec)]
    let after : List Step := [.output ⟨1⟩ "compiling" false, .output ⟨2⟩ "connecting" false,
      .close ⟨1⟩ (.completed (.ok .null)), .close ⟨2⟩ (.completed (.error "unreachable"))]
    let run := performSteps (before ++ .begin "deploy" (.ofKind .task) :: after) (sessionWith .off)
    ((TaskOptions.ofKind .task).silent || (performSteps before (sessionWith .off)).switches.silent) = false ∧
    ∀ i j, ReportedAt run ⟨2⟩ isOutput i → ReportedAt run ⟨2⟩ isEnd j → i < j := by
  intro before after run
  obtain ⟨-, -, hiff⟩ := lines_before_end_iff_in_time .off before "deploy" (.ofKind .task) after
  exact ⟨rfl, (hiff rfl).mpr (by decide)⟩

/-- A line that is asked for behind the end of a task is reported behind it. -/
theorem late_line_follows_end :
    let run := performSteps [.begin "build" (.ofKind .task), .close ⟨1⟩ (.completed (.ok .null)),
      .output ⟨1⟩ "late" false] (sessionWith .off)
    ¬ ∀ i j, ReportedAt run ⟨1⟩ isOutput i → ReportedAt run ⟨1⟩ isEnd j → i < j := by
  intro run h
  have hend : ReportedAt run ⟨1⟩ isEnd 1 := ⟨_, rfl, rfl, rfl⟩
  have hline : ReportedAt run ⟨1⟩ isOutput 2 := ⟨_, rfl, rfl, rfl⟩
  exact absurd (h 2 1 hline hend) (by decide)

end TaskRunner.Proofs
