import TaskRunner.Proofs.QuietSteps
import TaskRunner.Proofs.SessionSteps

/-!
# What a script does outside of itself

A step of a running script, or a job that it begins, tells the session something, starts operations, begins
or ends a task, or has the function of a task come to a value; everything else that it does is quiet. Which
of these comes next can be read off the script beforehand.
-/

namespace TaskRunner.Proofs
open Script Machine

/-- Something that a script does, or that is done for it, as others may see it. -/
inductive Deed where
  /-- A report, printed text, a switch or a request to end. -/
  | tell (step : Step)
  /-- An operation is started for an object. -/
  | start (h : Handle) (operation : Ref) (work : Operation) (resolver : Resolver)
  /-- An operation is finished, with whatever reply. -/
  | finish (h : Handle) (reply : Reply)
  /-- A reply is handed to what waits for it. -/
  | deliver (h : Handle) (reply : Reply) (receiver : Option Resolver)
  | beginTask (h : Handle) (id : TaskId) (name : String) (mode : TaskMode)
  /-- The function of a task came to a value: the end of the task waits for a promise of it. -/
  | await (h : Handle) (promise : Ref)
  | endTask (h : Handle) (outcome : Except String Json)
  /-- A member of an object is set by the script. -/
  | assign (r : Ref) (key : String)

/-! ## What comes next -/

/-- What is done to start an operation. -/
def startDeeds (m : Machine) (r : Ref) : List Deed :=
  match m.memory.field? r "_promise", operationOf m.memory r with
  | some (.object _), _ => []
  | _, .error _ => []
  | _, .ok o =>
    [.start (m.host.bridge.lastHandle + 1) r o ⟨m.memory.objects.size, m.memory.objects.size + 1⟩]

/-- What is done to start operations one after the other. -/
def startAllDeeds (m : Machine) : List Ref → List Deed
  | [] => []
  | r :: rest =>
    startDeeds m r ++
      match m.startOperation r with
      | (m, .ok _) => startAllDeeds m rest
      | (_, .error _) => []

/-- What is done to begin a task. -/
def beginDeeds (m : Machine) (mode : TaskMode) (name f : Value) : List Deed :=
  let label := if Memory.isPresent name then m.memory.text name else ""
  let source := if m.memory.isCallable f then m.memory.text f else functionText "fn"
  [.beginTask (m.host.bridge.lastHandle + 1) ⟨m.host.world.session.nextId⟩
    (if Text.isAllBlank label then inferName source else label) mode]

/-- What is done to end a task. -/
def endDeeds (m : Machine) (h : Handle) (outcome : Except String Json) : List Deed :=
  if (m.host.endTask? h outcome).isSome then [.endTask h outcome] else []

/-- What a call of a built-in function does. -/
def callDeeds (m : Machine) (b : Builtin) (receiver : Value) (args : List Value) : List Deed :=
  match b with
  | .say loud => [.tell (.say (messageOf m.memory args) loud)]
  | .log channel => [.tell (.print channel (messageOf m.memory args ++ "\n"))]
  | .turnOn switch => [.tell (.setSwitches (switch.turnOn m.host.world.session.switches))]
  | .exit =>
    [.tell (.exit (match arg args 0 with
      | .undefined => 0
      | v => exitCodeOf (m.memory.number v)))]
  | .startOperation | .operationThen | .operationCatch =>
    match receiver, m.memory.kindOf? receiver with
    | .object r, some (.operation _) => startDeeds m r
    | _, _ => []
  | .parallel => startAllDeeds m (operationsOf m.memory (flattened m.memory args))
  | .task mode =>
    if m.memory.isCallable (arg args 0) then beginDeeds m mode .undefined (arg args 0)
    else beginDeeds m mode (arg args 0) (arg args 1)
  | .runWith => (variablesSet m.memory receiver args).map fun set => .assign set.1 set.2
  | _ => []

/-- What a value does that a frame is handed. -/
def receiveDeeds (m : Machine) (f : Frame) (v : Value) : List Deed :=
  match taskOfFrame f with
  | some task => [.await task (m.promiseOf v).2]
  | none => (frameSets m.memory f v).map fun set => .assign set.1 set.2

/-- What a completion does that reaches a frame. -/
def reachDeeds (m : Machine) (f : Frame) (c : Completion) : List Deed :=
  match taskOfFrame f, c with
  | some task, .thrown v => endDeeds m task (outcomeOf m.memory false v)
  | _, _ => []

/-- What the step of a script does. -/
def stepDeeds (m : Machine) : List Deed :=
  match m.control, m.stack with
  | .call f receiver args, _ =>
    match f with
    | .builtin b => callDeeds m b receiver args
    | _ => []
  | .value v, f :: _ => receiveDeeds m f v
  | .complete c, f :: _ => reachDeeds m f c
  | _, _ => []

/-- What a job does when it begins. -/
def jobDeeds (m : Machine) : Job → List Deed
  | .start r => startDeeds m r
  | .react (.endTask task) _ ok v => endDeeds m task (outcomeOf m.memory ok v)
  | _ => []

/-- What a script does next by itself: a step, or a job when it is idle. -/
def work? (m : Machine) : Option Machine :=
  match m.step? with
  | some m' => some m'
  | none =>
    match m.jobs with
    | j :: rest => some (({ m with jobs := rest }.give .undefined).begin j)
    | [] => none

/-- What is done by what a script does next by itself. -/
def deedsOf (m : Machine) : List Deed :=
  match m.step? with
  | some _ => stepDeeds m
  | none =>
    match m.jobs with
    | j :: _ => jobDeeds m j
    | [] => []

/-! ## What can be done -/

/-- Where a script goes on from: where it is, or without a job that ends no task. -/
inductive Continues (m : Machine) : Machine → Prop where
  | step : Continues m m
  | job {j : Job} {rest : List Job} (hjobs : m.jobs = j :: rest) (hj : OrdinaryJob j) :
    Continues m { m with jobs := rest }
  | resume {frames : List Frame} {derived : Option Ref} {ok : Bool} {v : Value} {rest : List Job}
    (hjobs : m.jobs = .react (.resume frames) derived ok v :: rest) :
    Continues m { m with jobs := rest, stack := frames }

/-- How the outcome of a task's function becomes known: the function throws, or the job for the end of the
task begins. -/
inductive Known (m : Machine) (h : Handle) : Except String Json → Machine → Prop where
  | thrown {v : Value} {mode : TaskMode} {rest : List Frame}
    (hcontrol : m.control = .complete (.thrown v)) (hstack : m.stack = .taskBody h mode :: rest) :
    Known m h (outcomeOf m.memory false v) { m with stack := rest }
  | settled {derived : Option Ref} {ok : Bool} {v : Value} {rest : List Job}
    (hjobs : m.jobs = .react (.endTask h) derived ok v :: rest) :
    Known m h (outcomeOf m.memory ok v) { m with jobs := rest }

/-- Operations are started for objects that keep no promise yet. -/
inductive Starts : Machine → List Deed → Machine → Prop where
  | nil (m : Machine) : Starts m [] m
  | cons {m m' : Machine} {r : Ref} {o : Operation} {deeds : List Deed} (hr : ¬Answered m.memory r)
    (ho : operationOf m.memory r = .ok o) (hrest : Starts (m.launch r o).1 deeds m') :
    Starts m (.start (m.host.bridge.lastHandle + 1) r o
      ⟨m.memory.objects.size, m.memory.objects.size + 1⟩ :: deeds) m'

/-- Whether a step of a session is one that scripts make by themselves. -/
def Told : Step → Prop
  | .say _ _ | .print _ _ | .setSwitches _ | .exit _ => True
  | _ => False

/-- What a script does next, with what others may see of it. -/
inductive Does (m : Machine) : List Deed → Machine → Prop where
  | quiet {m₀ m' : Machine} {sets : List (Ref × String)} (hon : Continues m m₀)
    (hquiet : Quiet (fun r => (r, "_promise") ∉ sets) m₀ m') :
    Does m (sets.map fun set => .assign set.1 set.2) m'
  | tell {m' : Machine} {step : Step} (htold : Told step)
    (hquiet : Quiet (fun _ => True) (m.onHost (·.onSession step.perform)) m') : Does m [.tell step] m'
  | start {m₀ m₁ m₂ m' : Machine} {deeds : List Deed} (hon : Continues m m₀)
    (hbefore : Quiet (fun _ => True) m₀ m₁) (hstarts : Starts m₁ deeds m₂)
    (hquiet : Quiet (fun _ => True) m₂ m') : Does m deeds m'
  | beginTask {m' : Machine} {name source : String} {mode : TaskMode} {host : Host} {task : Handle}
    (hhost : m.host.beginTask name source mode = (host, task))
    (hquiet : Quiet (fun _ => True) ({ m with host }.push (.taskBody task mode)) m') :
    Does m [.beginTask (m.host.bridge.lastHandle + 1) ⟨m.host.world.session.nextId⟩
      (if Text.isAllBlank name then inferName source else name) mode] m'
  | await {m₁ m' : Machine} {v : Value} {task : Handle} {mode : TaskMode} {rest : List Frame}
    {p derived : Ref} (hcontrol : m.control = .value v) (hstack : m.stack = .taskBody task mode :: rest)
    (hp : p = (m.promiseOf v).2) (hbefore : Quiet (fun _ => True) { m with stack := rest } m₁)
    (hpromise : (promiseAt m₁.memory p).isSome)
    (hquiet : Quiet (fun _ => True) (m₁.react p ⟨some derived, .endTask task, .endTask task⟩) m') :
    Does m [.await task p] m'
  | fail {m₀ m' : Machine} {task : Handle} {outcome : Except String Json} (hknown : Known m task outcome m₀)
    (hend : m.host.endTask? task outcome = none) (hquiet : Quiet (fun _ => True) m₀ m') : Does m [] m'
  | endTask {m₀ m' : Machine} {task : Handle} {outcome : Except String Json} {host : Host}
    {result : TaskResult} (hknown : Known m task outcome m₀)
    (hend : m.host.endTask? task outcome = some (host, result))
    (hquiet : Quiet (fun _ => True) { m₀ with host } m') : Does m [.endTask task outcome] m'

variable {safe : Ref → Prop} {m m' : Machine}

lemma Does.silent {m₀ : Machine} (hon : Continues m m₀)
    (hquiet : Quiet (fun r => (r, "_promise") ∉ ([] : List (Ref × String))) m₀ m') : Does m [] m' :=
  .quiet hon hquiet

/-! ## Starting operations -/

lemma starts_one (m : Machine) (r : Ref) : Starts m (startDeeds m r) (m.startOperation r).1 := by
  unfold startDeeds Machine.startOperation
  cases ho : operationOf m.memory r with
  | error message =>
    cases hfield : m.memory.field? r "_promise" with
    | none => exact .nil m
    | some v => cases v <;> exact .nil m
  | ok o =>
    have hone : ¬Answered m.memory r → Starts m [.start (m.host.bridge.lastHandle + 1) r o
        ⟨m.memory.objects.size, m.memory.objects.size + 1⟩] (m.launch r o).1 :=
      fun hr => .cons hr ho (.nil _)
    cases hfield : m.memory.field? r "_promise" with
    | none => exact hone fun ⟨p, hp⟩ => by rw [hfield] at hp; cases hp
    | some v =>
      cases v with
      | object p => exact .nil m
      | _ => exact hone fun ⟨p, hp⟩ => by rw [hfield] at hp; cases hp

lemma Starts.append {m₁ m₂ m₃ : Machine} {deeds more : List Deed} (h : Starts m₁ deeds m₂)
    (h' : Starts m₂ more m₃) : Starts m₁ (deeds ++ more) m₃ := by
  induction h with
  | nil => exact h'
  | cons hr ho _ ih => exact .cons hr ho (ih h')

/-- Where starting operations leads, whether all of them can be started or not. -/
lemma starts_all (m : Machine) (rs : List Ref) :
    ∃ m₁, Starts m (startAllDeeds m rs) m₁ ∧
      match m.startAll rs with
      | .ok m' => m' = m₁
      | .error m' => Quiet (fun _ => True) m₁ m' := by
  induction rs generalizing m with
  | nil => exact ⟨m, .nil m, rfl⟩
  | cons r rest ih =>
    have hone := starts_one m r
    unfold startAllDeeds Machine.startAll
    cases hstart : m.startOperation r with
    | mk m₁ outcome =>
      rw [hstart] at hone
      cases outcome with
      | ok p =>
        obtain ⟨m₂, hrest, hend⟩ := ih m₁
        exact ⟨m₂, hone.append hrest, hend⟩
      | error message =>
        exact ⟨m₁, by simpa using hone, (Quiet.refl m₁).raise _ _⟩

lemma does_start (r : Ref) {next : Machine → Ref → Machine}
    (hnext : ∀ m₁ p, Quiet (fun _ => True) m₁ (next m₁ p)) :
    Does m (startDeeds m r) (match m.startOperation r with
      | (m, .ok p) => next m p
      | (m, .error message) => m.raise .type message) := by
  have hstarts := starts_one m r
  split
  · rename_i m₁ p heq
    rw [heq] at hstarts
    exact .start .step (.refl m) hstarts (hnext m₁ p)
  · rename_i m₁ message heq
    rw [heq] at hstarts
    exact .start .step (.refl m) hstarts ((Quiet.refl m₁).raise _ _)

lemma does_operation (receiver : Value) {act : Ref → Machine}
    (hact : ∀ r, Does m (startDeeds m r) (act r)) :
    Does m
      (match receiver, m.memory.kindOf? receiver with
        | .object r, some (.operation _) => startDeeds m r
        | _, _ => [])
      (match receiver, m.memory.kindOf? receiver with
        | .object r, some (.operation _) => act r
        | _, _ => m.raise .type noFunction) := by
  split
  · exact hact _
  · exact .silent .step ((Quiet.refl m).raise _ _)

/-! ## Tasks -/

lemma does_callTask (m : Machine) (mode : TaskMode) (name f : Value) :
    Does m (beginDeeds m mode name f) (m.callTask mode name f) := by
  have hrest : ∀ m₁ : Machine, Quiet (fun _ => True) m₁
      (if m.memory.isCallable f then m₁.call f .undefined [] else m₁.give f) := by
    intro m₁
    split
    · exact (Quiet.refl m₁).call _ _ _
    · exact (Quiet.refl m₁).give _
  exact .beginTask rfl (hrest _)

/-- A task ends when its outcome is known, unless there is no such task. -/
lemma does_end {m₀ m₁ : Machine} {task : Handle} {outcome : Except String Json}
    {next : Machine → Value → Machine} (hknown : Known m task outcome m₀) (hhost : m₀.host = m.host)
    (hbefore : Quiet (fun _ => True) m₀ m₁)
    (hnext : ∀ (m₂ m₃ : Machine) (v : Value), Quiet (fun _ => True) m₂ m₃ →
      Quiet (fun _ => True) m₂ (next m₃ v)) :
    Does m (endDeeds m task outcome) (m₁.endTask task outcome next) := by
  have hsame : m₁.host = m.host := hbefore.host.trans hhost
  unfold endDeeds Machine.endTask Machine.endTask?
  rw [hsame]
  cases hend : m.host.endTask? task outcome with
  | none => exact .fail hknown hend (hbefore.raise _ _)
  | some ended =>
    obtain ⟨host, result⟩ := ended
    refine .endTask hknown hend ?_
    have hmoved : Quiet (fun _ => True) { m₀ with host } { m₁ with host } :=
      ⟨⟨hbefore.size, hbefore.answered, hbefore.flows⟩, rfl, hbefore.held⟩
    exact hnext _ _ _ (hmoved.makeResult _)

lemma promiseOf_snd (m m' : Machine) (h : m'.memory = m.memory) (v : Value) :
    (m'.promiseOf v).2 = (m.promiseOf v).2 := by
  unfold Machine.promiseOf
  rw [h]
  split
  · rfl
  · simp [Machine.remember, h]

lemma promiseAt_promiseOf (m : Machine) (v : Value) :
    (promiseAt (m.promiseOf v).1.memory (m.promiseOf v).2).isSome := by
  unfold Machine.promiseOf
  split
  · rename_i r state hkind
    have hstate : promiseAt m.memory r = some state := by
      rw [promiseAt, show m.memory.kind? r = _ from hkind]
      rfl
    exact hstate ▸ rfl
  · have hnew : promiseAt (m.remember Memory.makePromise).1.memory (m.remember Memory.makePromise).2 =
        some (.pending []) := by
      simp [Machine.remember, Memory.makePromise, Memory.makeKind, promiseAt, Memory.kind?, stateOf,
        Memory.make, Memory.object?]
    have hresolved (v : Value) : Quiet (fun _ => True) (m.remember Memory.makePromise).1 _ :=
      (Quiet.refl _).resolve (m.remember Memory.makePromise).2 v
    obtain ⟨new, -, flows⟩ := (hresolved _).flows
    obtain ⟨state, hstate, -⟩ := flows.states _ _ hnew
    exact hstate ▸ rfl

lemma Calm.isSome (c : Calm safe m m') {p : Ref} (h : (promiseAt m.memory p).isSome) :
    (promiseAt m'.memory p).isSome := by
  obtain ⟨state, hstate⟩ := Option.isSome_iff_exists.mp h
  obtain ⟨new, -, flows⟩ := c.flows
  obtain ⟨state', hstate', -⟩ := flows.states p state hstate
  exact hstate' ▸ rfl

lemma does_finishTask {v : Value} {task : Handle} {mode : TaskMode} {rest : List Frame}
    (hcontrol : m.control = .value v) (hstack : m.stack = .taskBody task mode :: rest) :
    Does m [.await task (m.promiseOf v).2] ({ m with stack := rest }.finishTask task mode v) := by
  let m₀ : Machine := { m with stack := rest }
  let m₁ : Machine := ((m₀.promiseOf v).1.remember Memory.makePromise).1
  have hsame : (m₀.promiseOf v).2 = (m.promiseOf v).2 := promiseOf_snd m m₀ rfl v
  have hmade : Quiet (fun _ => True) (m₀.promiseOf v).1 m₁ := (Quiet.refl _).makePromise
  have hbefore : Quiet (fun _ => True) m₀ m₁ := ((Quiet.refl m₀).promiseOf v).trans hmade
  have hpromise : (promiseAt m₁.memory (m.promiseOf v).2).isSome :=
    hsame ▸ hmade.toCalm.isSome (promiseAt_promiseOf m₀ v)
  have hafter : Quiet (fun _ => True) (m₁.react (m₀.promiseOf v).2
      ⟨some ((m₀.promiseOf v).1.remember Memory.makePromise).2, .endTask task, .endTask task⟩)
      (m₀.finishTask task mode v) := (Quiet.refl _).answerTask _ _
  rw [hsame] at hafter
  exact .await hcontrol hstack rfl hbefore hpromise hafter

/-! ## Steps -/

lemma does_call (m : Machine) (b : Builtin) (receiver : Value) (args : List Value) :
    Does m (callDeeds m b receiver args) (m.callBuiltin b receiver args) := by
  have hquiet : ∀ m', Quiet (fun r => (r, "_promise") ∉ []) m m' → Does m [] m' :=
    fun m' q => .quiet .step q
  have hplain : actsOutside b = false → b ≠ .runWith → callDeeds m b receiver args = [] →
      Does m (callDeeds m b receiver args) (m.callPlain b receiver args) := by
    intro hb hwith hdeeds
    rw [hdeeds]
    exact hquiet _ ((Quiet.refl m).callPlain receiver args hb fun h => absurd h hwith)
  cases b with
  | task mode =>
    simp only [callDeeds, Machine.callBuiltin]
    split
    · exact does_callTask m mode _ _
    · exact does_callTask m mode _ _
  | parallel =>
    obtain ⟨m₁, hstarts, hend⟩ := starts_all m (operationsOf m.memory (flattened m.memory args))
    simp only [callDeeds, Machine.callBuiltin]
    split
    · rename_i m₂ heq
      rw [heq] at hend
      exact .start .step (.refl m) hstarts hend
    · rename_i m₂ heq
      rw [heq] at hend
      exact .start .step (.refl m) hstarts (hend ▸ (Quiet.refl m₂).parallelNext _ _)
  | writeToFile => exact hquiet _ ((Quiet.refl m).callWrite _ _)
  | visit how =>
    refine hquiet _ ?_
    simp only [Machine.callBuiltin]
    split
    · split
      · exact (Quiet.refl m).visitNext _ _ _ _ _ _
      · exact (Quiet.refl m).raise _ _
    · exact (Quiet.refl m).raise _ _
  | say loud => exact .tell trivial ((Quiet.refl _).give _)
  | log channel => exact .tell trivial ((Quiet.refl _).give _)
  | turnOn switch => exact .tell trivial ((Quiet.refl _).give _)
  | exit => exact .tell trivial ((Quiet.refl _).give _)
  | startOperation =>
    exact does_operation receiver fun r => does_start r fun m₁ p => (Quiet.refl m₁).give _
  | operationThen | operationCatch =>
    exact does_operation receiver fun r => does_start r fun m₁ p => (Quiet.refl m₁).follow p _ _
  | runWith =>
    exact .quiet .step ((Quiet.refl m).callPlain (b := .runWith) receiver args rfl fun _ r hr => hr)
  | _ => exact hplain rfl nofun rfl

lemma quiet_enter {f : Value} (hf : ∀ b, f ≠ .builtin b) (receiver : Value) (args : List Value) :
    Quiet safe m (m.enter f receiver args) := by
  unfold Machine.enter
  split
  · exact (Quiet.refl m).callClosure _ _ _
  · exact absurd rfl (hf _)
  · exact (Quiet.refl m).raise _ _

/-- Taking frames from the stack holds no task more often. -/
lemma quiet_pop {f : Frame} {rest : List Frame} (h : m.stack = f :: rest) :
    Quiet safe m { m with stack := rest } := by
  refine ⟨⟨Nat.le_refl _, fun _ _ h => h, ⟨[], (List.append_nil _).symm, .refl _⟩⟩, rfl, fun task => ?_⟩
  have hcount := ((List.sublist_cons_self f rest).filterMap taskOfFrame).count_le task
  rw [← h] at hcount
  simp only [heldBy]
  omega

lemma taskOfFrame_eq_some {f : Frame} {task : Handle} (h : taskOfFrame f = some task) :
    ∃ mode, f = .taskBody task mode := by
  cases f <;> simp_all [taskOfFrame]

lemma does_value {v : Value} {f : Frame} {rest : List Frame} (hcontrol : m.control = .value v)
    (hstack : m.stack = f :: rest) :
    Does m (receiveDeeds m f v) ({ m with stack := rest }.receive f v) := by
  unfold receiveDeeds
  split
  · rename_i task htask
    obtain ⟨mode, rfl⟩ := taskOfFrame_eq_some htask
    exact does_finishTask hcontrol hstack
  · rename_i htask
    exact .quiet .step ((quiet_pop hstack).receive v htask fun r hr => hr)

lemma does_complete {c : Completion} {f : Frame} {rest : List Frame} (hcontrol : m.control = .complete c)
    (hstack : m.stack = f :: rest) : Does m (reachDeeds m f c) ({ m with stack := rest }.reach f c) := by
  have hquiet : (taskOfFrame f = none ∨ ∀ v, c ≠ .thrown v) →
      Does m [] ({ m with stack := rest }.reach f c) := fun hf =>
    .silent .step ((quiet_pop hstack).reach hf)
  cases htask : taskOfFrame f with
  | none =>
    simp only [reachDeeds, htask]
    exact hquiet (.inl htask)
  | some task =>
    simp only [reachDeeds, htask]
    cases c with
    | thrown v =>
      obtain ⟨mode, rfl⟩ := taskOfFrame_eq_some htask
      refine does_end (.thrown hcontrol hstack) rfl (.refl _) fun m₂ m₃ result h => ?_
      exact (h.promiseOf result).answerTask _ _
    | _ => exact hquiet (.inr fun _ => nofun)

/-- Every step does what could be read off before. -/
lemma does_step (h : m.step? = some m') : Does m (stepDeeds m) m' := by
  have hquiet : stepDeeds m = [] → Quiet (fun r => (r, "_promise") ∉ []) m m' → Does m (stepDeeds m) m' :=
    fun hdeeds q => hdeeds ▸ .quiet .step q
  unfold Machine.step? at h
  split at h
  · rename_i e scope hcontrol
    cases h
    exact hquiet (by simp only [stepDeeds, hcontrol]) ((Quiet.refl m).evaluate e scope)
  · rename_i s scope hcontrol
    cases h
    exact hquiet (by simp only [stepDeeds, hcontrol]) ((Quiet.refl m).execute s scope)
  · rename_i todo declares scope hcontrol
    cases h
    exact hquiet (by simp only [stepDeeds, hcontrol]) ((Quiet.refl m).bind todo declares scope)
  · rename_i f receiver args hcontrol
    cases h
    cases f with
    | builtin b =>
      have hdeeds : stepDeeds m = callDeeds m b receiver args := by simp only [stepDeeds, hcontrol]
      exact hdeeds ▸ does_call m b receiver args
    | _ =>
      exact hquiet (by simp only [stepDeeds, hcontrol]) (quiet_enter (by rintro _ ⟨⟩) receiver args)
  · cases h
  · cases h
  · rename_i v f rest hcontrol hstack
    cases h
    have hdeeds : stepDeeds m = receiveDeeds m f v := by simp only [stepDeeds, hcontrol, hstack]
    exact hdeeds ▸ does_value hcontrol hstack
  · rename_i c f rest hcontrol hstack
    cases h
    have hdeeds : stepDeeds m = reachDeeds m f c := by simp only [stepDeeds, hcontrol, hstack]
    exact hdeeds ▸ does_complete hcontrol hstack

lemma quiet_pushReaction (m : Machine) (derived : Option Ref) :
    Quiet safe m (m.pushReaction derived) := by
  unfold Machine.pushReaction
  split
  · exact (Quiet.refl m).push rfl
  · exact .refl m

/-- Every job does what could be read off before. -/
lemma does_job {j : Job} {rest : List Job} (hjobs : m.jobs = j :: rest) :
    Does m (jobDeeds m j) (({ m with jobs := rest }.give .undefined).begin j) := by
  let m₁ : Machine := { m with jobs := rest }.give .undefined
  have hgive : ∀ {safe}, Quiet safe { m with jobs := rest } m₁ := (Quiet.refl _).give _
  have hquiet : ∀ {m'}, OrdinaryJob j → Quiet (fun r => (r, "_promise") ∉ []) m₁ m' → Does m [] m' :=
    fun hj q => .silent (.job hjobs hj) (hgive.trans q)
  cases j with
  | start r => exact .start (.job hjobs trivial) hgive (starts_one m₁ r) (.refl _)
  | adopt promise thenable f =>
    exact hquiet trivial ((((Quiet.refl m₁).makeKind _ rfl).push (f := .adoption promise _) rfl).call _ _ _)
  | react handler derived ok v =>
    cases handler with
    | call f => exact hquiet (fun _ => nofun) ((quiet_pushReaction m₁ derived).call _ _ _)
    | pass =>
      cases derived with
      | none => exact hquiet (fun _ => nofun) (.refl m₁)
      | some d =>
        cases ok
        · exact hquiet (fun _ => nofun) ((Quiet.refl m₁).reject d v)
        · exact hquiet (fun _ => nofun) ((Quiet.refl m₁).resolve d v)
    | resume frames =>
      cases ok
      · exact .silent (.resume hjobs) ((Quiet.refl _).throw v)
      · exact .silent (.resume hjobs) ((Quiet.refl _).give v)
    | endTask task =>
      exact does_end (.settled hjobs) rfl (hgive.trans (quiet_pushReaction m₁ derived))
        fun _ _ _ h => h.give _

/-- What a script does next by itself could be read off before. -/
theorem does_work (h : work? m = some m') : Does m (deedsOf m) m' := by
  unfold work? at h
  cases hstep : m.step? with
  | some m₁ =>
    have hdeeds : deedsOf m = stepDeeds m := by rw [deedsOf, hstep]
    rw [hstep] at h
    cases h
    exact hdeeds ▸ does_step hstep
  | none =>
    rw [hstep] at h
    cases hjobs : m.jobs with
    | nil => simp [hjobs] at h
    | cons j rest =>
      have hdeeds : deedsOf m = jobDeeds m j := by simp only [deedsOf, hstep, hjobs]
      rw [hjobs] at h
      cases h
      exact hdeeds ▸ does_job hjobs

end TaskRunner.Proofs
