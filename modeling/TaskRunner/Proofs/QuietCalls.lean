import TaskRunner.Script.Run
import TaskRunner.Proofs.SettledPromises

/-!
# What stays inside of a script

Most of what a running script does changes nothing outside of it: it reads and makes values, settles
promises and adds jobs. Such a change ends no task and starts no operation.

Functions of the script and most built-in ones change nothing outside. What acts outside are reports,
switches, operations that are started, and tasks.
-/

namespace TaskRunner.Proofs
open Script Machine

/-! ## Changes -/

section Changes

/-- A change of a running script in which no object in question loses the promise of its result, and
nothing that waits for a promise is lost. -/
structure Calm (safe : Ref → Prop) (m m' : Machine) : Prop where
  size : m.memory.objects.size ≤ m'.memory.objects.size
  answered : ∀ r, safe r → Answered m.memory r → Answered m'.memory r
  flows : ∃ new, m'.jobs = m.jobs ++ new ∧ Flows m.memory new m'.memory

/-- A calm change that leaves the host as it is, and holds no task more often than before. -/
structure Quiet (safe : Ref → Prop) (m m' : Machine) : Prop extends Calm safe m m' where
  host : m'.host = m.host
  held : ∀ h, heldBy m' h ≤ heldBy m h

variable {safe : Ref → Prop} {m m' m'' : Machine}

namespace Calm

lemma refl (m : Machine) : Calm safe m m :=
  ⟨Nat.le_refl _, fun _ _ h => h, ⟨[], (List.append_nil _).symm, .refl _⟩⟩

lemma trans (c : Calm safe m m') (c' : Calm safe m' m'') : Calm safe m m'' where
  size := Nat.le_trans c.size c'.size
  answered := fun r hr h => c'.answered r hr (c.answered r hr h)
  flows := by
    obtain ⟨new, hjobs, f⟩ := c.flows
    obtain ⟨new', hjobs', f'⟩ := c'.flows
    exact ⟨new ++ new', by rw [hjobs', hjobs, List.append_assoc], f.trans f'⟩

end Calm

/-! ## A reaction to a promise -/

lemma pending_of_kind {memory : Memory} {p : Ref} {rs : List Reaction}
    (h : memory.kind? p = some (.promise (.pending rs))) : promiseAt memory p = some (.pending rs) := by
  rw [promiseAt, h]
  rfl

lemma calm_react (m : Machine) (p : Ref) {r : Reaction} (hr : Ordinary r) :
    Calm safe m (m.react p r) := by
  have hlater : ∀ ok v, Calm safe m (m.later (Reaction.job r ok v)) := fun ok v =>
    ⟨Nat.le_refl _, fun _ _ h => h, ⟨_, rfl, .later _ (ordinaryJob_of_mem hr ok v)⟩⟩
  unfold Machine.react
  split
  · exact ⟨Nat.le_of_eq (Retains.size_setKind _ _ _).symm, fun _ _ => Retains.answered_setKind _ _ _,
      ⟨[], (List.append_nil _).symm, .wait (pending_of_kind ‹_›) hr⟩⟩
  · exact hlater true _
  · exact hlater false _
  · exact .refl m

/-- What a reaction holds is held by the promise, or by the job, from then on. -/
lemma heldBy_react (m : Machine) (p : Ref) (r : Reaction) (h : Handle) :
    heldBy (m.react p r) h ≤ heldBy m h + heldByReaction h r := by
  have hjob : ∀ ok v, (tasksOfJob (Reaction.job r ok v)).count h ≤ heldByReaction h r := by
    intro ok v
    cases ok
    · exact Nat.le_max_right _ _
    · exact Nat.le_max_left _ _
  have hlater : ∀ ok v, heldBy (m.later (Reaction.job r ok v)) h ≤ heldBy m h + heldByReaction h r := by
    intro ok v
    have hone : heldByJobs [Reaction.job r ok v] h = (tasksOfJob (Reaction.job r ok v)).count h := by
      simp [heldByJobs]
    have hle := hjob ok v
    simp only [heldBy, Machine.later, heldByJobs_append]
    omega
  unfold Machine.react
  split
  · simp only [heldBy, Machine.update, held_wait (pending_of_kind ‹_›)]
    omega
  · exact hlater true _
  · exact hlater false _
  · exact Nat.le_add_right _ _

lemma answered_react (m : Machine) (p : Ref) (r : Reaction) {s : Ref} (h : Answered m.memory s) :
    Answered (m.react p r).memory s := by
  unfold Machine.react
  split
  · exact Retains.answered_setKind _ _ _ h
  · exact h
  · exact h
  · exact h

lemma react_size (m : Machine) (p : Ref) (r : Reaction) :
    (m.react p r).memory.objects.size = m.memory.objects.size := by
  unfold Machine.react
  split
  · exact Retains.size_setKind _ _ _
  · rfl
  · rfl
  · rfl

@[simp] lemma react_host (m : Machine) (p : Ref) (r : Reaction) : (m.react p r).host = m.host := by
  unfold Machine.react
  split <;> rfl

@[simp] lemma react_stack (m : Machine) (p : Ref) (r : Reaction) : (m.react p r).stack = m.stack := by
  unfold Machine.react
  split <;> rfl

namespace Quiet

lemma refl (m : Machine) : Quiet safe m m :=
  ⟨.refl m, rfl, fun _ => Nat.le_refl _⟩

lemma trans (q : Quiet safe m m') (q' : Quiet safe m' m'') : Quiet safe m m'' :=
  ⟨q.toCalm.trans q'.toCalm, q'.host.trans q.host, fun h => Nat.le_trans (q'.held h) (q.held h)⟩

/-! ## Control and stack -/

section Moves

variable (q : Quiet safe m m')
include q

/-- What is done next does not count. -/
lemma proceed (c : Control) : Quiet safe m { m' with control := c } :=
  ⟨⟨q.size, q.answered, q.flows⟩, q.host, q.held⟩

lemma give (v : Value) : Quiet safe m (m'.give v) := q.proceed _
lemma done : Quiet safe m m'.done := q.proceed _
lemma finish (c : Completion) : Quiet safe m (m'.finish c) := q.proceed _
lemma throw (v : Value) : Quiet safe m (m'.throw v) := q.proceed _
lemma eval (e : Expr) (scope : ScopeId) : Quiet safe m (m'.eval e scope) := q.proceed _
lemma call (f receiver : Value) (args : List Value) : Quiet safe m (m'.call f receiver args) := q.proceed _

/-- The outcome of the function that was asked for does not count. -/
lemma decide (outcome : Option (Except String Json)) (v : Value) :
    Quiet safe m ({ m' with outcome }.give v) :=
  ⟨⟨q.size, q.answered, q.flows⟩, q.host, q.held⟩

lemma push {f : Frame} (hf : taskOfFrame f = none) : Quiet safe m (m'.push f) :=
  ⟨⟨q.size, q.answered, q.flows⟩, q.host, fun h => by
    simpa [heldBy, Machine.push, List.filterMap_cons, hf] using q.held h⟩

/-! ## Memory -/

lemma remembers {memory : Memory} (k : Retains safe m'.memory memory) :
    Quiet safe m { m' with memory } := by
  refine q.trans ⟨⟨k.size, k.answered, ⟨[], (List.append_nil _).symm, .of_keeps k⟩⟩, rfl, fun h => ?_⟩
  simp only [heldBy, heldInMemory_keeps k, Nat.le_refl]

lemma raise (c : ErrorClass) (message : String) : Quiet safe m (m'.raise c message) :=
  (q.remembers (.makeError _ c message)).throw _

/-! ## Promises -/

lemma later {j : Job} (hj : OrdinaryJob j) (hheld : tasksOfJob j = []) : Quiet safe m (m'.later j) := by
  refine q.trans ⟨⟨Nat.le_refl _, fun _ _ h => h, ⟨[j], rfl, .later _ hj⟩⟩, rfl, fun h => ?_⟩
  simp [heldBy, Machine.later, heldByJobs, hheld]

end Moves

lemma foldl_later (m : Machine) (rs : List Reaction) (ok : Bool) (v : Value) :
    rs.foldl (fun (m : Machine) r => m.later (Reaction.job r ok v)) m =
      { m with jobs := m.jobs ++ rs.map fun r => Reaction.job r ok v } := by
  induction rs generalizing m with
  | nil => simp
  | cons r rest ih => rw [List.foldl_cons, ih]; simp [Machine.later]

@[simp] lemma settle_stack (m : Machine) (p : Ref) (ok : Bool) (v : Value) :
    (m.settle p ok v).stack = m.stack := by
  unfold Machine.settle
  split
  · rw [foldl_later]
    rfl
  · rfl

@[simp] lemma resolve_stack (m : Machine) (p : Ref) (v : Value) : (m.resolve p v).stack = m.stack := by
  unfold Machine.resolve
  split
  · split
    · exact settle_stack _ _ _ _
    · split
      · split
        · rfl
        · exact settle_stack _ _ _ _
      · exact settle_stack _ _ _ _
  · exact settle_stack _ _ _ _

@[simp] lemma promiseOf_stack (m : Machine) (v : Value) : (m.promiseOf v).1.stack = m.stack := by
  unfold Machine.promiseOf
  split
  · rfl
  · exact resolve_stack _ _ _

section Moves

variable (q : Quiet safe m m')
include q

lemma settle (p : Ref) (ok : Bool) (v : Value) : Quiet safe m (m'.settle p ok v) := by
  unfold Machine.settle
  split
  · rename_i reactions hkind
    have hp := pending_of_kind hkind
    have hstate : (if ok = true then PromiseState.fulfilled v else .rejected v) = settledAs ok v := rfl
    rw [foldl_later, hstate]
    refine q.trans ⟨⟨Nat.le_of_eq (Retains.size_setKind _ _ _).symm, fun _ _ => Retains.answered_setKind _ _ _,
      ⟨_, rfl, .settle hp ok v⟩⟩, rfl, fun h => ?_⟩
    have hheld := held_settle hp ok v h
    simp only [heldBy, Machine.update, heldByJobs_append]
    omega
  · exact q

lemma reject (p : Ref) (v : Value) : Quiet safe m (m'.reject p v) :=
  q.settle p false v

lemma resolve (p : Ref) (v : Value) : Quiet safe m (m'.resolve p v) := by
  unfold Machine.resolve
  split
  · split
    · exact (q.remembers (.makeError _ _ _)).reject p _
    · split
      · split
        · exact q.later trivial rfl
        · exact q.settle p true _
      · exact q.settle p true _
  · exact q.settle p true v

lemma react (p : Ref) {r : Reaction} (hr : Ordinary r) (hheld : ∀ h, heldByReaction h r = 0) :
    Quiet safe m (m'.react p r) := by
  refine q.trans ⟨calm_react m' p hr, react_host m' p r, fun h => ?_⟩
  have hle := heldBy_react m' p r h
  rwa [hheld h] at hle

lemma promiseOf (v : Value) : Quiet safe m (m'.promiseOf v).1 := by
  unfold Machine.promiseOf
  split
  · exact q
  · exact (q.remembers (.makePromise _)).resolve _ _

lemma rejectedPromise (v : Value) : Quiet safe m (m'.rejectedPromise v).1 :=
  (q.remembers (.makePromise _)).reject _ v

lemma andThen (p : Ref) (fulfilled rejected : Value) :
    Quiet safe m (m'.andThen p fulfilled rejected).1 := by
  have hhandler : ∀ (m : Machine) (v : Value), EndsNone (m.handlerOf v) ∧
      tasksOfHandler (m.handlerOf v) = [] := by
    intro m v
    unfold Machine.handlerOf
    split <;> exact ⟨fun _ => nofun, rfl⟩
  refine (q.remembers (.makePromise _)).react p ⟨(hhandler _ _).1, (hhandler _ _).1⟩ fun h => ?_
  simp only [heldByReaction, (hhandler _ _).2, List.count_nil, Nat.max_self]

lemma trip (latch : Ref) : Quiet safe m (m'.trip latch).1 := by
  unfold Machine.trip
  split
  · rename_i hkind
    exact q.remembers (.setKind _ latch _ hkind rfl rfl)
  · exact q

lemma fulfilOnce (p latch : Ref) (v : Value) : Quiet safe m (m'.fulfilOnce p latch v) := by
  change Quiet safe m (if (m'.trip latch).2 then (m'.trip latch).1.resolve p v else (m'.trip latch).1)
  split
  · exact (q.trip latch).resolve p v
  · exact q.trip latch

lemma refuseOnce (p latch : Ref) (v : Value) : Quiet safe m (m'.refuseOnce p latch v) := by
  change Quiet safe m (if (m'.trip latch).2 then (m'.trip latch).1.reject p v else (m'.trip latch).1)
  split
  · exact (q.trip latch).reject p v
  · exact q.trip latch

/-! ## Operations and tasks -/

lemma makeOperation (ofShell : Bool) (fields : List (String × Value)) (result : Builtin) :
    Quiet safe m (m'.makeOperation ofShell fields result) :=
  (((q.remembers (.makeRecord _ fields)).remembers (.make _ _ (.inl rfl))).later (j := .start _)
    trivial rfl).give _

lemma makeResult (r : TaskResult) : Quiet safe m (m'.makeResult r).1 :=
  q.remembers ((Retains.load _ r.output).trans (.makeResult _ _ _))

lemma answerTask (p : Ref) (mode : TaskMode) : Quiet safe m (m'.answerTask p mode) := by
  unfold Machine.answerTask
  split
  · exact (q.andThen p _ _).give _
  · exact q.give _

end Moves

end Quiet

end Changes

/-! ## Calls -/

section Calls

/-- Whether a built-in function acts outside of the script. -/
def actsOutside : Builtin → Bool
  | .say _ | .log _ | .turnOn _ | .exit | .startOperation | .operationThen | .operationCatch | .parallel
  | .task _ => true
  | _ => false

/-- The members of objects that environment variables for an operation are put into. -/
def variablesSet (m : Memory) (operation : Value) (args : List Value) : List (Ref × String) :=
  match operation with
  | .object r =>
    match m.field? r "_payload" with
    | some (.object payload) =>
      match m.field? payload "env" with
      | some (.object env) => (Machine.entriesOf m (arg args 0)).map fun entry => (env, entry.1)
      | _ => []
    | _ => []
  | _ => []

namespace Quiet

variable {safe : Ref → Prop} {m m' : Machine} (q : Quiet safe m m')
include q

lemma update {change : Memory → Memory} (k : Retains safe m'.memory (change m'.memory)) :
    Quiet safe m (m'.update change) :=
  q.remembers k

lemma makeList (items : List Value) : Quiet safe m (m'.remember (·.makeList items)).1 :=
  q.remembers (.makeList _ items)

lemma makePromise : Quiet safe m (m'.remember Memory.makePromise).1 :=
  q.remembers (.makePromise _)

lemma makeKind (k : Kind) (hk : stateOf k = none) : Quiet safe m (m'.remember (·.makeKind k)).1 :=
  q.remembers (.makeKind _ k (.inl hk))

/-! ## Functions of the script -/

lemma parameterWork (f : Function) (args : List Value) : Quiet safe m (m'.parameterWork f args).1 := by
  unfold Machine.parameterWork
  split
  · exact q
  · exact q.makeList _

lemma callClosure (c : Closure) (receiver : Value) (args : List Value) :
    Quiet safe m (m'.callClosure c receiver args) := by
  unfold Machine.callClosure
  have hopened := (q.remembers (.openScope _ c.scope
    (if c.function.isArrow then [] else [("this", (⟨some receiver, false⟩ : Binding))]))).remembers
      (.declare _ m'.memory.scopes.size c.function.body)
  have hwork := hopened.parameterWork c.function args
  dsimp only
  split
  · exact ((hwork.makePromise.push (f := .asyncBody _) rfl).push (f := .bound _ _) rfl).proceed _
  · exact ((hwork.push (f := .body) rfl).push (f := .bound _ _) rfl).proceed _

/-! ## Built-in functions -/

lemma follow (p : Ref) (fulfilled rejected : Value) : Quiet safe m (m'.follow p fulfilled rejected) :=
  (q.andThen p fulfilled rejected).give _

lemma gatherAll (values : List Value) : Quiet safe m (m'.gatherAll values).1 := by
  unfold Machine.gatherAll
  have hthree := (q.makePromise.makeKind (.latch false) rfl).makeKind
    (.gathering (Array.replicate values.length .undefined) values.length
      (m'.remember Memory.makePromise).2) rfl
  have hall : ∀ (items : List (Nat × Value)) (into promise latch : Ref) (m'' : Machine),
      Quiet safe m m'' → Quiet safe m (items.foldl (fun (m : Machine) item =>
        ((m.promiseOf item.2).1.andThen (m.promiseOf item.2).2 (.builtin (.gather into item.1))
          (.builtin (.refuse promise latch))).1) m'') := by
    intro items into promise latch
    induction items with
    | nil => exact fun _ h => h
    | cons item rest ih => exact fun _ h => ih _ ((h.promiseOf item.2).andThen _ _ _)
  dsimp only
  split
  · dsimp only
    exact (hthree.makeList []).resolve _ _
  · exact hall _ _ _ _ _ hthree

lemma takeIn (into : Ref) (index : Nat) (v : Value) : Quiet safe m (m'.takeIn into index v) := by
  unfold Machine.takeIn
  split
  · rename_i values missing promise hkind
    have hkept := q.remembers (.setKind _ into (.gathering (values.set! index v) (missing - 1) promise)
      hkind rfl rfl)
    dsimp only
    split
    · exact (hkept.makeList _).resolve _ _
    · exact hkept
  · exact q

lemma makeError (c : ErrorClass) (args : List Value) : Quiet safe m (m'.makeError c args) :=
  (q.remembers (.make _ _ (.inl rfl))).give _

lemma amend {change : Memory → Ref → Memory} (r : Ref)
    (k : ∀ payload, m'.memory.field? r "_payload" = some (.object payload) →
      Retains safe m'.memory (change m'.memory payload)) : Quiet safe m (m'.amend r change) := by
  unfold Machine.amend
  split
  · exact q.remembers (k _ ‹_›)
  · exact q

lemma makeResponse (raw : Value) : Quiet safe m (m'.makeResponse raw) := by
  unfold Machine.makeResponse
  dsimp only
  split
  · exact ((q.remembers (.makeResult _ _ _)).remembers (.make _ _ (.inl rfl))).give _
  · exact (((q.remembers (.makeRecord _ [])).remembers (.makeResult _ _ _)).remembers
      (.make _ _ (.inl rfl))).give _

lemma fetchOf (args : List Value) : Quiet safe m (m'.fetchOf args) := by
  unfold Machine.fetchOf
  split
  rename_i m'' options heq
  have hready : Quiet safe m m'' := by
    split at heq <;> cases heq
    · exact q.remembers (.makeRecord _ [])
    · exact q
  dsimp only
  split
  · exact (hready.remembers (.makeRecord _ _)).makeOperation _ _ _
  · exact hready.raise _ _

lemma writeOf (path : Value) (content : String) : Quiet safe m (m'.writeOf path content) :=
  q.makeOperation _ _ _

lemma giveJson (gap : String) (v : Value) : Quiet safe m (m'.giveJson gap v) := by
  unfold Machine.giveJson
  split
  · exact q.give _
  · exact q.give _
  · exact q.raise _ _

lemma giveParsed (text : String) : Quiet safe m (m'.giveParsed text) := by
  unfold Machine.giveParsed
  split
  · exact (q.remembers (.load _ _)).give _
  · exact q.raise _ _

lemma visitNext (v : Visit) (f list : Value) (done todo : List Value) (index : Nat) :
    Quiet safe m (m'.visitNext v f list done todo index) := by
  unfold Machine.visitNext
  split
  · split
    · exact q.give _
    · exact (q.makeList _).give _
  · exact (q.push rfl).call _ _ _

lemma parallelNext (done todo : List Value) : Quiet safe m (m'.parallelNext done todo) := by
  unfold Machine.parallelNext
  split
  · exact (q.gatherAll _).give _
  · exact (q.push rfl).call _ _ _

lemma callWrite (path content : Value) : Quiet safe m (m'.callWrite path content) := by
  unfold Machine.callWrite
  split
  · exact ((q.makeKind _ rfl).push rfl).call _ _ _
  · split
    · exact q.writeOf _ _
    · split
      · split
        · exact q.writeOf _ _
        · exact q.raise _ _
      · exact q.writeOf _ _

lemma construct (f : Value) (args : List Value) : Quiet safe m (m'.construct f args) := by
  unfold Machine.construct
  split
  · split
    · exact ((q.makePromise.makeKind _ rfl).push rfl).call _ _ _
    · exact q.raise _ _
  · exact (q.remembers (.makeResult _ _ _)).give _
  · exact q.makeError _ _
  · exact q.call _ _ _
  · exact q.call _ _ _
  · split
    · exact q.raise _ _
    · exact ((q.remembers (.makeRecord _ [])).push rfl).callClosure _ _ _
  · exact q.raise _ _

lemma makePairs (entries : List (String × Value)) (pairs : List Value) :
    Quiet safe m (entries.foldl (fun (acc : Machine × List Value) entry =>
      let (m, pair) := acc.1.remember (·.makeList [.text entry.1, entry.2])
      (m, acc.2 ++ [pair])) (m', pairs)).1 := by
  induction entries generalizing m' pairs with
  | nil => exact q
  | cons entry rest ih => exact ih (q.makeList _) _

lemma callPlain {b : Builtin} (receiver : Value) (args : List Value) (hb : actsOutside b = false)
    (hvariables : b = .runWith → ∀ r, safe r → (r, "_promise") ∉ variablesSet m'.memory receiver args) :
    Quiet safe m (m'.callPlain b receiver args) := by
  cases b with
  | say _ | log _ | turnOn _ | exit | startOperation | operationThen | operationCatch | parallel
  | task _ => cases hb
  | loader => exact q.give _
  | missing name key => exact q.raise _ _
  | exec => exact (q.remembers (.makeRecord _ [])).makeOperation _ _ _
  | fetch => exact q.fetchOf _
  | ai =>
    simp only [Machine.callPlain]
    split
    · exact (q.remembers (.makeRecord _ [])).makeOperation _ _ _
    · exact q.makeOperation _ _ _
  | currentDirectory => exact q.give _
  | makeResult status => exact (q.remembers (.makeResult _ _ _)).give _
  | resultOf | resultOfReply =>
    simp only [Machine.callPlain]
    split
    · exact (q.remembers (.makeResult _ _ _)).give _
    · exact q.raise _ _
  | responseOfReply => exact q.makeResponse _
  | runIn =>
    simp only [Machine.callPlain]
    split
    · exact (q.amend _ fun payload _ => .setField _ payload _ _ fun _ => by decide).give _
    · exact q.raise _ _
  | runWith =>
    simp only [Machine.callPlain]
    split
    · rename_i r _ _
      refine (q.amend r fun payload hpayload => .addVariables _ payload _ ?_).give _
      intro env henv hsafe entry hentry hkey
      refine hvariables rfl env hsafe ?_
      rw [variablesSet]
      simp only [hpayload, henv, List.mem_map, Prod.mk.injEq, true_and]
      exact ⟨entry, hentry, hkey⟩
    · exact q.raise _ _
  | responseText => exact (q.promiseOf _).give _
  | responseJson =>
    simp only [Machine.callPlain]
    split
    · exact ((q.remembers (.load _ _)).promiseOf _).give _
    · exact ((q.remembers (.makeError _ _ _)).rejectedPromise _).give _
  | addLine lines =>
    simp only [Machine.callPlain]
    split
    · rename_i hkind
      exact (q.remembers (.setKind _ _ _ hkind rfl rfl)).give _
    · exact q.give _
  | resolved => exact (q.promiseOf _).give _
  | rejected => exact (q.rejectedPromise _).give _
  | all =>
    simp only [Machine.callPlain]
    split
    · exact (q.gatherAll _).give _
    · exact ((q.remembers (.makeError _ _ _)).rejectedPromise _).give _
  | promiseThen | promiseCatch =>
    simp only [Machine.callPlain]
    split
    · exact q.follow _ _ _
    · exact q.raise _ _
  | fulfil promise latch => exact (q.fulfilOnce _ _ _).give _
  | refuse promise latch => exact (q.refuseOnce _ _ _).give _
  | gather into index => exact (q.takeIn _ _ _).give _
  | hasSucceeded => exact q.give _
  | settled ok => exact q.decide _ _
  | stringify => exact q.giveJson _ _
  | parse => exact q.giveParsed _
  | keys | values =>
    simp only [Machine.callPlain]
    split
    · exact (q.makeList _).give _
    · exact q.raise _ _
  | entries =>
    simp only [Machine.callPlain]
    split
    · exact ((q.makePairs _ []).makeList _).give _
    · exact q.raise _ _
  | isList | textClass | numberClass | boolClass => exact q.give _
  | listClass => exact (q.makeList _).give _
  | objectClass =>
    simp only [Machine.callPlain]
    split
    · exact q.give _
    · exact (q.remembers (.makeRecord _ [])).give _
  | errorClass c => exact q.makeError _ _
  | push =>
    simp only [Machine.callPlain]
    split
    · rename_i hkind
      exact (q.remembers (.setKind _ _ _ hkind rfl rfl)).give _
    · exact q.raise _ _
  | join | includes =>
    simp only [Machine.callPlain]
    split
    · exact q.give _
    · exact q.raise _ _
  | concat =>
    simp only [Machine.callPlain]
    split
    · exact (q.makeList _).give _
    · exact q.raise _ _
  | _ => exact q.raise _ _

end Quiet

end Calls

end TaskRunner.Proofs
