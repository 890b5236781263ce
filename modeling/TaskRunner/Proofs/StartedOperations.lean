import TaskRunner.Proofs.BridgeRuns
import TaskRunner.Proofs.ScriptDeeds

/-!
# Operations that a script starts

What a script does passes over the bridge as its deeds say. Every operation that it starts has a promise of
its own, and no object starts two operations unless the script sets the member that keeps its promise.
-/

namespace TaskRunner.Proofs
open Script Machine

/-- What passes over the bridge with a deed. -/
def Deed.exchange? : Deed → Option (Exchange Operation Reply Resolver)
  | .start h _ o r => some (.start h o r)
  | .finish h reply => some (.finish h reply)
  | .deliver h reply receiver => some (.deliver h reply receiver)
  | .beginTask h id _ _ => some (.beginTask h id)
  | .endTask h _ => some (.endTask h)
  | .tell _ | .await _ _ | .assign _ _ => none

/-- What passes over the bridge with deeds. -/
def exchangesIn (log : List Deed) : List (Exchange Operation Reply Resolver) :=
  log.filterMap Deed.exchange?

/-- The operations that were started for an object. -/
def startsFor (r : Ref) (log : List Deed) : List Handle :=
  log.filterMap fun
    | .start h r' _ _ => if r' = r then some h else none
    | _ => none

variable {m m' : Machine} {log deeds : List Deed}

@[simp] lemma exchangesIn_append (log more : List Deed) :
    exchangesIn (log ++ more) = exchangesIn log ++ exchangesIn more :=
  List.filterMap_append

@[simp] lemma startsFor_append (r : Ref) (log more : List Deed) :
    startsFor r (log ++ more) = startsFor r log ++ startsFor r more :=
  List.filterMap_append

@[simp] lemma exchangesIn_assign (sets : List (Ref × String)) :
    exchangesIn (sets.map fun set => .assign set.1 set.2) = [] := by
  simp [exchangesIn, Deed.exchange?]

@[simp] lemma startsFor_assign (r : Ref) (sets : List (Ref × String)) :
    startsFor r (sets.map fun set => .assign set.1 set.2) = [] := by
  simp [startsFor]

/-! ## The bridge -/

lemma Continues.host (h : Continues m m') : m'.host = m.host := by
  cases h <;> rfl

lemma Known.host {h : Handle} {outcome : Except String Json} (hknown : Known m h outcome m') :
    m'.host = m.host := by
  cases hknown <;> rfl

/-- A script that waits for the reply of an operation that was just started. -/
def expecting (m : Machine) (o : Operation) : Machine :=
  let (host, handle) := m.host.start o
  let (m, promise) := { m with host }.remember Memory.makePromise
  let (m, latch) := m.remember (·.makeKind (.latch false))
  m.onHost (·.expect handle ⟨promise, latch⟩)

lemma launch_fst (m : Machine) (r : Ref) (o : Operation) :
    (m.launch r o).1 =
      let (m', result) := (expecting m o).andThen m.memory.objects.size
        (((expecting m o).memory.field? r "_finish").getD .undefined) .undefined
      m'.update (·.writeField r "_promise" (.object result)) :=
  rfl

lemma expecting_host (m : Machine) (o : Operation) :
    (expecting m o).host = (m.host.start o).1.expect (m.host.start o).2
      ⟨m.memory.objects.size, m.memory.objects.size + 1⟩ := by
  simp [expecting, Machine.remember, Machine.onHost, Memory.makePromise, Memory.makeKind, Memory.make]

/-- The promise of what comes after the reply. -/
lemma quiet_followed (m : Machine) (o : Operation) (v : Value) :
    Quiet (fun _ => True) (expecting m o)
      ((expecting m o).andThen m.memory.objects.size v .undefined).1 :=
  (Quiet.refl _).andThen _ _ _

lemma launch_host (m : Machine) (r : Ref) (o : Operation) :
    (m.launch r o).1.host = (m.host.start o).1.expect (m.host.start o).2
      ⟨m.memory.objects.size, m.memory.objects.size + 1⟩ := by
  rw [launch_fst, ← expecting_host]
  exact (quiet_followed m o _).host

lemma Starts.bridge (h : Starts m deeds m') (run : BridgeRun (exchangesIn log) m.host.bridge) :
    BridgeRun (exchangesIn (log ++ deeds)) m'.host.bridge := by
  induction h generalizing log with
  | nil => simpa using run
  | @cons m m' r o deeds hr ho _ ih =>
    have hone : BridgeRun (exchangesIn (log ++ [.start (m.host.bridge.lastHandle + 1) r o
        ⟨m.memory.objects.size, m.memory.objects.size + 1⟩])) (m.launch r o).1.host.bridge := by
      rw [exchangesIn_append, launch_host]
      exact run.snoc (.start _ _ _)
    have hall := ih hone
    rwa [List.append_assoc] at hall

lemma endTask?_bridge {host host' : Host} {h : Handle} {outcome : Except String Json} {result : TaskResult}
    (hend : host.endTask? h outcome = some (host', result)) :
    ∃ id, host.bridge.endTask? h = some (id, host'.bridge) := by
  unfold Host.endTask? at hend
  split at hend
  · cases hend
  · rename_i id bridge hbridge
    obtain ⟨_, -, hparts⟩ := Option.map_eq_some_iff.mp hend
    cases hparts
    exact ⟨id, hbridge⟩

/-- What a script does passes over the bridge as its deeds say. -/
lemma Does.bridge (h : Does m deeds m') (run : BridgeRun (exchangesIn log) m.host.bridge) :
    BridgeRun (exchangesIn (log ++ deeds)) m'.host.bridge := by
  rw [exchangesIn_append]
  cases h with
  | quiet hon hquiet =>
    rw [exchangesIn_assign, List.append_nil, hquiet.host, hon.host]
    exact run
  | tell _ hquiet =>
    rw [hquiet.host, show exchangesIn [Deed.tell _] = [] from rfl, List.append_nil]
    exact run
  | start hon hbefore hstarts hquiet =>
    rw [hquiet.host, ← exchangesIn_append]
    refine hstarts.bridge ?_
    rw [hbefore.host, hon.host]
    exact run
  | beginTask hhost hquiet =>
    rw [hquiet.host]
    cases hhost
    exact run.snoc (.beginTask _ _)
  | await hcontrol hstack hp hbefore hpromise hquiet =>
    rw [hquiet.host, react_host, hbefore.host, show exchangesIn [Deed.await _ _] = [] from rfl,
      List.append_nil]
    exact run
  | fail hknown hend hquiet =>
    rw [hquiet.host, hknown.host]
    simpa [exchangesIn] using run
  | endTask hknown hend hquiet =>
    rw [hquiet.host]
    obtain ⟨id, hbridge⟩ := endTask?_bridge hend
    exact run.snoc (.endTask hbridge)

/-! ## Objects that start operations -/

/-- An operation can only be asked for by an object that is there. -/
lemma object_of_operationOf {memory : Memory} {r : Ref} {o : Operation} (h : operationOf memory r = .ok o) :
    ∃ object, memory.object? r = some object := by
  cases hobject : memory.object? r with
  | some object => exact ⟨object, rfl⟩
  | none =>
    have hnull : (Json.read "null").toOption.bind Operation.ofJson? = none := by decide +kernel
    simp [operationOf, Memory.field?, hobject, Memory.stringify, Memory.jsonFrom, hnull] at h

lemma calm_expecting (m : Machine) (o : Operation) : Calm (fun _ => True) m (expecting m o) := by
  let started : Machine := { m with host := (m.host.start o).1 }
  have h : Quiet (fun _ => True) started _ := (Quiet.refl started).makePromise.makeKind (.latch false) rfl
  exact ⟨h.size, h.answered, h.flows⟩

/-- An object keeps the promise that it is given, and the others keep theirs. -/
lemma answered_writeField {memory : Memory} {r : Ref} (hr : r < memory.objects.size) (p : Ref) :
    Answered (memory.writeField r "_promise" (.object p)) r ∧
      ∀ s, Answered memory s → Answered (memory.writeField r "_promise" (.object p)) s := by
  have hself : Answered (memory.writeField r "_promise" (.object p)) r := by
    refine ⟨p, ?_⟩
    rw [Retains.field?_writeField, if_pos ⟨rfl, rfl⟩]
    simp [Memory.object?, hr]
  refine ⟨hself, ?_⟩
  rintro s ⟨q, hq⟩
  by_cases hs : r = s
  · exact hs ▸ hself
  · exact ⟨q, by rw [Retains.field?_writeField, if_neg (fun h => hs h.1), hq]⟩

lemma calm_launch {r : Ref} {o : Operation} (ho : operationOf m.memory r = .ok o) :
    Calm (fun _ => True) m (m.launch r o).1 ∧ Answered (m.launch r o).1.memory r := by
  let ended := (expecting m o).andThen m.memory.objects.size
    (((expecting m o).memory.field? r "_finish").getD .undefined) .undefined
  have hthen : Calm (fun _ => True) m ended.1 :=
    (calm_expecting m o).trans (quiet_followed m o _).toCalm
  have hin : r < ended.1.memory.objects.size := by
    obtain ⟨object, hobject⟩ := object_of_operationOf ho
    exact Nat.lt_of_lt_of_le (Array.getElem?_eq_some_iff.mp hobject).1 hthen.size
  obtain ⟨hself, hothers⟩ := answered_writeField hin ended.2
  have hset : Retains (fun _ => False) ended.1.memory
      (ended.1.memory.writeField r "_promise" (.object ended.2)) :=
    .writeField _ r _ _ False.elim fun _ => rfl
  rw [launch_fst]
  exact ⟨hthen.trans ⟨hset.size, fun s _ => hothers s, ⟨[], (List.append_nil _).symm, .of_keeps hset⟩⟩,
    hself⟩

/-- What is started for an object: nothing if it keeps a promise, and at most one operation otherwise. -/
structure StartsOnce (r : Ref) (m : Machine) (deeds : List Deed) (m' : Machine) : Prop where
  keeps : Answered m.memory r → startsFor r deeds = [] ∧ Answered m'.memory r
  once : (startsFor r deeds).length ≤ 1
  answered : startsFor r deeds ≠ [] → Answered m'.memory r

lemma StartsOnce.of_nil {r : Ref} (hnone : startsFor r deeds = [])
    (hkeeps : Answered m.memory r → Answered m'.memory r) : StartsOnce r m deeds m' where
  keeps := fun h => ⟨hnone, hkeeps h⟩
  once := by simp [hnone]
  answered := fun h => absurd hnone h

lemma Starts.once (h : Starts m deeds m') (r : Ref) : StartsOnce r m deeds m' := by
  induction h with
  | nil m => exact .of_nil rfl id
  | @cons m m' s o deeds hs ho _ ih =>
    obtain ⟨hcalm, hself⟩ := calm_launch ho
    by_cases hr : s = r
    · subst hr
      obtain ⟨hnone, hafter⟩ := ih.keeps hself
      have honly : startsFor s (.start (m.host.bridge.lastHandle + 1) s o
          ⟨m.memory.objects.size, m.memory.objects.size + 1⟩ :: deeds) =
          (m.host.bridge.lastHandle + 1) :: startsFor s deeds := by simp [startsFor]
      exact ⟨fun h => absurd h hs, by simp [honly, hnone], fun _ => hafter⟩
    · have hskip : startsFor r (.start (m.host.bridge.lastHandle + 1) s o
          ⟨m.memory.objects.size, m.memory.objects.size + 1⟩ :: deeds) = startsFor r deeds := by
        simp [startsFor, hr]
      exact ⟨fun h => hskip ▸ ih.keeps (hcalm.answered r trivial h), hskip ▸ ih.once,
        fun h => ih.answered (hskip ▸ h)⟩

lemma Continues.memory (h : Continues m m') : m'.memory = m.memory := by
  cases h <;> rfl

lemma Known.memory {h : Handle} {outcome : Except String Json} (hknown : Known m h outcome m') :
    m'.memory = m.memory := by
  cases hknown <;> rfl

/-- A script starts no second operation for an object, as long as it does not set the member that keeps the
promise by itself. -/
lemma Does.once (h : Does m deeds m') {r : Ref} (hassign : .assign r "_promise" ∉ deeds) :
    StartsOnce r m deeds m' := by
  cases h with
  | quiet hon hquiet =>
    refine .of_nil (startsFor_assign r _) fun hr => hquiet.answered r ?_ (hon.memory ▸ hr)
    exact fun hmem => hassign (List.mem_map.mpr ⟨_, hmem, rfl⟩)
  | tell _ hquiet => exact .of_nil rfl fun hr => hquiet.answered r trivial hr
  | start hon hbefore hstarts hquiet =>
    have honce := hstarts.once r
    refine ⟨fun hr => ?_, honce.once, fun hne => hquiet.answered r trivial (honce.answered hne)⟩
    obtain ⟨hnone, hafter⟩ := honce.keeps (hbefore.answered r trivial (hon.memory ▸ hr))
    exact ⟨hnone, hquiet.answered r trivial hafter⟩
  | beginTask hhost hquiet => exact .of_nil rfl fun hr => hquiet.answered r trivial hr
  | await hcontrol hstack hp hbefore hpromise hquiet =>
    refine .of_nil rfl fun hr => hquiet.answered r trivial ?_
    exact answered_react _ _ _ (hbefore.answered r trivial hr)
  | fail hknown hend hquiet =>
    exact .of_nil rfl fun hr => hquiet.answered r trivial (hknown.memory ▸ hr)
  | endTask hknown hend hquiet =>
    refine .of_nil rfl fun hr => hquiet.answered r trivial ?_
    exact hknown.memory ▸ hr

/-! ## Promises of replies -/

/-- The promises of the operations that were started, in order. -/
def promisesIn (log : List Deed) : List Ref :=
  (startedIn (exchangesIn log)).map fun started => started.2.promise

/-- The promises of operations are different objects. -/
structure OwnPromises (log : List Deed) (m : Machine) : Prop where
  nodup : (promisesIn log).Nodup
  there : ∀ p ∈ promisesIn log, p < m.memory.objects.size

@[simp] lemma promisesIn_append (log more : List Deed) :
    promisesIn (log ++ more) = promisesIn log ++ promisesIn more := by
  simp [promisesIn, startedIn]

lemma OwnPromises.grow (h : OwnPromises log m) (hnone : promisesIn deeds = [])
    (hsize : m.memory.objects.size ≤ m'.memory.objects.size) : OwnPromises (log ++ deeds) m' := by
  refine ⟨?_, fun p hp => ?_⟩
  · rw [promisesIn_append, hnone, List.append_nil]
    exact h.nodup
  · rw [promisesIn_append, hnone, List.append_nil] at hp
    exact Nat.lt_of_lt_of_le (h.there p hp) hsize

lemma size_launch (m : Machine) (r : Ref) (o : Operation) :
    m.memory.objects.size < (m.launch r o).1.memory.objects.size := by
  have hexpecting : (expecting m o).memory.objects.size = m.memory.objects.size + 2 := by
    simp [expecting, Machine.remember, Machine.onHost, Memory.makePromise, Memory.makeKind, Memory.make]
  have hthen := (quiet_followed m o (((expecting m o).memory.field? r "_finish").getD .undefined)).size
  rw [launch_fst]
  simp only [Machine.update, Memory.writeField, Memory.change, Array.size_modify]
  omega

lemma Starts.ownPromises (h : Starts m deeds m') (hown : OwnPromises log m) :
    OwnPromises (log ++ deeds) m' := by
  induction h generalizing log with
  | nil => exact hown.grow rfl (Nat.le_refl _)
  | @cons m m' r o deeds hr ho _ ih =>
    have hone : OwnPromises (log ++ [.start (m.host.bridge.lastHandle + 1) r o
        ⟨m.memory.objects.size, m.memory.objects.size + 1⟩]) (m.launch r o).1 := by
      have hsize := size_launch m r o
      refine ⟨?_, fun p hp => ?_⟩
      · rw [promisesIn_append, List.nodup_append]
        refine ⟨hown.nodup, List.nodup_singleton _, fun p hp q hq hpq => ?_⟩
        have hlt := hown.there p hp
        rw [hpq, List.mem_singleton.mp hq] at hlt
        exact Nat.lt_irrefl _ hlt
      · rw [promisesIn_append] at hp
        obtain hp | hp := List.mem_append.mp hp
        · exact Nat.lt_trans (hown.there p hp) hsize
        · rw [List.mem_singleton.mp hp]
          exact hsize
    have hall := ih hone
    rwa [List.append_assoc] at hall

lemma Does.ownPromises (h : Does m deeds m') (hown : OwnPromises log m) :
    OwnPromises (log ++ deeds) m' := by
  cases h with
  | quiet hon hquiet =>
    exact hown.grow (by simp [promisesIn, startedIn]) (hon.memory ▸ hquiet.size)
  | tell _ hquiet => exact hown.grow rfl hquiet.size
  | start hon hbefore hstarts hquiet =>
    have hbegun : OwnPromises log _ := ⟨hown.nodup, fun p hp =>
      Nat.lt_of_lt_of_le (hon.memory ▸ hown.there p hp) hbefore.size⟩
    have hall := hstarts.ownPromises hbegun
    exact ⟨hall.nodup, fun p hp => Nat.lt_of_lt_of_le (hall.there p hp) hquiet.size⟩
  | beginTask hhost hquiet => exact hown.grow rfl hquiet.size
  | await hcontrol hstack hp hbefore hpromise hquiet =>
    exact hown.grow rfl (Nat.le_trans hbefore.size
      (Nat.le_trans (Nat.le_of_eq (react_size _ _ _).symm) hquiet.size))
  | fail hknown hend hquiet => exact hown.grow rfl (hknown.memory ▸ hquiet.size)
  | endTask hknown hend hquiet => exact hown.grow rfl (hknown.memory ▸ hquiet.size)

end TaskRunner.Proofs
