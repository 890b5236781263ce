import Mathlib.Tactic.Lemma
import TaskRunner.Script.Call

/-!
# What changes of the memory leave alone

Promises and the operations that were started are settled by the machine alone. Everything else that is done
to the memory makes new objects, or sets fields and kinds of others, and leaves these as they are. What
operations gave, which are results and responses, nothing changes.
-/

namespace TaskRunner.Proofs
open Script Memory

/-- How far a promise has come. -/
def stateOf : Kind → Option PromiseState
  | .promise state => some state
  | _ => none

/-- How far the promise at a place has come. -/
def promiseAt (m : Memory) (r : Ref) : Option PromiseState :=
  (m.kind? r).bind stateOf

lemma promiseAt_of_kind {m : Memory} {r : Ref} {k : Kind} (h : m.kind? r = some k)
    (hk : stateOf k = none) : promiseAt m r = none := by
  rw [promiseAt, h]
  exact hk

/-- Whether an object keeps a promise of its result, as an operation does once it was started. -/
def Answered (m : Memory) (r : Ref) : Prop :=
  ∃ p, m.field? r "_promise" = some (.object p)

/-- Whether objects are changed that are of a kind: lists, and what promises are settled by. -/
def changesKind : Kind → Bool
  | .list _ | .latch _ | .gathering _ _ _ => true
  | _ => false

/-- A change of the memory in which results keep what they hold, and responses stay responses. -/
structure KeepsResults (m m' : Memory) : Prop where
  results : ∀ r, m.kind? r = some .result → m'.kind? r = some .result
  fields : ∀ r key, m.kind? r = some .result → key ≠ "_promise" → m'.field? r key = m.field? r key
  responses : ∀ r, m.kind? r = some .response → m'.kind? r = some .response

/-- A change of the memory that settles no promise, and takes no promise from the objects in question. -/
structure Retains (safe : Ref → Prop) (m m' : Memory) : Prop where
  size : m.objects.size ≤ m'.objects.size
  results : KeepsResults m m'
  promises : ∀ r, promiseAt m' r = promiseAt m r ∨
    promiseAt m r = none ∧ promiseAt m' r = some (.pending [])
  answered : ∀ r, safe r → Answered m r → Answered m' r

lemma object?_make (m : Memory) (o : Object) (r : Ref) :
    (m.make o).1.object? r = if r = m.objects.size then some o else m.object? r := by
  simp only [make, object?, Array.getElem?_push]

lemma object?_change (m : Memory) (r : Ref) (f : Object → Object) (s : Ref) :
    (m.change r f).object? s = if r = s then (m.object? s).map f else m.object? s := by
  simp only [change, object?, Array.getElem?_modify]

namespace KeepsResults

variable {m m' m'' : Memory}

lemma refl (m : Memory) : KeepsResults m m :=
  ⟨fun _ h => h, fun _ _ _ _ => rfl, fun _ h => h⟩

lemma trans (h : KeepsResults m m') (h' : KeepsResults m' m'') : KeepsResults m m'' where
  results := fun r hr => h'.results r (h.results r hr)
  fields := fun r key hr hkey => (h'.fields r key (h.results r hr) hkey).trans (h.fields r key hr hkey)
  responses := fun r hr => h'.responses r (h.responses r hr)

/-- Objects that are left as they are hold what they held. -/
lemma of_object? (h : ∀ r, m.kind? r = some .result ∨ m.kind? r = some .response →
    m'.object? r = m.object? r) : KeepsResults m m' where
  results := fun r hr => by rw [kind?, h r (.inl hr), ← kind?, hr]
  fields := fun r key hr _ => by rw [field?, field?, h r (.inl hr)]
  responses := fun r hr => by rw [kind?, h r (.inr hr), ← kind?, hr]

lemma make (m : Memory) (o : Object) : KeepsResults m (m.make o).1 := by
  refine of_object? fun r hr => ?_
  have hold : r ≠ m.objects.size := by
    rintro rfl
    simp [kind?, object?] at hr
  rw [object?_make, if_neg hold]

lemma setKind {r : Ref} {before : Kind} (hbefore : m.kind? r = some before) (k : Kind)
    (hresult : before ≠ .result) (hresponse : before ≠ .response) : KeepsResults m (m.setKind r k) := by
  refine of_object? fun s hs => ?_
  have hother : r ≠ s := by
    rintro rfl
    rw [hbefore, Option.some.injEq, Option.some.injEq] at hs
    exact hs.elim hresult hresponse
  rw [Memory.setKind, object?_change, if_neg hother]

end KeepsResults

namespace Retains

variable {safe : Ref → Prop} {m m' m'' : Memory}

lemma refl (m : Memory) : Retains safe m m :=
  ⟨Nat.le_refl _, .refl m, fun _ => .inl rfl, fun _ _ h => h⟩

lemma trans (h : Retains safe m m') (h' : Retains safe m' m'') : Retains safe m m'' where
  size := Nat.le_trans h.size h'.size
  results := h.results.trans h'.results
  promises := by
    intro r
    obtain hsame | ⟨hnone, hnew⟩ := h.promises r <;> obtain hsame' | ⟨hnone', hnew'⟩ := h'.promises r
    · exact .inl (hsame'.trans hsame)
    · exact .inr ⟨hsame ▸ hnone', hnew'⟩
    · exact .inr ⟨hnone, hsame'.trans hnew⟩
    · rw [hnew] at hnone'
      cases hnone'
  answered := fun r hsafe hr => h'.answered r hsafe (h.answered r hsafe hr)

/-- Only the objects count. -/
lemma of_objects (h : m'.objects = m.objects) : Retains safe m m' := by
  have hobject : ∀ r, m'.object? r = m.object? r := fun r => by rw [object?, object?, h]
  refine ⟨Nat.le_of_eq (by rw [h]), .of_object? fun r _ => hobject r, fun r => .inl ?_,
    fun r _ ⟨p, hp⟩ => ⟨p, ?_⟩⟩
  · rw [promiseAt, promiseAt, kind?, kind?, hobject]
  · rw [field?, hobject]
    exact hp

lemma foldl {α : Type} {f : Memory → α → Memory} {items : List α}
    (h : ∀ m, ∀ a ∈ items, Retains safe m (f m a)) (m : Memory) : Retains safe m (items.foldl f m) := by
  induction items generalizing m with
  | nil => exact .refl m
  | cons a rest ih =>
    exact (h m a List.mem_cons_self).trans
      (ih (fun m a ha => h m a (List.mem_cons_of_mem _ ha)) (f m a))

/-! ## New objects -/

lemma make (m : Memory) (o : Object)
    (h : stateOf o.kind = none ∨ stateOf o.kind = some (.pending [])) : Retains safe m (m.make o).1 := by
  refine ⟨by simp [Memory.make], .make m o, fun r => ?_, fun r _ ⟨p, hp⟩ => ⟨p, ?_⟩⟩
  · by_cases hr : r = m.objects.size
    · have hbefore : promiseAt m r = none := by simp [promiseAt, kind?, object?, hr]
      have hafter : promiseAt (m.make o).1 r = stateOf o.kind := by
        simp [promiseAt, kind?, object?_make, hr]
      rw [hbefore, hafter]
      exact h.imp id fun hnew => ⟨rfl, hnew⟩
    · exact .inl (by simp [promiseAt, kind?, object?_make, hr])
  · have hr : r ≠ m.objects.size := by
      rintro rfl
      simp [field?, object?] at hp
    simpa [field?, object?_make, hr] using hp

lemma makeKind (m : Memory) (k : Kind) (h : stateOf k = none ∨ stateOf k = some (.pending [])) :
    Retains safe m (m.makeKind k).1 :=
  make m ⟨k, []⟩ h

lemma makePromise (m : Memory) : Retains safe m m.makePromise.1 :=
  makeKind m _ (.inr rfl)

lemma makeRecord (m : Memory) (fields : List (String × Value)) :
    Retains safe m (m.makeRecord fields).1 :=
  make m ⟨.record, fields⟩ (.inl rfl)

lemma makeList (m : Memory) (items : List Value) : Retains safe m (m.makeList items).1 :=
  makeKind m _ (.inl rfl)

lemma makeError (m : Memory) (c : ErrorClass) (message : String) :
    Retains safe m (m.makeError c message).1 :=
  make m ⟨.error c, _⟩ (.inl rfl)

lemma makeResult (m : Memory) (status output : Value) : Retains safe m (m.makeResult status output).1 :=
  make m ⟨.result, _⟩ (.inl rfl)

/-! ## Changed objects -/

lemma field?_setKind (m : Memory) (r : Ref) (k : Kind) (s : Ref) (key : String) :
    (m.setKind r k).field? s key = m.field? s key := by
  rw [field?, Memory.setKind, object?_change]
  split
  · simp only [field?, Option.bind_map, Function.comp_def]
  · rfl

lemma answered_setKind (m : Memory) (r : Ref) (k : Kind) {s : Ref} (h : Answered m s) :
    Answered (m.setKind r k) s := by
  obtain ⟨p, hp⟩ := h
  exact ⟨p, by rw [field?_setKind, hp]⟩

lemma size_setKind (m : Memory) (r : Ref) (k : Kind) :
    (m.setKind r k).objects.size = m.objects.size := by
  simp [Memory.setKind, change]

/-- The kind of an object changes, if it is one that does. -/
lemma setKind (m : Memory) (r : Ref) (k : Kind) {before : Kind} (hkind : m.kind? r = some before)
    (hbefore : changesKind before = true) (hk : stateOf k = none) : Retains safe m (m.setKind r k) := by
  have hresults : KeepsResults m (m.setKind r k) :=
    .setKind hkind k (by rintro rfl; cases hbefore) (by rintro rfl; cases hbefore)
  refine ⟨Nat.le_of_eq (size_setKind m r k).symm, hresults, fun s => .inl ?_,
    fun s _ => answered_setKind m r k⟩
  by_cases hs : r = s
  · subst hs
    have hplain : stateOf before = none := by cases before <;> first | rfl | cases hbefore
    rw [promiseAt_of_kind hkind hplain, promiseAt, kind?, Memory.setKind, object?_change, if_pos rfl]
    cases m.object? r with
    | none => rfl
    | some o => exact hk
  · simp [promiseAt, kind?, Memory.setKind, object?_change, hs]

lemma lookup_putField (key other : String) (v : Value) (fields : List (String × Value)) :
    (putField key v fields).lookup other = if other = key then some v else fields.lookup other := by
  induction fields with
  | nil => by_cases h : other = key <;> simp [putField, List.lookup_cons, h, beq_false_of_ne]
  | cons entry rest ih =>
    obtain ⟨k, old⟩ := entry
    by_cases hk : k = key
    · subst hk
      by_cases h : other = k <;> simp [putField, List.lookup_cons, h, beq_false_of_ne]
    · by_cases ho : other = k
      · subst ho
        simp [putField, hk]
      · simp [putField, hk, List.lookup_cons, beq_false_of_ne ho, ih]

lemma field?_writeField (m : Memory) (r : Ref) (key : String) (v : Value) (s : Ref) (other : String) :
    (m.writeField r key v).field? s other =
      if r = s ∧ other = key then (m.object? s).map fun _ => v else m.field? s other := by
  rw [field?, writeField, object?_change]
  by_cases hs : r = s
  · subst hs
    cases ho : m.object? r with
    | none => simp [field?, ho]
    | some o => by_cases hk : other = key <;> simp [field?, ho, lookup_putField, hk]
  · simp [hs, field?]

lemma kind?_writeField (m : Memory) (r : Ref) (key : String) (v : Value) (s : Ref) :
    (m.writeField r key v).kind? s = m.kind? s := by
  rw [kind?, writeField, object?_change, kind?]
  split
  · cases m.object? s <;> rfl
  · rfl

lemma keeps_writeField (m : Memory) (r : Ref) (key : String) (v : Value)
    (h : m.kind? r = some .result → key = "_promise") : KeepsResults m (m.writeField r key v) where
  results := fun s hs => by rw [kind?_writeField, hs]
  fields := fun s other hs hother => by
    rw [field?_writeField, if_neg]
    rintro ⟨rfl, rfl⟩
    exact hother (h hs)
  responses := fun s hs => by rw [kind?_writeField, hs]

lemma writeField (m : Memory) (r : Ref) (key : String) (v : Value) (hsafe : safe r → key ≠ "_promise")
    (hresult : m.kind? r = some .result → key = "_promise") : Retains safe m (m.writeField r key v) := by
  refine ⟨by simp [Memory.writeField, change], keeps_writeField m r key v hresult, fun s => .inl ?_,
    fun s hs ⟨p, hp⟩ => ⟨p, ?_⟩⟩
  · rw [promiseAt, kind?_writeField, promiseAt]
  · rw [field?_writeField, if_neg]
    · exact hp
    · rintro ⟨rfl, hkey⟩
      exact hsafe hs hkey.symm

lemma setField (m : Memory) (r : Ref) (key : String) (v : Value) (h : safe r → key ≠ "_promise") :
    Retains safe m (m.setField r key v) := by
  unfold Memory.setField
  split
  · exact .refl m
  · rename_i hother
    exact writeField m r key v h fun hresult => absurd hresult hother

/-- A member of an object may be set by the script, but not the one that keeps the promise. -/
lemma setMember (m : Memory) (target : Value) (key : String) (v : Value)
    (h : ∀ r, target = .object r → safe r → key ≠ "_promise") :
    Retains safe m (m.setMember target key v) := by
  unfold Memory.setMember
  split
  · rename_i r
    split
    · rename_i items hkind
      split
      · exact setKind m r _ hkind rfl rfl
      · exact setField m r key v (h r rfl)
    · exact setField m r key v (h r rfl)
  · exact of_objects rfl
  · exact .refl m

lemma addVariables (m : Memory) (payload : Ref) (vars : List (String × Value))
    (h : ∀ r, m.field? payload "env" = some (.object r) → safe r →
      ∀ entry ∈ vars, entry.1 ≠ "_promise") : Retains safe m (Machine.addVariables m payload vars) := by
  unfold Machine.addVariables
  split
  · rename_i env henv
    exact foldl (fun m' entry hentry => setField m' env entry.1 _ fun hsafe =>
      h env henv hsafe entry hentry) m
  · exact .refl m

/-! ## Scopes -/

lemma openScope (m : Memory) (outer : ScopeId) (names : List (String × Binding)) :
    Retains safe m (m.openScope outer names).1 :=
  of_objects rfl

lemma setName (m : Memory) (scope : ScopeId) (name : String) (b : Binding) :
    Retains safe m (m.setName scope name b) :=
  of_objects rfl

lemma setFirst (m : Memory) (scope : ScopeId) (name : String) (v : Value) :
    Retains safe m (m.setFirst scope name v) :=
  of_objects rfl

lemma copyScope (m : Memory) (scope : ScopeId) : Retains safe m (m.copyScope scope).1 := by
  unfold Memory.copyScope
  split
  · exact of_objects rfl
  · exact .refl m

lemma declare (m : Memory) (scope : ScopeId) (body : List Stmt) :
    Retains safe m (m.declare scope body) := by
  unfold Memory.declare
  refine (foldl (fun m name _ => setName m scope name.1 _) m).trans (foldl (fun m f _ => ?_) _)
  exact (makeKind m (.function ⟨f, scope⟩) (.inl rfl)).trans (setName _ scope f.name _)

lemma makeFunction (m : Memory) (f : Function) (scope : ScopeId) :
    Retains safe m (m.makeFunction f scope).1 := by
  unfold Memory.makeFunction
  split
  · exact makeKind m _ (.inl rfl)
  · exact ((openScope m scope []).trans (makeKind _ _ (.inl rfl))).trans (setName _ _ _ _)

/-! ## Data as values -/

mutual

lemma load (m : Memory) : ∀ j : Json, Retains safe m (m.load j).1
  | .null | .bool _ | .int _ | .float _ | .text _ => by
    rw [Memory.load]
    exact .refl m
  | .list items => by
    rw [Memory.load]
    exact (loadItems m items).trans (makeList _ _)
  | .record fields => by
    rw [Memory.load]
    exact (loadFields m fields).trans (makeRecord _ _)

lemma loadItems (m : Memory) : ∀ items : List Json, Retains safe m (m.loadItems items).1
  | [] => by
    rw [Memory.loadItems]
    exact .refl m
  | item :: rest => by
    rw [Memory.loadItems]
    exact (load m item).trans (loadItems _ rest)

lemma loadFields (m : Memory) : ∀ fields : List (String × Json), Retains safe m (m.loadFields fields).1
  | [] => by
    rw [Memory.loadFields]
    exact .refl m
  | (_, item) :: rest => by
    rw [Memory.loadFields]
    exact (load m item).trans (loadFields _ rest)

end

end Retains

end TaskRunner.Proofs
