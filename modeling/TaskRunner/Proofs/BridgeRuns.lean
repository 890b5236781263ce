import Mathlib.Data.List.Nodup
import Mathlib.Data.List.Perm.Basic
import TaskRunner.Script.Bridge

/-!
# What passes over the bridge

Operations are started and finished in any order, replies are taken one at a time, and tasks of the script
begin and end in between. Every exchange keeps a tally: each operation that was started is being worked on,
or has a reply that waits to be taken, or was delivered once, to what waited for it.
-/

namespace TaskRunner.Proofs
open Script

/-- Something that passes between a script and what goes on outside of it. -/
inductive Exchange (Work Reply Resolver : Type) where
  | start (h : Handle) (work : Work) (resolver : Resolver)
  | finish (h : Handle) (reply : Reply)
  | deliver (h : Handle) (reply : Reply) (receiver : Option Resolver)
  | beginTask (h : Handle) (id : TaskId)
  | endTask (h : Handle)

variable {Work Reply Resolver : Type}

/-- One exchange. Any operation that is being worked on may be the next to finish, with any reply. -/
inductive Exchanges : Bridge Work Reply Resolver → Exchange Work Reply Resolver →
    Bridge Work Reply Resolver → Prop where
  | start (b : Bridge Work Reply Resolver) (work : Work) (resolver : Resolver) :
    Exchanges b (.start (b.start work).2 work resolver)
      ((b.start work).1.expect (b.start work).2 resolver)
  | finish {b : Bridge Work Reply Resolver} {h : Handle} {work : Work} (reply : Reply)
    (hrunning : (h, work) ∈ b.running) : Exchanges b (.finish h reply) (b.finish h reply)
  | deliver {b rest : Bridge Work Reply Resolver} {h : Handle} {reply : Reply}
    (htake : b.take? = some ((h, reply), rest)) :
    Exchanges b (.deliver h reply (rest.deliver h).2) (rest.deliver h).1
  | beginTask (b : Bridge Work Reply Resolver) (id : TaskId) :
    Exchanges b (.beginTask (b.beginTask id).2 id) (b.beginTask id).1
  | endTask {b rest : Bridge Work Reply Resolver} {h : Handle} {id : TaskId}
    (hend : b.endTask? h = some (id, rest)) : Exchanges b (.endTask h) rest

/-- The exchanges since nothing was started, and the bridge after them. -/
inductive BridgeRun : List (Exchange Work Reply Resolver) → Bridge Work Reply Resolver → Prop where
  | nil : BridgeRun [] .empty
  | snoc {log : List (Exchange Work Reply Resolver)} {b b' : Bridge Work Reply Resolver}
    {e : Exchange Work Reply Resolver} :
    BridgeRun log b → Exchanges b e b' → BridgeRun (log ++ [e]) b'

/-! ## Logs -/

/-- The handles that were given out. -/
def handlesIn (log : List (Exchange Work Reply Resolver)) : List Handle :=
  log.filterMap fun
    | .start h _ _ => some h
    | .beginTask h _ => some h
    | _ => none

/-- The operations that were started, with what waits for them. -/
def startedIn (log : List (Exchange Work Reply Resolver)) : List (Handle × Resolver) :=
  log.filterMap fun
    | .start h _ r => some (h, r)
    | _ => none

/-- The operations that were finished, with their replies. -/
def finishedIn (log : List (Exchange Work Reply Resolver)) : List (Handle × Reply) :=
  log.filterMap fun
    | .finish h reply => some (h, reply)
    | _ => none

/-- The replies that were delivered, with the operations that they are of. -/
def deliveredIn (log : List (Exchange Work Reply Resolver)) : List (Handle × Reply) :=
  log.filterMap fun
    | .deliver h reply _ => some (h, reply)
    | _ => none

section Logs

variable (log : List (Exchange Work Reply Resolver)) (e : Exchange Work Reply Resolver)

@[simp] lemma handlesIn_snoc : handlesIn (log ++ [e]) = handlesIn log ++ handlesIn [e] :=
  List.filterMap_append

@[simp] lemma startedIn_snoc : startedIn (log ++ [e]) = startedIn log ++ startedIn [e] :=
  List.filterMap_append

@[simp] lemma finishedIn_snoc : finishedIn (log ++ [e]) = finishedIn log ++ finishedIn [e] :=
  List.filterMap_append

@[simp] lemma deliveredIn_snoc : deliveredIn (log ++ [e]) = deliveredIn log ++ deliveredIn [e] :=
  List.filterMap_append

lemma started_sublist : ((startedIn log).map Prod.fst).Sublist (handlesIn log) := by
  induction log with
  | nil => exact List.Sublist.refl _
  | cons e rest ih =>
    cases e with
    | start h work r => exact ih.cons_cons h
    | beginTask h id => exact ih.cons h
    | finish h reply | deliver h reply receiver | endTask h => exact ih

end Logs

/-- What the log of the exchanges says of the bridge. -/
structure Tally (log : List (Exchange Work Reply Resolver)) (b : Bridge Work Reply Resolver) :
    Prop where
  handles : handlesIn log = List.range' 1 b.lastHandle
  inFlight : b.inFlight = b.running.length + b.replies.length
  /-- Replies are delivered in the order in which they came, and the others are still there. -/
  replies : finishedIn log = deliveredIn log ++ b.replies
  /-- Every operation that was started is being worked on or has finished. -/
  operations : ((startedIn log).map Prod.fst).Perm
    (b.running.map Prod.fst ++ (finishedIn log).map Prod.fst)
  waiting : (b.waiting.map Prod.fst).Perm (b.running.map Prod.fst ++ b.replies.map Prod.fst)
  resolvers : ∀ w ∈ b.waiting, w ∈ startedIn log
  deliveries : ∀ h reply receiver, .deliver h reply receiver ∈ log →
    ∃ r, receiver = some r ∧ (h, r) ∈ startedIn log

/-! ## Entries by handle -/

section Entries

variable {α : Type} {entries : List (Handle × α)} {h : Handle}

lemma map_fst_perm_cons_filter (hnodup : (entries.map Prod.fst).Nodup)
    (hmem : h ∈ entries.map Prod.fst) :
    (entries.map Prod.fst).Perm (h :: (entries.filter (·.1 != h)).map Prod.fst) := by
  have hfilter : (entries.filter (·.1 != h)).map Prod.fst = (entries.map Prod.fst).erase h := by
    rw [hnodup.erase_eq_filter, List.filter_map]
    rfl
  rw [hfilter]
  exact List.perm_cons_erase hmem

lemma exists_lookup (hmem : h ∈ entries.map Prod.fst) :
    ∃ a, entries.lookup h = some a ∧ (h, a) ∈ entries := by
  induction entries with
  | nil => exact absurd hmem List.not_mem_nil
  | cons entry rest ih =>
    obtain ⟨k, a⟩ := entry
    by_cases hk : h = k
    · exact ⟨a, by simp [hk], by simp [hk]⟩
    · have hrest : h ∈ rest.map Prod.fst := by simpa [hk] using hmem
      obtain ⟨a', hlookup, hin⟩ := ih hrest
      refine ⟨a', ?_, List.mem_cons_of_mem _ hin⟩
      rw [List.lookup_cons, beq_false_of_ne hk]
      exact hlookup

end Entries

/-! ## One exchange -/

namespace Tally

variable {log : List (Exchange Work Reply Resolver)} {b b' : Bridge Work Reply Resolver}

lemma nil : Tally ([] : List (Exchange Work Reply Resolver)) .empty := by
  constructor <;> simp [Bridge.empty, handlesIn, startedIn, finishedIn, deliveredIn]

variable (t : Tally log b)
include t

lemma nodup_handles : (handlesIn log).Nodup :=
  t.handles ▸ List.nodup_range'

lemma nodup_started : ((startedIn log).map Prod.fst).Nodup :=
  t.nodup_handles.sublist (started_sublist log)

lemma nodup_operations : (b.running.map Prod.fst ++ (finishedIn log).map Prod.fst).Nodup :=
  t.operations.nodup_iff.mp t.nodup_started

lemma nodup_waiting : (b.waiting.map Prod.fst).Nodup := by
  have hoperations := t.nodup_operations
  rw [t.replies, List.map_append] at hoperations
  refine t.waiting.nodup_iff.mpr (hoperations.sublist ?_)
  exact (List.Sublist.refl _).append (List.sublist_append_right _ _)

lemma start (work : Work) (r : Resolver) :
    Tally (log ++ [.start (b.start work).2 work r])
      ((b.start work).1.expect (b.start work).2 r) where
  handles := by
    rw [handlesIn_snoc, t.handles, show ((b.start work).1.expect (b.start work).2 r).lastHandle =
      b.lastHandle + 1 from rfl, List.range'_1_concat, Nat.add_comm 1]
    rfl
  inFlight := by
    simp only [Bridge.start, Bridge.expect, t.inFlight, List.length_append, List.length_singleton]
    omega
  replies := by simpa [finishedIn, deliveredIn, Bridge.start, Bridge.expect] using t.replies
  operations := by
    have hlast := (t.operations.append_right [b.lastHandle + 1]).trans
      (List.perm_append_singleton _ _)
    have hmiddle : (b.running.map Prod.fst ++ (b.lastHandle + 1) :: (finishedIn log).map Prod.fst).Perm _ :=
      List.perm_middle
    simpa [startedIn, finishedIn, Bridge.start, Bridge.expect] using hlast.trans hmiddle.symm
  waiting := by
    have hlast := (t.waiting.append_right [b.lastHandle + 1]).trans (List.perm_append_singleton _ _)
    have hmiddle : (b.running.map Prod.fst ++ (b.lastHandle + 1) :: b.replies.map Prod.fst).Perm _ :=
      List.perm_middle
    simpa [Bridge.start, Bridge.expect] using hlast.trans hmiddle.symm
  resolvers := by
    intro w hw
    rw [startedIn_snoc]
    obtain hw | hw := List.mem_append.mp hw
    · exact List.mem_append_left _ (t.resolvers w hw)
    · exact List.mem_append_right _ hw
  deliveries := by
    intro h reply receiver hmem
    rw [startedIn_snoc]
    obtain hmem | hmem := List.mem_append.mp hmem
    · obtain ⟨r', hr', hstarted⟩ := t.deliveries h reply receiver hmem
      exact ⟨r', hr', List.mem_append_left _ hstarted⟩
    · exact absurd (List.mem_singleton.mp hmem) nofun

lemma finish {h : Handle} {work : Work} (reply : Reply) (hrunning : (h, work) ∈ b.running) :
    Tally (log ++ [.finish h reply]) (b.finish h reply) := by
  have hkeys := map_fst_perm_cons_filter (t.nodup_operations.of_append_left)
    (List.mem_map_of_mem (f := Prod.fst) hrunning)
  have hmoved : ∀ l : List Handle, (b.running.map Prod.fst ++ l).Perm
      ((b.running.filter (·.1 != h)).map Prod.fst ++ (l ++ [h])) := by
    intro l
    refine (hkeys.append_right l).trans ?_
    rw [← List.append_assoc]
    exact (List.perm_append_singleton h _).symm
  constructor
  · simpa [handlesIn, Bridge.finish] using t.handles
  · have hlength := hkeys.length_eq
    simp only [List.length_map, List.length_cons] at hlength
    simp only [Bridge.finish, t.inFlight, List.length_append, List.length_singleton]
    omega
  · rw [finishedIn_snoc, t.replies]
    simp [Bridge.finish, finishedIn, deliveredIn]
  · simpa [startedIn, finishedIn, Bridge.finish] using t.operations.trans (hmoved _)
  · simpa [Bridge.finish] using t.waiting.trans (hmoved _)
  · intro w hw
    simpa [startedIn] using t.resolvers w hw
  · intro h' reply' receiver hmem
    have hbefore : .deliver h' reply' receiver ∈ log := by simpa using hmem
    simpa [startedIn] using t.deliveries h' reply' receiver hbefore

lemma deliver {rest : Bridge Work Reply Resolver} {h : Handle} {reply : Reply}
    (htake : b.take? = some ((h, reply), rest)) :
    Tally (log ++ [.deliver h reply (rest.deliver h).2]) (rest.deliver h).1 := by
  obtain ⟨more, hreplies, hrest⟩ : ∃ more, b.replies = (h, reply) :: more ∧
      rest = { b with inFlight := b.inFlight - 1, replies := more } := by
    unfold Bridge.take? at htake
    split at htake
    · cases htake
    · split at htake
      · cases htake
      · rename_i first more hreplies
        simp only [Option.some.injEq, Prod.mk.injEq] at htake
        exact ⟨more, by rw [hreplies, htake.1], htake.2.symm⟩
  subst hrest
  have hwaits : h ∈ b.waiting.map Prod.fst :=
    t.waiting.mem_iff.mpr (by simp [hreplies])
  obtain ⟨r, hlookup, hin⟩ := exists_lookup hwaits
  have hkeys := map_fst_perm_cons_filter t.nodup_waiting hwaits
  constructor
  · simpa [handlesIn, Bridge.deliver] using t.handles
  · simp [Bridge.deliver, t.inFlight, hreplies]
  · rw [finishedIn_snoc, t.replies, hreplies]
    simp [Bridge.deliver, finishedIn, deliveredIn]
  · simpa [startedIn, finishedIn, Bridge.deliver] using t.operations
  · have hrest := hkeys.symm.trans t.waiting
    rw [hreplies, List.map_cons] at hrest
    exact (hrest.trans List.perm_middle).cons_inv
  · intro w hw
    have hbefore : w ∈ b.waiting := List.mem_of_mem_filter hw
    simpa [startedIn] using t.resolvers w hbefore
  · intro h' reply' receiver hmem
    rw [startedIn_snoc]
    obtain hmem | hmem := List.mem_append.mp hmem
    · obtain ⟨r', hr', hstarted⟩ := t.deliveries h' reply' receiver hmem
      exact ⟨r', hr', List.mem_append_left _ hstarted⟩
    · cases List.mem_singleton.mp hmem
      exact ⟨r, hlookup, List.mem_append_left _ (t.resolvers _ hin)⟩

/-- An exchange that gives out no handle of an operation and touches none leaves the operations alone. -/
lemma aside {e : Exchange Work Reply Resolver} {lastHandle : Handle} {tasks : List (Handle × TaskId)}
    (hhandles : handlesIn (log ++ [e]) = List.range' 1 lastHandle) (hstarted : startedIn [e] = [])
    (hfinished : finishedIn [e] = []) (hdelivered : deliveredIn [e] = [])
    (hdeliver : ∀ h reply receiver, e ≠ .deliver h reply receiver) :
    Tally (log ++ [e]) { b with lastHandle, tasks } where
  handles := hhandles
  inFlight := t.inFlight
  replies := by simpa [hfinished, hdelivered] using t.replies
  operations := by simpa [hfinished, hstarted] using t.operations
  waiting := t.waiting
  resolvers := fun w hw => by simpa [hstarted] using t.resolvers w hw
  deliveries := fun h reply receiver hmem => by
    have hbefore : .deliver h reply receiver ∈ log := by
      simpa [(hdeliver h reply receiver).symm] using hmem
    simpa [hstarted] using t.deliveries h reply receiver hbefore

lemma beginTask (id : TaskId) :
    Tally (log ++ [.beginTask (b.beginTask id).2 id]) (b.beginTask id).1 :=
  t.aside (by
    rw [handlesIn_snoc, t.handles, List.range'_1_concat, Nat.add_comm 1]
    rfl) rfl rfl rfl (fun _ _ _ => nofun)

lemma endTask {rest : Bridge Work Reply Resolver} {h : Handle} {id : TaskId}
    (hend : b.endTask? h = some (id, rest)) : Tally (log ++ [.endTask h]) rest := by
  obtain ⟨_, -, hrest⟩ := Option.map_eq_some_iff.mp hend
  cases hrest
  exact t.aside (by simpa [handlesIn] using t.handles) rfl rfl rfl (fun _ _ _ => nofun)

/-- Every exchange keeps the tally. -/
lemma exchange {e : Exchange Work Reply Resolver} (he : Exchanges b e b') : Tally (log ++ [e]) b' := by
  cases he with
  | start work resolver => exact t.start work resolver
  | finish reply hrunning => exact t.finish reply hrunning
  | deliver htake => exact t.deliver htake
  | beginTask id => exact t.beginTask id
  | endTask hend => exact t.endTask hend

end Tally

/-- The tally is right after any exchanges. -/
theorem BridgeRun.tally {log : List (Exchange Work Reply Resolver)} {b : Bridge Work Reply Resolver}
    (run : BridgeRun log b) : Tally log b := by
  induction run with
  | nil => exact .nil
  | snoc _ he ih => exact ih.exchange he

end TaskRunner.Proofs
