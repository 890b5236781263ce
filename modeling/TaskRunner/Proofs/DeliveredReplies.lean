import TaskRunner.Proofs.ScriptTurns
import TaskRunner.Proofs.StartedOperations

/-!
# Replies are delivered once

In whatever order operations end, every operation that a script starts is answered at most once, with its
own reply, and none is lost. Nothing is left to come exactly when nothing waits for a reply, and no object
starts two operations.
-/

namespace TaskRunner.Proofs
open Script Machine

variable {ends : Endings} {m m' m'' : Machine} {log deeds more : List Deed} {r : Ref}

/-! ## Turns -/

/-- What passes over the bridge in a turn is what its deeds say. -/
lemma Turn.bridge (h : Turn ends m deeds m') (run : BridgeRun (exchangesIn log) m.host.bridge) :
    BridgeRun (exchangesIn (log ++ deeds)) m'.host.bridge := by
  cases h with
  | work hwork => exact (does_work hwork).bridge run
  | finish hrunning hends =>
    rw [exchangesIn_append]
    exact run.snoc (.finish _ hrunning)
  | deliver hidle htake =>
    rw [exchangesIn_append, (quiet_accept m _ _ _).host]
    exact run.snoc (.deliver htake)
  | ask function args =>
    rw [List.append_nil, (quiet_ask m function args).host]
    exact run

/-- A turn starts no second operation for an object. -/
lemma Turn.once (h : Turn ends m deeds m') (hassign : .assign r "_promise" ∉ deeds) :
    StartsOnce r m deeds m' := by
  cases h with
  | work hwork => exact (does_work hwork).once hassign
  | finish hrunning hends => exact .of_nil rfl id
  | deliver hidle htake => exact .of_nil rfl ((calm_accept m _ _ _).answered r trivial)
  | ask function args => exact .of_nil rfl ((quiet_ask m function args).answered r trivial)

/-- Every operation that a turn starts has a promise of its own. -/
lemma Turn.ownPromises (h : Turn ends m deeds m') (hown : OwnPromises log m) :
    OwnPromises (log ++ deeds) m' := by
  cases h with
  | work hwork => exact (does_work hwork).ownPromises hown
  | finish hrunning hends => exact hown.grow rfl (Nat.le_refl _)
  | deliver hidle htake => exact hown.grow rfl (calm_accept m _ _ _).size
  | ask function args => exact hown.grow rfl (quiet_ask m function args).size

/-! ## Runs -/

lemma bridge_start (services : Services) (world : World) (program : List Stmt) :
    BridgeRun (exchangesIn []) (Machine.start ⟨services, world, .empty⟩ program).host.bridge :=
  .nil

lemma Turns.bridge (h : Turns ends m log m') (hstart : BridgeRun (exchangesIn []) m.host.bridge) :
    BridgeRun (exchangesIn log) m'.host.bridge := by
  induction h with
  | nil => exact hstart
  | snoc _ hturn ih => exact hturn.bridge ih

lemma StartsOnce.trans (h : StartsOnce r m deeds m') (h' : StartsOnce r m' more m'') :
    StartsOnce r m (deeds ++ more) m'' where
  keeps := fun hr => by
    obtain ⟨hnone, hmiddle⟩ := h.keeps hr
    obtain ⟨hnone', hend⟩ := h'.keeps hmiddle
    exact ⟨by rw [startsFor_append, hnone, hnone', List.nil_append], hend⟩
  once := by
    rw [startsFor_append]
    by_cases hnone : startsFor r deeds = []
    · simpa [hnone] using h'.once
    · simpa [(h'.keeps (h.answered hnone)).1] using h.once
  answered := fun hne => by
    rw [startsFor_append] at hne
    by_cases hnone : startsFor r deeds = []
    · exact h'.answered fun hnone' => hne (by rw [hnone, hnone', List.nil_append])
    · exact (h'.keeps (h.answered hnone)).2

lemma Turns.once (h : Turns ends m log m') (hassign : .assign r "_promise" ∉ log) :
    StartsOnce r m log m' := by
  induction h with
  | nil => exact .of_nil rfl id
  | snoc _ hturn ih =>
    rw [List.mem_append, not_or] at hassign
    exact (ih hassign.1).trans (hturn.once hassign.2)

lemma Turns.ownPromises (h : Turns ends m log m') : OwnPromises log m' := by
  induction h with
  | nil => exact ⟨List.nodup_nil, fun _ hp => absurd hp List.not_mem_nil⟩
  | snoc _ hturn ih => exact hturn.ownPromises ih

end TaskRunner.Proofs
