import TaskRunner.Proofs.ScriptDeeds

/-!
# Turns of a script and of what goes on outside of it

The script goes on by itself, any operation that was started is finished, and when the script is idle the
next reply is handed to it. A run takes such turns until nothing is left to do.
-/

namespace TaskRunner.Proofs
open Script Machine

/-- How operations may end: with which changes to the world, and with which replies. -/
abbrev Endings := Host → Operation → World → Reply → Prop

/-- An operation ends as it does when it is carried out at once. -/
def CarriedOut : Endings :=
  fun host o world reply => o.run host.services host.world = (world, reply)

/-- A turn of a script or of what goes on outside of it. Any operation that was started may be the next to
end, at any time. -/
inductive Turn (ends : Endings) (m : Machine) : List Deed → Machine → Prop where
  | work {m' : Machine} (hwork : work? m = some m') : Turn ends m (deedsOf m) m'
  | finish {h : Handle} {o : Operation} {reply : Reply} {world : World}
    (hrunning : (h, o) ∈ m.host.bridge.running) (hends : ends m.host o world reply) :
    Turn ends m [.finish h reply]
      { m with host := { m.host with world, bridge := m.host.bridge.finish h reply } }
  | deliver {h : Handle} {reply : Reply} {rest : Bridge Operation Reply Resolver}
    (hidle : work? m = none) (htake : m.host.bridge.take? = some ((h, reply), rest)) :
    Turn ends m [.deliver h reply (rest.deliver h).2]
      (m.accept { m.host with bridge := (rest.deliver h).1 } reply (rest.deliver h).2)
  /-- A function of the script is asked for. -/
  | ask (function : Expr) (args : List Json) : Turn ends m [] (m.ask function args)

/-- Turns one after the other, with what was done. -/
inductive Turns (ends : Endings) (m : Machine) : List Deed → Machine → Prop where
  | nil : Turns ends m [] m
  | snoc {m₁ m₂ : Machine} {log deeds : List Deed} (hbefore : Turns ends m log m₁)
    (hturn : Turn ends m₁ deeds m₂) : Turns ends m (log ++ deeds) m₂

variable {ends : Endings} {m m' m'' : Machine} {log deeds more : List Deed}

lemma Turns.trans (h : Turns ends m log m') (h' : Turns ends m' more m'') :
    Turns ends m (log ++ more) m'' := by
  induction h' with
  | nil => simpa using h
  | snoc _ hturn ih => exact List.append_assoc .. ▸ ih.snoc hturn

/-! ## Replies and calls -/

lemma quiet_accept (m : Machine) (host : Host) (reply : Reply) (receiver : Option Resolver) :
    Quiet (fun _ => True) { m with host } (m.accept host reply receiver) := by
  cases receiver with
  | none => exact .refl _
  | some r =>
    have hloaded : Quiet (fun _ => True) { m with host } ({ m with host }.remember (·.load reply.data)).1 :=
      (Quiet.refl _).remembers (Retains.load m.memory reply.data)
    rw [Machine.accept]
    exact hloaded.fulfilOnce r.promise r.latch _

lemma calm_accept (m : Machine) (host : Host) (reply : Reply) (receiver : Option Resolver) :
    Calm (fun _ => True) m (m.accept host reply receiver) :=
  have h := quiet_accept m host reply receiver
  ⟨h.size, h.answered, h.flows⟩

lemma quiet_ask (m : Machine) (function : Expr) (args : List Json) :
    Quiet (fun _ => True) m (m.ask function args) := by
  have hloaded : Quiet (fun _ => True) m (m.remember (·.loadItems args)).1 :=
    (Quiet.refl m).remembers (.loadItems _ _)
  have hcleared (values : List Value) :
      Quiet (fun _ => True) m { (m.remember (·.loadItems args)).1 with stack := [.invoke values] } :=
    ⟨⟨hloaded.size, hloaded.answered, hloaded.flows⟩, rfl, fun h => by
      have hheld := hloaded.held h
      simp only [heldBy, List.filterMap_cons, taskOfFrame, List.filterMap_nil, List.count_nil] at hheld ⊢
      omega⟩
  exact (hcleared _).eval function globalScope

/-! ## Runs -/

lemma work?_eq_none : work? m = none ↔ m.step? = none ∧ m.jobs = [] := by
  unfold work?
  cases m.step? with
  | some m' => simp
  | none => cases m.jobs <;> simp

end TaskRunner.Proofs
