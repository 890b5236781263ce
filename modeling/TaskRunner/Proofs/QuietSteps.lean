import TaskRunner.Proofs.QuietCalls

/-!
# Steps that stay inside of a script

A step does one thing to the members of objects that the script chooses: it sets them. The step of a
function of a task that comes to its end is no quiet one, and neither is a call of a built-in function that
acts outside.
-/

namespace TaskRunner.Proofs
open Script Machine

/-- The members of objects that an operator sets. -/
def membersSet (m : Memory) (c : Combine) (values : List Value) : List (Ref × String) :=
  match c, values with
  | .setMember key, .object r :: _ => [(r, key)]
  | .setIndex, .object r :: key :: _ => [(r, m.text key)]
  | .updateMember key _, .object r :: _ => [(r, key)]
  | .updateIndex _, .object r :: key :: _ => [(r, m.text key)]
  | .countMember key _ _, .object r :: _ => [(r, key)]
  | .countIndex _ _, .object r :: key :: _ => [(r, m.text key)]
  | _, _ => []

/-- A value that is missing names no member. -/
lemma membersSet_undefined {m : Memory} {c : Combine} {values : List Value} {r : Ref}
    (h : (r, "_promise") ∈ membersSet m c (values ++ [.undefined])) :
    (r, "_promise") ∈ membersSet m c values := by
  have hname : m.text .undefined ≠ "_promise" := by
    have htext : m.text .undefined = "undefined" := by simp [Memory.text, Memory.textFrom]
    rw [htext]
    decide
  match values with
  | [] => cases c <;> simp [membersSet] at h
  | [v] =>
    cases v <;> cases c <;> simp_all [membersSet, eq_comm]
  | v :: w :: rest => cases v <;> cases c <;> exact h

namespace Quiet

variable {safe : Ref → Prop} {m m' : Machine} (q : Quiet safe m m')
include q

/-! ## Names and members -/

lemma readName (n : String) (scope : ScopeId) {next : Machine → Value → Machine}
    (hnext : ∀ v, Quiet safe m (next m' v)) : Quiet safe m (m'.readName n scope next) := by
  unfold Machine.readName
  split
  · exact hnext _
  · exact q.raise _ _
  · split
    · exact hnext _
    · exact q.raise _ _

lemma assignName (n : String) (v : Value) (scope : ScopeId) {next : Machine → Machine}
    (hnext : ∀ m'', Quiet safe m m'' → Quiet safe m (next m'')) :
    Quiet safe m (m'.assignName n v scope next) := by
  unfold Machine.assignName
  split
  · exact hnext _ (q.remembers (.setName _ _ _ _))
  · split
    · exact q.raise _ _
    · split
      · exact q.raise _ _
      · exact hnext _ (q.remembers (.setName _ _ _ _))

lemma readMember (v : Value) (key : String) {next : Machine → Value → Machine}
    (hnext : ∀ v, Quiet safe m (next m' v)) : Quiet safe m (m'.readMember v key next) := by
  unfold Machine.readMember
  split
  · exact hnext _
  · exact q.raise _ _

lemma writeMember {target : Value} {key : String} (v result : Value)
    (h : ∀ r, target = .object r → safe r → key ≠ "_promise") :
    Quiet safe m (m'.writeMember target key v result) := by
  unfold Machine.writeMember
  split
  · exact (q.remembers (.setMember _ target key v h)).give _
  · exact q.raise _ _

lemma applyBinary (op : BinaryOp) (a b : Value) {next : Machine → Value → Machine}
    (hnext : ∀ v, Quiet safe m (next m' v)) : Quiet safe m (m'.applyBinary op a b next) := by
  unfold Machine.applyBinary
  split
  · exact hnext _
  · exact q.raise _ _

lemma countMember {target : Value} {key : String} (step : Float) (old : Bool)
    (h : ∀ r, target = .object r → safe r → key ≠ "_promise") :
    Quiet safe m (m'.countMember target key step old) :=
  q.readMember _ _ fun _ => q.writeMember _ _ h

/-! ## Operands -/

lemma operandsOf (es : List Expr) (scope : ScopeId) (c : Combine) :
    Quiet safe m (m'.operandsOf es scope c) := by
  unfold Machine.operandsOf
  split
  · exact q.give _
  · exact (q.push rfl).eval _ _

lemma combine {c : Combine} {values : List Value}
    (h : ∀ r, safe r → (r, "_promise") ∉ membersSet m'.memory c values) :
    Quiet safe m (m'.combine c values) := by
  unfold Machine.combine
  split
  · exact (q.makeList _).give _
  · exact q.give _
  · exact q.give _
  · exact q.applyBinary _ _ _ fun _ => q.give _
  · split
    · exact q.finish _
    · exact q.readMember _ _ fun _ => q.give _
  · split
    · exact q.finish _
    · exact q.readMember _ _ fun _ => q.give _
  · refine q.writeMember _ _ ?_
    rintro r rfl hsafe rfl
    exact h r hsafe (by simp [membersSet])
  · refine q.writeMember _ _ ?_
    rintro r rfl hsafe hkey
    exact h r hsafe (by simp [membersSet, hkey])
  · exact q.readMember _ _ fun _ => (q.push rfl).eval _ _
  · exact q.readMember _ _ fun _ => (q.push rfl).eval _ _
  · refine q.applyBinary _ _ _ fun _ => q.writeMember _ _ ?_
    rintro r rfl hsafe rfl
    exact h r hsafe (by simp [membersSet])
  · refine q.applyBinary _ _ _ fun _ => q.writeMember _ _ ?_
    rintro r rfl hsafe hkey
    exact h r hsafe (by simp [membersSet, hkey])
  · refine q.countMember _ _ ?_
    rintro r rfl hsafe rfl
    exact h r hsafe (by simp [membersSet])
  · refine q.countMember _ _ ?_
    rintro r rfl hsafe hkey
    exact h r hsafe (by simp [membersSet, hkey])
  · exact q.call _ _ _
  · exact q.construct _ _
  · exact q.give _

lemma operands {done : List Value} {todo : List Item} (scope : ScopeId) {c : Combine}
    (h : ∀ r, safe r → (r, "_promise") ∉ membersSet m'.memory c done.reverse) :
    Quiet safe m (m'.operands done todo scope c Machine.combine) := by
  induction todo generalizing done with
  | nil => exact q.combine h
  | cons item rest ih =>
    cases item with
    | hole =>
      refine ih fun r hsafe hmem => h r hsafe (membersSet_undefined ?_)
      rwa [List.reverse_cons] at hmem
    | one e => exact (q.push rfl).eval _ _
    | spread e => exact (q.push rfl).eval _ _

lemma arguments (f receiver : Value) (first : List Value) (args : List Item) (optional : Bool)
    (scope : ScopeId) : Quiet safe m (m'.arguments f receiver first args optional scope) := by
  unfold Machine.arguments
  split
  · exact q.finish _
  · exact q.operands scope fun _ _ => List.not_mem_nil

lemma fillRecord (record : Ref) (todo : List Entry) (scope : ScopeId) :
    Quiet safe m (m'.fillRecord record todo scope) := by
  unfold Machine.fillRecord
  split
  · exact q.give _
  · exact (q.push rfl).eval _ _
  · exact (q.push rfl).eval _ _
  · exact (q.push rfl).eval _ _

lemma callTag (f receiver : Value) (cooked raw : List String) (holes : List Expr) (scope : ScopeId) :
    Quiet safe m (m'.callTag f receiver cooked raw holes scope) := by
  have hlists := (q.makeList (cooked.map .text)).makeList (raw.map .text)
  exact (hlists.remembers (.setField _ _ "raw" _ fun _ => by decide)).arguments _ _ _ _ _ _

/-! ## Statements -/

lemma runBlock (todo : List Stmt) (scope : ScopeId) : Quiet safe m (m'.runBlock todo scope) := by
  unfold Machine.runBlock
  split
  · exact q.done
  · exact (q.push rfl).proceed _

lemma declareNext (todo : List (Pattern × Option Expr)) (scope : ScopeId) :
    Quiet safe m (m'.declareNext todo scope) := by
  unfold Machine.declareNext
  split
  · exact q.done
  · exact (q.push rfl).eval _ _
  · exact (q.push rfl).proceed _

lemma runInside (body : List Stmt) (scope : ScopeId) : Quiet safe m (m'.runInside body scope) :=
  ((q.remembers (.openScope _ scope [])).remembers (.declare _ _ body)).runBlock _ _

lemma runBound (how : Declaration) (p : Pattern) (v : Value) (body : List Stmt) (scope : ScopeId) :
    Quiet safe m (m'.runBound how p v body scope) :=
  ((q.remembers (.openScope _ scope _)).push (f := .bound _ _) rfl).proceed _

lemma testLoop (l : Loop) (scope : ScopeId) : Quiet safe m (m'.testLoop l scope) := by
  unfold Machine.testLoop
  dsimp only
  split
  · exact (q.push rfl).eval _ _
  · exact (q.push rfl).give _

lemma updateLoop (l : Loop) (scope : ScopeId) : Quiet safe m (m'.updateLoop l scope) := by
  unfold Machine.updateLoop
  have hcopy := (q.remembers (.copyScope _ scope)).push
    (f := .loopUpdate l (m'.memory.copyScope scope).2) rfl
  dsimp only
  split
  · exact hcopy.eval _ _
  · exact hcopy.give _

lemma nextItem (how : Declaration) (p : Pattern) (body : Stmt) (todo : List Value) (scope : ScopeId) :
    Quiet safe m (m'.nextItem how p body todo scope) := by
  unfold Machine.nextItem
  split
  · exact q.done
  · exact (q.push rfl).runBound _ _ _ _ _

lemma conclude (finalizer : Option (List Stmt)) (scope : ScopeId) (c : Completion) :
    Quiet safe m (m'.conclude finalizer scope c) := by
  unfold Machine.conclude
  split
  · exact q.finish _
  · exact (q.push rfl).runInside _ _

lemma handle (handler : Option (Option Pattern × List Stmt)) (finalizer : Option (List Stmt))
    (scope : ScopeId) (c : Completion) : Quiet safe m (m'.handle handler finalizer scope c) := by
  unfold Machine.handle
  split
  · dsimp only
    cases finalizer with
    | none =>
      split
      · exact q.runBound _ _ _ _ _
      · exact q.runInside _ _
    | some f =>
      split
      · exact (q.push rfl).runBound _ _ _ _ _
      · exact (q.push rfl).runInside _ _
  · exact q.conclude _ _ _

lemma execute (s : Stmt) (scope : ScopeId) : Quiet safe m (m'.execute s scope) := by
  cases s with
  | empty | function _ => exact q.done
  | expr e => exact (q.push rfl).eval _ _
  | declare how parts => exact q.declareNext _ _
  | block body => exact q.runInside _ _
  | choose test yes no => exact (q.push rfl).eval _ _
  | loop start test update body =>
    have hopened := (q.remembers (.openScope _ scope [])).push
      (f := .loopStart ⟨test, update, body⟩ (m'.memory.openScope scope []).2) rfl
    cases start with
    | none => exact hopened.done
    | some s => exact (hopened.remembers (.declare _ _ [s])).proceed _
  | forOf how p items body => exact (q.push rfl).eval _ _
  | give value =>
    cases value with
    | none => exact q.finish _
    | some e => exact (q.push rfl).eval _ _
  | throw e => exact (q.push rfl).eval _ _
  | attempt body handler finalizer => exact (q.push rfl).runInside _ _
  | leave | next => exact q.finish _

/-! ## Expressions -/

lemma evalCall (callee : Expr) (args : List Item) (optional : Bool) (scope : ScopeId) :
    Quiet safe m (m'.evalCall callee args optional scope) := by
  unfold Machine.evalCall
  split <;> exact (q.push rfl).eval _ _

lemma evalAssign (target : Target) (e : Expr) (scope : ScopeId) :
    Quiet safe m (m'.evalAssign target e scope) := by
  unfold Machine.evalAssign
  split
  · exact (q.push rfl).eval _ _
  · exact q.operandsOf _ _ _
  · exact q.operandsOf _ _ _

lemma evalUpdate (target : Target) (op : BinaryOp) (e : Expr) (scope : ScopeId) :
    Quiet safe m (m'.evalUpdate target op e scope) := by
  unfold Machine.evalUpdate
  split
  · exact q.readName _ _ fun _ => (q.push rfl).eval _ _
  · exact q.operandsOf _ _ _
  · exact q.operandsOf _ _ _
  · exact q.give _

lemma evalCount (target : Target) (step : Float) (old : Bool) (scope : ScopeId) :
    Quiet safe m (m'.evalCount target step old scope) := by
  unfold Machine.evalCount
  split
  · exact q.readName _ _ fun _ => q.assignName _ _ _ fun _ h => h.give _
  · exact q.operandsOf _ _ _
  · exact q.operandsOf _ _ _
  · exact q.give _

lemma evaluate (e : Expr) (scope : ScopeId) : Quiet safe m (m'.evaluate e scope) := by
  unfold Machine.evaluate
  split
  · exact q.give _
  · exact q.give _
  · exact q.give _
  · exact q.give _
  · split <;> exact q.give _
  · exact q.readName _ _ fun _ => q.give _
  · exact q.operands scope fun _ _ => List.not_mem_nil
  · split <;> exact (q.push rfl).eval _ _
  · exact q.operands scope fun _ _ => List.not_mem_nil
  · exact (q.remembers (.makeKind _ .record (.inl rfl))).fillRecord _ _ _
  · exact (q.remembers (.makeFunction _ _ _)).give _
  · split
    · exact q.give _
    · exact q.operandsOf _ _ _
  · exact q.operandsOf _ _ _
  · exact q.operandsOf _ _ _
  · exact (q.push rfl).eval _ _
  · exact (q.push rfl).eval _ _
  · exact q.evalAssign _ _ _
  · exact q.evalUpdate _ _ _ _
  · exact q.evalCount _ _ _ _
  · exact q.operandsOf _ _ _
  · exact q.operandsOf _ _ _
  · exact q.evalCall _ _ _ _
  · exact (q.push rfl).eval _ _
  · exact (q.push rfl).eval _ _
  · exact (q.push rfl).eval _ _
  · exact (q.push rfl).eval _ _

/-! ## Patterns -/

lemma bind (todo : List (Pattern × Value)) (declares : Bool) (scope : ScopeId) :
    Quiet safe m (m'.bind todo declares scope) := by
  unfold Machine.bind
  split
  · exact q.done
  · dsimp only
    split
    · exact (q.remembers (.setFirst _ scope _ _)).proceed _
    · exact q.assignName _ _ _ fun _ h => h.proceed _
  · split
    · exact (q.push rfl).eval _ _
    · exact q.proceed _
  · split
    · exact q.raise _ _
    · dsimp only
      split
      · exact q.proceed _
      · exact (q.makeList _).proceed _
  · split
    · exact q.raise _ _
    · exact q.raise _ _
    · dsimp only
      split
      · exact q.proceed _
      · exact (q.remembers (.makeRecord _ _)).proceed _

/-! ## The stack -/

omit q in
lemma cutAtFunction_append {stack own outer : List Frame} {p : Ref}
    (h : cutAtFunction stack = some (own, p, outer)) : stack = own ++ outer := by
  induction stack generalizing own p outer with
  | nil => cases h
  | cons f rest ih =>
    unfold cutAtFunction at h
    split at h
    · cases h
    · rename_i p' rest' heq
      cases heq
      cases h
      rfl
    · rename_i f' rest' _ heq
      cases heq
      obtain ⟨⟨own', p', outer'⟩, hcut, hparts⟩ := Option.map_eq_some_iff.mp h
      cases hparts
      rw [List.cons_append, ← ih hcut]

/-- A function that waits takes its frames with it, and what they hold. -/
lemma wait (v : Value) : Quiet safe m (m'.wait v) := by
  unfold Machine.wait
  split
  · exact q.give _
  · rename_i own promise outer hcut
    have hpromise : Quiet safe m' (m'.promiseOf v).1 := (refl m').promiseOf v
    have hcalm := hpromise.toCalm.trans (calm_react _ (m'.promiseOf v).2
      (r := ⟨none, .resume own, .resume own⟩) ⟨fun _ => nofun, fun _ => nofun⟩)
    refine q.trans ⟨⟨hcalm.size, hcalm.answered, hcalm.flows⟩, (react_host _ _ _).trans hpromise.host,
      fun h => ?_⟩
    -- The frames that are taken from the stack are held by the promise that is waited for.
    have hbefore := hpromise.held h
    have hafter := heldBy_react (m'.promiseOf v).1 (m'.promiseOf v).2
      ⟨none, .resume own, .resume own⟩ h
    simp only [heldBy, react_stack, promiseOf_stack, cutAtFunction_append hcut, heldByReaction,
      tasksOfHandler, Nat.max_self, List.filterMap_append, List.count_append, Machine.give]
      at hbefore hafter ⊢
    omega

lemma callMember (receiver : Value) (key : String) (args : List Item) (optional : Bool)
    (scope : ScopeId) : Quiet safe m (m'.callMember receiver key args optional scope) :=
  q.readMember _ _ fun _ => q.arguments _ _ _ _ _ _

end Quiet

/-- The members of objects that a frame sets when it is handed a value. -/
def frameSets (m : Memory) (f : Frame) (v : Value) : List (Ref × String) :=
  match f with
  | .operands done false _ _ c => membersSet m c (v :: done).reverse
  | .operands done true _ _ c => membersSet m c (((m.itemsOf? v).getD []).reverse ++ done).reverse
  | .field record key _ _ => [(record, key)]
  | .fields record _ _ => (Machine.entriesOf m v).map fun entry => (record, entry.1)
  | _ => []

namespace Quiet

variable {safe : Ref → Prop} {m m' : Machine} (q : Quiet safe m m')
include q

lemma receive {f : Frame} (v : Value) (hf : taskOfFrame f = none)
    (h : ∀ r, safe r → (r, "_promise") ∉ frameSets m'.memory f v) : Quiet safe m (m'.receive f v) := by
  cases f with
  | taskBody => cases hf
  | operands done spread todo scope c =>
    cases spread with
    | false => exact q.operands scope h
    | true =>
      simp only [Machine.receive]
      split
      · rename_i values hvalues
        refine q.operands scope fun r hsafe => ?_
        have hset := h r hsafe
        rwa [frameSets, hvalues, Option.getD_some] at hset
      · exact q.raise _ _
  | choose a b scope => exact q.eval _ _
  | logic op right scope =>
    have hgoes : ∀ on : Bool, Quiet safe m (if on then m'.eval right scope else m'.give v) := by
      intro on
      split
      · exact q.eval _ _
      · exact q.give _
    exact hgoes _
  | sequence e scope => exact q.eval _ _
  | await => exact q.wait _
  | assign p scope => exact (q.push rfl).proceed _
  | update name op old scope =>
    simp only [Machine.receive]
    exact q.applyBinary _ _ _ fun _ => q.assignName _ _ _ fun _ h => h.give _
  | field record key todo scope =>
    refine (q.remembers (.setField _ record key v ?_)).fillRecord _ _ _
    rintro hsafe rfl
    exact h record hsafe (by simp [frameSets])
  | key record value todo scope => exact (q.push rfl).eval _ _
  | fields record todo scope =>
    refine (q.remembers (.foldl (fun memory entry hentry => .setField memory record entry.1 entry.2 ?_)
      _)).fillRecord _ _ _
    intro hsafe hkey
    exact h record hsafe (by simpa [frameSets] using ⟨entry.2, hkey ▸ hentry⟩)
  | callee args optional scope => exact q.arguments _ _ _ _ _ _
  | method key args steps optional scope =>
    simp only [Machine.receive]
    split
    · exact q.finish _
    · exact q.callMember _ _ _ _ _
  | methodKey key args steps optional scope =>
    simp only [Machine.receive]
    split
    · exact q.finish _
    · exact (q.push rfl).eval _ _
  | methodOf receiver args optional scope => exact q.callMember _ _ _ _ _
  | tag cooked raw holes scope => exact q.callTag _ _ _ _ _ _
  | tagMethod key cooked raw holes scope =>
    simp only [Machine.receive]
    exact q.readMember _ _ fun _ => q.callTag _ _ _ _ _ _
  | newOf args scope => exact q.operands scope fun _ _ => List.not_mem_nil
  | fallback p todo declares scope => exact q.proceed _
  | drop => exact q.done
  | declare p todo scope => exact (q.push rfl).proceed _
  | branch yes no scope => exact q.proceed _
  | give => exact q.finish _
  | throw => exact q.throw _
  | loopTest l scope =>
    simp only [Machine.receive]
    split
    · exact (q.push rfl).proceed _
    · exact q.done
  | loopUpdate l scope => exact q.testLoop _ _
  | items how p body scope =>
    simp only [Machine.receive]
    split
    · exact q.nextItem _ _ _ _ _
    · exact q.raise _ _
  | created record => exact q.give _
  | executor promise latch => exact q.give _
  | reaction derived => exact (q.resolve _ _).give _
  | visit how f list current done todo index => exact q.visitNext _ _ _ _ _ _
  | lines path lines => exact q.writeOf _ _
  | parallel done todo => exact q.parallelNext _ _
  | invoke args => exact (q.push rfl).call _ _ _
  | invoked => exact ((q.promiseOf _).andThen _ _ _).give _
  | _ => exact q.give _

lemma reach {f : Frame} {c : Completion} (hf : taskOfFrame f = none ∨ ∀ v, c ≠ .thrown v) :
    Quiet safe m (m'.reach f c) := by
  unfold Machine.reach
  split
  · exact q.runBlock _ _
  · exact q.runBlock _ _
  · exact q.declareNext _ _
  · exact q.give _
  · exact q.testLoop _ _
  · exact q.updateLoop _ _
  · exact q.updateLoop _ _
  · exact q.done
  · exact q.nextItem _ _ _ _ _
  · exact q.nextItem _ _ _ _ _
  · exact q.done
  · exact q.handle _ _ _ _
  · exact q.conclude _ _ _
  · exact q.finish _
  · exact q.give _
  · exact q.give _
  · exact (q.resolve _ _).give _
  · exact (q.resolve _ _).give _
  · exact (q.reject _ _).give _
  · exact (q.refuseOnce _ _ _).give _
  · exact (q.reject _ _).give _
  · exact (q.refuseOnce _ _ _).give _
  · obtain hf | hc := hf
    · cases hf
    · exact absurd rfl (hc _)
  · exact q.decide _ _
  · exact q.give _
  · exact q.finish _

end Quiet

end TaskRunner.Proofs
