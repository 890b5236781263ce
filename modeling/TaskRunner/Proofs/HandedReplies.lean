import TaskRunner.Proofs.DeliveredReplies
import TaskRunner.Proofs.SettledTasks

/-!
# Replies that finishers take

When a script is idle, the next reply is handed to the promise of its operation, and what waited for the
promise first is called with it. A finisher makes a result or a response of it, which the script then has of
the operation.

Whatever a script does, a promise that was settled stays as it was settled, and a result keeps what it holds.
So a result says what the reply said, and it does so for the rest of the run.
-/

namespace TaskRunner.Proofs
open Session Script Machine

section Lasting

/-! ## What lasts in a run -/

/-- What was settled or given in a memory is the same in another one. -/
structure Lasts (m m' : Memory) : Prop extends KeepsResults m m' where
  promises : ∀ p ok v, promiseAt m p = some (settledAs ok v) → promiseAt m' p = some (settledAs ok v)

namespace Lasts

variable {m m' m'' : Memory}

lemma refl (m : Memory) : Lasts m m :=
  ⟨.refl m, fun _ _ _ h => h⟩

lemma trans (h : Lasts m m') (h' : Lasts m' m'') : Lasts m m'' :=
  ⟨h.toKeepsResults.trans h'.toKeepsResults, fun p ok v hp => h'.promises p ok v (h.promises p ok v hp)⟩

lemma of_flows {new : List Job} (f : Flows m new m') : Lasts m m' := by
  refine ⟨f.results, fun p ok v hp => ?_⟩
  obtain ⟨s, hs, hgoes⟩ := f.states p _ hp
  exact goes_settledAs hgoes ▸ hs

end Lasts

variable {safe : Ref → Prop} {ends : Endings} {m m' : Machine} {log deeds : List Deed}

lemma Calm.lasts (c : Calm safe m m') : Lasts m.memory m'.memory :=
  have ⟨_, _, flows⟩ := c.flows
  .of_flows flows

/-- Waiting for a promise settles none. -/
lemma lasts_react (m : Machine) (p : Ref) (r : Reaction) : Lasts m.memory (m.react p r).memory := by
  rcases react_cases m p r with ⟨rs, hp, hreact⟩ | ⟨ok, v, -, hreact⟩ | ⟨-, hreact⟩
  · rw [hreact]
    refine ⟨keeps_setPromise hp _, fun q ok v hq => ?_⟩
    have hother : q ≠ p := by
      rintro rfl
      exact settledAs_ne_pending _ _ _ (Option.some.inj (hq.symm.trans hp))
    rw [Machine.update, promiseAt_setKind hp, if_neg hother, hq]
  · rw [hreact]
    exact .refl _
  · rw [hreact]
    exact .refl _

lemma Starts.lasts (hstarts : Starts m deeds m') : Lasts m.memory m'.memory := by
  induction hstarts with
  | nil => exact .refl _
  | cons hr ho _ ih => exact (calm_launch ho).1.lasts.trans ih

lemma Does.lasts (hdoes : Does m deeds m') : Lasts m.memory m'.memory := by
  cases hdoes with
  | quiet hon hquiet => exact hon.memory ▸ hquiet.toCalm.lasts
  | tell _ hquiet => exact hquiet.toCalm.lasts
  | start hon hbefore hstarts hquiet =>
    exact hon.memory ▸ (hbefore.toCalm.lasts.trans hstarts.lasts).trans hquiet.toCalm.lasts
  | beginTask hhost hquiet => exact hquiet.toCalm.lasts
  | await hcontrol hstack hp hbefore hpromise hquiet =>
    exact (hbefore.toCalm.lasts.trans (lasts_react _ _ _)).trans hquiet.toCalm.lasts
  | fail hknown hend hquiet => exact hknown.memory ▸ hquiet.toCalm.lasts
  | @endTask m₀ m' task outcome host result hknown hend hquiet =>
    have hsame : Lasts m₀.memory m'.memory := hquiet.toCalm.lasts
    exact hknown.memory ▸ hsame

lemma Turn.lasts (hturn : Turn ends m deeds m') : Lasts m.memory m'.memory := by
  cases hturn with
  | work hwork => exact (does_work hwork).lasts
  | finish => exact .refl _
  | deliver => exact (calm_accept m _ _ _).lasts
  | ask function args => exact (quiet_ask m function args).toCalm.lasts

/-- What was settled or given lasts for the whole run. -/
theorem Turns.lasts (hturns : Turns ends m log m') : Lasts m.memory m'.memory := by
  induction hturns with
  | nil => exact .refl _
  | snoc _ hturn ih => exact ih.trans hturn.lasts

/-! ## The turn of a deed -/

/-- Every deed of a run was done in one turn of it. -/
lemma Turns.split {deed : Deed} (hturns : Turns ends m log m') (hmem : deed ∈ log) :
    ∃ front deeds back m₁ m₂, Turns ends m front m₁ ∧ Turn ends m₁ deeds m₂ ∧ deed ∈ deeds ∧
      Turns ends m₂ back m' ∧ log = front ++ (deeds ++ back) := by
  induction hturns with
  | nil => exact absurd hmem List.not_mem_nil
  | @snoc m₁ m₂ log deeds hbefore hturn ih =>
    obtain hmem | hmem := List.mem_append.mp hmem
    · obtain ⟨front, done, back, m₃, m₄, hfront, hdone, hin, hback, rfl⟩ := ih hmem
      exact ⟨front, done, back ++ deeds, m₃, m₄, hfront, hdone, hin, hback.snoc hturn, by simp⟩
    · exact ⟨log, deeds, [], m₁, m₂, hbefore, hturn, hmem, .nil, by simp⟩

/-! ## Results as values -/

/-- A value is the result of a task that ended with a status and an output. -/
structure HoldsResult (m : Memory) (v : Value) (status : Status) (output : Value) : Prop where
  object : ∃ r, v = .object r ∧ m.kind? r = some .result ∧
    m.field? r "status" = some (.text status.label) ∧ m.field? r "output" = some output ∧
    m.field? r "hasFailed" = none ∧ m.field? r "hasSucceeded" = none

lemma label_inj {s t : Status} : s.label = t.label ↔ s = t := by
  cases s <;> cases t <;> decide

namespace HoldsResult

variable {memory memory' : Memory} {v output : Value} {status : Status}

lemma lasts (h : HoldsResult memory v status output) (l : Lasts memory memory') :
    HoldsResult memory' v status output := by
  obtain ⟨r, hv, hkind, hstatus, houtput, hfailed, hsucceeded⟩ := h.object
  have hsame (key : String) (hkey : key ≠ "_promise") : memory'.field? r key = memory.field? r key :=
    l.fields r key hkind hkey
  exact ⟨r, hv, l.results r hkind, by rw [hsame _ (by decide), hstatus], by rw [hsame _ (by decide), houtput],
    by rw [hsame _ (by decide), hfailed], by rw [hsame _ (by decide), hsucceeded]⟩

/-- What a result answers. -/
lemma members (h : HoldsResult memory v status output) :
    memory.kindOf? v = some .result ∧ memory.member? v "output" = some output ∧
      memory.member? v "hasFailed" = some (.bool (status == .fail)) ∧
        memory.member? v "hasSucceeded" = some (.bool (status == .success)) := by
  obtain ⟨r, rfl, hkind, hstatus, houtput, hfailed, hsucceeded⟩ := h.object
  obtain ⟨o, ho, hresult⟩ := Option.map_eq_some_iff.mp hkind
  simp only [Memory.field?, ho, Option.bind_some] at hstatus houtput hfailed hsucceeded
  have hlabel (s : Status) : (status.label == s.label) = (status == s) := by
    rw [Bool.eq_iff_iff, beq_iff_eq, beq_iff_eq, label_inj]
  refine ⟨hkind, ?_, ?_, ?_⟩
  · simp [Memory.member?, ho, houtput]
  · simp [Memory.member?, ho, hfailed, Memory.inherited, hresult, hstatus, hlabel]
  · simp [Memory.member?, ho, hsucceeded, Memory.inherited, hresult, hstatus, hlabel]

end HoldsResult

/-- What a result holds that is made of an output: nothing is given as null. -/
def givenOutput : Value → Value
  | .undefined => .null
  | output => output

lemma givenOutput_text (text : String) : givenOutput (.text text) = .text text := rfl

/-- A result that is made holds what it is made of. -/
lemma holdsResult_makeResult (memory : Memory) (status : Status) (output : Value) :
    HoldsResult (memory.makeResult (.text status.label) output).1
      (memory.makeResult (.text status.label) output).2 status (givenOutput output) := by
  refine ⟨memory.objects.size, rfl, ?_⟩
  cases output <;>
    simp [Memory.makeResult, Memory.kind?, Memory.field?, object?_make, List.lookup_cons, givenOutput]

end Lasting

/-! ## Replies as values -/

/-- A value is what a script is handed of a reply: an object with the status and what was given. -/
structure HoldsReply (m : Memory) (raw : Value) (reply : Reply) : Prop where
  object : ∃ r, raw = .object r ∧ m.field? r "status" = some (.text reply.result.status.label) ∧
    ∃ output, m.field? r "output" = some output ∧
      ∀ text, reply.result.output = .text text → output = .text text

section Memories

variable {memory memory' : Memory} {raw : Value} {reply : Reply}

lemma member?_of_field? {r : Ref} {key : String} {v : Value} (h : memory.field? r key = some v) :
    memory.member? (.object r) key = some v := by
  obtain ⟨o, ho, hkey⟩ := Option.bind_eq_some_iff.mp h
  simp [Memory.member?, ho, hkey]

lemma field?_makeRecord (memory : Memory) (fields : List (String × Value)) (key : String) :
    (memory.makeRecord fields).1.field? memory.objects.size key = fields.lookup key := by
  have hnew := (object?_make memory ⟨.record, fields⟩ memory.objects.size).trans (if_pos rfl)
  change ((memory.make ⟨.record, fields⟩).1.object? memory.objects.size).bind _ = _
  rw [hnew, Option.bind_some]

/-- A reply is handed to a script as an object that holds it. -/
lemma holdsReply_load (memory : Memory) (reply : Reply) :
    HoldsReply (memory.load reply.data).1 (memory.load reply.data).2 reply := by
  have hdata : reply.data = .record [("output", reply.result.output),
      ("response", (reply.response.map responseData).getD .null),
      ("status", .text reply.result.status.label)] := by
    have houtput : "output" < "status" := by decide
    have hresponse : ¬"response" < "output" := by decide
    have hbetween : "response" < "status" := by decide
    simp only [Reply.data, Json.ofFields, List.foldl_cons, List.foldl_nil, Json.insertField, if_pos houtput,
      if_neg hresponse, if_neg (show "response" ≠ "output" by decide), if_pos hbetween]
  rw [hdata, Memory.load]
  refine ⟨_, rfl, (field?_makeRecord _ _ _).trans ?_, (memory.load reply.result.output).2,
    (field?_makeRecord _ _ _).trans List.lookup_cons_self, ?_⟩
  · simp [List.lookup_cons]
  · intro text htext
    rw [htext, Memory.load]

lemma HoldsReply.of_fields (h : HoldsReply memory raw reply)
    (hsame : ∀ r key, memory'.field? r key = memory.field? r key) : HoldsReply memory' raw reply := by
  obtain ⟨r, hraw, hstatus, output, houtput, htext⟩ := h.object
  exact ⟨r, hraw, (hsame _ _).trans hstatus, output, (hsame _ _).trans houtput, htext⟩

lemma HoldsReply.members (h : HoldsReply memory raw reply) :
    memory.member? raw "status" = some (.text reply.result.status.label) ∧
      ∃ output, memory.member? raw "output" = some output ∧
        ∀ text, reply.result.output = .text text → output = .text text := by
  obtain ⟨r, rfl, hstatus, output, houtput, htext⟩ := h.object
  exact ⟨member?_of_field? hstatus, output, member?_of_field? houtput, htext⟩

end Memories

/-! ## The first to take a reply -/

section Jobs

variable {m m' : Machine} {handler : Handler} {derived : Option Ref} {ok ok' : Bool} {raw v : Value}
  {rest : List Job} {p : Ref}

/-- A script has come to have other jobs, and otherwise all is as it was. -/
structure OnlyJobs (m m' : Machine) : Prop where
  control : m'.control = m.control
  stack : m'.stack = m.stack
  fields : ∀ r key, m'.memory.field? r key = m.memory.field? r key

lemma settle_first (hidle : m.jobs = [])
    (hfirst : (m.settle p ok v).jobs = .react handler derived ok' raw :: rest) :
    ok' = ok ∧ raw = v ∧ OnlyJobs m (m.settle p ok v) := by
  unfold Machine.settle at hfirst ⊢
  split at hfirst
  · rename_i reactions hkind
    rw [Quiet.foldl_later] at hfirst ⊢
    simp only [Machine.update, hidle, List.nil_append] at hfirst
    cases reactions with
    | nil => cases hfirst
    | cons r more =>
      cases hfirst
      exact ⟨rfl, rfl, rfl, rfl, Retains.field?_setKind _ _ _⟩
  · rw [hidle] at hfirst
    cases hfirst

/-- What is called first with the value that a promise is resolved with is called with that value. -/
lemma resolve_first (hidle : m.jobs = [])
    (hfirst : (m.resolve p v).jobs = .react handler derived true raw :: rest) :
    raw = v ∧ OnlyJobs m (m.resolve p v) := by
  unfold Machine.resolve at hfirst ⊢
  split at hfirst
  · split at hfirst
    · have hrejected := settle_first
        (m := (m.remember (·.makeError .type "cannot create a promise that resolves itself")).1) hidle hfirst
      cases hrejected.1
    · rename_i hother
      rw [if_neg hother]
      split at hfirst
      · split at hfirst
        · simp only [Machine.later, hidle, List.nil_append] at hfirst
          cases hfirst
        · rename_i hplain
          rw [if_neg hplain]
          exact (settle_first hidle hfirst).2
      · exact (settle_first hidle hfirst).2
  · exact (settle_first hidle hfirst).2

lemma onlyJobs_trip (m : Machine) (latch : Ref) :
    OnlyJobs m (m.trip latch).1 ∧ (m.trip latch).1.jobs = m.jobs := by
  unfold Machine.trip
  split
  · exact ⟨⟨rfl, rfl, Retains.field?_setKind _ _ _⟩, rfl⟩
  · exact ⟨⟨rfl, rfl, fun _ _ => rfl⟩, rfl⟩

lemma fulfilOnce_first {latch : Ref} (hidle : m.jobs = [])
    (hfirst : (m.fulfilOnce p latch v).jobs = .react handler derived true raw :: rest) :
    raw = v ∧ OnlyJobs m (m.fulfilOnce p latch v) := by
  obtain ⟨htrip, hjobs⟩ := onlyJobs_trip m latch
  rw [hidle] at hjobs
  rw [Machine.fulfilOnce] at hfirst ⊢
  dsimp only at hfirst ⊢
  split at hfirst
  · rename_i hopen
    rw [if_pos hopen]
    obtain ⟨hraw, honly⟩ := resolve_first hjobs hfirst
    exact ⟨hraw, honly.control.trans htrip.control, honly.stack.trans htrip.stack,
      fun r key => (honly.fields r key).trans (htrip.fields r key)⟩
  · rw [hjobs] at hfirst
    cases hfirst

/-- What is called first when a reply was handed over is called with the reply. -/
lemma accept_first {host : Host} {reply : Reply} {receiver : Option Resolver} (hidle : m.jobs = [])
    (hfirst : (m.accept host reply receiver).jobs = .react handler derived true raw :: rest) :
    HoldsReply (m.accept host reply receiver).memory raw reply ∧
      (m.accept host reply receiver).control = m.control ∧ (m.accept host reply receiver).stack = m.stack := by
  cases receiver with
  | none =>
    have hnone : m.jobs = .react handler derived true raw :: rest := hfirst
    rw [hidle] at hnone
    cases hnone
  | some r =>
    rw [Machine.accept] at hfirst ⊢
    dsimp only at hfirst ⊢
    have hloaded : ({ m with host }.remember (·.load reply.data)).1.jobs = [] := hidle
    obtain ⟨rfl, honly⟩ := fulfilOnce_first hloaded hfirst
    exact ⟨(holdsReply_load m.memory reply).of_fields honly.fields, honly.control, honly.stack⟩

/-- Whether a script is idle is seen from what it is at. -/
lemma step?_eq_none_of_same (hcontrol : m'.control = m.control) (hstack : m'.stack = m.stack)
    (hidle : m.step? = none) : m'.step? = none := by
  unfold Machine.step? at hidle ⊢
  rw [hcontrol, hstack]
  split at hidle <;> first | rfl | cases hidle

end Jobs

/-! ## Turns of what goes on outside of a script -/

section Turns

variable {ends : Endings} {m m' : Machine} {deeds log : List Deed} {h : Handle} {reply : Reply}
  {receiver : Option Resolver}

/-- A deed that is not done by a script. -/
def Deed.isOutside : Deed → Bool
  | .finish _ _ | .deliver _ _ _ => true
  | _ => false

lemma Starts.noneOutside (hstarts : Starts m deeds m') : ∀ deed ∈ deeds, deed.isOutside = false := by
  induction hstarts with
  | nil => exact List.forall_mem_nil _
  | cons _ _ _ ih => exact List.forall_mem_cons.mpr ⟨rfl, ih⟩

/-- No operation is finished by the script itself, and no reply is handed over. -/
lemma Does.noneOutside (hdoes : Does m deeds m') : ∀ deed ∈ deeds, deed.isOutside = false := by
  cases hdoes with
  | quiet hon hquiet => exact List.forall_mem_map.mpr fun _ _ => rfl
  | start hon hbefore hstarts hquiet => exact hstarts.noneOutside
  | tell | beginTask | await | endTask => exact List.forall_mem_singleton.mpr rfl
  | fail => exact List.forall_mem_nil _

lemma Turn.delivers (hturn : Turn ends m deeds m') (hmem : .deliver h reply receiver ∈ deeds) :
    work? m = none ∧ ∃ host, m' = m.accept host reply receiver := by
  cases hturn with
  | work hwork => exact nomatch (does_work hwork).noneOutside _ hmem
  | finish => exact nomatch List.mem_singleton.mp hmem
  | deliver hidle htake =>
    cases List.mem_singleton.mp hmem
    exact ⟨hidle, _, rfl⟩
  | ask => exact absurd hmem List.not_mem_nil

/-- A reply that was handed over is of an operation that was finished with it. -/
lemma Turns.finished {services : Services} {world : World} {program : List Stmt}
    (hturns : Turns ends (Machine.start ⟨services, world, .empty⟩ program) log m)
    (hmem : .deliver h reply receiver ∈ log) : .finish h reply ∈ log := by
  have tally := (hturns.bridge (bridge_start services world program)).tally
  have hexchange : .deliver h reply receiver ∈ exchangesIn log := List.mem_filterMap.mpr ⟨_, hmem, rfl⟩
  have hdelivered : (h, reply) ∈ deliveredIn (exchangesIn log) := List.mem_filterMap.mpr ⟨_, hexchange, rfl⟩
  have hfinished : (h, reply) ∈ finishedIn (exchangesIn log) := tally.replies ▸ List.mem_append_left _ hdelivered
  obtain ⟨exchange, hexchange, hsame⟩ := List.mem_filterMap.mp hfinished
  obtain ⟨deed, hdeed, hexchange⟩ := List.mem_filterMap.mp hexchange
  cases exchange <;> cases hsame
  cases deed <;> cases hexchange
  exact hdeed

end Turns

/-! ## What finishers make of replies -/

section Finishers

variable {m : Machine} {raw : Value} {reply : Reply}

/-- A finisher of a command, of a file or of an answer of a model gives a result that ended as the reply. -/
lemma gives_result (hraw : HoldsReply m.memory raw reply) (receiver : Value) (more : List Value) :
    ∃ v output, (m.enter (.builtin .resultOfReply) receiver (raw :: more)).control = .value v ∧
      HoldsResult (m.enter (.builtin .resultOfReply) receiver (raw :: more)).memory v reply.result.status output ∧
        ∀ text, reply.result.output = .text text → output = .text text := by
  obtain ⟨hstatus, output, houtput, htext⟩ := hraw.members
  have henter : m.enter (.builtin .resultOfReply) receiver (raw :: more) =
      (m.remember (·.makeResult (.text reply.result.status.label) output)).1.give
        (m.memory.makeResult (.text reply.result.status.label) output).2 := by
    simp [Machine.enter, Memory.kindOf?, Machine.callBuiltin, Machine.callPlain, Machine.arg, hstatus,
      houtput, Machine.remember]
  rw [henter]
  refine ⟨_, givenOutput output, rfl, holdsResult_makeResult m.memory reply.result.status output, ?_⟩
  intro text hgiven
  rw [htext text hgiven, givenOutput_text]

/-- The finisher of a request gives a response, whatever the reply is. -/
lemma gives_response (m : Machine) (receiver raw : Value) (more : List Value) :
    ∃ r, (m.enter (.builtin .responseOfReply) receiver (raw :: more)).control = .value (.object r) ∧
      (m.enter (.builtin .responseOfReply) receiver (raw :: more)).memory.kind? r = some .response := by
  have hnew (m : Machine) (fields : List (String × Value)) :
      (m.remember (·.make ⟨.response, fields⟩)).1.memory.kind?
        (m.remember (·.make ⟨.response, fields⟩)).2 = some .response := by
    have hobject := (object?_make m.memory ⟨.response, fields⟩ m.memory.objects.size).trans (if_pos rfl)
    exact congrArg (Option.map Object.kind) hobject
  have henter : m.enter (.builtin .responseOfReply) receiver (raw :: more) = m.makeResponse raw := by
    simp [Machine.enter, Memory.kindOf?, Machine.callBuiltin, Machine.callPlain, Machine.arg]
  rw [henter]
  unfold Machine.makeResponse
  exact ⟨_, rfl, hnew _ _⟩

end Finishers

/-! ## The results of operations in runs -/

section Runs

variable {services : Services} {world : World} {program : List Stmt} {log : List Deed} {m : Machine}
  {h : Handle} {reply : Reply} {finisher : Builtin} {v : Value}

/-- A script has just been given the value that a finisher makes of the reply of an operation: the reply was
handed over, and the first to be called with it was the finisher. -/
inductive GivesReply (services : Services) (world : World) (program : List Stmt) (log : List Deed) (h : Handle)
    (reply : Reply) (finisher : Builtin) (v : Value) (m : Machine) : Prop where
  | taken {front deeds : List Deed} {before handed calling : Machine} {receiver : Option Resolver}
    {derived : Option Ref} {raw : Value} {rest : List Job} (hrun : RunsTo services world program front before)
    (hturn : Turn CarriedOut before deeds handed) (hdeliver : .deliver h reply receiver ∈ deeds)
    (hlog : log = front ++ deeds)
    (hfirst : handed.jobs = .react (.call (.builtin finisher)) derived true raw :: rest)
    (hcall : work? handed = some calling) (hstep : work? calling = some m) (hgives : m.control = .value v) :
    GivesReply services world program log h reply finisher v m

namespace GivesReply

lemma finish (g : GivesReply services world program log h reply finisher v m) : .finish h reply ∈ log := by
  cases g with
  | taken hrun hturn hdeliver hlog =>
    rw [hlog]
    exact Turns.finished (Turns.snoc hrun hturn) (List.mem_append_right _ hdeliver)

/-- The finisher is called with what the script was handed of the reply. -/
lemma entered (g : GivesReply services world program log h reply finisher v m) :
    ∃ calling raw, RunsTo services world program log calling ∧ HoldsReply calling.memory raw reply ∧
      calling.control = .call (.builtin finisher) .undefined [raw] ∧
      m = calling.enter (.builtin finisher) .undefined [raw] ∧ m.control = .value v := by
  cases g with
  | @taken front deeds before handed calling receiver derived raw rest hrun hturn hdeliver hlog hfirst hcall hstep
      hgives =>
    obtain ⟨hidle, host, rfl⟩ := hturn.delivers hdeliver
    obtain ⟨hrests, hjobs⟩ := work?_eq_none.mp hidle
    obtain ⟨hholds, hcontrol, hstack⟩ := accept_first hjobs hfirst
    have hwaits := step?_eq_none_of_same hcontrol hstack hrests
    have hdeeds : deedsOf (before.accept host reply receiver) = [] := by
      simp only [deedsOf, hwaits, hfirst, jobDeeds]
    have hnext := (Turns.snoc hrun hturn).snoc (.work hcall)
    rw [hdeeds, List.append_nil, ← hlog] at hnext
    rw [work?, hwaits, hfirst] at hcall
    cases hcall
    refine ⟨_, raw, hnext, ?_, rfl, (Option.some.inj hstep).symm, hgives⟩
    cases derived <;> exact hholds

lemma result (g : GivesReply services world program log h reply .resultOfReply v m) :
    ∃ output, HoldsResult m.memory v reply.result.status output ∧
      ∀ text, reply.result.output = .text text → output = .text text := by
  obtain ⟨calling, raw, -, hraw, -, rfl, hgives⟩ := g.entered
  obtain ⟨v', output, hgiven, hholds, htext⟩ := gives_result hraw .undefined []
  cases hgives.symm.trans hgiven
  exact ⟨output, hholds, htext⟩

lemma response (g : GivesReply services world program log h reply .responseOfReply v m) :
    ∃ r, v = .object r ∧ m.memory.kind? r = some .response := by
  obtain ⟨calling, raw, -, -, -, rfl, hgives⟩ := g.entered
  obtain ⟨r, hgiven, hkind⟩ := gives_response calling .undefined raw []
  cases hgives.symm.trans hgiven
  exact ⟨r, rfl, hkind⟩

variable {memory : Memory}

end GivesReply

end Runs

end TaskRunner.Proofs
