import TaskRunner.Script.Value

/-!
# Work outside of a script

A script starts operations and goes on; each one is finished outside at some time, in any order, and its
reply is then handed to the promise that waits for it. Operations and tasks of the script are known by
handles from one counter.
-/

namespace TaskRunner.Script

/-- What goes on outside of a running script. `Work` is what is asked for, `Reply` what comes back, and
`Resolver` what waits for it. -/
structure Bridge (Work Reply Resolver : Type) where
  lastHandle : Handle
  /-- How many operations were started whose replies were not taken. -/
  inFlight : Nat
  /-- Operations being worked on, in order of their starts. -/
  running : List (Handle × Work)
  /-- Replies that were not taken yet, in the order in which they came. -/
  replies : List (Handle × Reply)
  /-- What waits for replies. -/
  waiting : List (Handle × Resolver)
  /-- Tasks that the script began and did not end. -/
  tasks : List (Handle × TaskId)

namespace Bridge

variable {Work Reply Resolver : Type}

/-- Before anything was started. -/
def empty : Bridge Work Reply Resolver := ⟨0, 0, [], [], [], []⟩

/-- Starts an operation. -/
def start (b : Bridge Work Reply Resolver) (work : Work) : Bridge Work Reply Resolver × Handle :=
  let h := b.lastHandle + 1
  ({ b with lastHandle := h, inFlight := b.inFlight + 1, running := b.running ++ [(h, work)] }, h)

/-- Lets something wait for the reply of an operation. -/
def expect (b : Bridge Work Reply Resolver) (h : Handle) (r : Resolver) :
    Bridge Work Reply Resolver :=
  { b with waiting := b.waiting ++ [(h, r)] }

/-- An operation that is being worked on ends with a reply. -/
def finish (b : Bridge Work Reply Resolver) (h : Handle) (reply : Reply) :
    Bridge Work Reply Resolver :=
  { b with
    running := b.running.filter (·.1 != h)
    replies := b.replies ++ [(h, reply)] }

/-- The next reply, if any operation is in flight and its reply has come. -/
def take? (b : Bridge Work Reply Resolver) : Option ((Handle × Reply) × Bridge Work Reply Resolver) :=
  if b.inFlight = 0 then none
  else
    match b.replies with
    | [] => none
    | first :: more => some (first, { b with inFlight := b.inFlight - 1, replies := more })

/-- What waits for the reply of an operation; it waits no longer. -/
def deliver (b : Bridge Work Reply Resolver) (h : Handle) :
    Bridge Work Reply Resolver × Option Resolver :=
  ({ b with waiting := b.waiting.filter (·.1 != h) }, b.waiting.lookup h)

/-- Takes a task that the script began. -/
def beginTask (b : Bridge Work Reply Resolver) (id : TaskId) : Bridge Work Reply Resolver × Handle :=
  let h := b.lastHandle + 1
  ({ b with lastHandle := h, tasks := b.tasks ++ [(h, id)] }, h)

/-- The task of a handle, which the script ends; none if it has ended or never began. -/
def endTask? (b : Bridge Work Reply Resolver) (h : Handle) :
    Option (TaskId × Bridge Work Reply Resolver) :=
  (b.tasks.lookup h).map fun id => (id, { b with tasks := b.tasks.filter (·.1 != h) })

end Bridge

end TaskRunner.Script
