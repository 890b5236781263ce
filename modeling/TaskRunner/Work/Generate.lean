import TaskRunner.Ai.Provider
import TaskRunner.Task.Session

/-!
# Asking models

A task that asks a provider for data of a shape. Its result is the data.
-/

namespace TaskRunner

open Ai (AiError Provider)

/-- A prompt for data of a shape. -/
structure GenerateRequest where
  prompt : String
  schema : Json
deriving Repr

namespace GenerateRequest

/-- The name of the task. -/
def taskName (r : GenerateRequest) : String :=
  "AI: " ++ inferName r.prompt

/-- Runs the task with the provider that there is, or that there is not. -/
def run (r : GenerateRequest) (provider : Except AiError Provider) (client : Web.Client)
    (network : Web.Network) (s : Session) : Session × Web.Network × TaskResult :=
  let (after, reply) : Web.Network × Except AiError Json := match provider with
    | .error e => (network, .error e)
    | .ok p => p.ask client network r.prompt r.schema
  let (s, result) := s.runWith r.taskName (.ofKind .ai) fun id s =>
    let s := match provider with
      | .ok p => s.output id (p.service.key ++ " (" ++ p.model ++ ")") false
      | .error _ => s
    (s, reply.mapError AiError.message)
  (s, after, result)

end GenerateRequest

end TaskRunner
