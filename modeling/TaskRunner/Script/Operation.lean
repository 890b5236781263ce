import TaskRunner.Json.Printer
import TaskRunner.Work.Exec
import TaskRunner.Work.Fetch
import TaskRunner.Work.Generate
import TaskRunner.Work.Write

/-!
# Operations of scripts

What a script can ask for outside of itself: a command, a request, a file or an answer of a model. Each one
is a task of its own, whose result is the reply.
-/

namespace TaskRunner.Script

open Files (Location Tree)

/-- What the operations of a run are done with. -/
structure Services where
  client : Web.Client
  provider : Except Ai.AiError Ai.Provider
  shell : String
  /-- The directory that paths of the script start from, as it is written. -/
  baseDir : String
  /-- The directory of the program. -/
  home : Location
  /-- The environment variables. -/
  environment : List (String × String)

/-- What the operations of a run change. -/
structure World where
  session : Session
  tree : Tree
  network : Web.Network

/-- Something that a script asks for. -/
inductive Operation where
  | exec (command : String) (cwd : Option String) (env : List (String × String))
  | fetch (url method : String) (headers : List (String × String)) (body : Json)
  | write (path content : String)
  | ai (prompt : String) (schema : Json)
deriving Repr

/-- What comes back: a result, and of a request that was answered the response. -/
structure Reply where
  result : TaskResult
  response : Option FetchResponse
deriving Repr

/-- A text among the fields of a record. -/
def textField (j : Json) (key : String) : String :=
  ((j.get? key).bind Json.text?).getD ""

/-- The texts among the fields of a record in a record. -/
def textsField (j : Json) (key : String) : List (String × String) :=
  (((j.get? key).bind Json.fields?).getD []).filterMap fun (name, v) => v.text?.map (name, ·)

/-- The operation that a record asks for. -/
def Operation.ofJson? (j : Json) : Option Operation :=
  match textField j "kind" with
  | "exec" => some (.exec (textField j "command") ((j.get? "cwd").bind Json.text?) (textsField j "env"))
  | "fetch" => some (.fetch (textField j "url") (textField j "method") (textsField j "headers")
      ((j.get? "body").getD .null))
  | "writeToFile" => some (.write (textField j "path") (textField j "content"))
  | "ai" => some (.ai (textField j "prompt") ((j.get? "schema").getD .null))
  | _ => none

/-- A path of the script from the program's directory. -/
def Services.resolve (s : Services) (path : String) : String :=
  Files.join s.baseDir path

/-- A body of a request: a text as it is, `null` for none, anything else as JSON. -/
def bodyOf : Json → Option Web.Body
  | .null => none
  | .text t => some (.text t)
  | other => some (.json other)

/-- Carries an operation out. -/
def Operation.run (o : Operation) (s : Services) (w : World) : World × Reply :=
  match o with
  | exec command cwd env =>
    let dir := match cwd with
      | some dir => s.resolve dir
      | none => s.baseDir
    let r : ExecRequest := ⟨command, none, some dir, env, s.shell⟩
    let (session, tree, result) := r.run s.environment s.home w.tree w.session
    ({ w with session, tree }, ⟨result, none⟩)
  | fetch url method headers body =>
    match Web.Method.ofText? method with
    | .error e => (w, ⟨.fail (.text e), none⟩)
    | .ok method =>
      let r : FetchRequest := ⟨url, method, headers, bodyOf body⟩
      let (session, network, result, response) := r.run s.client w.network w.session
      ({ w with session, network }, ⟨result, response⟩)
  | write path content =>
    let r : WriteRequest := ⟨s.resolve path, content, false⟩
    let (session, tree, result) := r.run s.home w.tree w.session
    ({ w with session, tree }, ⟨result, none⟩)
  | ai prompt schema =>
    let r : GenerateRequest := ⟨prompt, schema⟩
    let (session, network, result) := r.run s.provider s.client w.network w.session
    ({ w with session, network }, ⟨result, none⟩)

/-- The response as data. -/
def responseData (r : FetchResponse) : Json :=
  .ofFields [("url", .text r.url), ("status", .int r.status), ("statusText", .text r.statusText),
    ("headers", .ofFields (r.headers.map fun (name, value) => (name, .text value))),
    ("body", .text r.body)]

/-- The reply as data. -/
def Reply.data (r : Reply) : Json :=
  .ofFields [("status", .text r.result.status.label), ("output", r.result.output),
    ("response", (r.response.map responseData).getD .null)]

end TaskRunner.Script
