import TaskRunner.Task.Session
import TaskRunner.Text.LineBuffer
import TaskRunner.Web.Client

/-!
# Fetching

A task that makes a request and reports the lines of the response as they come. It succeeds when the
status is one of success; otherwise it fails with the body as its message.
-/

namespace TaskRunner

open Web (Client HttpError Method Network)

/-- A request to make. -/
structure FetchRequest where
  url : String
  method : Method
  /-- In the order of their names. -/
  headers : List (String × String)
  body : Option Web.Body
deriving Repr

/-- What came back. -/
structure FetchResponse where
  url : String
  status : Nat
  headers : List (String × String)
  body : String
deriving DecidableEq, Repr

namespace FetchResponse

/-- Whether the status is one of success. -/
def isOk (r : FetchResponse) : Bool := Web.isSuccess r.status

/-- The words for the status. -/
def statusText (r : FetchResponse) : String := Web.statusText r.status

/-- The message of a failed request: the body, unless it is blank. -/
def failureMessage (r : FetchResponse) : String :=
  if Text.isAllBlank r.body then
    "Request failed with status " ++ toString r.status ++ " " ++ r.statusText
  else r.body

/-- What the task ends with. -/
def outcome (r : FetchResponse) : Except String Json :=
  if r.isOk then .ok (.text r.body) else .error r.failureMessage

end FetchResponse

namespace FetchRequest

/-- The name of the task. -/
def taskName (r : FetchRequest) : String :=
  r.method.name ++ " " ++ r.url

/-- The body that is sent: some methods have none. -/
def sentBody (r : FetchRequest) : Option Web.Body :=
  if r.method.allowsBody then r.body else none

/-- Makes the request. -/
def send (r : FetchRequest) (client : Client) (network : Network) :
    Network × Except HttpError (Web.Url × Web.Response) :=
  match Web.readUrl r.url, Web.headerError? r.headers with
  | .error e, _ => (network, .error e)
  | .ok _, some e => (network, .error e)
  | .ok url, none =>
    let request : Web.Request :=
      ⟨r.method, url.target, client.headers r.headers r.sentBody, Web.bodyText r.sentBody⟩
    let (network, answer) := network.send url request
    (network, (answer.mapError .transport).map fun response => (url, response))

/-- Takes a response in, reports its status and lines, and gives what came back. -/
def receive (r : FetchRequest) (id : TaskId) (s : Session) (url : Web.Url)
    (response : Web.Response) : Session × FetchResponse :=
  let chunks := response.chunksFor r.method
  let s := s.setStatusCode id response.status
  let s := (Text.linesOfChunks .empty chunks).foldl (fun (s : Session) line =>
    s.output id line false) s
  (s, { url := { url.bare with fragment := none }.text
        status := response.status
        headers := response.headerTexts
        body := Text.lossy chunks.flatten })

/-- Runs the task. -/
def run (r : FetchRequest) (client : Client) (network : Network) (s : Session) :
    Session × Network × TaskResult × Option FetchResponse :=
  let (s, id) := s.startTask r.taskName (.ofKind .fetch)
  let (network, answer) := r.send client network
  let (s, outcome, response) : Session × Except String Json × Option FetchResponse :=
    match answer with
    | .error e => (s, .error e.message, none)
    | .ok (url, response) =>
      let (s, response) := r.receive id s url response
      (s, response.outcome, some response)
  let (s, result) := s.complete id outcome
  (s, network, result.getD (FailureMode.fail.resultOf outcome), response)

end FetchRequest

end TaskRunner
