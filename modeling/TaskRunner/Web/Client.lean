import TaskRunner.Json.Printer
import TaskRunner.Web.Network

/-!
# Making requests

A client turns an address, a method, headers and a body into a request, and says what is wrong with them
first: the address, then the headers in the order of their names.
-/

namespace TaskRunner.Web

/-- Why a request fails. -/
inductive HttpError where
  | transport (cause : TransportError)
  | invalidUrl (url : String) (cause : UrlError)
  | invalidHeaderName (name : String)
  | invalidHeaderValue (name : String)
  | invalidJson (reason : String)
deriving DecidableEq, Repr

/-- The error in words. -/
def HttpError.message : HttpError → String
  | transport cause => "Request failed: " ++ cause.message
  | invalidUrl url cause => "Invalid URL " ++ url ++ ": " ++ cause.message
  | invalidHeaderName name => "Invalid header name '" ++ name ++ "'"
  | invalidHeaderValue name => "Invalid value for header '" ++ name ++ "'"
  | invalidJson reason => "Response is not valid JSON: " ++ reason

/-- The body of a request. -/
inductive Body where
  | text (content : String)
  | json (value : Json)
deriving Repr

/-- A client that names itself to servers. -/
structure Client where
  userAgent : String
deriving DecidableEq, Repr

/-- Why there is no client: its name is no header. -/
def Client.make? (userAgent : String) : Except String Client :=
  if isHeaderValue userAgent then .ok ⟨userAgent⟩
  else .error "Cannot build HTTP client: builder error"

/-- The headers with those that a client adds. -/
def Client.headers (c : Client) (headers : List (String × String)) (body : Option Body) :
    List (String × String) :=
  let given := headers.foldl (fun found (name, value) =>
    setHeader found (headerKey name) (Text.trim value)) []
  let add := fun (found : List (String × String)) (name value : String) =>
    if found.any (·.1 == name) then found else found ++ [(name, value)]
  let given := add given "user-agent" c.userAgent
  match body with
  | some (.json _) => add given "content-type" "application/json"
  | _ => given

/-- The text of a body. -/
def bodyText : Option Body → String
  | some (.text content) => content
  | some (.json value) => value.compact
  | none => ""

/-- The first header at fault, in the order given. -/
def headerError? (headers : List (String × String)) : Option HttpError :=
  headers.findSome? fun (name, value) =>
    if !isHeaderName name then some (.invalidHeaderName name)
    else if !isHeaderValue value then some (.invalidHeaderValue name)
    else none

/-- Reads an address that a request goes to. -/
def readUrl (url : String) : Except HttpError Url :=
  (Url.ofText? url).mapError (.invalidUrl url)

end TaskRunner.Web
