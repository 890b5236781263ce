import TaskRunner.Text.Casing
import TaskRunner.Text.Lines
import TaskRunner.Text.Utf8
import TaskRunner.Web.Method
import TaskRunner.Web.Url

/-!
# Requests and responses

A network with one server, which answers the first request that reaches it; every other connection is
refused.
-/

namespace TaskRunner.Web

/-! ## Headers -/

/-- The characters of header names besides letters and digits. -/
def headerMarks : String := "!#$%&'*+-.^_\x60|~"

/-- Whether a text may be the name of a header. -/
def isHeaderName (name : String) : Bool :=
  !name.isEmpty && name.toList.all fun c => c.isAlphanum || headerMarks.contains c

/-- Whether a text may be the value of a header. -/
def isHeaderValue (value : String) : Bool :=
  value.toList.all fun c => c == '\t' || (0x20 ≤ c.toNat && c.toNat != 0x7F)

/-- The text of a header's value; nothing unless all of it can be seen. -/
def headerText? (bytes : List UInt8) : Option String :=
  let isPad := fun (b : UInt8) => b == 32 || b == 9
  let bytes := ((bytes.dropWhile isPad).reverse.dropWhile isPad).reverse
  if bytes.all fun b => b == 9 || (32 ≤ b && b < 127) then
    some (String.ofList (bytes.map fun b => Char.ofNat b.toNat))
  else none

/-- A header's name in small letters. -/
def headerKey (name : String) : String :=
  String.ofList (name.toList.map Char.toLower)

/-- Sets a header in place of one of the same name. -/
def setHeader {α : Type} (headers : List (String × α)) (name : String) (value : α) :
    List (String × α) :=
  headers.filter (·.1 != name) ++ [(name, value)]

/-! ## Requests and responses -/

/-- A request as a server sees it. -/
structure Request where
  method : Method
  target : String
  /-- By names in small letters. -/
  headers : List (String × String)
  body : String
deriving DecidableEq, Repr

/-- A response as a server sends it. -/
structure Response where
  status : Nat
  headers : List (String × List UInt8)
  chunks : List (List UInt8)
deriving DecidableEq, Repr

/-- The headers of a response by name; of several with one name the last one counts. -/
def Response.headerTexts (r : Response) : List (String × String) :=
  r.headers.foldl (fun found (name, bytes) =>
    match headerText? bytes with
    | some text => setHeader found (headerKey name) text
    | none => found) []

/-- The chunks of a body as a client gets them: some responses have none. -/
def Response.chunksFor (r : Response) (method : Method) : List (List UInt8) :=
  if method == .head || r.status == 204 || r.status == 304 || r.status < 200 then [] else r.chunks

/-- Whether a status is one of success. -/
def isSuccess (status : Nat) : Bool :=
  200 ≤ status && status < 300

/-- The standard words for statuses. -/
def statusTexts : List (Nat × String) :=
  [(100, "Continue"), (101, "Switching Protocols"), (102, "Processing"), (103, "Early Hints"),
    (200, "OK"), (201, "Created"), (202, "Accepted"), (203, "Non Authoritative Information"),
    (204, "No Content"), (205, "Reset Content"), (206, "Partial Content"), (207, "Multi-Status"),
    (208, "Already Reported"), (226, "IM Used"), (300, "Multiple Choices"),
    (301, "Moved Permanently"), (302, "Found"), (303, "See Other"), (304, "Not Modified"),
    (305, "Use Proxy"), (307, "Temporary Redirect"), (308, "Permanent Redirect"),
    (400, "Bad Request"), (401, "Unauthorized"), (402, "Payment Required"), (403, "Forbidden"),
    (404, "Not Found"), (405, "Method Not Allowed"), (406, "Not Acceptable"),
    (407, "Proxy Authentication Required"), (408, "Request Timeout"), (409, "Conflict"),
    (410, "Gone"), (411, "Length Required"), (412, "Precondition Failed"),
    (413, "Payload Too Large"), (414, "URI Too Long"), (415, "Unsupported Media Type"),
    (416, "Range Not Satisfiable"), (417, "Expectation Failed"), (418, "I'm a teapot"),
    (421, "Misdirected Request"), (422, "Unprocessable Entity"), (423, "Locked"),
    (424, "Failed Dependency"), (425, "Too Early"), (426, "Upgrade Required"),
    (428, "Precondition Required"), (429, "Too Many Requests"),
    (431, "Request Header Fields Too Large"), (451, "Unavailable For Legal Reasons"),
    (500, "Internal Server Error"), (501, "Not Implemented"), (502, "Bad Gateway"),
    (503, "Service Unavailable"), (504, "Gateway Timeout"), (505, "HTTP Version Not Supported"),
    (506, "Variant Also Negotiates"), (507, "Insufficient Storage"), (508, "Loop Detected"),
    (510, "Not Extended"), (511, "Network Authentication Required")]

/-- The words for a status. -/
def statusText (status : Nat) : String :=
  (statusTexts.lookup status).getD "Unknown Status"

/-! ## The network -/

/-- A network. -/
structure Network where
  /-- The host and port of its server. -/
  address : String
  /-- What the server answers to the next request. -/
  response : Option Response
  /-- The request that reached the server. -/
  received : Option Request
deriving Repr

/-- A network without a server. -/
def Network.none : Network := ⟨"", .none, .none⟩

/-- Why a request gets no response. -/
inductive TransportError where
  /-- The request cannot be made; the address is known when it is at fault. -/
  | unfit (url : Option String)
  | refused (url : String)
deriving DecidableEq, Repr

/-- The error in words. -/
def TransportError.message : TransportError → String
  | unfit (some url) => "builder error for url (" ++ url ++ ")"
  | unfit .none => "builder error"
  | refused url => "error sending request for url (" ++ url ++ ")"

/-- The address without name and password. -/
def Url.bare (u : Url) : Url := { u with username := "", password := "" }

/-- Sends a request. -/
def Network.send (n : Network) (url : Url) (request : Request) :
    Network × Except TransportError Response :=
  if !url.isHttp then (n, .error (.unfit (some url.bare.text)))
  else
    match n.response with
    | some response =>
      if url.scheme == "http" && url.hostAndPort == n.address then
        ({ n with response := .none, received := some request }, .ok response)
      else (n, .error (.refused url.bare.text))
    | .none => (n, .error (.refused url.bare.text))

end TaskRunner.Web
