import TaskRunner.Config.Settings
import TaskRunner.Json.Reader
import TaskRunner.Web.Client

/-!
# Model providers

Services that answer prompts with data of a given shape. Each has a variable that holds its key; the first
one whose key is set is used, unless the settings name one.
-/

namespace TaskRunner.Ai

open Web (Client HttpError Network)

/-- The services. -/
inductive Service where
  | openai
  | anthropic
deriving DecidableEq, Repr

namespace Service

/-- The name of a service. -/
def key : Service → String
  | openai => "openai"
  | anthropic => "anthropic"

/-- The variable that holds its key. -/
def credentialVariable : Service → String
  | openai => "OPENAI_API_KEY"
  | anthropic => "ANTHROPIC_API_KEY"

/-- Where it is reached unless told otherwise. -/
def baseUrl : Service → String
  | openai => "https://api.openai.com/v1"
  | anthropic => "https://api.anthropic.com/v1"

/-- The model that is asked unless told otherwise. -/
def model : Service → String
  | openai => "gpt-4o-mini"
  | anthropic => "claude-3-5-haiku-latest"

/-- What to set for the service. -/
def remedy (s : Service) : String :=
  s.credentialVariable ++ " (provider '" ++ s.key ++ "')"

end Service

/-- The services that are known, the preferred one first. -/
def services : List Service := [.openai, .anthropic]

/-- A service that can be asked. -/
structure Provider where
  service : Service
  apiKey : String
  model : String
  baseUrl : String
deriving DecidableEq, Repr

/-- Why a prompt gets no answer. -/
inductive AiError where
  | missingCredential (remedies : List String)
  | unknownProvider (name : String) (known : List String)
  | http (cause : HttpError)
  | status (provider : String) (code : Nat) (body : String)
  | malformedResponse (provider : String)
deriving DecidableEq, Repr

/-- The error in words. -/
def AiError.message : AiError → String
  | missingCredential remedies =>
    "No AI provider is configured. Set one of:\n" ++ "\n".intercalate (remedies.map ("  - " ++ ·))
  | unknownProvider name known =>
    "Unknown AI provider '" ++ name ++ "'. Available providers: " ++ ", ".intercalate known
  | http cause => cause.message
  | status provider code body => provider ++ " returned status " ++ toString code ++ ": " ++ body
  | malformedResponse provider => provider ++ " response did not contain structured output"

/-- A service with its key, as the settings want it. -/
def Provider.of (settings : Config.Ai) (service : Service) (apiKey : String) : Provider :=
  ⟨service, apiKey, settings.model.getD service.model, settings.baseUrl.getD service.baseUrl⟩

/-- Chooses a service by the settings and the keys that are set. -/
def resolve (known : List Service) (settings : Config.Ai) (environment : List (String × String)) :
    Except AiError Provider :=
  let credential := fun (s : Service) =>
    (environment.lookup s.credentialVariable).filter fun v => !Text.isAllBlank v
  match settings.provider with
  | some name =>
    match known.find? fun s => Text.eqIgnoringCase s.key name with
    | none => .error (.unknownProvider name (known.map Service.key))
    | some service =>
      match credential service with
      | some apiKey => .ok (.of settings service apiKey)
      | none => .error (.missingCredential [service.remedy])
  | none =>
    match known.findSome? fun s => (credential s).map (Provider.of settings s) with
    | some provider => .ok provider
    | none => .error (.missingCredential (known.map Service.remedy))

namespace Provider

/-- Where prompts go. -/
def endpoint (p : Provider) : String :=
  Text.trimEndWith (· == '/') p.baseUrl ++
    (match p.service with
    | .openai => "/chat/completions"
    | .anthropic => "/messages")

/-- The headers that show the key. -/
def headers (p : Provider) : List (String × String) :=
  match p.service with
  | .openai => [("Authorization", "Bearer " ++ p.apiKey)]
  | .anthropic => [("x-api-key", p.apiKey), ("anthropic-version", "2023-06-01")]

/-- What is sent for a prompt that asks for data of a shape. -/
def requestBody (p : Provider) (prompt : String) (schema : Json) : Json :=
  let messages := ("messages",
    Json.list [.ofFields [("role", .text "user"), ("content", .text prompt)]])
  match p.service with
  | .openai => .ofFields
      [("model", .text p.model), messages,
        ("response_format", .ofFields [("type", .text "json_schema"),
          ("json_schema", .ofFields [("name", .text "response"), ("schema", schema)])])]
  | .anthropic => .ofFields
      [("model", .text p.model), ("max_tokens", .int 4096), messages,
        ("tools", .list [.ofFields [("name", .text "respond"),
          ("description", .text "Respond with the requested data"), ("input_schema", schema)]]),
        ("tool_choice", .ofFields [("type", .text "tool"), ("name", .text "respond")])]

/-- A field of a record, or an item of a list, by the text of its place. -/
def at? (j : Json) (step : String) : Option Json :=
  match j with
  | .list items => (step.toNat?).bind fun n => items[n]?
  | other => other.get? step

/-- The data in the answer to a prompt. -/
def answer? (p : Provider) (reply : Json) : Option Json :=
  match p.service with
  | .openai => do
    let content ← ["choices", "0", "message", "content"].foldlM at? reply
    (Json.read (← content.text?)).toOption
  | .anthropic => do
    let blocks ← (← reply.get? "content").items?
    let block ← blocks.find? fun b => (b.get? "type").bind Json.text? == some "tool_use"
    block.get? "input"

/-- Asks the service. -/
def ask (p : Provider) (client : Client) (network : Network) (prompt : String) (schema : Json) :
    Network × Except AiError Json :=
  match Web.readUrl p.endpoint with
  | .error e => (network, .error (.http e))
  | .ok url =>
    if p.headers.any fun h => !Web.isHeaderValue h.2 then
      (network, .error (.http (.transport (.unfit none))))
    else
      let body := some (Web.Body.json (p.requestBody prompt schema))
      let request : Web.Request :=
        ⟨.post, url.target, client.headers p.headers body, Web.bodyText body⟩
      let (network, response) := network.send url request
      (network, do
        let response ← response.mapError (.http <| .transport ·)
        let text := Text.lossy (response.chunksFor .post).flatten
        if !Web.isSuccess response.status then
          .error (.status p.service.key response.status text)
        let reply ← (Json.read text).mapError (.http <| .invalidJson ·.message)
        match p.answer? reply with
        | some value => .ok value
        | none => .error (.malformedResponse p.service.key))

end Provider

end TaskRunner.Ai
