import LeadAutomation.Error
import LeadAutomation.Integration.Call
import LeadAutomation.Json.Parser

/-!
# Integrations over HTTP

Calls to integrations are posted to a server, each to a path of its own. A reply with a status of
success is taken as JSON, or, if it is none, kept as text beside its status; any other status is a
failure, and so is a server that does not reply.
-/

namespace LeadAutomation

/-- The server that knows the integrations. -/
structure IntegrationServer where
  baseUrl : String

/-- What came back from a server. -/
inductive HttpDelivery where
  | replied (status : Nat) (body : String)
  | unreachable (detail : String)
deriving DecidableEq, Repr

namespace IntegrationServer

/-- A server by its URL, with or without slashes at the end. -/
def ofUrl (url : String) : IntegrationServer :=
  ⟨String.ofList (url.toList.reverse.dropWhile (· = '/')).reverse⟩

def url (server : IntegrationServer) (call : IntegrationCall) : String :=
  server.baseUrl ++ "/integrations/" ++ call.integration ++ "/" ++ call.action

def isSuccess (status : Nat) : Bool := 200 ≤ status && status < 300

/-- The value of a reply: JSON, or else its status and its text. -/
def replyValue (status : Nat) (body : String) : Json :=
  (Json.document? body).getD (.obj [("response_body", .str body), ("status_code", .int status)])

/-- The result of a call, given what came back. -/
def result (call : IntegrationCall) : HttpDelivery → Except AutomationError Json
  | .replied status body =>
    if isSuccess status then .ok (replyValue status body)
    else .error (.integration call.integration ("HTTP " ++ toString status ++ ": " ++ body))
  | .unreachable detail => .error (.integration call.integration detail)

/-- Makes a call, where `post` delivers data to a URL. -/
def invoke {m : Type → Type} [Monad m] (server : IntegrationServer)
    (post : String → Json → m HttpDelivery) (call : IntegrationCall) :
    m (Except AutomationError Json) :=
  result call <$> post (server.url call) call.data

end IntegrationServer

end LeadAutomation
