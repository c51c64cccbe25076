import LeadAutomation.ApiError
import LeadAutomation.Http.Request

/-!
# Responses

What a client receives: a status and perhaps a body, which is JSON or plain text. Requests that
cannot be read are answered without a body; failures are answered with an error in JSON.
-/

namespace LeadAutomation.Http

inductive Body where
  | empty
  | text (s : String)
  | json (value : Json)
deriving DecidableEq

structure Response where
  status : Nat
  body : Body := .empty
deriving DecidableEq

namespace Response

def ok (value : Json) : Response := ⟨200, .json value⟩

def created (value : Json) : Response := ⟨201, .json value⟩

/-- The response to a request that could not be read. -/
def ofRejection (rejection : Rejection) : Response := ⟨rejection.status, .empty⟩

/-- The response to a request that failed. -/
def ofError (now : Timestamp) (error : ApiError) : Response :=
  ⟨error.status, .json (error.body now)⟩

end Response

end LeadAutomation.Http
