import LeadAutomation.Error
import LeadAutomation.Json.Decode

/-!
# Errors as clients see them

The errors of the HTTP interface have a status, a code and a message. Details of failures inside are
not shown: whatever the store or an outside system says about a failure stays out of the body.
-/

namespace LeadAutomation

/-- Something that is wrong with a definition, and in which of its fields. -/
structure Violation where
  field : String
  message : String
deriving DecidableEq, Repr

inductive ApiError where
  | notFound (resource : String)
  | invalid (violations : List Violation)
  | badRequest (message : String)
  | internal (detail : String)
  | database (detail : String)
  | externalService (service detail : String)
deriving DecidableEq, Repr

namespace Violation

/-- The messages about a field, in order. -/
def messagesFor (field : String) (violations : List Violation) : List String :=
  (violations.filter fun violation => violation.field = field).map (·.message)

/-- The messages under the names of their fields. -/
def details (violations : List Violation) : Json.Members :=
  Json.sortMembers (violations.map fun violation =>
    (violation.field, .texts (messagesFor violation.field violations)))

end Violation

namespace ApiError

def status : ApiError → Nat
  | notFound _ => 404
  | invalid _ => 422
  | badRequest _ => 400
  | internal _ | database _ => 500
  | externalService .. => 502

/-- The code by which programs tell errors apart. -/
def code : ApiError → String
  | notFound _ => "NOT_FOUND"
  | invalid _ => "VALIDATION_ERROR"
  | badRequest _ => "BAD_REQUEST"
  | internal _ => "INTERNAL_ERROR"
  | database _ => "DATABASE_ERROR"
  | externalService .. => "EXTERNAL_SERVICE_ERROR"

def message : ApiError → String
  | notFound resource => resource ++ " not found"
  | invalid _ => "Validation failed"
  | badRequest text => text
  | internal _ => "An internal error occurred"
  | database _ => "A database error occurred"
  | externalService service _ => "External service '" ++ service ++ "' is unavailable"

/-- The details of an error, where it has any for clients. -/
def details? : ApiError → Option Json.Members
  | invalid violations => some (Violation.details violations)
  | _ => none

/-- The body of the response at some time. -/
def body (now : Timestamp) (error : ApiError) : Json := .obj
  ([("code", .str error.code)] ++
    Json.optional "details" .obj error.details? ++
    [("message", .str error.message), ("timestamp", now.toJson)])

/-- How a failure of automation appears to clients. -/
def ofAutomation : AutomationError → ApiError
  | .ruleNotFound id => notFound ("Rule " ++ id.text)
  | .workflowNotFound id => notFound ("Workflow " ++ id.text)
  | .leadNotFound id => notFound ("Lead " ++ id.text)
  | .executionNotFound id => notFound ("Execution " ++ id.text)
  | .invalidDefinition detail => badRequest detail
  | .repository detail => database detail
  | .executionState error => internal error.message
  | .notification detail => externalService "notification" detail
  | .integration system detail => externalService system detail
  | .enrichment detail => externalService "enrichment" detail

end ApiError

end LeadAutomation
