import LeadAutomation.Json.Basic

/-!
# Calls to integrations

An integration is an external system with a name; a call asks it for an action on some data.
-/

namespace LeadAutomation

structure IntegrationCall where
  integration : String
  action : String
  data : Json
deriving DecidableEq

namespace IntegrationCall

def toJson (call : IntegrationCall) : Json := .obj [
  ("action", .str call.action),
  ("data", call.data),
  ("integration_id", .str call.integration)]

/-- The reply of a rehearsed call, which reaches no external system. -/
def rehearsedReply (call : IntegrationCall) : Json := .obj [
  ("action", .str call.action),
  ("dryRun", .bool true),
  ("integrationId", .str call.integration)]

end IntegrationCall

end LeadAutomation
