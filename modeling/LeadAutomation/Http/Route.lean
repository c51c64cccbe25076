import LeadAutomation.Text

/-!
# Routes

The paths of the interface, and the methods that each of them knows. A path with a slash too many at
its end is another path.
-/

namespace LeadAutomation.Http

/-- A path of the interface; identifiers are still as the client wrote them. -/
inductive Route where
  | root
  | health
  | rules
  | rule (id : String)
  | ruleTest (id : String)
  | workflows
  | workflow (id : String)
  | workflowPreview (id : String)
  | workflowExecute (id : String)
  | workflowExecutions (id : String)
  | execution (id : String)
  | events
deriving DecidableEq, Repr

namespace Route

/-- The route below the segments of the interface. -/
def ofSegments? : List String → Option Route
  | ["rules"] => some .rules
  | ["rules", id] => some (.rule id)
  | ["rules", id, "test"] => some (.ruleTest id)
  | ["workflows"] => some .workflows
  | ["workflows", id] => some (.workflow id)
  | ["workflows", id, "preview"] => some (.workflowPreview id)
  | ["workflows", id, "execute"] => some (.workflowExecute id)
  | ["workflows", id, "executions"] => some (.workflowExecutions id)
  | ["executions", id] => some (.execution id)
  | ["events"] => some .events
  | _ => none

def ofPath? (path : String) : Option Route :=
  match Text.split '/' path with
  | ["", ""] => some .root
  | ["", "health"] => some .health
  | "" :: "api" :: "v1" :: segments => if segments.contains "" then none else ofSegments? segments
  | _ => none

def methods : Route → List String
  | .root | .health | .workflow _ | .workflowExecutions _ | .execution _ => ["GET"]
  | .rules | .ruleTest _ | .workflows | .workflowPreview _ | .workflowExecute _ | .events =>
    ["POST"]
  | .rule _ => ["GET", "PUT", "DELETE"]

end Route

end LeadAutomation.Http
