import LeadAutomation.Execution.Status
import LeadAutomation.Uuid

/-!
# What can go wrong

Failures of the store, of the systems that automation talks to, and of requests that make no sense.
Each is a cause; the words for it are in `AutomationError.message`.
-/

namespace LeadAutomation

/-- A change that an execution does not admit in its present status. -/
inductive ExecutionStateError where
  | alreadyFinalized (id : Uuid) (status : ExecutionStatus)
  | notRunning (id : Uuid) (status : ExecutionStatus)
  /-- An execution cannot be ended with a status that is no end. -/
  | notTerminal (status : ExecutionStatus)
deriving DecidableEq, Repr

def ExecutionStateError.message : ExecutionStateError → String
  | .alreadyFinalized id status => "execution " ++ id.text ++ " is already " ++ status.name
  | .notRunning id status => "execution " ++ id.text ++ " is " ++ status.name ++ ", not running"
  | .notTerminal status => status.name ++ " is not a terminal status"

/-- A failure of automation or of something that it relies on. -/
inductive AutomationError where
  | repository (detail : String)
  | ruleNotFound (id : Uuid)
  | workflowNotFound (id : Uuid)
  | leadNotFound (id : Uuid)
  | executionNotFound (id : Uuid)
  | invalidDefinition (detail : String)
  | executionState (error : ExecutionStateError)
  | notification (detail : String)
  | integration (system detail : String)
  | enrichment (detail : String)
deriving DecidableEq, Repr

def AutomationError.message : AutomationError → String
  | .repository detail => "Repository error: " ++ detail
  | .ruleNotFound id => "Rule " ++ id.text ++ " not found"
  | .workflowNotFound id => "Workflow " ++ id.text ++ " not found"
  | .leadNotFound id => "Lead " ++ id.text ++ " not found"
  | .executionNotFound id => "Execution " ++ id.text ++ " not found"
  | .invalidDefinition detail => "Invalid definition: " ++ detail
  | .executionState error => error.message
  | .notification detail => "Notification failed: " ++ detail
  | .integration system detail => "Integration '" ++ system ++ "' failed: " ++ detail
  | .enrichment detail => "Enrichment request failed: " ++ detail

end LeadAutomation
