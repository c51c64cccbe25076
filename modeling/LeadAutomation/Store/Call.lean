import LeadAutomation.Execution.Basic
import LeadAutomation.Lead.Patch
import LeadAutomation.Rule.Basic

/-!
# Calls to the store

What automation asks of the place where rules, workflows, leads and executions are kept. Each call
has its type of result; a store may always fail instead.
-/

namespace LeadAutomation

inductive StoreCall where
  /-- The active rules, of one kind if one is given. -/
  | listActiveRules (kind : Option RuleKind)
  | getRule (id : Uuid)
  | saveRule (rule : Rule)
  /-- Tells whether there was such a rule. -/
  | deleteRule (id : Uuid)
  /-- The active workflows with a trigger. -/
  | listActiveWorkflows (trigger : Trigger)
  | getWorkflow (id : Uuid)
  | saveWorkflow (workflow : Workflow)
  | getLead (id : Uuid)
  /-- Makes a patch and gives the lead with it. -/
  | applyPatch (id : Uuid) (patch : LeadPatch)
  | saveLead (lead : Lead)
  | createExecution (execution : Execution)
  | updateExecution (execution : Execution)
  | getExecution (id : Uuid)
  /-- The latest executions of a workflow, the latest first. -/
  | listExecutions (workflowId : Uuid) (limit : Int)
  /-- Ends as failed what was started before a point in time and still runs; tells how many that
  were. -/
  | failStaleExecutions (cutoff : Timestamp) (message : String)

namespace StoreCall

abbrev Result : StoreCall → Type
  | .listActiveRules _ => List Rule
  | .getRule _ => Option Rule
  | .saveRule _ => Unit
  | .deleteRule _ => Bool
  | .listActiveWorkflows _ => List Workflow
  | .getWorkflow _ => Option Workflow
  | .saveWorkflow _ => Unit
  | .getLead _ => Option Lead
  | .applyPatch _ _ => Lead
  | .saveLead _ => Unit
  | .createExecution _ => Unit
  | .updateExecution _ => Unit
  | .getExecution _ => Option Execution
  | .listExecutions _ _ => List Execution
  | .failStaleExecutions _ _ => Nat

end StoreCall

end LeadAutomation
