import LeadAutomation.Workflow.Run

/-!
# Starting workflows

A workflow that is started for real leaves an execution in the store: it is stored as running first,
and in its final state before any write to the lead is stored, so that a write that fails cannot
leave it running.
-/

namespace LeadAutomation.Workflow

/-- Runs a workflow with its execution and its writes stored; gives the execution as it ended. -/
def launch (options : Options) (workflow : Workflow) (lead : Option Lead) (event : EventKind)
    (triggerData : Json) :
    Program Execution := do
  let leadId := lead.map (·.id)
  let execution := Execution.start (← .stamp) workflow leadId (some event) triggerData []
  .store (.createExecution execution)
  let (execution, report) ← workflow.run options execution lead
  .store (.updateExecution execution)
  match leadId with
  | some id =>
    if report.patch.isEmpty then pure () else discard (.store (.applyPatch id report.patch))
  | none => pure ()
  pure execution

/-- Starts a workflow by hand, on a stored lead if one is given. -/
def execute (options : Options) (workflowId : Uuid) (leadId : Option Uuid) (triggerData : Json) :
    Program Execution := do
  let workflow ← .orFail (.workflowNotFound workflowId) (← .store (.getWorkflow workflowId))
  if !workflow.active
    then .fail (.invalidDefinition ("workflow '" ++ workflow.name ++ "' is inactive"))
  else
    let lead ← match leadId with
      | some id => some <$> (do .orFail (.leadNotFound id) (← .store (.getLead id)))
      | none => pure none
    workflow.launch options lead .manual triggerData

end LeadAutomation.Workflow

namespace LeadAutomation.Execution

def get (id : Uuid) : Program Execution :=
  do .orFail (.executionNotFound id) (← .store (.getExecution id))

/-- The latest executions of a stored workflow, the latest first. -/
def history (workflowId : Uuid) (limit : Int) : Program (List Execution) := do
  let _ ← Program.orFail (.workflowNotFound workflowId) (← .store (.getWorkflow workflowId))
  .store (.listExecutions workflowId limit)

end LeadAutomation.Execution
