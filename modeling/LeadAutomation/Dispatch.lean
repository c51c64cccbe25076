import LeadAutomation.Workflow.Launch

/-!
# Dispatching events

An event sets off every rule and every workflow that takes part in it, one after another in the
order of their priority, with rules before workflows of the same priority. The lead is read again
after each, so what comes later sees what came earlier.

A failure of the store ends the dispatch; what was done until then stands. Actions and steps that
fail are reported in the summaries.
-/

namespace LeadAutomation

inductive Participant where
  | rule (rule : Rule)
  | workflow (workflow : Workflow)

namespace Participant

def priority : Participant → Int32
  | .rule r => r.priority
  | .workflow w => w.priority

/-- Rules and workflows in the order in which they take their turns. -/
def schedule (rules : List Rule) (workflows : List Workflow) : List Participant :=
  Rule.byPriority priority (rules.map .rule ++ workflows.map .workflow)

end Participant

/-- What became of a participant in a dispatch. -/
structure Summary where
  participant : Participant
  /-- Whether a rule matched; a workflow always does. -/
  matched : Bool
  actions : List ActionOutcome := []
  /-- The execution of a workflow. -/
  execution : Option Execution := none
  error : Option String := none

namespace Summary

/-- The members that tell which rule or workflow a summary is about. -/
def subject : Participant → String × Uuid × String
  | .rule r => ("rule", r.id, r.name)
  | .workflow w => ("workflow", w.id, w.name)

def toJson (summary : Summary) : Json :=
  let (kind, id, name) := subject summary.participant
  .obj ((if summary.actions.isEmpty then []
    else [("actions", .arr (summary.actions.map ActionOutcome.toJson))]) ++
    Json.optional "error" .str summary.error ++
    Json.optional "execution_id" (fun execution => execution.id.toJson) summary.execution ++
    [("gate_stopped", .bool (summary.execution.any (·.gateStopped))),
      ("id", id.toJson), ("kind", .str kind), ("matched", .bool summary.matched),
        ("name", .str name),
      ("priority", .int summary.participant.priority.toInt)] ++
    Json.optional "status" (fun execution => .str execution.status.name) summary.execution)

end Summary

namespace Event

/-- Stores a patch, if it sets anything, and gives the lead as it is stored. -/
def storeWrites (leadId : Uuid) (patch : LeadPatch) : Program Lead := do
  if patch.isEmpty then .orFail (.leadNotFound leadId) (← .store (.getLead leadId))
  else .store (.applyPatch leadId patch)

/-- Lets a rule take part: if it matches, its actions are carried out. Gives the lead as stored
afterwards. -/
def applyRule (options : Options) (payload : Json) (rule : Rule) (lead : Lead) :
    Program (Summary × Lead) := do
  let view : RecordView := ⟨some lead, payload⟩
  let result := rule.tryOn view.lookup options.emptyRulePolicy
  if result.matched then
    let now := (← .stamp).now
    let (applied, _) ← applyActions now options.defaultRecipients payload result.actions (some lead)
    let lead ← storeWrites lead.id applied.patch
    let summary : Summary :=
      { participant := .rule rule, matched := true, actions := applied.outcomes,
        error := applied.firstError? }
    pure (summary, lead)
  else pure ({ participant := .rule rule, matched := false }, lead)

/-- Lets a workflow take part. Gives the lead as stored afterwards. -/
def applyWorkflow (options : Options) (event : Event) (workflow : Workflow) (lead : Lead) :
    Program (Summary × Lead) := do
  let execution ← workflow.launch options (some lead) event.kind event.payload
  let lead ← .orFail (.leadNotFound lead.id) (← .store (.getLead lead.id))
  pure ({ participant := .workflow workflow, matched := true, execution,
          error := execution.errorMessage }, lead)

/-- Lets a rule or a workflow take part. -/
def apply (options : Options) (event : Event) (lead : Lead) : Participant → Program (Summary × Lead)
  | .rule r => applyRule options event.payload r lead
  | .workflow w => applyWorkflow options event w lead

/-- Lets participants take their turns. -/
def applyAll (options : Options) (event : Event) : List Participant → Lead → Program (List Summary)
  | [], _ => pure []
  | participant :: rest, lead => do
    let (summary, lead) ← event.apply options lead participant
    let summaries ← applyAll options event rest lead
    pure (summary :: summaries)

/-- The active workflows that take part in an event. -/
def workflows (event : Event) : Program (List Workflow) :=
  match Trigger.ofEvent? event.kind with
  | some trigger =>
    (List.filter (·.appliesTo event.kind)) <$> Program.store (.listActiveWorkflows trigger)
  | none => pure []

/-- Sets off everything that takes part in an event; gives a summary for each. -/
def dispatch (options : Options) (event : Event) : Program (List Summary) := do
  let lead ← .orFail (.leadNotFound event.leadId) (← .store (.getLead event.leadId))
  let rules ← (List.filter (·.appliesTo event.kind)) <$> Program.store (.listActiveRules none)
  let workflows ← event.workflows
  event.applyAll options (Participant.schedule rules workflows) lead

end Event

end LeadAutomation
