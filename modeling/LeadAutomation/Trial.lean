import LeadAutomation.Rehearsal
import LeadAutomation.Workflow.Launch

/-!
# Trying out rules and workflows

Before they are switched on, a rule can be tested on a lead that exists only for the test, and a
workflow can be previewed. Both do the work of the real thing on values of their own: nothing is
stored, and what would be asked of systems outside is written down as intents.
-/

namespace LeadAutomation

/-- What a rule does to a lead in a test. -/
structure RuleTest where
  result : RuleMatch
  actions : List ActionOutcome
  /-- The lead after the actions. -/
  lead : Lead
  intents : Intents

namespace RuleTest

def toJson (test : RuleTest) : Json := .obj [
  ("actions", .arr (test.actions.map ActionOutcome.toJson)),
  ("intents", test.intents.toJson),
  ("lead", test.lead.toJson),
  ("match", test.result.toJson)]

end RuleTest

/-- What a workflow would do. -/
structure Preview where
  execution : Execution
  lead : Option Lead
  intents : Intents

namespace Preview

def toJson (preview : Preview) : Json := .obj [
  ("execution", preview.execution.toJson),
  ("intents", preview.intents.toJson),
  ("lead", .orNull Lead.toJson preview.lead)]

end Preview

/-- Tests a stored rule on a lead, as if the rule were active. -/
def Rule.test (options : Options) (ruleId : Uuid) (lead : Lead) : Program RuleTest := do
  let stored ← .orFail (.ruleNotFound ruleId) (← .store (.getRule ruleId))
  let rule := { stored with active := true }
  let view : RecordView := ⟨some lead, .null⟩
  let result := rule.tryOn view.lookup options.emptyRulePolicy
  let now := (← .stamp).now
  let ((applied, final), intents) ←
    (applyActions now options.defaultRecipients .null result.actions (some lead)).rehearse
  pure ⟨result, applied.outcomes, final.getD lead, intents⟩

/-- Shows what a stored workflow would do to a lead, if one is given. -/
def Workflow.preview (options : Options) (workflowId : Uuid) (lead : Option Lead)
    (triggerData : Json) :
    Program Preview := do
  let workflow ← .orFail (.workflowNotFound workflowId) (← .store (.getWorkflow workflowId))
  let execution :=
    Execution.start (← .stamp) workflow (lead.map (·.id)) none triggerData [("preview", .bool true)]
  let ((execution, report), intents) ← (workflow.run options execution lead).rehearse
  pure ⟨execution, report.lead, intents⟩

end LeadAutomation
