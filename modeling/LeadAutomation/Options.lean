import LeadAutomation.Rule.Match

/-!
# Options

The few choices that are left to whoever runs automation.
-/

namespace LeadAutomation

/-- How automation behaves where that is a matter of choice. -/
structure Options where
  /-- Whether a workflow goes on after an action that failed. -/
  continueOnStepFailure : Bool := false
  emptyRulePolicy : EmptyRulePolicy := .matchAll
  /-- Who is notified where no recipients are named. -/
  defaultRecipients : List String := []
deriving DecidableEq

def Options.toJson (options : Options) : Json := .obj [
  ("continue_on_step_failure", .bool options.continueOnStepFailure),
  ("default_recipients", .texts options.defaultRecipients),
  ("empty_rule_policy", .str (Named.name options.emptyRulePolicy))]

end LeadAutomation
