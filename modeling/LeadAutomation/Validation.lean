import LeadAutomation.Action.Plan
import LeadAutomation.ApiError
import LeadAutomation.Rule.Basic
import LeadAutomation.Workflow.Settings

/-!
# Validation

Definitions are checked before they are stored. All violations are reported at once, each under the
field that it is about, and what is merely unwise comes back as a warning. The checks of actions and
steps ask what the actions and steps themselves will ask when they are carried out.
-/

namespace LeadAutomation

namespace Validation

/-- A violation, if a condition is met. -/
def violationIf (condition : Bool) (field message : String) : List Violation :=
  if condition then [⟨field, message⟩] else []

/-- The name of a field of an item of a list. -/
def itemField (list : String) (index : Nat) (field : String) : String :=
  list ++ "[" ++ toString index ++ "]." ++ field

def checkName (name : String) : List Violation :=
  violationIf (Text.isBlankText name) "name" "Name is required"

def checkPriority (priority : Int32) : List Violation :=
  violationIf (!(0 ≤ priority && priority ≤ 100)) "priority" "Priority must be between 0 and 100"

def checkConditionValue (field : String) (condition : Condition) : List Violation :=
  match condition.value with
  | none => [⟨field, "Value is required"⟩]
  | some value =>
    match condition.operator with
    | .known operator =>
      violationIf (operator.isMembership && value.items?.isNone) field
        "Membership operators need a list value"
    | .other .. => []

def checkOperator (field : String) : Word ConditionOperator → List Violation
  | .known _ => []
  | .other text _ => [⟨field, "Unknown operator '" ++ text ++ "'"⟩]

def checkCondition (index : Nat) (condition : Condition) : List Violation :=
  violationIf (Text.isBlankText condition.field) (itemField "conditions" index "field")
    "Field is required" ++
    checkOperator (itemField "conditions" index "operator") condition.operator ++
    checkConditionValue (itemField "conditions" index "value") condition

/-- The text of an action's value, empty where it has none. -/
def valueText (action : Action) : String := (action.value.map FieldValue.display).getD ""

def checkAction (index : Nat) (action : Action) : List Violation :=
  let field := itemField "actions" index "value"
  match action.kind with
  | .other text _ => [⟨itemField "actions" index "type", "Unknown action type '" ++ text ++ "'"⟩]
  | .known .statusChange =>
    violationIf (LeadStatus.ofText? (valueText action)).isNone field
      (LeadStatus.invalidMessage (valueText action))
  | .known .scoring =>
    violationIf (action.value.bind FieldValue.number?).isNone field "Score must be numeric"
  | .known .assignment =>
    violationIf (Uuid.ofText? (Text.trim (valueText action))).isNone field
      "Assignee must be a user or team id"
  | .known .notification =>
    violationIf (Text.isBlankText (valueText action)) field "Notification message is required"
  | .known .enrichment => []

/-- Whether a number lies outside the range of scores. -/
def isOutOfScoreRange (score : Binary64) : Bool :=
  score.less .zero || (Binary64.ofNat false 100).less score

def warnAction (index : Nat) (action : Action) : List String :=
  match action.kind with
  | .known .scoring =>
    match action.value.bind FieldValue.number? with
    | some score =>
      if isOutOfScoreRange score then
        ["Action " ++ toString (index + 1) ++ " sets score " ++ score.text plainNumber ++
          " which will be clamped to 0-100"]
      else []
    | none => []
  | _ => []

/-- What checks of the items of a list find, each given the index of its item. -/
def checkItems {α β : Type} (check : Nat → α → List β) (items : List α) : List β :=
  items.zipIdx.flatMap fun (item, index) => check index item

end Validation

open Validation

namespace Rule

def violations (rule : Rule) : List Violation :=
  checkName rule.name ++ checkPriority rule.priority ++ checkItems checkCondition rule.conditions ++
    checkItems checkAction rule.actions

def warnings (rule : Rule) : List String :=
  (if rule.actions.isEmpty then ["Rule has no actions and will never change anything"] else []) ++
    checkItems warnAction rule.actions ++
    (if rule.isCatchAll then
      ["Catch-all rule: no conditions, its actions run for every lead it is dispatched against"]
        else [])

/-- The warnings about a rule, or the violations that keep it from being stored. -/
def validate (rule : Rule) : Except (List Violation) (List String) :=
  if rule.violations.isEmpty then .ok rule.warnings else .error rule.violations

end Rule

namespace Workflow

/-- Whether the positions of the steps are the numbers from one to their count, in any order. -/
def isNumbered (workflow : Workflow) : Bool :=
  let positions := workflow.steps.map (·.position.toInt)
  positions.mergeSort = (List.range workflow.steps.length).map fun (index : Nat) =>
    (index : Int) + 1

def checkPositions (workflow : Workflow) : List Violation :=
  violationIf (!workflow.isNumbered) "steps"
    ("Step order must be exactly 1..=" ++ toString workflow.steps.length ++
      " without gaps or duplicates")

def checkConfig (field : String) (step : Step) : List Violation :=
  match step.parseConfig with
  | .ok () => []
  | .error message => [⟨field, message⟩]

def checkStep (index : Nat) (step : Step) : List Violation :=
  violationIf (Text.isBlankText step.name)
    (itemField "steps" index "name") "Step name is required" ++
    checkConfig (itemField "steps" index "config") step

def violations (workflow : Workflow) : List Violation :=
  checkName workflow.name ++ checkPriority workflow.priority ++ workflow.checkPositions ++
    checkItems checkStep workflow.steps

def warnings (workflow : Workflow) : List String :=
  if workflow.steps.isEmpty then ["Workflow has no steps"] else []

/-- The warnings about a workflow, or the violations that keep it from being stored. -/
def validate (workflow : Workflow) : Except (List Violation) (List String) :=
  if workflow.violations.isEmpty then .ok workflow.warnings else .error workflow.violations

end Workflow

end LeadAutomation
