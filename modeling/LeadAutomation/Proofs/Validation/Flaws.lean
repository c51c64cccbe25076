import LeadAutomation.Proofs.Validation.Places
import Mathlib.Data.List.Sort

/-!
# Flaws of definitions

What can be wrong with a rule or a workflow, said without the checks: `Rule.Flaw` and
`Workflow.Flaw` list the flaws with the place and the message of each. The theorem of this module,
`validate_reports`, says that the checks find all flaws of a definition and no others, however many
there are at once, and that each is told under a name of its own.
-/

namespace LeadAutomation

open Validation

/-! ### Rules -/

/-- What can be wrong with a condition: in which of its fields, and the message. -/
inductive Condition.Flaw (condition : Condition) : String → String → Prop
  | field (blank : Text.isBlankText condition.field = true) :
    Flaw condition "field" "Field is required"
  | operator {text : String} {unknown : Named.spoken? text = (none : Option ConditionOperator)}
      (operator : condition.operator = .other text unknown) :
        Flaw condition "operator" ("Unknown operator '" ++ text ++ "'")
  | value (missing : condition.value = none) : Flaw condition "value" "Value is required"
  | items {value : FieldValue} (operator : condition.operator = .known .oneOf ∨ condition.operator =
    .known .noneOf)
      (given : condition.value = some value) (single : value.items? = none) :
      Flaw condition "value" "Membership operators need a list value"

/-- What can be wrong with an action: in which of its fields, and the message. -/
inductive Action.Flaw (action : Action) : String → String → Prop
  | kind {text : String} {unknown : Named.spoken? text = (none : Option ActionKind)}
    (kind : action.kind = .other text unknown) :
      Flaw action "type" ("Unknown action type '" ++ text ++ "'")
  | status (kind : action.kind = .known .statusChange)
    (unknown : LeadStatus.ofText? (valueText action) = none) :
      Flaw action "value" ("'" ++ valueText action ++ "' is not a valid lead status")
  | score (kind : action.kind = .known .scoring)
    (unreadable : action.value.bind FieldValue.number? = none) :
      Flaw action "value" "Score must be numeric"
  | assignee (kind : action.kind = .known .assignment)
    (unreadable : Uuid.ofText? (Text.trim (valueText action)) = none) :
      Flaw action "value" "Assignee must be a user or team id"
  | message (kind : action.kind = .known .notification)
    (blank : Text.isBlankText (valueText action) = true) :
      Flaw action "value" "Notification message is required"

/-- What can be wrong with a rule. -/
inductive Rule.Flaw (rule : Rule) : Place → String → Prop
  | name (blank : Text.isBlankText rule.name = true) : Flaw rule (.whole "name") "Name is required"
  | priority (outside : ¬ (0 ≤ rule.priority.toInt ∧ rule.priority.toInt ≤ 100)) :
      Flaw rule (.whole "priority") "Priority must be between 0 and 100"
  | condition {index : Nat} {condition : Condition} {field message : String}
    (listed : rule.conditions[index]? = some condition)
      (flaw : condition.Flaw field message) : Flaw rule (.item "conditions" index field) message
  | action {index : Nat} {action : Action} {field message : String}
    (listed : rule.actions[index]? = some action)
      (flaw : action.Flaw field message) : Flaw rule (.item "actions" index field) message

namespace Validation

variable {index : Nat} {violation : Violation}

theorem mem_checkName_iff {name : String} :
    violation ∈ checkName name ↔
    Text.isBlankText name = true ∧ violation = ⟨"name", "Name is required"⟩ :=
  mem_violationIf_iff

theorem mem_checkPriority_iff {priority : Int32} :
    violation ∈ checkPriority priority ↔ ¬ (0 ≤ priority.toInt ∧ priority.toInt ≤ 100) ∧
      violation = ⟨"priority", "Priority must be between 0 and 100"⟩ := by
  rw [checkPriority, mem_violationIf_iff, Bool.not_eq_true', Bool.and_eq_false_iff,
    decide_eq_false_iff_not, decide_eq_false_iff_not, ← not_and_or, Int32.le_iff_toInt_le,
    Int32.le_iff_toInt_le]
  rfl

theorem mem_checkOperator_iff {field : String} {operator : Word ConditionOperator} :
    violation ∈ checkOperator field operator ↔
      ∃ text unknown, operator = .other text unknown ∧
      violation = ⟨field, "Unknown operator '" ++ text ++ "'"⟩ := by
  cases operator with
  | known operator => simp [checkOperator]
  | other text unknown => simpa [checkOperator] using fun _ => unknown

theorem mem_checkConditionValue_iff {field : String} {condition : Condition} :
    violation ∈ checkConditionValue field condition ↔
      condition.value = none ∧ violation = ⟨field, "Value is required"⟩ ∨
      (condition.operator = .known .oneOf ∨ condition.operator = .known .noneOf) ∧
        (∃ value, condition.value = some value ∧ value.items? = none) ∧
        violation = ⟨field, "Membership operators need a list value"⟩ := by
  unfold checkConditionValue
  cases hvalue : condition.value with
  | none => simp
  | some value =>
    cases hoperator : condition.operator with
    | known operator =>
      cases operator <;> simp [mem_violationIf_iff, ConditionOperator.isMembership]
    | other text unknown => simp

theorem mem_checkCondition_iff {condition : Condition} :
    violation ∈ checkCondition index condition ↔
      ∃ field message, condition.Flaw field message ∧
      violation = ⟨itemField "conditions" index field, message⟩ := by
  rw [checkCondition, List.mem_append, List.mem_append, mem_violationIf_iff, mem_checkOperator_iff,
    mem_checkConditionValue_iff]
  constructor
  · rintro ((⟨hblank, rfl⟩ | ⟨text, unknown, hoperator, rfl⟩) | ⟨hmissing, rfl⟩ |
      ⟨hoperator, ⟨value, hgiven, hsingle⟩, rfl⟩)
    · exact ⟨_, _, .field hblank, rfl⟩
    · exact ⟨_, _, .operator hoperator, rfl⟩
    · exact ⟨_, _, .value hmissing, rfl⟩
    · exact ⟨_, _, .items hoperator hgiven hsingle, rfl⟩
  · rintro ⟨field, message, hblank | hoperator | hmissing | ⟨hoperator, hgiven, hsingle⟩, rfl⟩
    · exact .inl (.inl ⟨hblank, rfl⟩)
    · exact .inl (.inr ⟨_, _, hoperator, rfl⟩)
    · exact .inr (.inl ⟨hmissing, rfl⟩)
    · exact .inr (.inr ⟨hoperator, ⟨_, hgiven, hsingle⟩, rfl⟩)

theorem mem_checkAction_iff {action : Action} :
    violation ∈ checkAction index action ↔
      ∃ field message, action.Flaw field message ∧
      violation = ⟨itemField "actions" index field, message⟩ := by
  constructor
  · unfold checkAction
    split
    · next text unknown hkind =>
      intro h
      obtain rfl := List.mem_singleton.1 h
      exact ⟨_, _, .kind hkind, rfl⟩
    · next hkind =>
      intro h
      obtain ⟨hunknown, rfl⟩ := mem_violationIf_iff.1 h
      exact ⟨_, _, .status hkind (Option.isNone_iff_eq_none.1 hunknown), rfl⟩
    · next hkind =>
      intro h
      obtain ⟨hunreadable, rfl⟩ := mem_violationIf_iff.1 h
      exact ⟨_, _, .score hkind (Option.isNone_iff_eq_none.1 hunreadable), rfl⟩
    · next hkind =>
      intro h
      obtain ⟨hunreadable, rfl⟩ := mem_violationIf_iff.1 h
      exact ⟨_, _, .assignee hkind (Option.isNone_iff_eq_none.1 hunreadable), rfl⟩
    · next hkind =>
      intro h
      obtain ⟨hblank, rfl⟩ := mem_violationIf_iff.1 h
      exact ⟨_, _, .message hkind hblank, rfl⟩
    · nofun
  · rintro ⟨field, message, hkind | ⟨hkind, hflaw⟩ | ⟨hkind, hflaw⟩ | ⟨hkind, hflaw⟩ |
      ⟨hkind, hflaw⟩, rfl⟩
    · simp [checkAction, hkind]
    · simp [checkAction, hkind, hflaw, mem_violationIf_iff, LeadStatus.invalidMessage]
    · simp [checkAction, hkind, hflaw, mem_violationIf_iff]
    · simp [checkAction, hkind, hflaw, mem_violationIf_iff]
    · simp [checkAction, hkind, hflaw, mem_violationIf_iff]

theorem map_field_checkOperator_sublist (field : String) (operator : Word ConditionOperator) :
    ((checkOperator field operator).map (·.field)).Sublist [field] := by
  cases operator with
  | known operator => exact List.nil_sublist _
  | other text unknown => exact List.Sublist.refl _

theorem map_field_checkConditionValue_sublist (field : String) (condition : Condition) :
    ((checkConditionValue field condition).map (·.field)).Sublist [field] := by
  unfold checkConditionValue
  split
  · exact List.Sublist.refl _
  · split
    · exact map_field_violationIf_sublist _ _ _
    · exact List.nil_sublist _

theorem map_field_checkCondition_sublist (index : Nat) (condition : Condition) :
    ((checkCondition index condition).map (·.field)).Sublist
      (["field", "operator", "value"].map (itemField "conditions" index)) := by
  rw [checkCondition, List.map_append, List.map_append]
  exact ((map_field_violationIf_sublist _ _ _).append (map_field_checkOperator_sublist _ _)).append
    (map_field_checkConditionValue_sublist _ _)

theorem map_field_checkAction_sublist (index : Nat) (action : Action) :
    ((checkAction index action).map (·.field)).Sublist
      (["type", "value"].map (itemField "actions" index)) := by
  have hvalue (condition : Bool) (message : String) :
      ((violationIf condition (itemField "actions" index "value") message).map (·.field)).Sublist
        (["type", "value"].map (itemField "actions" index)) :=
    (map_field_violationIf_sublist _ _ _).trans (List.sublist_cons_self _ _)
  unfold checkAction
  split
  · exact List.Sublist.cons_cons _ (List.nil_sublist _)
  · exact hvalue _ _
  · exact hvalue _ _
  · exact hvalue _ _
  · exact hvalue _ _
  · exact List.nil_sublist _

end Validation

namespace Rule

variable {rule : Rule}

/-- The places of a rule at which its checks look. -/
def places (rule : Rule) : List Place :=
  ["name", "priority"].map .whole ++ Place.ofItems "conditions" rule.conditions.length ["field",
    "operator", "value"] ++
    Place.ofItems "actions" rule.actions.length ["type", "value"]

theorem nodup_map_key_places (rule : Rule) : (rule.places.map Place.key).Nodup := by
  refine Place.nodup_map_key ?_ ?_
  · refine List.forall_mem_append.2 ⟨List.forall_mem_append.2 ⟨?_, ?_⟩, ?_⟩
    · exact Place.isPlain_of_mem_wholes (by decide)
    · exact Place.isPlain_of_mem_ofItems (by decide)
    · exact Place.isPlain_of_mem_ofItems (by decide)
  · refine ((Place.nodup_wholes (by decide)).append (Place.nodup_ofItems (by decide))
      Place.disjoint_wholes_ofItems).append
      (Place.nodup_ofItems (by decide)) (List.disjoint_append_left.2 ⟨?_, ?_⟩)
    · exact Place.disjoint_wholes_ofItems
    · exact Place.disjoint_ofItems (by decide)

theorem mem_places_of_flaw {place : Place} {message : String} (h : rule.Flaw place message) :
    place ∈ rule.places := by
  rw [places, List.mem_append, List.mem_append, Place.mem_ofItems_iff, Place.mem_ofItems_iff]
  cases h with
  | name => exact .inl (.inl (by simp))
  | priority => exact .inl (.inl (by simp))
  | condition listed flaw =>
    exact .inl (.inr ⟨_, (List.getElem?_eq_some_iff.1 listed).1, _, by cases flaw <;> simp, rfl⟩)
  | action listed flaw =>
    exact .inr ⟨_, (List.getElem?_eq_some_iff.1 listed).1, _, by cases flaw <;> simp, rfl⟩

theorem mem_violations_iff {violation : Violation} :
    violation ∈ rule.violations ↔
    ∃ place message, rule.Flaw place message ∧ violation = ⟨place.key, message⟩ := by
  simp only [violations, List.mem_append, mem_checkName_iff, mem_checkPriority_iff,
    mem_checkItems_iff, mem_checkCondition_iff, mem_checkAction_iff]
  constructor
  · rintro (((⟨hblank, rfl⟩ | ⟨houtside, rfl⟩) |
      ⟨index, condition, hlisted, field, message, hflaw, rfl⟩) |
      ⟨index, action, hlisted, field, message, hflaw, rfl⟩)
    · exact ⟨_, _, .name hblank, rfl⟩
    · exact ⟨_, _, .priority houtside, rfl⟩
    · exact ⟨_, _, .condition hlisted hflaw, rfl⟩
    · exact ⟨_, _, .action hlisted hflaw, rfl⟩
  · rintro ⟨place, message, hblank | houtside | ⟨hlisted, hflaw⟩ | ⟨hlisted, hflaw⟩, rfl⟩
    · exact .inl (.inl (.inl ⟨hblank, rfl⟩))
    · exact .inl (.inl (.inr ⟨houtside, rfl⟩))
    · exact .inl (.inr ⟨_, _, hlisted, _, _, hflaw, rfl⟩)
    · exact .inr ⟨_, _, hlisted, _, _, hflaw, rfl⟩

theorem map_field_violations_sublist (rule : Rule) :
    (rule.violations.map (·.field)).Sublist (rule.places.map Place.key) := by
  simp only [violations, places, List.map_append]
  exact (((map_field_violationIf_sublist _ _ _).append (map_field_violationIf_sublist _ _ _)).append
    (map_field_checkItems_sublist map_field_checkCondition_sublist _)).append
    (map_field_checkItems_sublist map_field_checkAction_sublist _)

end Rule

/-! ### Workflows -/

/-- The positions of the steps of a workflow are the numbers from one to their count. -/
def Workflow.Numbered (workflow : Workflow) : Prop :=
  (workflow.steps.map (·.position.toInt)).Perm
    ((List.range workflow.steps.length).map fun (index : Nat) => (index : Int) + 1)

/-- What can be wrong with a step: in which of its fields, and the message. -/
inductive Step.Flaw (step : Step) : String → String → Prop
  | name (blank : Text.isBlankText step.name = true) : Flaw step "name" "Step name is required"
  | config {message : String} (unreadable : step.parseConfig = .error message) :
    Flaw step "config" message

/-- What can be wrong with a workflow. -/
inductive Workflow.Flaw (workflow : Workflow) : Place → String → Prop
  | name (blank : Text.isBlankText workflow.name = true) :
    Flaw workflow (.whole "name") "Name is required"
  | priority (outside : ¬ (0 ≤ workflow.priority.toInt ∧ workflow.priority.toInt ≤ 100)) :
      Flaw workflow (.whole "priority") "Priority must be between 0 and 100"
  | steps (misnumbered : ¬ workflow.Numbered) : Flaw workflow (.whole "steps")
      ("Step order must be exactly 1..=" ++ toString workflow.steps.length ++
        " without gaps or duplicates")
  | step {index : Nat} {step : Step} {field message : String}
    (listed : workflow.steps[index]? = some step)
      (flaw : step.Flaw field message) : Flaw workflow (.item "steps" index field) message

namespace Validation

variable {index : Nat} {violation : Violation}

theorem mem_checkStep_iff {step : Step} :
    violation ∈ Workflow.checkStep index step ↔
      ∃ field message, step.Flaw field message ∧
      violation = ⟨itemField "steps" index field, message⟩ := by
  have hconfig : violation ∈ Workflow.checkConfig (itemField "steps" index "config") step ↔
      ∃ message, step.parseConfig = .error message ∧
        violation = ⟨itemField "steps" index "config", message⟩ := by
    unfold Workflow.checkConfig
    cases step.parseConfig with
    | ok => simp
    | error message => simp
  rw [Workflow.checkStep, List.mem_append, mem_violationIf_iff, hconfig]
  constructor
  · rintro (⟨hblank, rfl⟩ | ⟨message, hunreadable, rfl⟩)
    · exact ⟨_, _, .name hblank, rfl⟩
    · exact ⟨_, _, .config hunreadable, rfl⟩
  · rintro ⟨field, message, hblank | hunreadable, rfl⟩
    · exact .inl ⟨hblank, rfl⟩
    · exact .inr ⟨_, hunreadable, rfl⟩

theorem map_field_checkStep_sublist (index : Nat) (step : Step) :
    ((Workflow.checkStep index step).map (·.field)).Sublist
      (["name", "config"].map (itemField "steps" index)) := by
  have hconfig :
    ((Workflow.checkConfig (itemField "steps" index "config") step).map (·.field)).Sublist
      [itemField "steps" index "config"] := by
    unfold Workflow.checkConfig
    split
    · exact List.nil_sublist _
    · exact List.Sublist.refl _
  rw [Workflow.checkStep, List.map_append]
  exact (map_field_violationIf_sublist _ _ _).append hconfig

end Validation

namespace Workflow

variable {workflow : Workflow}

theorem pairwise_lt_numbers (n : Nat) :
    ((List.range n).map fun (index : Nat) => (index : Int) + 1).Pairwise (· < ·) :=
  List.pairwise_map.2 (List.pairwise_lt_range.imp fun hlt => by omega)

theorem isNumbered_iff : workflow.isNumbered = true ↔ workflow.Numbered := by
  unfold isNumbered Numbered
  rw [decide_eq_true_eq]
  constructor
  · intro h
    exact h ▸ (List.mergeSort_perm _ _).symm
  · intro h
    refine ((List.mergeSort_perm _ _).trans h).eq_of_pairwise (fun _ _ _ _ => Int.le_antisymm) ?_
      ((pairwise_lt_numbers _).imp Int.le_of_lt)
    have hsorted : ((workflow.steps.map (·.position.toInt)).mergeSort (· ≤ ·)).SortedLE :=
      List.sortedLE_mergeSort
    exact hsorted.pairwise

/-- The places of a workflow at which its checks look. -/
def places (workflow : Workflow) : List Place :=
  ["name", "priority", "steps"].map .whole ++
    Place.ofItems "steps" workflow.steps.length ["name", "config"]

theorem nodup_map_key_places (workflow : Workflow) : (workflow.places.map Place.key).Nodup := by
  refine Place.nodup_map_key (List.forall_mem_append.2 ⟨?_, ?_⟩) ?_
  · exact Place.isPlain_of_mem_wholes (by decide)
  · exact Place.isPlain_of_mem_ofItems (by decide)
  · exact (Place.nodup_wholes (by decide)).append (Place.nodup_ofItems (by decide))
      Place.disjoint_wholes_ofItems

theorem mem_places_of_flaw {place : Place} {message : String} (h : workflow.Flaw place message) :
    place ∈ workflow.places := by
  rw [places, List.mem_append, Place.mem_ofItems_iff]
  cases h with
  | name => exact .inl (by simp)
  | priority => exact .inl (by simp)
  | steps => exact .inl (by simp)
  | step listed flaw =>
    exact .inr ⟨_, (List.getElem?_eq_some_iff.1 listed).1, _, by cases flaw <;> simp, rfl⟩

theorem mem_checkPositions_iff {violation : Violation} :
    violation ∈ workflow.checkPositions ↔ ¬ workflow.Numbered ∧ violation = ⟨"steps",
      "Step order must be exactly 1..=" ++ toString workflow.steps.length ++
        " without gaps or duplicates"⟩ := by
  rw [checkPositions, mem_violationIf_iff, Bool.not_eq_true', ← isNumbered_iff, Bool.not_eq_true]

theorem mem_violations_iff {violation : Violation} :
    violation ∈ workflow.violations ↔
    ∃ place message, workflow.Flaw place message ∧ violation = ⟨place.key, message⟩ := by
  simp only [violations, List.mem_append, mem_checkName_iff, mem_checkPriority_iff,
    mem_checkItems_iff, mem_checkPositions_iff, mem_checkStep_iff]
  constructor
  · rintro (((⟨hblank, rfl⟩ | ⟨houtside, rfl⟩) | ⟨hmisnumbered, rfl⟩) |
      ⟨index, step, hlisted, field, message, hflaw, rfl⟩)
    · exact ⟨_, _, .name hblank, rfl⟩
    · exact ⟨_, _, .priority houtside, rfl⟩
    · exact ⟨_, _, .steps hmisnumbered, rfl⟩
    · exact ⟨_, _, .step hlisted hflaw, rfl⟩
  · rintro ⟨place, message, hblank | houtside | hmisnumbered | ⟨hlisted, hflaw⟩, rfl⟩
    · exact .inl (.inl (.inl ⟨hblank, rfl⟩))
    · exact .inl (.inl (.inr ⟨houtside, rfl⟩))
    · exact .inl (.inr ⟨hmisnumbered, rfl⟩)
    · exact .inr ⟨_, _, hlisted, _, _, hflaw, rfl⟩

theorem map_field_violations_sublist (workflow : Workflow) :
    (workflow.violations.map (·.field)).Sublist (workflow.places.map Place.key) := by
  simp only [violations, places, List.map_append]
  exact (((map_field_violationIf_sublist _ _ _).append (map_field_violationIf_sublist _ _ _)).append
    (map_field_violationIf_sublist _ _ _)).append
      (map_field_checkItems_sublist map_field_checkStep_sublist _)

end Workflow

/-! ### Reports -/

/-- The checks of a rule and those of a workflow reject a definition if there is a flaw in it and
not otherwise. The rejection tells all its flaws and no more, each under the name of its place, and
no two places share a name. -/
theorem validate_reports :
    (∀ rule : Rule, Reports rule.validate rule.Flaw) ∧ ∀ workflow : Workflow,
    Reports workflow.validate workflow.Flaw := by
  constructor
  · intro rule
    exact reports_of_places rule.places rule.nodup_map_key_places rule.map_field_violations_sublist
      (fun _ _ => Rule.mem_places_of_flaw) fun _ => Rule.mem_violations_iff
  · intro workflow
    exact reports_of_places workflow.places workflow.nodup_map_key_places
      workflow.map_field_violations_sublist
      (fun _ _ => Workflow.mem_places_of_flaw) fun _ => Workflow.mem_violations_iff

end LeadAutomation
