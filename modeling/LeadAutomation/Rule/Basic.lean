import LeadAutomation.Action.Basic
import LeadAutomation.Condition
import LeadAutomation.Event

/-!
# Rules

A rule says what is done to a lead for which its conditions hold. Rules with a higher priority come
first.

A rule takes part in the events that it is scoped to. Without a scope it takes part in all events
but the one that its own actions bring about, so that a rule cannot set itself off again.
-/

namespace LeadAutomation

inductive RuleKind where
  | assignment
  | scoring
  | notification
  | statusChange
  | enrichment
deriving DecidableEq, Repr

namespace RuleKind

instance : Named RuleKind where
  all := [.assignment, .scoring, .notification, .statusChange, .enrichment]
  name
    | .assignment => "assignment"
    | .scoring => "scoring"
    | .notification => "notification"
    | .statusChange => "status_change"
    | .enrichment => "enrichment"
  find_name a := by cases a <;> rfl

/-- The kind of event that rules of a kind bring about themselves. -/
def raises? : RuleKind → Option EventKind
  | .scoring => some .leadScored
  | .statusChange => some .leadStatusChanged
  | .assignment | .notification | .enrichment => none

end RuleKind

/-- Conditions and what to do when they hold. -/
structure Rule where
  id : Uuid
  name : String
  description : Option String
  kind : RuleKind
  active : Bool
  priority : Int32
  conditions : List Condition
  actions : List Action
  /-- The kinds of event that the rule is scoped to; none means the scope of its kind. -/
  scope : List EventKind
  createdBy : Option Uuid
  createdAt : Timestamp
  updatedAt : Option Timestamp

namespace Rule

/-- Whether a rule has no conditions and so would match everything. -/
def isCatchAll (rule : Rule) : Bool := rule.conditions.isEmpty

/-- Whether a rule takes part in an event. -/
def appliesTo (rule : Rule) (event : EventKind) : Bool :=
  rule.active &&
    if rule.scope.isEmpty then rule.kind.raises? ≠ some event else rule.scope.contains event

/-! ### As JSON -/

/-- The fields of a rule; `fresh` supplies an identifier and the time of making. -/
def fields (fresh : Fresh) : Fields Rule :=
  Rule.mk <$> .defaulted "id" Decoder.uuid (fresh.id 0)
    <*> .required "name" Decoder.text
    <*> .spare "description" Decoder.text
    <*> .required "type" Decoder.named ["rule_type"]
    <*> .defaulted "is_active" Decoder.bool true ["isActive"]
    <*> .defaulted "priority" Decoder.int32 0
    <*> .defaulted "conditions" (Decoder.list Condition.decode) []
    <*> .defaulted "actions" (Decoder.list Action.decode) []
    <*> .defaulted "triggers" (Decoder.list Decoder.named) []
    <*> .spare "created_by_id" Decoder.uuid ["createdById"]
    <*> .defaulted "created_at" Decoder.timestamp fresh.now ["createdAt"]
    <*> .spare "updated_at" Decoder.timestamp ["updatedAt"]

def decode (fresh : Fresh) : Decoder Rule := (fields fresh).decode "BusinessRule"

def members (rule : Rule) : Json.Members := [
  ("actions", .arr (rule.actions.map Action.toJson)),
  ("conditions", .arr (rule.conditions.map Condition.toJson)),
  ("created_at", rule.createdAt.toJson),
  ("created_by_id", .orNull Uuid.toJson rule.createdBy),
  ("description", .orNull .str rule.description),
  ("id", rule.id.toJson),
  ("is_active", .bool rule.active),
  ("name", .str rule.name),
  ("priority", .int rule.priority.toInt),
  ("triggers", .texts (rule.scope.map Named.name)),
  ("type", .str (Named.name rule.kind)),
  ("updated_at", .orNull Timestamp.toJson rule.updatedAt)]

def toJson (rule : Rule) : Json := .obj rule.members

/-! ### Making rules -/

/-- An active rule without conditions and actions. -/
def blank (fresh : Fresh) (name : String) (kind : RuleKind) (priority : Int32) : Rule where
  id := fresh.id 0
  name
  description := none
  kind
  active := true
  priority
  conditions := []
  actions := []
  scope := []
  createdBy := none
  createdAt := fresh.now
  updatedAt := none

/-- The same rule, scoped to one more kind of event. -/
def scopedTo (rule : Rule) (event : EventKind) : Rule :=
  { rule with scope := rule.scope ++ [event] }

def inactive (rule : Rule) : Rule := { rule with active := false }

/-- Raw leads with a score above a threshold become qualified. -/
def qualifyHotLeads (fresh : Fresh) (threshold : Binary64) : Rule :=
  { blank fresh "Qualify hot leads" .statusChange 80 with
    conditions := [.scoreAbove threshold, .statusIs .raw]
    actions := [.changeStatus .qualified] }

/-- Leads of some industries go to a team. -/
def routeIndustry (fresh : Fresh) (industries : List String) (team : Uuid) : Rule :=
  { blank fresh "Route by industry" .assignment 50 with
    conditions := [.industryIn industries]
    actions := [.assignTeam team] }

end Rule

end LeadAutomation
