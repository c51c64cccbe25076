import LeadAutomation.Rule.Basic

/-!
# Matching rules

Rules are tried in the order of their priority, the highest first, and rules of one priority in the
order in which they stand. Inactive rules are left out. What happens to a rule without conditions is
a matter of policy.
-/

namespace LeadAutomation

inductive EmptyRulePolicy where
  /-- It matches everything. -/
  | matchAll
  /-- It matches nothing until it has a condition. -/
  | inert
deriving DecidableEq, Repr

namespace EmptyRulePolicy

instance : Inhabited EmptyRulePolicy := ⟨.matchAll⟩

instance : Named EmptyRulePolicy where
  all := [.matchAll, .inert]
  name
    | .matchAll => "match_all"
    | .inert => "inert"
  find_name a := by cases a <;> rfl

end EmptyRulePolicy

/-- How many rules are tried. -/
inductive MatchMode where
  | all
  /-- Up to the first that matches. -/
  | single
deriving DecidableEq, Repr

namespace MatchMode

instance : Named MatchMode where
  all := [.all, .single]
  name
    | .all => "all"
    | .single => "single"
  find_name a := by cases a <;> rfl

end MatchMode

structure RuleMatch where
  ruleId : Uuid
  ruleName : String
  priority : Int32
  matched : Bool
  /-- What is to be done: the actions of a rule that matched. -/
  actions : List Action
  /-- Whether the rule matched for want of conditions. -/
  catchAll : Bool

namespace RuleMatch

def toJson (result : RuleMatch) : Json := .obj [
  ("actions", .arr (result.actions.map Action.toJson)),
  ("catch_all", .bool result.catchAll),
  ("matched", .bool result.matched),
  ("priority", .int result.priority.toInt),
  ("rule_id", result.ruleId.toJson),
  ("rule_name", .str result.ruleName)]

end RuleMatch

namespace Rule

/-- Whether a rule matches, where `lookup` finds values by name. -/
def isMatch (rule : Rule) (lookup : String → Option FieldValue) (policy : EmptyRulePolicy) : Bool :=
  rule.active && if rule.isCatchAll then policy = .matchAll
    else Condition.chainHolds lookup rule.conditions

def tryOn (rule : Rule) (lookup : String → Option FieldValue) (policy : EmptyRulePolicy) :
    RuleMatch :=
  let matched := rule.isMatch lookup policy
  { ruleId := rule.id
    ruleName := rule.name
    priority := rule.priority
    matched
    actions := if matched then rule.actions else []
    catchAll := matched && rule.isCatchAll }

/-- Items in the order of their priority, the highest first; items of one priority keep their
order. -/
def byPriority {α : Type} (priority : α → Int32) (items : List α) : List α :=
  items.mergeSort fun a b => decide (priority b ≤ priority a)

/-- The active rules in the order in which they are tried. -/
def inOrder (rules : List Rule) : List Rule := byPriority (·.priority) (rules.filter (·.active))

/-- Results up to the first match, that one included. -/
def upToMatch : List RuleMatch → List RuleMatch
  | [] => []
  | result :: rest => if result.matched then [result] else result :: upToMatch rest

def tryAll (rules : List Rule) (lookup : String → Option FieldValue) (policy : EmptyRulePolicy)
    (mode : MatchMode) :
    List RuleMatch :=
  let results := (inOrder rules).map fun rule => rule.tryOn lookup policy
  match mode with
  | .all => results
  | .single => upToMatch results

end Rule

end LeadAutomation
