import LeadAutomation.FieldValue
import LeadAutomation.Lead.Status

/-!
# Conditions

A condition compares the value found under a name with a value of its own. Conditions form chains:
each carries the connective that joins everything up to it with the condition after it, so `a or b
and c` means `(a or b) and c`, and the connective of the last condition has no part in the result.

A condition that makes no sense (an unknown operator, no value to compare with, membership in what
is no list) is false. A name under which nothing is found satisfies the two negative operators and
no other.
-/

namespace LeadAutomation

inductive ConditionOperator where
  | equals
  | notEquals
  | greaterThan
  | lessThan
  | contains
  | oneOf
  | noneOf
deriving DecidableEq, Repr

namespace ConditionOperator

instance : PlainNamed ConditionOperator where
  all := [.equals, .notEquals, .greaterThan, .lessThan, .contains, .oneOf, .noneOf]
  name
    | .equals => "equals"
    | .notEquals => "not_equals"
    | .greaterThan => "greater_than"
    | .lessThan => "less_than"
    | .contains => "contains"
    | .oneOf => "in"
    | .noneOf => "not_in"
  find_name a := by cases a <;> rfl
  plain a := by cases a <;> decide +kernel

/-- The operator with the opposite outcome; the ordering operators and `contains` have none and
stay. -/
def negated : ConditionOperator → ConditionOperator
  | .equals => .notEquals
  | .notEquals => .equals
  | .oneOf => .noneOf
  | .noneOf => .oneOf
  | .greaterThan => .greaterThan
  | .lessThan => .lessThan
  | .contains => .contains

/-- Whether the operator asks for membership in a list. -/
def isMembership : ConditionOperator → Bool
  | .oneOf | .noneOf => true
  | _ => false

/-- What the operator says of a name under which nothing is found. -/
def ofAbsent : ConditionOperator → Bool
  | .notEquals | .noneOf => true
  | _ => false

/-- Whether the numbers that two values can be taken for are in a relation. -/
def compareNumbers (relation : Binary64 → Binary64 → Bool) (actual expected : FieldValue) : Bool :=
  match actual.number?, expected.number? with
  | some x, some y => relation x y
  | _, _ => false

/-- Whether a value equals an item of a list. -/
def isMember (actual : FieldValue) (items : List FieldValue) : Bool := items.any actual.equal

def compareValues (operator : ConditionOperator) (actual expected : FieldValue) : Bool :=
  match operator with
  | .equals => actual.equal expected
  | .notEquals => !actual.equal expected
  | .greaterThan => compareNumbers (fun x y => y.less x) actual expected
  | .lessThan => compareNumbers Binary64.less actual expected
  | .contains => Text.contains actual.display expected.display
  | .oneOf => expected.items?.any (isMember actual)
  | .noneOf => expected.items?.any fun items => !isMember actual items

/-- The comparison of what is found, if anything, with what is expected, if anything. -/
def compare (operator : ConditionOperator) (actual expected : Option FieldValue) : Bool :=
  match expected with
  | none => false
  | some expected =>
    if operator.isMembership && expected.items?.isNone then false
    else match actual with
      | none => operator.ofAbsent
      | some actual => operator.compareValues actual expected

end ConditionOperator

namespace Word

/-- The operator with the opposite outcome; an unknown one has none and stays. -/
def negated : Word ConditionOperator → Word ConditionOperator
  | .known operator => .known operator.negated
  | .other text unknown => .other text unknown

/-- Whether an operator is known to ask for membership in a list. -/
def isMembership : Word ConditionOperator → Bool
  | .known operator => operator.isMembership
  | .other .. => false

end Word

/-- How the result so far is joined with the next one. -/
inductive Connective where
  | and
  | or
deriving DecidableEq, Repr

namespace Connective

def combine : Connective → Bool → Bool → Bool
  | .and => Bool.and
  | .or => Bool.or

/-- The connective that a text names: `or` in any case, and everything else means `and`. -/
def ofText (text : String) : Connective :=
  if Text.lowerAscii (Text.trim text) = "or" then .or else .and

def text : Connective → String
  | .and => "AND"
  | .or => "OR"

@[simp]
theorem ofText_text (c : Connective) : ofText c.text = c := by cases c <;> decide +kernel

end Connective

/-- A test of one attribute. -/
structure Condition where
  field : String
  operator : Word ConditionOperator
  value : Option FieldValue
  /-- Joins everything up to this condition with the next one. -/
  connective : Connective := .and

namespace Condition

/-- What an operator, known or not, says of two values. -/
def compare : Word ConditionOperator → Option FieldValue → Option FieldValue → Bool
  | .known operator => operator.compare
  | .other .. => fun _ _ => false

/-- The result of a condition, where `lookup` finds values by name. -/
def holds (lookup : String → Option FieldValue) (condition : Condition) : Bool :=
  compare condition.operator (lookup condition.field) condition.value

/-- The results of conditions, each for itself. -/
def eachHolds (lookup : String → Option FieldValue) (conditions : List Condition) : List Bool :=
  conditions.map (holds lookup)

/-- One step along a chain: the result so far and the connective to the next condition. -/
def advance (lookup : String → Option FieldValue) (state : Bool × Connective)
    (condition : Condition) :
    Bool × Connective :=
  (state.2.combine state.1 (condition.holds lookup), condition.connective)

/-- The result of a chain, from left to right; a chain without conditions is true. -/
def chainHolds (lookup : String → Option FieldValue) : List Condition → Bool
  | [] => true
  | first :: rest => (rest.foldl (advance lookup) (first.holds lookup, first.connective)).1

/-! ### As JSON -/

def decodeConnective : Decoder Connective := fun draft => Connective.ofText <$> Decoder.text draft

def fields : Fields Condition :=
  Condition.mk <$> .required "field" Decoder.text
    <*> .required "operator" Decoder.word
    <*> .spare "value" FieldValue.decode
    <*> .defaulted "logical_operator" decodeConnective .and ["logicalOperator"]

def decode : Decoder Condition := fields.decode "Condition"

def toJson (condition : Condition) : Json := .obj [
  ("field", .str condition.field),
  ("logical_operator", .str condition.connective.text),
  ("operator", .str condition.operator.text),
  ("value", .orNull FieldValue.toJson condition.value)]

/-! ### Common conditions -/

def of (field : String) (operator : ConditionOperator) (value : FieldValue) : Condition :=
  ⟨field, .known operator, some value, .and⟩

def scoreAbove (threshold : Binary64) : Condition := of "score" .greaterThan (.number threshold)

def scoreBelow (threshold : Binary64) : Condition := of "score" .lessThan (.number threshold)

def statusIs (status : LeadStatus) : Condition := of "status" .equals (.text status.name)

def industryIn (industries : List String) : Condition :=
  of "industry" .oneOf (.list (industries.map .text))

def domainContains (fragment : String) : Condition := of "domain" .contains (.text fragment)

/-- The same condition, joined with the next one by `or`. -/
def or (condition : Condition) : Condition := { condition with connective := .or }

end Condition

end LeadAutomation
