import LeadAutomation.Proofs.Condition.Opposites

/-!
# Membership spelled out

To be in a list is to equal one of its items, and to be in none is to differ from each: a condition
on membership comes to the same as a chain of comparisons with the items, joined by `or` or by
`and`. This is so for items of any shape, and where nothing is found as well. By De Morgan's law the
second half follows from the first.
-/

namespace LeadAutomation

/-- What is found is in a list just if it equals an item; what is not found is in no list and equals
nothing. -/
theorem ConditionOperator.compare_oneOf (actual : Option FieldValue) (items : List FieldValue) :
    oneOf.compare actual (some (.list items)) = items.any fun item =>
      equals.compare actual (some item) := by
  cases actual with
  | none => simp [compare, isMembership, ofAbsent, FieldValue.items?]
  | some actual => rfl

namespace Condition

variable {lookup : String → Option FieldValue}

theorem foldl_advance_or {conditions : List Condition}
    (hor : ∀ condition ∈ conditions, condition.connective = .or) (result : Bool) :
    (conditions.foldl (advance lookup) (result, .or)).1 =
      (result || conditions.any (holds lookup)) := by
  induction conditions generalizing result with
  | nil => exact (Bool.or_false result).symm
  | cons next rest ih =>
    obtain ⟨hnext, hrest⟩ := List.forall_mem_cons.1 hor
    rw [List.foldl_cons, advance, hnext, ih hrest, List.any_cons, ← Bool.or_assoc]
    rfl

theorem chainHolds_eq_any {conditions : List Condition} (hne : conditions ≠ [])
    (hor : ∀ condition ∈ conditions, condition.connective = .or) :
    chainHolds lookup conditions = conditions.any (holds lookup) := by
  cases conditions with
  | nil => exact absurd rfl hne
  | cons first rest =>
    obtain ⟨hfirst, hrest⟩ := List.forall_mem_cons.1 hor
    rw [chainHolds, hfirst, foldl_advance_or hrest, List.any_cons]

/-- The comparisons of a field with one value after another, each joined with the next one by the
same connective. -/
def eachOf (field : String) (operator : ConditionOperator) (connective : Connective)
    (values : List FieldValue) :
    List Condition :=
  values.map fun value => { of field operator value with connective }

variable {field : String} {items : List FieldValue}

theorem holds_oneOf : (of field .oneOf (.list items)).holds lookup =
    items.any fun item => (of field .equals item).holds lookup :=
  ConditionOperator.compare_oneOf (lookup field) items

theorem holds_oneOf_eq_chainHolds (hne : items ≠ []) :
    (of field .oneOf (.list items)).holds lookup =
      chainHolds lookup (eachOf field .equals .or items) := by
  rw [holds_oneOf, chainHolds_eq_any (by simpa [eachOf] using hne) (by simp [eachOf]),
    eachOf, List.any_map]
  rfl

theorem holds_noneOf :
    (of field .noneOf (.list items)).holds lookup =
      !(of field .oneOf (.list items)).holds lookup := by
  have hdecisive : (of field .oneOf (.list items)).IsDecisive :=
    ⟨⟨_, rfl, fun _ => ⟨items, rfl⟩⟩, .oneOf, by decide, rfl⟩
  exact hdecisive.holds_negated

theorem isDecisive_of_mem_eachOf {connective : Connective} :
    ∀ condition ∈ eachOf field .equals connective items, condition.IsDecisive := by
  intro condition hmem
  obtain ⟨item, -, rfl⟩ := List.mem_map.1 hmem
  exact ⟨⟨item, rfl, fun hmembership => absurd hmembership Bool.false_ne_true⟩, .equals,
    by decide, rfl⟩

theorem map_dual_eachOf :
    (eachOf field .equals .or items).map dual = eachOf field .notEquals .and items := by
  rw [eachOf, List.map_map]
  rfl

theorem holds_noneOf_eq_chainHolds :
    (of field .noneOf (.list items)).holds lookup =
      chainHolds lookup (eachOf field .notEquals .and items) := by
  by_cases hne : items = []
  · rw [holds_noneOf, holds_oneOf, hne]
    rfl
  · have hne' : eachOf field .equals .or items ≠ [] := by simpa [eachOf] using hne
    rw [holds_noneOf, holds_oneOf_eq_chainHolds hne, ← map_dual_eachOf,
      chainHolds_map_dual hne' isDecisive_of_mem_eachOf]

/-- A single condition on membership, whatever its connective, comes to the same as a chain of
comparisons with the items. -/
theorem membership_spelledOut (lookup : String → Option FieldValue) (field : String)
    (items : List FieldValue) (connective : Connective) :
    (items ≠ [] → chainHolds lookup [{ of field .oneOf (.list items) with connective }] =
      chainHolds lookup (eachOf field .equals .or items)) ∧
    chainHolds lookup [{ of field .oneOf (.list []) with connective }] = false ∧
    chainHolds lookup [{ of field .noneOf (.list items) with connective }] =
      chainHolds lookup (eachOf field .notEquals .and items) :=
  ⟨fun hne => holds_oneOf_eq_chainHolds hne, holds_oneOf, holds_noneOf_eq_chainHolds⟩

theorem membership_spelledOut_nested :
    let lookup :=
      fun name => if name = "tags" then some (FieldValue.list [.text "a", .bool true]) else none
    let items := [FieldValue.text "a", .list [.text "a", .bool true]]
    items ≠ [] ∧
    chainHolds lookup [of "tags" .oneOf (.list items)] =
      chainHolds lookup [(of "tags" .equals (.text "a")).or,
      (of "tags" .equals (.list [.text "a", .bool true])).or] ∧
    chainHolds lookup [of "tags" .oneOf (.list [])] = false ∧
    chainHolds lookup [of "tags" .noneOf (.list items)] =
      chainHolds lookup [of "tags" .notEquals (.text "a"),
      of "tags" .notEquals (.list [.text "a", .bool true])] := by
  intro lookup items
  have hne : items ≠ [] := List.cons_ne_nil _ _
  obtain ⟨hin, hempty, hout⟩ := membership_spelledOut lookup "tags" items .and
  exact ⟨hne, hin hne, hempty, hout⟩

end Condition

end LeadAutomation
