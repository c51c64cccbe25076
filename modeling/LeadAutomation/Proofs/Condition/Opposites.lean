import LeadAutomation.Condition

/-!
# Opposite conditions

Four operators come in pairs of opposites. On a condition that makes sense, one that has a value,
and a list if it asks for membership, an operator and its opposite disagree, also where nothing is
found. De Morgan's law follows for whole chains: with opposite operators and with the connectives
exchanged, a chain comes to the opposite. A condition that makes no sense is false under its
operator and under the opposite one.
-/

namespace LeadAutomation

/-- The other connective. -/
def Connective.other : Connective → Connective
  | .and => .or
  | .or => .and

theorem Connective.combine_other (c : Connective) (a b : Bool) :
    c.other.combine (!a) (!b) = !c.combine a b := by
  cases c with
  | and => exact (Bool.not_and a b).symm
  | or => exact (Bool.not_or a b).symm

namespace ConditionOperator

/-- The operators that come in pairs of opposites. -/
def paired : List ConditionOperator := [.equals, .notEquals, .oneOf, .noneOf]

theorem compare_negated {operator : ConditionOperator} (hpaired : operator ∈ paired)
    {expected : FieldValue} (hlist : operator.isMembership = true → ∃ items, expected = .list items)
    (actual : Option FieldValue) :
    operator.negated.compare actual (some expected) = !operator.compare actual (some expected) := by
  simp only [paired, List.mem_cons, List.not_mem_nil, or_false] at hpaired
  rcases hpaired with rfl | rfl | rfl | rfl
  · cases actual <;> rfl
  · cases actual <;> simp [compare, negated, isMembership, ofAbsent, compareValues]
  · obtain ⟨items, rfl⟩ := hlist rfl
    cases actual <;> rfl
  · obtain ⟨items, rfl⟩ := hlist rfl
    cases actual <;>
      simp [compare, negated, isMembership, ofAbsent, compareValues, FieldValue.items?]

end ConditionOperator

namespace Condition

/-- The condition has what its operator compares with: a value, and a list if the operator asks for
membership. -/
def IsComplete (condition : Condition) : Prop :=
  ∃ value, condition.value = some value ∧
    (condition.operator.isMembership = true → ∃ items, value = .list items)

/-- The condition is complete, and its operator has an opposite. -/
def IsDecisive (condition : Condition) : Prop :=
  condition.IsComplete ∧ ∃ operator ∈ ConditionOperator.paired, condition.operator = .known operator

/-- The condition under the opposite operator. -/
def negated (condition : Condition) : Condition :=
  { condition with operator := condition.operator.negated }

/-- The condition under the opposite operator, joined with the next one by the other connective. -/
def dual (condition : Condition) : Condition :=
  { condition.negated with connective := condition.connective.other }

variable {lookup : String → Option FieldValue} {condition : Condition}

theorem IsDecisive.holds_negated (h : condition.IsDecisive) :
    condition.negated.holds lookup = !condition.holds lookup := by
  obtain ⟨⟨value, hvalue, hlist⟩, operator, hpaired, hoperator⟩ := h
  rw [hoperator] at hlist
  have hcompare := ConditionOperator.compare_negated hpaired hlist (lookup condition.field)
  simpa only [holds, negated, compare, Word.negated, hoperator, hvalue] using hcompare

theorem holds_of_not_isComplete (h : ¬ condition.IsComplete) : condition.holds lookup = false := by
  obtain ⟨field, operator | ⟨text, unknown⟩, value, connective⟩ := condition
  · cases value with
    | none => rfl
    | some value =>
      -- With a value, only membership can ask for more.
      have hmembership : operator.isMembership = true :=
        Classical.byContradiction fun hnot =>
          h ⟨value, rfl, fun hmembership => absurd hmembership hnot⟩
      have hlist : value.items?.isNone = true := by
        cases value with
        | list items => exact absurd ⟨.list items, rfl, fun _ => ⟨items, rfl⟩⟩ h
        | bool | number | text => rfl
      simp [holds, compare, ConditionOperator.compare, hmembership, hlist]
  · rfl

theorem isMembership_negated (operator : Word ConditionOperator) :
    operator.negated.isMembership = operator.isMembership := by
  obtain operator | _ := operator
  · cases operator <;> rfl
  · rfl

theorem isComplete_negated : condition.negated.IsComplete ↔ condition.IsComplete := by
  rw [IsComplete, IsComplete, negated, isMembership_negated]

/-- The state of an evaluation in which everything so far is the opposite. -/
def opposed (state : Bool × Connective) : Bool × Connective := (!state.1, state.2.other)

theorem advance_dual (h : condition.IsDecisive) (state : Bool × Connective) :
    advance lookup (opposed state) condition.dual = opposed (advance lookup state condition) := by
  have hholds : condition.dual.holds lookup = !condition.holds lookup := h.holds_negated
  have hcombine := state.2.combine_other state.1 (condition.holds lookup)
  rw [← hholds] at hcombine
  exact congrArg (·, condition.connective.other) hcombine

theorem foldl_advance_dual {conditions : List Condition}
    (h : ∀ condition ∈ conditions, condition.IsDecisive) (state : Bool × Connective) :
    (conditions.map dual).foldl (advance lookup) (opposed state) =
      opposed (conditions.foldl (advance lookup) state) := by
  induction conditions generalizing state with
  | nil => rfl
  | cons next rest ih =>
    obtain ⟨hnext, hrest⟩ := List.forall_mem_cons.1 h
    rw [List.map_cons, List.foldl_cons, List.foldl_cons, advance_dual hnext, ih hrest]

theorem chainHolds_map_dual {conditions : List Condition} (hne : conditions ≠ [])
    (h : ∀ condition ∈ conditions, condition.IsDecisive) :
    chainHolds lookup (conditions.map dual) = !chainHolds lookup conditions := by
  cases conditions with
  | nil => exact absurd rfl hne
  | cons first rest =>
    obtain ⟨hfirst, hrest⟩ := List.forall_mem_cons.1 h
    have hbegun : (first.dual.holds lookup, first.dual.connective) =
        opposed (first.holds lookup, first.connective) :=
      congrArg (·, first.connective.other) hfirst.holds_negated
    rw [List.map_cons, chainHolds, chainHolds, hbegun, foldl_advance_dual hrest]
    rfl

/-- De Morgan's law for chains, and where it ends: a condition that is not complete is false under
its operator and under the opposite one. -/
theorem deMorgan (lookup : String → Option FieldValue) :
    (∀ conditions : List Condition, conditions ≠ [] →
      (∀ condition ∈ conditions, condition.IsDecisive) →
      chainHolds lookup (conditions.map dual) = !chainHolds lookup conditions) ∧
    ∀ condition : Condition, ¬ condition.IsComplete →
      condition.holds lookup = false ∧ condition.negated.holds lookup = false := by
  refine ⟨fun conditions hne h => chainHolds_map_dual hne h, fun condition hincomplete => ?_⟩
  exact ⟨holds_of_not_isComplete hincomplete,
    holds_of_not_isComplete (mt isComplete_negated.1 hincomplete)⟩

/-- A lead in an industry of choice that is no longer raw, or any lead with another score than
zero. -/
def choice : List Condition :=
  [of "industry" .oneOf (.list [.text "SaaS", .text "Retail"]),
    (of "status" .notEquals (.text "RAW")).or,
    of "score" .noneOf (.list [.number (.ofNat false 0)])]

theorem deMorgan_choice :
    let lookup := fun name => if name = "status" then some (FieldValue.text "RAW") else none
    let unlisted := of "industry" .noneOf (.text "SaaS")
    choice ≠ [] ∧ (∀ condition ∈ choice, condition.IsDecisive) ∧
    chainHolds lookup (choice.map dual) = !chainHolds lookup choice ∧
    ¬ unlisted.IsComplete ∧ unlisted.holds lookup = false ∧
    unlisted.negated.holds lookup = false := by
  intro lookup unlisted
  have hne : choice ≠ [] := List.cons_ne_nil _ _
  have hdecisive : ∀ condition ∈ choice, condition.IsDecisive := by
    simp [choice, IsDecisive, IsComplete, of, or, Word.isMembership, ConditionOperator.isMembership,
      ConditionOperator.paired]
  have hincomplete : ¬ unlisted.IsComplete := by
    rintro ⟨_, ⟨⟩, hlist⟩
    obtain ⟨_, ⟨⟩⟩ := hlist rfl
  exact ⟨hne, hdecisive, (deMorgan lookup).1 choice hne hdecisive, hincomplete,
    (deMorgan lookup).2 unlisted hincomplete⟩

end Condition

end LeadAutomation
