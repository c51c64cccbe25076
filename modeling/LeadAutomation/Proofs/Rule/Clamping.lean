import LeadAutomation.Proofs.Action.Attempts
import LeadAutomation.Proofs.Action.Scores
import LeadAutomation.Proofs.Rule.Validated
import LeadAutomation.Proofs.Validation.Places

/-!
# Clamped scores

That a score does not stay what was asked for is told twice: authors are warned when a rule is
checked, and the outcome of the action carries a note when it is carried out. The check looks at the
number as it is given, and carrying out rounds it first. So they tell the same of every number but
those less than half a point outside the range of scores: there the warning announces a clamping of
which the outcome knows nothing, `Action.clamping_told_iff`.
-/

namespace LeadAutomation

open Validation

/-! ### Warnings -/

namespace Validation

/-- The warning that the score which an action asks for will not stay as it is. -/
def clampingWarning (index : Nat) (requested : Binary64) : String :=
  "Action " ++ toString (index + 1) ++ " sets score " ++ requested.text plainNumber ++
    " which will be clamped to 0-100"

theorem isOutOfScoreRange_iff {requested : Binary64} :
    isOutOfScoreRange requested = true ↔ requested.value < 0 ∨ 100 < requested.value := by
  have hhundred : (Binary64.ofNat false 100).worth = 100 * Binary64.unitsPerOne := by decide +kernel
  have habove := requested.lt_value_iff 100
  push_cast at habove
  rw [requested.value_lt_zero_iff, habove, isOutOfScoreRange, Bool.or_eq_true, Binary64.less,
    Binary64.less, decide_eq_true_iff, decide_eq_true_iff, Binary64.worth_zero, hhundred]

theorem mem_warnAction_iff {index : Nat} {action : Action} {warning : String} :
    warning ∈ warnAction index action ↔ action.kind = .known .scoring ∧
      ∃ requested, action.value.bind FieldValue.number? = some requested ∧
      isOutOfScoreRange requested = true ∧
        warning = clampingWarning index requested := by
  unfold warnAction
  split
  · next hkind =>
    split
    · next requested hrequested =>
      split
      · next hout => simp [hkind, hrequested, hout, clampingWarning]
      · next hin => simp [hkind, hrequested, hin]
    · next hnone => simp [hkind, hnone]
  · next hkind => simpa using fun h => absurd h hkind

/-- The characters of a warning, up to what stands behind the number of the action. -/
private theorem toList_clampingWarning (index : Nat) (requested : Binary64) : ∃ rest,
    (clampingWarning index requested).toList =
      "Action ".toList ++ (Nat.toDigits 10 (index + 1) ++ ' ' :: rest) := by
  refine
    ⟨("sets score " ++ requested.text plainNumber ++ " which will be clamped to 0-100").toList, ?_⟩
  rw [clampingWarning, show toString (index + 1) = String.ofList (Nat.toDigits 10 (index + 1)) from
    Nat.repr_eq_ofList_toDigits]
  simp

theorem index_eq_of_clampingWarning_eq {index other : Nat} {requested given : Binary64}
    (h : clampingWarning index requested = clampingWarning other given) : index = other := by
  obtain ⟨rest, hindex⟩ := toList_clampingWarning index requested
  obtain ⟨rest', hother⟩ := toList_clampingWarning other given
  have hnumbers :=
    List.append_cancel_left (hindex.symm.trans ((congrArg String.toList h).trans hother))
  exact Nat.succ.inj (Text.toDigits_append_inj (by decide) (by decide) hnumbers).1

end Validation

theorem Rule.mem_warnings_iff {rule : Rule} {warnings : List String}
    (hvalid : rule.validate = .ok warnings) {index : Nat} {action : Action}
    (haction : rule.actions[index]? = some action) (hkind : action.kind = .known .scoring)
    {requested : Binary64} (hrequested : action.value.bind FieldValue.number? = some requested) :
    clampingWarning index requested ∈ warnings ↔ isOutOfScoreRange requested = true := by
  have hwarnings : warnings = rule.warnings := by
    unfold validate at hvalid
    split at hvalid <;> cases hvalid
    rfl
  obtain ⟨rest, hchars⟩ := toList_clampingWarning index requested
  -- The other warnings begin with another letter.
  have hother : ∀ other : String, other.toList.head? ≠ some 'A' →
      clampingWarning index requested ≠ other := by
    rintro _ hhead rfl
    rw [hchars] at hhead
    exact hhead rfl
  have hempty := hother "Rule has no actions and will never change anything" (by decide)
  have hcatchAll :=
    hother "Catch-all rule: no conditions, its actions run for every lead it is dispatched against"
      (by decide)
  have hscores : clampingWarning index requested ∈ warnings ↔
      clampingWarning index requested ∈ checkItems warnAction rule.actions := by
    rw [hwarnings, Rule.warnings, List.mem_append, List.mem_append]
    constructor
    · rintro ((h | h) | h)
      · split at h
        · exact absurd (List.mem_singleton.1 h) hempty
        · cases h
      · exact h
      · split at h
        · exact absurd (List.mem_singleton.1 h) hcatchAll
        · cases h
    · exact fun h => .inl (.inr h)
  rw [hscores, mem_checkItems_iff]
  constructor
  · rintro ⟨other, item, hitem, hmem⟩
    obtain ⟨-, given, hgiven, hout, heq⟩ := mem_warnAction_iff.1 hmem
    obtain rfl := index_eq_of_clampingWarning_eq heq
    obtain rfl : action = item := Option.some.inj (haction.symm.trans hitem)
    obtain rfl : requested = given := Option.some.inj (hrequested.symm.trans hgiven)
    exact hout
  · exact fun hout =>
      ⟨index, action, haction, mem_warnAction_iff.2 ⟨hkind, requested, hrequested, hout, rfl⟩⟩

/-! ### Warning and note -/

/-- The numbers outside the range of scores that rounding brings back into it. -/
def Binary64.RoundsIntoRange (requested : Binary64) : Prop :=
  -1 / 2 < requested.value ∧ requested.value < 0 ∨ 100 < requested.value ∧ requested.value < 201 / 2

/-- Where no system outside breaks down, an action that asks for a score has an outcome on a lead,
with a note of clamping just if the number is half a point or more outside the range. The checks of
a rule warn of the action just if the number is outside the range at all. So the two agree just if
the number is not one that rounding brings back into the range. -/
theorem Action.clamping_told_iff {action : Action} (hkind : action.kind = .known .scoring)
    {requested : Binary64} (hrequested : action.value.bind FieldValue.number? = some requested) :
    (∀ (now : Timestamp) (defaults : List String) (payload : Json) (actions : List Action)
        (lead : Lead) (exchanges : List Exchange)
        (ended : Outcome (AppliedActions × Option Lead)) (index : Nat),
      actions[index]? = some action →
      (applyActions now defaults payload actions (some lead)).Runs exchanges ended →
      (∀ exchange ∈ exchanges, ¬ exchange.IsBreakdown) →
      ∃ (applied : AppliedActions) (final : Option Lead) (note : Option String),
        ended = .returned (applied, final) ∧
        applied.outcomes[index]? =
          some (.ofSuccess action (.int (clampScore requested.round)) note) ∧
        (note.isSome = true ↔ requested.value ≤ -1 / 2 ∨ 201 / 2 ≤ requested.value)) ∧
    ∀ (rule : Rule) (warnings : List String) (index : Nat),
      rule.validate = .ok warnings → rule.actions[index]? = some action →
      (clampingWarning index requested ∈ warnings ↔ requested.value < 0 ∨ 100 < requested.value) ∧
      ∀ (now : Timestamp) (defaults : List String) (payload : Json) (lead : Lead)
          (exchanges : List Exchange) (applied : AppliedActions) (final : Option Lead)
          (outcome : ActionOutcome),
        (applyActions now defaults payload rule.actions (some lead)).Runs exchanges
          (.returned (applied, final)) →
        applied.outcomes[index]? = some outcome →
        ((outcome.note.isSome = true ↔ clampingWarning index requested ∈ warnings) ↔
          ¬ requested.RoundsIntoRange) := by
  constructor
  · intro now defaults payload actions lead exchanges ended index haction hruns hcalm
    obtain ⟨applied, final, hended, houtcome⟩ :=
      exists_outcome_of_scoring hruns hcalm haction hkind hrequested
    exact ⟨applied, final, _, hended, houtcome, isSome_clampingNote?_iff⟩
  · intro rule warnings index hvalid haction
    have hwarned :=
      (Rule.mem_warnings_iff hvalid haction hkind hrequested).trans isOutOfScoreRange_iff
    refine ⟨hwarned, ?_⟩
    intro now defaults payload lead exchanges applied final outcome hruns hat
    obtain ⟨_, _, hended, houtcome⟩ :=
      exists_outcome_of_scoring hruns (carriedOut_of_runs hruns).calm haction hkind hrequested
    cases hended
    obtain rfl := Option.some.inj (hat.symm.trans houtcome)
    have hnoted :
      (ActionOutcome.ofSuccess action (.int (clampScore requested.round))
        (clampingNote? requested)).note.isSome =
        true ↔ _ := isSome_clampingNote?_iff
    rw [hnoted, hwarned, Binary64.RoundsIntoRange]
    constructor
    · rintro h (⟨hlow, hhigh⟩ | ⟨hlow, hhigh⟩)
      · rcases h.2 (.inl hhigh) with hle | hle <;> linarith
      · rcases h.2 (.inr hlow) with hle | hle <;> linarith
    · intro hband
      constructor
      · rintro (hle | hle)
        · exact .inl (by linarith)
        · exact .inr (by linarith)
      · rintro (hlt | hlt)
        · exact .inl (not_lt.1 fun hlow => hband (.inl ⟨hlow, hlt⟩))
        · exact .inr (not_lt.1 fun hhigh => hband (.inr ⟨hlt, hhigh⟩))

/-- A rule that asks for a higher score than there is. -/
def Rule.overfilled : Rule :=
  { Rule.blank Program.stillFresh "Best of all" .scoring 10 with
    conditions := [.scoreAbove .zero]
    actions := [.setScore (.ofNat false 150)] }

theorem Action.clamping_told_iff_overfilled :
    let requested := Binary64.ofNat false 150
    let action := Action.setScore requested
    let warnings := ["Action 1 sets score 150 which will be clamped to 0-100"]
    action.kind = .known .scoring ∧ action.value.bind FieldValue.number? = some requested ∧
    Rule.overfilled.validate = .ok warnings ∧ Rule.overfilled.actions[0]? = some action ∧
    ∃ applied final note,
      (applyActions .epoch [] .null Rule.overfilled.actions
        (some (.blank Program.stillFresh))).Runs [] (.returned (applied, final)) ∧
      applied.outcomes[0]? = some (.ofSuccess action (.int (clampScore requested.round)) note) ∧
      (note.isSome = true ↔ requested.value ≤ -1 / 2 ∨ 201 / 2 ≤ requested.value) ∧
      (clampingWarning 0 requested ∈ warnings ↔ requested.value < 0 ∨ 100 < requested.value) ∧
      ((note.isSome = true ↔ clampingWarning 0 requested ∈ warnings) ↔
        ¬ requested.RoundsIntoRange) := by
  intro requested action warnings
  have hrequested : action.value.bind FieldValue.number? = some requested := rfl
  have hvalid : Rule.overfilled.validate = .ok warnings := by decide +kernel
  have hruns := Program.runs_transcript Host.still.answer
    (applyActions .epoch [] .null Rule.overfilled.actions (some (.blank Program.stillFresh))) {}
  obtain ⟨hnoted, htold⟩ := clamping_told_iff rfl hrequested
  obtain ⟨hwarned, hagree⟩ := htold Rule.overfilled warnings 0 hvalid rfl
  obtain ⟨applied, final, note, hended, hat, hnote⟩ :=
    hnoted _ _ _ Rule.overfilled.actions _ _ _ 0 rfl hruns fun _ hmem => nomatch hmem
  rw [hended] at hruns
  exact ⟨rfl, hrequested, hvalid, rfl, applied, final, note, hruns, hat, hnote, hwarned,
    hagree _ _ _ _ _ _ _ _ hruns hat⟩

/-- A rule that asks for a little more than the highest score. -/
def Rule.barelyOver : Rule :=
  { Rule.blank Program.stillFresh "Full marks and more" .scoring 10 with
    conditions := [.scoreAbove .zero]
    actions := [.of .scoring "score" (.text "100.3")] }

/-- A score above the range can be brought into it without a note, although the author of the rule
was told that it would be. -/
theorem Action.not_noted_barelyOver :
    ∃ action requested, Rule.barelyOver.actions = [action] ∧ action.value.bind FieldValue.number? =
      some requested ∧
      100 < requested.value ∧
      Rule.barelyOver.validate = .ok ["Action 1 sets score 100.3 which will be clamped to 0-100"] ∧
      ∃ applied final,
        ((applyActions .epoch [] .null Rule.barelyOver.actions
          (some (.blank Program.stillFresh))).run Host.still.answer {}).1 =
          .returned (applied, final) ∧
        applied.outcomes[0]? = some (.ofSuccess action (.int 100) none) := by
  let action : Action := .of .scoring "score" (.text "100.3")
  have hread : ∃ requested ∈ action.value.bind FieldValue.number?,
      ((100 : Nat) : Int) * Binary64.unitsPerOne < requested.worth ∧
        clampScore requested.round = 100 ∧
        clampingNote? requested = none := by decide +kernel
  obtain ⟨requested, hrequested, habove, hscore, hnote⟩ := hread
  have hruns := Program.runs_transcript Host.still.answer
    (applyActions .epoch [] .null Rule.barelyOver.actions (some (.blank Program.stillFresh))) {}
  have haction : Rule.barelyOver.actions[0]? = some action := rfl
  obtain ⟨applied, final, hended, hat⟩ := exists_outcome_of_scoring hruns
    (fun _ => Program.not_isBreakdown_of_mem_transcript Host.still_isCalm) haction rfl
      (Option.mem_def.1 hrequested)
  rw [hscore, hnote] at hat
  exact ⟨action, requested, rfl, hrequested, (requested.lt_value_iff 100).2 habove,
    by decide +kernel, applied, final, hended,
    hat⟩

end LeadAutomation
