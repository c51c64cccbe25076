import LeadAutomation.Proofs.Action.Sequences
import LeadAutomation.Validation
import Mathlib.Tactic.Linarith

/-!
# Scores

A score is asked for as any number, rounded to a whole one and brought between 0 and 100. Which
numbers that moves is said here in terms of what a number is worth, as a rational number: rounding
comes first, so a number has to lie half a point outside the range before its score is brought back
into it, `isSome_clampingNote?_iff`. However large the number, what is written is a score from 0 to
100, `LeadPatch.HasSoundScore`.
-/

namespace LeadAutomation

namespace Binary64

/-! ### What a number is worth -/

/-- The rational number that a double-precision number stands for. -/
def value (x : Binary64) : ℚ := x.worth / unitsPerOne

theorem unitsPerOne_pos_rat : (0 : ℚ) < unitsPerOne := Nat.cast_pos.2 unitsPerOne_pos

variable (x : Binary64)

theorem worth_neg : x.neg.worth = -x.worth := by
  obtain ⟨negative, units, _, _⟩ := x
  cases negative <;> simp [neg, worth]

theorem value_neg : x.neg.value = -x.value := by
  rw [value, value, worth_neg, Int.cast_neg, neg_div]

theorem round_neg : x.neg.round = -x.round := by
  obtain ⟨negative, units, _, _⟩ := x
  cases negative <;> simp [neg, round]

/-- A number rounds to more than a whole number just if it lies half a point above it. -/
theorem lt_round_iff (k : ℕ) : (k : ℤ) < x.round ↔ (k : ℚ) + 1 / 2 ≤ x.value := by
  have hone := unitsPerOne_pos_rat
  have hunits : (0 : ℚ) ≤ x.units := Nat.cast_nonneg _
  unfold round value worth
  dsimp only
  split
  · -- What is negative rounds to no more than zero.
    have hround : ¬ (k : ℤ) < -(((2 * x.units + unitsPerOne) / (2 * unitsPerOne) : ℕ) : ℤ) :=
      not_lt.2 ((neg_nonpos.2 (Int.natCast_nonneg _)).trans (Int.natCast_nonneg _))
    rw [iff_false_left hround, not_le, Int.cast_neg, neg_div]
    have hvalue : 0 ≤ (((x.units : ℤ) : ℚ)) / unitsPerOne :=
      div_nonneg (by exact_mod_cast hunits) hone.le
    have hk : (0 : ℚ) ≤ k := Nat.cast_nonneg k
    linarith
  · have hdouble : 0 < 2 * unitsPerOne := Nat.mul_pos (by decide) unitsPerOne_pos
    rw [Int.ofNat_lt, ← Nat.succ_le_iff, Nat.le_div_iff_mul_le hdouble, le_div_iff₀ hone,
      ← Nat.cast_le (α := ℚ)]
    push_cast
    constructor <;> intro h <;> linarith

theorem round_lt_zero_iff : x.round < 0 ↔ x.value ≤ -1 / 2 := by
  have hneg := x.neg.lt_round_iff 0
  rw [round_neg, value_neg, Nat.cast_zero, Nat.cast_zero, zero_add] at hneg
  constructor
  · intro h
    have := hneg.1 (by omega)
    linarith
  · intro h
    have := hneg.2 (by linarith)
    omega

theorem value_lt_zero_iff : x.value < 0 ↔ x.worth < 0 := by
  rw [value, div_lt_iff₀ unitsPerOne_pos_rat, zero_mul, Int.cast_lt_zero]

theorem lt_value_iff (k : ℕ) : (k : ℚ) < x.value ↔ (k : ℤ) * unitsPerOne < x.worth := by
  rw [value, lt_div_iff₀ unitsPerOne_pos_rat, ← Int.cast_lt (R := ℚ)]
  push_cast
  rfl

end Binary64

/-! ### Bringing a score into the range -/

namespace Action

theorem clampScore_range (score : ℤ) : 0 ≤ clampScore score ∧ clampScore score ≤ 100 := by
  unfold clampScore
  split
  · omega
  · split <;> omega

theorem clampScore_eq_self_iff {score : ℤ} :
    clampScore score = score ↔ 0 ≤ score ∧ score ≤ 100 := by
  unfold clampScore
  split
  · omega
  · split <;> omega

/-- What is noted of a score that was asked for, if it had to be brought into the range. -/
def clampingNote? (requested : Binary64) : Option String :=
  if clampScore requested.round = requested.round then none
  else some ("score " ++ requested.text plainNumber ++ " clamped to " ++
    toString (clampScore requested.round))

/-- A score is noted to have been clamped just if what was asked for does not even round to a
score. -/
theorem isSome_clampingNote?_iff {requested : Binary64} :
    (clampingNote? requested).isSome = true ↔
    requested.value ≤ -1 / 2 ∨ 201 / 2 ≤ requested.value := by
  have habove := requested.lt_round_iff 100
  rw [show ((100 : ℕ) : ℚ) + 1 / 2 = 201 / 2 by norm_num] at habove
  have hclamped : (clampingNote? requested).isSome = true ↔
      ¬ clampScore requested.round = requested.round := by
    unfold clampingNote?
    split <;> simp [*]
  rw [hclamped, clampScore_eq_self_iff, ← habove, ← requested.round_lt_zero_iff]
  push_cast
  omega

variable {action : Action} {requested : Binary64}

theorem planScoring_eq_ok (h : action.value.bind FieldValue.number? = some requested) :
    action.planScoring = .ok ⟨{ score := some (.ofInt (clampScore requested.round)) },
      .int (clampScore requested.round), clampingNote? requested⟩ := by
  simp only [planScoring, h, clampingNote?]

theorem planned?_of_scoring (hkind : action.kind = .known .scoring) :
    action.planned? = some action.planScoring := by
  simp only [planned?, hkind]

end Action

theorem Action.exists_answered {actions : List Action} {outcomes : List ActionOutcome}
    (h : List.Forall₂ Action.Answered actions outcomes) {index : Nat} {action : Action}
    (haction : actions[index]? = some action) :
    ∃ outcome, outcomes[index]? = some outcome ∧ action.Answered outcome := by
  induction h generalizing index with
  | nil => cases haction
  | cons answered others ih =>
    cases index with
    | zero =>
      obtain rfl := Option.some.inj haction
      exact ⟨_, rfl, answered⟩
    | succ index => exact ih haction

/-- Where no system outside breaks down, an action that asks for a score succeeds on a lead,
whatever comes before and after. -/
theorem Action.exists_outcome_of_scoring {now : Timestamp} {defaults : List String} {payload : Json}
    {actions : List Action} {lead : Lead} {exchanges : List Exchange}
    {ended : Outcome (AppliedActions × Option Lead)}
    (hruns : (applyActions now defaults payload actions (some lead)).Runs exchanges ended)
    (hcalm : ∀ exchange ∈ exchanges, ¬ exchange.IsBreakdown) {index : Nat} {action : Action}
    (haction : actions[index]? = some action) (hkind : action.kind = .known .scoring)
    {requested : Binary64} (hrequested : action.value.bind FieldValue.number? = some requested) :
    ∃ applied final, ended = .returned (applied, final) ∧ applied.outcomes[index]? =
      some (.ofSuccess action (.int (clampScore requested.round)) (clampingNote? requested)) := by
  obtain ⟨applied, final, rfl⟩ := applyActions_returns hruns hcalm
  obtain ⟨outcome, hat, hanswered⟩ := exists_answered (carriedOut_of_runs hruns).answered haction
  refine ⟨applied, final, rfl, hat.trans ?_⟩
  rw [hanswered.decided _ (planned?_of_scoring hkind), planScoring_eq_ok hrequested]
  rfl

/-! ### What is written -/

/-- The score that a patch sets, if it sets one, is from 0 to 100. -/
def LeadPatch.HasSoundScore (patch : LeadPatch) : Prop :=
  ∀ score, patch.score = some score → 0 ≤ score.toInt ∧ score.toInt ≤ 100

namespace LeadPatch.HasSoundScore

theorem empty : LeadPatch.empty.HasSoundScore := nofun

theorem merge {patch later : LeadPatch} (hpatch : patch.HasSoundScore)
    (hlater : later.HasSoundScore) :
    (patch.merge later).HasSoundScore := by
  intro score hscore
  obtain hset | ⟨-, hset⟩ := Option.or_eq_some_iff.1 hscore
  · exact hlater score hset
  · exact hpatch score hset

theorem mergeAll {patches : List LeadPatch} (h : ∀ patch ∈ patches, patch.HasSoundScore) :
    (LeadPatch.mergeAll patches).HasSoundScore := by
  induction patches with
  | nil => exact empty
  | cons patch rest ih =>
    obtain ⟨hfirst, hrest⟩ := List.forall_mem_cons.1 h
    rw [mergeAll_cons]
    exact hfirst.merge (ih hrest)

end LeadPatch.HasSoundScore

namespace Action

theorem score_of_assignmentPatch? {target : String} {assignee : Uuid} {patch : LeadPatch}
    (h : assignmentPatch? target assignee = some patch) : patch.score = none := by
  unfold assignmentPatch? at h
  split at h <;> cases h <;> rfl

theorem hasSoundScore_planAssignment {action : Action} {write : PlannedWrite}
    (h : action.planAssignment = .ok write) :
    write.patch.HasSoundScore := by
  intro score hscore
  unfold planAssignment at h
  split at h
  · cases h
  split at h
  · cases h
  split at h
  · cases h
  · next patch hpatch =>
    obtain rfl := Except.ok.inj h
    rw [score_of_assignmentPatch? hpatch] at hscore
    cases hscore

theorem hasSoundScore_planScoring {action : Action} {write : PlannedWrite}
    (h : action.planScoring = .ok write) :
    write.patch.HasSoundScore := by
  intro score hscore
  unfold planScoring at h
  split at h
  · cases h
  · next requested hrequested =>
    obtain rfl := Except.ok.inj h
    obtain rfl := Option.some.inj hscore
    obtain ⟨hlow, hhigh⟩ := clampScore_range requested.round
    rw [Int32.toInt_ofInt_of_le (by omega) (by omega)]
    exact ⟨hlow, hhigh⟩

theorem hasSoundScore_planStatusChange {action : Action} {write : PlannedWrite}
    (h : action.planStatusChange = .ok write) :
    write.patch.HasSoundScore := by
  intro score hscore
  unfold planStatusChange at h
  split at h
  · cases h
  split at h
  · cases h
  · obtain rfl := Except.ok.inj h
    cases hscore

theorem hasSoundScore_of_write? {action : Action} {write : PlannedWrite}
    (h : action.write? = some write) :
    write.patch.HasSoundScore := by
  have hok {planned : Except ActionFault PlannedWrite} (h : planned.toOption = some write) :
      planned = .ok write := by
    cases planned with
    | ok planned => exact congrArg Except.ok (Option.some.inj h)
    | error fault => cases h
  unfold write? at h
  split at h
  · exact hasSoundScore_planAssignment (hok h)
  · exact hasSoundScore_planScoring (hok h)
  · exact hasSoundScore_planStatusChange (hok h)
  all_goals cases h

/-- Whatever scores some actions ask for, what they write is a score from 0 to 100. -/
theorem hasSoundScore_patchOf (actions : List Action) : (patchOf actions).HasSoundScore := by
  refine .mergeAll fun patch hmem => ?_
  obtain ⟨write, hwrite, rfl⟩ := List.mem_map.1 hmem
  obtain ⟨action, -, hsome⟩ := List.mem_filterMap.1 hwrite
  exact hasSoundScore_of_write? hsome

end Action

end LeadAutomation
