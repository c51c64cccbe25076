import LeadAutomation.Proofs.Action.Outcomes
import LeadAutomation.Proofs.Lead.Views
import Mathlib.Data.List.Forall2

/-!
# Actions carried out in sequence

What an action writes to a lead is settled by the action alone; `Action.write?` reads it off. The
lead, the payload and the replies of systems outside decide only what the other actions come to. So
the patch of a sequence of actions can be told beforehand, and the lead that the sequence leaves is
the one it was given with that patch made.

`CarriedOut` lists what a sequence comes to, action by action; every sequence that is not cut short
by a breakdown comes to it.
-/

namespace LeadAutomation

open LeadPatch

namespace Action

/-- What an action writes to a lead, if it is one that writes and can be done. -/
def write? (action : Action) : Option PlannedWrite :=
  match action.kind with
  | .known .assignment => action.planAssignment.toOption
  | .known .scoring => action.planScoring.toOption
  | .known .statusChange => action.planStatusChange.toOption
  | .known .notification | .known .enrichment | .other .. => none

variable {action : Action} {view : RecordView} {defaults : List String} {lead : Lead}
  {write : PlannedWrite}

private theorem planWrite_eq_write_iff {deed : String} {planned : Except ActionFault PlannedWrite} :
    planWrite (some lead) deed planned = .write write ↔ planned.toOption = some write := by
  cases planned <;> simp [planWrite, Except.toOption]

theorem plan_eq_write_iff (hlead : view.lead = some lead) :
    action.plan view defaults = .write write ↔ action.write? = some write := by
  unfold plan write?
  rw [hlead]
  cases action.kind with
  | known kind =>
    cases kind with
    | assignment => exact planWrite_eq_write_iff
    | scoring => exact planWrite_eq_write_iff
    | statusChange => exact planWrite_eq_write_iff
    | notification => dsimp only; split <;> simp
    | enrichment => simp
  | other text unknown => simp

theorem patch_plan (hlead : view.lead = some lead) :
    (action.plan view defaults).patch = (action.write?.map PlannedWrite.patch).getD .empty := by
  cases hwrite : action.write? with
  | some write => rw [(plan_eq_write_iff hlead).2 hwrite]; rfl
  | none =>
    have hnot : ∀ write, action.plan view defaults ≠ .write write := by
      intro write hplan
      rw [plan_eq_write_iff hlead, hwrite] at hplan
      cases hplan
    cases hplan : action.plan view defaults with
    | write write => exact absurd hplan (hnot write)
    | notify notification => rfl
    | enrich request => rfl
    | fault fault => rfl

end Action

theorem outcome_of_request (holds : ActionOutcome → Prop) {call : EffectCall}
    {report : Except AutomationError call.Result → Program ActionOutcome}
    {exchanges : List Exchange} {outcome : ActionOutcome}
    (hreport : ∀ reply, ∃ reported, report reply = pure reported ∧ holds reported)
    (h : ((Program.effect call).caught >>= report).Runs exchanges (.returned outcome)) :
    holds outcome := by
  have hreturns : ∀ reply rest, (report reply).Runs rest (.returned outcome) → holds outcome := by
    intro reply rest hrest
    obtain ⟨reported, hpure, hholds⟩ := hreport reply
    rw [hpure] at hrest
    obtain ⟨-, hended⟩ := Program.runs_pure.1 hrest
    cases hended
    exact hholds
  obtain ⟨result, rest, -, hrest⟩ | ⟨error, rest, -, hrest⟩ | ⟨text, -, hended⟩ :=
    Program.runs_effect_caught_bind.1 h
  · exact hreturns _ rest hrest
  · exact hreturns _ rest hrest
  · cases hended

/-- What a plan that has been carried out is reported as. -/
theorem ActionPlan.outcome_of_runs_carryOut {plan : ActionPlan} {action : Action}
    {exchanges : List Exchange} {outcome : ActionOutcome}
    (h : (plan.carryOut action).Runs exchanges (.returned outcome)) :
    (∃ write, plan = .write write ∧ outcome = .ofSuccess action write.value write.note) ∨
    (∃ fault, plan = .fault fault ∧ outcome = .ofFailure action fault.message) ∨
    (∃ value, outcome = .ofSuccess action value none) ∨
    ∃ error : AutomationError, outcome = .ofFailure action error.message := by
  let answered (outcome : ActionOutcome) : Prop :=
    (∃ value, outcome = .ofSuccess action value none) ∨ ∃ error : AutomationError,
      outcome = .ofFailure action error.message
  cases plan with
  | write write =>
    obtain ⟨-, hended⟩ := Program.runs_pure.1 h
    cases hended
    exact .inl ⟨write, rfl, rfl⟩
  | notify notification =>
    refine .inr (.inr (outcome_of_request answered ?_ h))
    rintro (error | ⟨⟩)
    · exact ⟨_, rfl, .inr ⟨error, rfl⟩⟩
    · exact ⟨_, rfl, .inl ⟨_, rfl⟩⟩
  | enrich request =>
    refine .inr (.inr (outcome_of_request answered ?_ h))
    rintro (error | ⟨⟩)
    · exact ⟨_, rfl, .inr ⟨error, rfl⟩⟩
    · exact ⟨_, rfl, .inl ⟨_, rfl⟩⟩
  | fault fault =>
    obtain ⟨-, hended⟩ := Program.runs_pure.1 h
    cases hended
    exact .inr (.inl ⟨fault, rfl, rfl⟩)

/-- `CarriedOut now defaults payload actions lead exchanges applied final` says that `actions`,
carried out on `lead` one after another, can make the calls in `exchanges`, get those replies, come
to `applied` and leave `final`. -/
inductive CarriedOut (now : Timestamp) (defaults : List String) (payload : Json) :
    List Action → Option Lead → List Exchange → AppliedActions → Option Lead → Prop
  | done {lead : Option Lead} : CarriedOut now defaults payload [] lead [] .empty lead
  | next {action : Action} {rest : List Action} {lead final : Option Lead}
    {own others : List Exchange}
      {outcome : ActionOutcome} {later : AppliedActions}
      (carries : ((action.plan ⟨lead, payload⟩ defaults).carryOut action).Runs own
        (.returned outcome))
      (goesOn : CarriedOut now defaults payload rest
        (lead.map ((action.plan ⟨lead, payload⟩ defaults).patch.applyTo now)) others later final) :
      CarriedOut now defaults payload (action :: rest) lead (own ++ others)
        ⟨outcome :: later.outcomes,
          (action.plan ⟨lead, payload⟩ defaults).patch.merge later.patch⟩ final

variable {now : Timestamp} {defaults : List String} {payload : Json} {actions : List Action}
  {lead final : Option Lead}
  {exchanges : List Exchange} {applied : AppliedActions}

theorem carriedOut_of_runs
    (h : (applyActions now defaults payload actions lead).Runs exchanges
      (.returned (applied, final))) :
    CarriedOut now defaults payload actions lead exchanges applied final := by
  induction actions generalizing lead exchanges applied final with
  | nil =>
    obtain ⟨rfl, hended⟩ := Program.runs_pure.1 h
    cases hended
    exact .done
  | cons action rest ih =>
    obtain ⟨outcome, own, others, rfl, hown, hrest⟩ | ⟨error, -, hended⟩ | ⟨text, -, hended⟩ :=
      Program.runs_bind.1 h
    · obtain ⟨⟨later, left⟩, hlater, hended⟩ | ⟨error, -, hended⟩ | ⟨text, -, hended⟩ :=
        Program.runs_bind_pure.1 hrest
      · cases hended
        exact .next hown (ih hlater)
      · cases hended
      · cases hended
    · cases hended
    · cases hended

namespace CarriedOut

theorem forall₂ {holds : Action → ActionOutcome → Prop}
    (h : CarriedOut now defaults payload actions lead exchanges applied final)
    (hlead : lead.isSome = true)
    (heach : ∀ action ∈ actions, ∀ view own outcome, view.lead.isSome = true →
      ((action.plan view defaults).carryOut action).Runs own (.returned outcome) →
      holds action outcome) :
    List.Forall₂ holds actions applied.outcomes := by
  induction h with
  | done => exact .nil
  | next carries goesOn ih =>
    refine .cons (heach _ List.mem_cons_self _ _ _ hlead carries) (ih ?_ ?_)
    · rwa [Option.isSome_map]
    · intro action hmem
      exact heach action (List.mem_cons_of_mem _ hmem)

/-- On a lead, the patch of a sequence is the merge of what its actions write. -/
theorem patch_eq (h : CarriedOut now defaults payload actions lead exchanges applied final)
    (hlead : lead.isSome = true) :
    applied.patch = mergeAll ((actions.filterMap Action.write?).map PlannedWrite.patch) := by
  induction h with
  | done => rfl
  | @next action rest given final own others outcome later carries goesOn ih =>
    obtain ⟨lead, rfl⟩ := Option.isSome_iff_exists.1 hlead
    dsimp only
    rw [ih rfl, Action.patch_plan rfl]
    cases hwrite : action.write? with
    | none => rw [List.filterMap_cons_none hwrite, Option.map_none, Option.getD_none, empty_merge]
    | some write =>
      rw [List.filterMap_cons_some hwrite, List.map_cons, mergeAll_cons, Option.map_some,
        Option.getD_some]

theorem map_untimed_final
    (h : CarriedOut now defaults payload actions lead exchanges applied final) :
    final.map Lead.untimed = (lead.map Lead.untimed).map applied.patch.overlay := by
  induction h with
  | @done lead => cases lead <;> rfl
  | @next action rest given final own others outcome later carries goesOn ih =>
    rw [ih, map_untimed_applyTo]
    cases given with
    | none => rfl
    | some given => exact congrArg some (overlay_merge _ later.patch given.untimed).symm

end CarriedOut

end LeadAutomation
