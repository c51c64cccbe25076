import LeadAutomation.Action.Apply
import LeadAutomation.Proofs.Runs

/-!
# What comes of actions

A plan that writes asks nothing of systems outside and cannot fail; a plan that asks something
writes nothing. So whatever the systems outside do, a failed action leaves no write behind, and only
a breakdown keeps an action from having an outcome at all.
-/

namespace LeadAutomation

theorem Exchange.not_isBreakdown_returned {call : EffectCall} {result : call.Result} :
    ¬ (⟨.effect call, .returned result⟩ : Exchange).IsBreakdown := by
  rintro ⟨other, text, h⟩
  cases h

theorem Exchange.not_isBreakdown_failed {call : EffectCall} {error : AutomationError} :
    ¬ (⟨.effect call, .failed error⟩ : Exchange).IsBreakdown := by
  rintro ⟨other, text, h⟩
  cases h

/-- Every outcome either is a success or says what went wrong. -/
def ActionOutcome.IsPlain (outcome : ActionOutcome) : Prop := outcome.success = outcome.error.isNone

/-- How a plan can end: with an outcome and no breakdown, or in a breakdown and with no write. -/
inductive ActionPlan.Ends (plan : ActionPlan) : List Exchange → Outcome ActionOutcome → Prop
  | outcome {exchanges : List Exchange} {outcome : ActionOutcome} (plain : outcome.IsPlain)
      (calm : ∀ exchange ∈ exchanges, ¬ exchange.IsBreakdown) (unwritten : outcome.success = false →
        plan.patch = .empty) :
      Ends plan exchanges (.returned outcome)
  | breakdown {call : EffectCall} {text : Option String} (unwritten : plan.patch = .empty) :
      Ends plan [⟨.effect call, .crashed text⟩] (.crashed text)

/-- A request to a system outside, with what is reported of the reply. -/
private theorem ends_of_request {plan : ActionPlan} {call : EffectCall}
    {report : Except AutomationError call.Result → Program ActionOutcome}
    {exchanges : List Exchange} {ended : Outcome ActionOutcome} (hplan : plan.patch = .empty)
    (hreport : ∀ reply, ∃ outcome, report reply = pure outcome ∧ outcome.IsPlain)
    (h : ((Program.effect call).caught >>= report).Runs exchanges ended) :
    plan.Ends exchanges ended := by
  obtain ⟨result, rest, rfl, hrest⟩ | ⟨error, rest, rfl, hrest⟩ | ⟨text, rfl, rfl⟩ :=
    Program.runs_effect_caught_bind.1 h
  · obtain ⟨outcome, hpure, hplain⟩ := hreport (.ok result)
    rw [hpure] at hrest
    obtain ⟨rfl, rfl⟩ := Program.runs_pure.1 hrest
    refine .outcome hplain ?_ fun _ => hplan
    simpa using Exchange.not_isBreakdown_returned
  · obtain ⟨outcome, hpure, hplain⟩ := hreport (.error error)
    rw [hpure] at hrest
    obtain ⟨rfl, rfl⟩ := Program.runs_pure.1 hrest
    refine .outcome hplain ?_ fun _ => hplan
    simpa using Exchange.not_isBreakdown_failed
  · exact .breakdown hplan

theorem ActionPlan.ends_of_runs_carryOut {plan : ActionPlan} {action : Action}
    {exchanges : List Exchange} {ended : Outcome ActionOutcome}
    (h : (plan.carryOut action).Runs exchanges ended) : plan.Ends exchanges ended := by
  cases plan with
  | write planned =>
    obtain ⟨rfl, rfl⟩ := Program.runs_pure.1 h
    exact .outcome rfl (by simp) (by simp [ActionOutcome.ofSuccess])
  | notify notification =>
    refine ends_of_request rfl ?_ h
    rintro (error | ⟨⟩)
    · exact ⟨_, rfl, rfl⟩
    · exact ⟨_, rfl, rfl⟩
  | enrich request =>
    refine ends_of_request rfl ?_ h
    rintro (error | ⟨⟩)
    · exact ⟨_, rfl, rfl⟩
    · exact ⟨_, rfl, rfl⟩
  | fault reason =>
    obtain ⟨rfl, rfl⟩ := Program.runs_pure.1 h
    exact .outcome rfl (by simp) fun _ => rfl

/-- Actions are all carried out, each with an outcome, or a system outside breaks down and nothing
comes after that. -/
theorem applyActions_returns_or_breaks {now : Timestamp} {defaults : List String} {payload : Json}
    {actions : List Action} {lead : Option Lead} {exchanges : List Exchange}
    {ended : Outcome (AppliedActions × Option Lead)}
    (h : (applyActions now defaults payload actions lead).Runs exchanges ended) :
    (∃ applied final, ended = .returned (applied, final)) ∨
      ∃ before call text, exchanges = before ++ [⟨.effect call, .crashed text⟩] ∧
      ended = .crashed text := by
  induction actions generalizing lead exchanges ended with
  | nil =>
    obtain ⟨rfl, rfl⟩ := Program.runs_pure.1 h
    exact .inl ⟨_, _, rfl⟩
  | cons action rest ih =>
    obtain ⟨outcome, own, others, rfl, hfirst, hrest⟩ | ⟨error, hfirst, rfl⟩ |
        ⟨text, hfirst, rfl⟩ :=
      Program.runs_bind.1 h
    · obtain ⟨⟨later, final⟩, hlater, rfl⟩ | ⟨error, hlater, rfl⟩ | ⟨text, hlater, rfl⟩ :=
        Program.runs_bind_pure.1 hrest
      · exact .inl ⟨_, _, rfl⟩
      · obtain ⟨_, _, hended⟩ | ⟨_, _, _, -, hended⟩ := ih hlater <;> cases hended
      · obtain ⟨_, _, hended⟩ | ⟨before, call, _, rfl, hended⟩ := ih hlater
        · cases hended
        · cases hended
          exact .inr ⟨own ++ before, call, text, (List.append_assoc ..).symm, rfl⟩
    · cases ActionPlan.ends_of_runs_carryOut hfirst
    · cases ActionPlan.ends_of_runs_carryOut hfirst with
      | breakdown => exact .inr ⟨[], _, text, rfl, rfl⟩

theorem applyActions_returns {now : Timestamp} {defaults : List String} {payload : Json}
    {actions : List Action} {lead : Option Lead} {exchanges : List Exchange}
    {ended : Outcome (AppliedActions × Option Lead)}
    (h : (applyActions now defaults payload actions lead).Runs exchanges ended)
    (hcalm : ∀ exchange ∈ exchanges, ¬ exchange.IsBreakdown) :
    ∃ applied final, ended = .returned (applied, final) := by
  obtain hreturns | ⟨before, call, text, rfl, -⟩ := applyActions_returns_or_breaks h
  · exact hreturns
  · exact absurd ⟨call, text, rfl⟩
      (hcalm _ (List.mem_append_right before (List.mem_singleton_self _)))

end LeadAutomation
