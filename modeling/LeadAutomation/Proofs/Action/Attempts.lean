import LeadAutomation.Proofs.Action.Carried
import LeadAutomation.Scripted

/-!
# Every action for itself

Actions are meant to be independent of each other. Each has one outcome, in its place; a request
that a system outside refuses or breaks down over is the failure of its action alone; and whatever
has become of the others, an action that writes has its write on the lead and in the patch.
`EachAttempted` says this of all that can come back from systems outside.

A refusal is kept to its action, but a breakdown is not: it is the end of the whole sequence, and
with it go the outcomes and the writes of the actions before it. So actions are independent just as
long as nothing breaks down.
-/

namespace LeadAutomation

/-- What a plan asks of a system outside, and what is reported when that goes well. -/
def ActionPlan.request? : ActionPlan → Option (EffectCall × Json)
  | .notify notification => some (.notify notification, notification.receipt)
  | .enrich request => some (.enrich request, request.receipt)
  | .write _ | .fault _ => none

/-- `plan.Attempted action exchanges outcome` says that the attempt at `action`, which comes to
`plan`, makes the calls in `exchanges` and has `outcome`, whatever the replies to the calls are. -/
inductive ActionPlan.Attempted (action : Action) : ActionPlan → List Exchange → ActionOutcome → Prop
  | written (planned : PlannedWrite) :
    Attempted action (.write planned) [] (.ofSuccess action planned.value planned.note)
  | faulty (fault : ActionFault) :
    Attempted action (.fault fault) [] (.ofFailure action fault.message)
  | granted {plan : ActionPlan} {call : EffectCall} {receipt : Json} (result : call.Result)
      (asks : plan.request? = some (call, receipt)) :
      Attempted action plan [⟨.effect call, .returned result⟩] (.ofSuccess action receipt none)
  | refused {plan : ActionPlan} {call : EffectCall} {receipt : Json} (error : AutomationError)
      (asks : plan.request? = some (call, receipt)) :
      Attempted action plan [⟨.effect call, .failed error⟩] (.ofFailure action error.message)
  | broken {plan : ActionPlan} {call : EffectCall} {receipt : Json} (text : Option String)
    (message : String)
      (asks : plan.request? = some (call, receipt)) :
      Attempted action plan [⟨.effect call, .crashed text⟩] (.ofFailure action message)

/-- All of some actions are attempted in order, each on the lead with the writes of those before it,
and the writes of all are on the lead that is left and in the patch. -/
inductive EachAttempted (now : Timestamp) (defaults : List String) (payload : Json) :
    List Action → Option Lead → List Exchange → AppliedActions → Option Lead → Prop
  | done {lead : Option Lead} : EachAttempted now defaults payload [] lead [] .empty lead
  | next {action : Action} {rest : List Action} {lead final : Option Lead}
    {own others : List Exchange}
      {outcome : ActionOutcome} {later : AppliedActions}
      (attempted : (action.plan ⟨lead, payload⟩ defaults).Attempted action own outcome)
      (goesOn : EachAttempted now defaults payload rest
        (lead.map ((action.plan ⟨lead, payload⟩ defaults).patch.applyTo now)) others later final) :
      EachAttempted now defaults payload (action :: rest) lead (own ++ others)
        ⟨outcome :: later.outcomes,
          (action.plan ⟨lead, payload⟩ defaults).patch.merge later.patch⟩ final

private theorem attempted_of_request {plan : ActionPlan} {action : Action} {call : EffectCall}
    {receipt : Json} {exchanges : List Exchange} {outcome : ActionOutcome}
    {report : Except AutomationError call.Result → Program ActionOutcome}
    (hasks : plan.request? = some (call, receipt))
    (hok : ∀ result, report (.ok result) = pure (.ofSuccess action receipt none))
    (herror : ∀ error, report (.error error) = pure (.ofFailure action error.message))
    (h : ((Program.effect call).caught >>= report).Runs exchanges (.returned outcome)) :
    plan.Attempted action exchanges outcome := by
  obtain ⟨result, rest, rfl, hrest⟩ | ⟨error, rest, rfl, hrest⟩ | ⟨text, -, hended⟩ :=
    Program.runs_effect_caught_bind.1 h
  · rw [hok] at hrest
    obtain ⟨rfl, hended⟩ := Program.runs_pure.1 hrest
    cases hended
    exact .granted result hasks
  · rw [herror] at hrest
    obtain ⟨rfl, hended⟩ := Program.runs_pure.1 hrest
    cases hended
    exact .refused error hasks
  · cases hended

theorem ActionPlan.attempted_of_runs_carryOut {plan : ActionPlan} {action : Action}
    {exchanges : List Exchange} {outcome : ActionOutcome}
    (h : (plan.carryOut action).Runs exchanges (.returned outcome)) :
    plan.Attempted action exchanges outcome := by
  cases plan with
  | write planned =>
    obtain ⟨rfl, hended⟩ := Program.runs_pure.1 h
    cases hended
    exact .written planned
  | notify notification => exact attempted_of_request rfl (fun _ => rfl) (fun _ => rfl) h
  | enrich request => exact attempted_of_request rfl (fun _ => rfl) (fun _ => rfl) h
  | fault fault =>
    obtain ⟨rfl, hended⟩ := Program.runs_pure.1 h
    cases hended
    exact .faulty fault

variable {now : Timestamp} {defaults : List String} {payload : Json} {actions : List Action}
  {lead final : Option Lead}
  {exchanges : List Exchange} {applied : AppliedActions}

namespace CarriedOut

theorem eachAttempted (h : CarriedOut now defaults payload actions lead exchanges applied final) :
    EachAttempted now defaults payload actions lead exchanges applied final := by
  induction h with
  | done => exact .done
  | next carries goesOn ih => exact .next (ActionPlan.attempted_of_runs_carryOut carries) ih

theorem calm (h : CarriedOut now defaults payload actions lead exchanges applied final) :
    ∀ exchange ∈ exchanges, ¬ exchange.IsBreakdown := by
  induction h with
  | done => exact List.forall_mem_nil _
  | next carries goesOn ih =>
    cases ActionPlan.ends_of_runs_carryOut carries with
    | outcome _ calm => exact List.forall_mem_append.2 ⟨calm, ih⟩

end CarriedOut

/-- Actions are independent of each other, whatever systems outside reply, just if none of them
breaks down. Otherwise the breakdown is the last that happens, and there are no outcomes. -/
theorem eachAttempted_iff_calm {σ : Type} (answer : (call : Call) → σ → call.Reply × σ)
    (now : Timestamp) (defaults : List String) (payload : Json) (actions : List Action)
    (lead : Option Lead) (s : σ) :
    let program := applyActions now defaults payload actions lead
    ((∃ applied final s', program.run answer s = (.returned (applied, final), s') ∧
        EachAttempted now defaults payload actions lead
          (program.transcript answer s) applied final) ↔
      ∀ exchange ∈ program.transcript answer s, ¬ exchange.IsBreakdown) ∧
    ((∃ text s' before call, program.run answer s = (.crashed text, s') ∧
        program.transcript answer s = before ++ [⟨.effect call, .crashed text⟩]) ↔
      ¬ ∀ exchange ∈ program.transcript answer s, ¬ exchange.IsBreakdown) := by
  intro program
  have hruns := Program.runs_transcript answer program s
  constructor
  · constructor
    · rintro ⟨applied, final, s', hrun, -⟩
      rw [hrun] at hruns
      exact (carriedOut_of_runs hruns).calm
    · intro hcalm
      obtain ⟨applied, final, hended⟩ := applyActions_returns hruns hcalm
      rw [hended] at hruns
      exact ⟨applied, final, _, Prod.ext hended rfl, (carriedOut_of_runs hruns).eachAttempted⟩
  · constructor
    · rintro ⟨text, s', before, call, -, hlast⟩ hcalm
      rw [hlast] at hcalm
      exact hcalm _ (List.mem_append_right before (List.mem_singleton_self _)) ⟨call, text, rfl⟩
    · intro hbroken
      obtain ⟨applied, final, hended⟩ | ⟨before, call, text, hlast, hended⟩ :=
        applyActions_returns_or_breaks hruns
      · rw [hended] at hruns
        exact absurd (carriedOut_of_runs hruns).calm hbroken
      · exact ⟨text, _, before, call, Prod.ext hended rfl, hlast⟩

/-- A message to sales, and then a score. -/
def tellAndScore : List Action :=
  [.notify "a lead has come in" ["sales"], .setScore (.ofNat false 70)]

/-- A sender that breaks down takes the score with it. -/
theorem not_eachAttempted_tellAndScore :
    let lead := Lead.blank Program.stillFresh
    let answer := Surroundings.answer fun _ => Program.stillFresh
    let s : Surroundings := { script := { notifier := [.crashed (some "connection lost")] } }
    let program := applyActions .epoch [] .null tellAndScore (some lead)
    ¬ ∃ applied final s', program.run answer s = (.returned (applied, final), s') ∧
      EachAttempted .epoch [] .null tellAndScore (some lead)
        (program.transcript answer s) applied final := by
  rintro lead answer s program ⟨applied, final, s', hrun, -⟩
  have hcrash : (match (program.run answer s).1 with
      | .crashed text => text
      | .returned _ | .failed _ => none) = some "connection lost" := by decide +kernel
  rw [hrun] at hcrash
  cases hcrash

end LeadAutomation
