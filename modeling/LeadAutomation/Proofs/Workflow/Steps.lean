import LeadAutomation.Proofs.Action.Outcomes
import LeadAutomation.Proofs.Workflow.Settings
import LeadAutomation.Workflow.Run

/-!
# What a step can come to

`Step.Happens` lists everything that can come of carrying out a step, with the calls to systems
outside that lead there: one constructor for each way, guards included. Facts about steps are facts
about its constructors, and nothing after this module needs to look into how a step is performed.
-/

namespace LeadAutomation

namespace Step

/-- `step.Happens now options view exchanges outcome patch` says that `step`, carried out on `view`,
can make the calls in `exchanges`, get those replies, and come to `outcome` with the writes
`patch`. -/
inductive Happens (now : Timestamp) (options : Options) (view : RecordView) (step : Step) :
    List Exchange → StepOutcome → LeadPatch → Prop
  | unreadable {fault : StepFault} (settings : step.settings = .error fault) :
      Happens now options view step [] (.failed fault.message true) .empty
  | acted {action : Action} {exchanges : List Exchange} {outcome : ActionOutcome}
      (settings : step.settings = .ok (.action action))
      (runs : ((action.plan view options.defaultRecipients).carryOut action).Runs exchanges
        (.returned outcome))
      (well : outcome.error = none) :
      Happens now options view step exchanges (.passed outcome.toJson)
        (action.plan view options.defaultRecipients).patch
  | misacted {action : Action} {exchanges : List Exchange} {outcome : ActionOutcome}
    {error : String}
      (settings : step.settings = .ok (.action action))
      (runs : ((action.plan view options.defaultRecipients).carryOut action).Runs exchanges
        (.returned outcome))
      (ill : outcome.error = some error) :
      Happens now options view step exchanges
        (.failed error (!options.continueOnStepFailure)) .empty
  | met {conditions : List Condition} (settings : step.settings = .ok (.condition conditions))
      (holds : Condition.chainHolds view.lookup conditions = true) :
      Happens now options view step [] (.passed (.obj [("passed", .bool true)])) .empty
  | unmet {conditions : List Condition} (settings : step.settings = .ok (.condition conditions))
      (fails : Condition.chainHolds view.lookup conditions = false) :
      Happens now options view step [] (.stopped (.obj [("passed", .bool false)])) .empty
  | delayed {minutes : Binary64} {result : Json} (settings : step.settings = .ok (.delay minutes))
      (delay : delayOutcome now minutes = .passed result) :
      Happens now options view step [] (.passed result) .empty
  | undelayed {minutes : Binary64} {error : String} (settings : step.settings =
    .ok (.delay minutes))
      (delay : delayOutcome now minutes = .failed error true) :
      Happens now options view step [] (.failed error true) .empty
  | uncomposed {message : String} {subject : Option String} {recipients : List String}
      {reason : Notification.Unsendable} (settings : step.settings =
        .ok (.notification message subject recipients))
      (composed : Notification.compose message subject recipients options.defaultRecipients view =
        .error reason) :
      Happens now options view step [] (.failed reason.message false) .empty
  | sent {message : String} {subject : Option String} {recipients : List String}
    {notification : Notification}
      (settings : step.settings = .ok (.notification message subject recipients))
      (composed : Notification.compose message subject recipients options.defaultRecipients view =
        .ok notification) :
      Happens now options view step [⟨.effect (.notify notification), .returned ()⟩]
        (.passed notification.receipt) .empty
  | refused {message : String} {subject : Option String} {recipients : List String}
    {notification : Notification}
      {error : AutomationError} (settings : step.settings =
        .ok (.notification message subject recipients))
      (composed : Notification.compose message subject recipients options.defaultRecipients view =
        .ok notification) :
      Happens now options view step [⟨.effect (.notify notification), .failed error⟩]
        (.failed error.message false) .empty
  | integrated {integration action : String} {data reply : Json}
      (settings : step.settings = .ok (.integration integration action data)) :
      Happens now options view step
        [⟨.effect (.integrate ⟨integration, action, Template.renderJson view.text? data⟩),
          .returned reply⟩]
        (.passed reply) .empty
  | rejected {integration action : String} {data : Json} {error : AutomationError}
      (settings : step.settings = .ok (.integration integration action data)) :
      Happens now options view step
        [⟨.effect (.integrate ⟨integration, action, Template.renderJson view.text? data⟩),
          .failed error⟩]
        (.failed error.message true) .empty
  | brokeActing {action : Action} {call : EffectCall} {text : Option String}
      (settings : step.settings = .ok (.action action)) :
      Happens now options view step [⟨.effect call, .crashed text⟩]
        (.failed (text.getD "step panicked") true) .empty
  | brokeSending {message : String} {subject : Option String} {recipients : List String}
    {notification : Notification}
      {text : Option String} (settings : step.settings =
        .ok (.notification message subject recipients))
      (composed : Notification.compose message subject recipients options.defaultRecipients view =
        .ok notification) :
      Happens now options view step [⟨.effect (.notify notification), .crashed text⟩]
        (.failed (text.getD "step panicked") true) .empty
  | brokeIntegrating {integration action : String} {data : Json} {text : Option String}
      (settings : step.settings = .ok (.integration integration action data)) :
      Happens now options view step
        [⟨.effect (.integrate ⟨integration, action, Template.renderJson view.text? data⟩),
          .crashed text⟩]
        (.failed (text.getD "step panicked") true) .empty

variable {now : Timestamp} {options : Options} {view : RecordView} {step : Step}
  {exchanges : List Exchange}
  {outcome : StepOutcome} {patch : LeadPatch}

theorem delayOutcome_cases (now : Timestamp) (minutes : Binary64) :
    (∃ result, delayOutcome now minutes = .passed result) ∨ ∃ error, delayOutcome now minutes =
      .failed error true := by
  unfold delayOutcome
  split
  · exact .inr ⟨_, rfl⟩
  · exact .inl ⟨_, rfl⟩

private theorem happens_of_action {action : Action} {ended : Outcome (StepOutcome × LeadPatch)}
    (hsettings : step.settings = .ok (.action action))
    (hruns : (performAction (!options.continueOnStepFailure) options.defaultRecipients view
      action).Runs exchanges ended)
    (hsettled : settled ended = (outcome, patch)) :
    step.Happens now options view exchanges outcome patch := by
  obtain ⟨done, before, after, rfl, hplan, hrest⟩ | ⟨error, hplan, rfl⟩ | ⟨text, hplan, rfl⟩ :=
    Program.runs_bind.1 hruns
  · split at hrest
    · next hnone =>
      obtain ⟨rfl, rfl⟩ := Program.runs_pure.1 hrest
      cases hsettled
      rw [List.append_nil]
      exact .acted hsettings hplan hnone
    · next error hsome =>
      obtain ⟨rfl, rfl⟩ := Program.runs_pure.1 hrest
      cases hsettled
      have hunwritten : (action.plan view options.defaultRecipients).patch = .empty := by
        cases ActionPlan.ends_of_runs_carryOut hplan with
        | outcome plain calm unwritten => exact unwritten (by rw [plain, hsome]; rfl)
      rw [List.append_nil, hunwritten]
      exact .misacted hsettings hplan hsome
  · cases ActionPlan.ends_of_runs_carryOut hplan
  · cases ActionPlan.ends_of_runs_carryOut hplan
    cases hsettled
    exact .brokeActing hsettings

private theorem happens_of_notification {message : String} {subject : Option String}
    {recipients : List String} {ended : Outcome StepOutcome}
    (hsettings : step.settings = .ok (.notification message subject recipients))
    (hruns : (performNotification
      (Notification.compose message subject recipients options.defaultRecipients view)).Runs
        exchanges ended) :
    (∃ done, ended = .returned done ∧ step.Happens now options view exchanges done .empty) ∨
    ∃ text, ended = .crashed text ∧
      step.Happens now options view exchanges
        (.failed (text.getD "step panicked") true) .empty := by
  unfold performNotification at hruns
  split at hruns
  · next reason hcomposed =>
    obtain ⟨rfl, rfl⟩ := Program.runs_pure.1 hruns
    exact .inl ⟨_, rfl, .uncomposed hsettings hcomposed⟩
  · next notification hcomposed =>
    obtain ⟨⟨⟩, rest, rfl, hrest⟩ | ⟨error, rest, rfl, hrest⟩ | ⟨text, rfl, rfl⟩ :=
      Program.runs_effect_caught_bind.1 hruns
    · obtain ⟨rfl, rfl⟩ := Program.runs_pure.1 hrest
      exact .inl ⟨_, rfl, .sent hsettings hcomposed⟩
    · obtain ⟨rfl, rfl⟩ := Program.runs_pure.1 hrest
      exact .inl ⟨_, rfl, .refused hsettings hcomposed⟩
    · exact .inr ⟨text, rfl, .brokeSending hsettings hcomposed⟩

private theorem happens_of_integration {integration action : String} {data : Json}
    {ended : Outcome StepOutcome}
    (hsettings : step.settings = .ok (.integration integration action data))
    (hruns : (performIntegration ⟨integration, action, Template.renderJson view.text? data⟩).Runs
      exchanges ended) :
    (∃ done, ended = .returned done ∧ step.Happens now options view exchanges done .empty) ∨
    ∃ text, ended = .crashed text ∧
      step.Happens now options view exchanges
        (.failed (text.getD "step panicked") true) .empty := by
  obtain ⟨reply, rest, rfl, hrest⟩ | ⟨error, rest, rfl, hrest⟩ | ⟨text, rfl, rfl⟩ :=
    Program.runs_effect_caught_bind.1 hruns
  · obtain ⟨rfl, rfl⟩ := Program.runs_pure.1 hrest
    exact .inl ⟨_, rfl, .integrated hsettings⟩
  · obtain ⟨rfl, rfl⟩ := Program.runs_pure.1 hrest
    exact .inl ⟨_, rfl, .rejected hsettings⟩
  · exact .inr ⟨text, rfl, .brokeIntegrating hsettings⟩

private theorem happens_of_unwritten {p : Program StepOutcome}
    {ended : Outcome (StepOutcome × LeadPatch)}
    (hpart : ∀ ended, p.Runs exchanges ended →
      (∃ done, ended = .returned done ∧ step.Happens now options view exchanges done .empty) ∨
      ∃ text, ended = .crashed text ∧
      step.Happens now options view exchanges (.failed (text.getD "step panicked") true) .empty)
    (hruns : (p >>= fun done => pure (done, LeadPatch.empty)).Runs exchanges ended)
    (hsettled : settled ended = (outcome, patch)) :
    step.Happens now options view exchanges outcome patch := by
  obtain ⟨done, hp, rfl⟩ | ⟨error, hp, rfl⟩ | ⟨text, hp, rfl⟩ := Program.runs_bind_pure.1 hruns
  · obtain ⟨_, hended, hhappens⟩ | ⟨_, hended, -⟩ := hpart _ hp
    · cases hended
      cases hsettled
      exact hhappens
    · cases hended
  · obtain ⟨_, hended, -⟩ | ⟨_, hended, -⟩ := hpart _ hp <;> cases hended
  · obtain ⟨_, hended, -⟩ | ⟨_, hended, hhappens⟩ := hpart _ hp
    · cases hended
    · cases hended
      cases hsettled
      exact hhappens

/-- What a step comes to is one of the ways listed. -/
theorem happens_of_runs {ended : Outcome (StepOutcome × LeadPatch)}
    (hruns : (step.perform now options view).Runs exchanges ended)
    (hsettled : settled ended = (outcome, patch)) :
    step.Happens now options view exchanges outcome patch := by
  unfold perform at hruns
  split at hruns
  · next fault hsettings =>
    obtain ⟨rfl, rfl⟩ := Program.runs_pure.1 hruns
    cases hsettled
    exact .unreadable hsettings
  · next action hsettings => exact happens_of_action hsettings hruns hsettled
  · next conditions hsettings =>
    split at hruns
    · next hholds =>
      obtain ⟨rfl, rfl⟩ := Program.runs_pure.1 hruns
      cases hsettled
      exact .met hsettings hholds
    · next hfails =>
      obtain ⟨rfl, rfl⟩ := Program.runs_pure.1 hruns
      cases hsettled
      exact .unmet hsettings (Bool.eq_false_iff.2 hfails)
  · next minutes hsettings =>
    obtain ⟨rfl, rfl⟩ := Program.runs_pure.1 hruns
    cases hsettled
    obtain ⟨result, hdelay⟩ | ⟨error, hdelay⟩ := delayOutcome_cases now minutes
    · rw [hdelay]
      exact .delayed hsettings hdelay
    · rw [hdelay]
      exact .undelayed hsettings hdelay
  · next message subject recipients hsettings =>
    exact happens_of_unwritten (fun _ => happens_of_notification hsettings) hruns hsettled
  · next integration action data hsettings =>
    exact happens_of_unwritten (fun _ => happens_of_integration hsettings) hruns hsettled

end Step

end LeadAutomation
