import LeadAutomation.Proofs.Faults
import LeadAutomation.Proofs.Notification.Occasions
import LeadAutomation.Proofs.Trials

/-!
# What is sent

A dispatch comes to the occasions of all that takes part, a manual start to those of its workflow,
and a trial to those of a rehearsal, in which every system outside obliges. What a command hands to
a sender is what is sent on its occasions, and what a trial shows instead is what would be sent on
these.

Memos name none but addresses, and neither do the settings. So all that is sent can be delivered:
`Notification.sent_on_occasions`.
-/

namespace LeadAutomation

/-! ### Dispatches -/

def Participant.Reaches (options : Options) (payload : Json) (lead : Lead) :
    Participant → List Exchange → List Occasion → Prop
  | .rule r => r.Reaches options payload lead
  | .workflow w => w.Reaches options payload (some lead)

/-- `event.Reaches options participants lead exchanges occasions` says that `participants` that take
their turns, the first of them on `lead` and each other one on the lead that the one before it left,
reach `occasions` with the calls and replies in `exchanges`: all have their turns unless one cannot
end its own, and that is the last. -/
inductive Event.Reaches (options : Options) (event : Event) :
    List Participant → Lead → List Exchange → List Occasion → Prop
  | done {lead : Lead} : Reaches options event [] lead [] []
  | cut {participant : Participant} {rest : List Participant} {lead : Lead}
    {exchanges : List Exchange} {occasions : List Occasion}
      {ended : Outcome (Summary × Lead)}
        (reaches : participant.Reaches options event.payload lead exchanges occasions)
      (runs : (event.apply options lead participant).Runs exchanges ended) (unreturned : ∀ result,
        ended ≠ .returned result) :
      Reaches options event (participant :: rest) lead exchanges occasions
  | next {participant : Participant} {rest : List Participant} {lead left : Lead}
    {summary : Summary}
      {own others : List Exchange} {occasions later : List Occasion}
      (reaches : participant.Reaches options event.payload lead own occasions)
      (runs : (event.apply options lead participant).Runs own (.returned (summary, left)))
      (goesOn : Reaches options event rest left others later) :
      Reaches options event (participant :: rest) lead (own ++ others) (occasions ++ later)

theorem Participant.Reaches.handedOver_eq {options : Options} {payload : Json} {lead : Lead}
    {participant : Participant} {exchanges : List Exchange} {occasions : List Occasion}
    (h : participant.Reaches options payload lead exchanges occasions) :
    handedOver exchanges = occasions.filterMap (Occasion.sent? options.defaultRecipients) := by
  cases participant with
  | rule rule => exact Rule.Reaches.handedOver_eq h
  | workflow workflow => exact Workflow.Reaches.handedOver_eq h

namespace Event

variable {options : Options} {event : Event} {participants : List Participant} {lead : Lead}
  {exchanges : List Exchange}
  {occasions : List Occasion}

theorem Reaches.handedOver_eq (h : event.Reaches options participants lead exchanges occasions) :
    handedOver exchanges = occasions.filterMap (Occasion.sent? options.defaultRecipients) := by
  induction h with
  | done => rfl
  | cut reaches runs unreturned => exact reaches.handedOver_eq
  | next reaches runs goesOn ih =>
    rw [handedOver_append, reaches.handedOver_eq, ih, List.filterMap_append]

theorem exists_reaches_of_runs_apply {participant : Participant} {ended : Outcome (Summary × Lead)}
    (h : (event.apply options lead participant).Runs exchanges ended) :
    ∃ occasions, participant.Reaches options event.payload lead exchanges occasions := by
  cases participant with
  | rule rule => exact exists_reaches_of_runs_applyRule h
  | workflow workflow =>
    rw [apply, applyWorkflow] at h
    obtain ⟨own, after, outcome, rfl, hruns, hafter⟩ :=
        Program.exists_runs_of_bind_quiet h fun execution =>
      .bind (.store not_false) fun found => .bind (.orFail _ found) fun _ => .pure _
    obtain ⟨occasions, hreach⟩ := Workflow.exists_reaches_of_runs_launch hruns
    exact ⟨occasions, hreach.within isQuiet_nil hafter⟩

theorem exists_reaches_of_runs_applyAll {ended : Outcome (List Summary)}
    (h : (event.applyAll options participants lead).Runs exchanges ended) :
    ∃ occasions, event.Reaches options participants lead exchanges occasions := by
  induction participants generalizing lead exchanges ended with
  | nil =>
    obtain ⟨rfl, -⟩ := Program.runs_pure.1 h
    exact ⟨[], .done⟩
  | cons participant rest ih =>
    obtain ⟨⟨summary, left⟩, own, others, rfl, hown, hrest⟩ | ⟨error, hown, -⟩ | ⟨text, hown, -⟩ :=
      Program.runs_bind.1 h
    · obtain ⟨occasions, hreach⟩ := exists_reaches_of_runs_apply hown
      obtain ⟨_, hlater⟩ := Program.exists_runs_of_bind_pure hrest
      obtain ⟨later, hgoesOn⟩ := ih hlater
      exact ⟨_, .next hreach hown hgoesOn⟩
    · obtain ⟨occasions, hreach⟩ := exists_reaches_of_runs_apply hown
      exact ⟨occasions, .cut hreach hown (by rintro _ ⟨⟩)⟩
    · obtain ⟨occasions, hreach⟩ := exists_reaches_of_runs_apply hown
      exact ⟨occasions, .cut hreach hown (by rintro _ ⟨⟩)⟩

end Event

/-! ### Commands -/

namespace Workflow

/-- What a manual start asks the store for at first: the workflow, if it may run, and the lead, if
one is given. -/
def admission (workflowId : Uuid) (leadId : Option Uuid) : Program (Workflow × Option Lead) := do
  let workflow ← .orFail (.workflowNotFound workflowId) (← .store (.getWorkflow workflowId))
  if !workflow.active
    then .fail (.invalidDefinition ("workflow '" ++ workflow.name ++ "' is inactive"))
  else
    let lead ← match leadId with
      | some id => some <$> (do .orFail (.leadNotFound id) (← .store (.getLead id)))
      | none => pure none
    pure (workflow, lead)

theorem execute_eq (options : Options) (workflowId : Uuid) (leadId : Option Uuid)
    (triggerData : Json) :
    execute options workflowId leadId triggerData = admission workflowId leadId >>=
      fun (workflow, lead) =>
      workflow.launch options lead .manual triggerData := by
  unfold execute admission
  simp only [bind_assoc]
  congr 1
  funext found
  congr 1
  funext workflow
  split
  · rfl
  · cases leadId with
    | none => rfl
    | some id => simp only [bind_assoc, Program.pure_bind]

theorem admission_callsOnly (workflowId : Uuid) (leadId : Option Uuid) :
    (admission workflowId leadId).CallsOnly fun call => ¬ call.IsEffect := by
  refine .bind (.store not_false) fun found => .bind (.orFail _ found) fun workflow => ?_
  split
  · trivial
  · cases leadId with
    | none => exact .bind (.pure _) fun _ => .pure _
    | some leadId =>
      exact .bind (.map _ (.bind (.store not_false) fun found => .orFail _ found)) fun _ => .pure _

end Workflow

/-- `command.Reaches options exchanges occasions` says that a command that is carried out with the
calls and replies in `exchanges` reaches `occasions`. -/
inductive Command.Reaches (options : Options) : Command → List Exchange → List Occasion → Prop
  | undispatched {event : Event} {exchanges : List Exchange}
    {ended : Outcome (Lead × List Participant)}
      (opens : event.opening.Runs exchanges ended) (unreturned : ∀ opened,
        ended ≠ .returned opened) :
      Reaches options (.dispatch event) exchanges []
  | dispatched {event : Event} {before exchanges : List Exchange} {lead : Lead}
    {participants : List Participant}
      {occasions : List Occasion}
        (opens : event.opening.Runs before (.returned (lead, participants)))
      (reaches : event.Reaches options participants lead exchanges occasions) :
      Reaches options (.dispatch event) (before ++ exchanges) occasions
  | unadmitted {workflowId : Uuid} {leadId : Option Uuid} {triggerData : Json}
    {exchanges : List Exchange}
      {ended : Outcome (Workflow × Option Lead)}
        (admits : (Workflow.admission workflowId leadId).Runs exchanges ended)
      (unreturned : ∀ admitted, ended ≠ .returned admitted) :
      Reaches options (.execute workflowId leadId triggerData) exchanges []
  | executed {workflowId : Uuid} {leadId : Option Uuid} {triggerData : Json}
    {before exchanges : List Exchange}
      {workflow : Workflow} {lead : Option Lead} {occasions : List Occasion}
      (admits : (Workflow.admission workflowId leadId).Runs before (.returned (workflow, lead)))
      (reaches : workflow.Reaches options triggerData lead exchanges occasions) :
      Reaches options (.execute workflowId leadId triggerData) (before ++ exchanges) occasions

namespace Command

variable {options : Options} {command : Command} {exchanges : List Exchange}
  {occasions : List Occasion}

theorem Reaches.handedOver_eq (h : command.Reaches options exchanges occasions) :
    handedOver exchanges = occasions.filterMap (Occasion.sent? options.defaultRecipients) := by
  cases h with
  | @undispatched event _ _ opens =>
    exact IsQuiet.handedOver_eq_nil (event.opening_callsOnly.of_mem opens)
  | @dispatched event before _ _ _ _ opens reaches =>
    have hquiet : IsQuiet before := event.opening_callsOnly.of_mem opens
    rw [handedOver_append_of_isQuiet_left hquiet, reaches.handedOver_eq]
  | unadmitted admits =>
    exact IsQuiet.handedOver_eq_nil ((Workflow.admission_callsOnly _ _).of_mem admits)
  | @executed _ _ _ before _ _ _ _ admits reaches =>
    have hquiet : IsQuiet before := (Workflow.admission_callsOnly _ _).of_mem admits
    rw [handedOver_append_of_isQuiet_left hquiet, reaches.handedOver_eq]

theorem exists_reaches_of_runs {ended : Outcome Unit}
    (h : (command.program options).Runs exchanges ended) :
    ∃ occasions, command.Reaches options exchanges occasions := by
  cases command with
  | dispatch event =>
    obtain ⟨outcome, hruns⟩ : ∃ outcome, (event.dispatch options).Runs exchanges outcome :=
      Program.exists_runs_of_bind_pure h
    rw [Event.dispatch_eq] at hruns
    obtain ⟨⟨lead, participants⟩, before, others, rfl, hopens, hrest⟩ | ⟨error, hopens, -⟩ |
        ⟨text, hopens, -⟩ :=
      Program.runs_bind.1 hruns
    · obtain ⟨occasions, hreach⟩ := Event.exists_reaches_of_runs_applyAll hrest
      exact ⟨occasions, .dispatched hopens hreach⟩
    · exact ⟨[], .undispatched hopens (by rintro _ ⟨⟩)⟩
    · exact ⟨[], .undispatched hopens (by rintro _ ⟨⟩)⟩
  | execute workflowId leadId triggerData =>
    obtain ⟨outcome, hruns⟩ : ∃ outcome,
        (Workflow.execute options workflowId leadId triggerData).Runs exchanges outcome :=
      Program.exists_runs_of_bind_pure h
    rw [Workflow.execute_eq] at hruns
    obtain ⟨⟨workflow, lead⟩, before, others, rfl, hadmits, hrest⟩ | ⟨error, hadmits, -⟩ |
        ⟨text, hadmits, -⟩ :=
      Program.runs_bind.1 hruns
    · obtain ⟨occasions, hreach⟩ := Workflow.exists_reaches_of_runs_launch hrest
      exact ⟨occasions, .executed hadmits hreach⟩
    · exact ⟨[], .unadmitted hadmits (by rintro _ ⟨⟩)⟩
    · exact ⟨[], .unadmitted hadmits (by rintro _ ⟨⟩)⟩

end Command

/-! ### Trials -/

namespace Trial

/-- `trial.Reaches options exchanges occasions` says that a trial with the calls and replies in
`exchanges` reaches `occasions` in its rehearsal, in which every system outside obliges. -/
inductive Reaches (options : Options) : Trial → List Exchange → List Occasion → Prop
  | unanswered {trial : Trial} {exchanges : List Exchange} {error : AutomationError}
      (runs : (trial.program options).Runs exchanges (.failed error)) :
        Reaches options trial exchanges []
  | rule {ruleId : Uuid} {lead : Lead} {stored : Rule} {now : Timestamp}
      {exchanges real : List Exchange} {occasions : List Occasion}
      (read : ⟨.store (.getRule ruleId), .ok (some stored)⟩ ∈ exchanges)
      (acts : ActionsReach now options.defaultRecipients .null
        (Rule.tryOn { stored with active := true } (RecordView.lookup ⟨some lead, .null⟩)
          options.emptyRulePolicy).actions
        (some lead) real occasions)
      (obliging : ∀ exchange ∈ real, exchange.IsObliging) :
      Reaches options (.rule ruleId lead) exchanges occasions
  | workflow {workflowId : Uuid} {lead final : Option Lead} {triggerData : Json} {stored : Workflow}
      {exchanges : List Exchange} {turns : List (Turn options)}
      (read : ⟨.store (.getWorkflow workflowId), .ok (some stored)⟩ ∈ exchanges)
      (course : Course options triggerData stored.stepsInOrder lead turns final)
      (obliging : ∀ exchange ∈ turns.flatMap Turn.calls, exchange.IsObliging) :
      Reaches options (.workflow workflowId lead triggerData) exchanges
        (turns.filterMap Turn.occasion?)

def Answer.intents : Answer → Intents
  | rule test => test.intents
  | workflow preview => preview.intents

/-- The notifications that a trial shows, if it is answered. -/
def intended : Outcome Answer → List Notification
  | .returned answer => answer.intents.notifications
  | .failed _ | .crashed _ => []

variable {σ : Type} (answer : (call : Call) → σ → call.Reply × σ) (options : Options) (s : σ)

theorem isQuiet_transcript (trial : Trial) :
    IsQuiet ((trial.program options).transcript answer s) := by
  intro exchange hmem
  obtain hcall | hcall :=
    (program_callsOnly options trial).of_mem (Program.runs_transcript answer _ s) exchange hmem
  · rw [hcall]
    exact not_false
  · rw [hcall]
    exact not_false

variable {answer options s} in
theorem exists_reaches_of_failed {trial : Trial} {error : AutomationError}
    (hfailed : ((trial.program options).run answer s).1 = .failed error) :
    ∃ occasions, trial.Reaches options ((trial.program options).transcript answer s) occasions ∧
      intended ((trial.program options).run answer s).1 =
        occasions.filterMap (Occasion.sent? options.defaultRecipients) := by
  have hruns := Program.runs_transcript answer (trial.program options) s
  rw [hfailed] at hruns ⊢
  exact ⟨[], .unanswered hruns, rfl⟩

/-- A test of a rule reaches what its actions reach in a rehearsal, and shows what would be sent. -/
theorem exists_reaches_rule (ruleId : Uuid) (lead : Lead) :
    let trial := Trial.rule ruleId lead
    ∃ occasions, trial.Reaches options ((trial.program options).transcript answer s) occasions ∧
      intended ((trial.program options).run answer s).1 =
        occasions.filterMap (Occasion.sent? options.defaultRecipients) := by
  intro trial
  cases hreply : (answer (.store (.getRule ruleId)) s).1 with
  | error error =>
    apply exists_reaches_of_failed
    rw [program, Program.run_map, Rule.test, Program.run_store_bind_error hreply]
    rfl
  | ok found =>
    cases found with
    | none =>
      apply exists_reaches_of_failed
      rw [program, Program.run_map, Rule.test, Program.run_store_bind_ok hreply]
      rfl
    | some stored =>
      obtain ⟨now, calls, applied, final, s', hcarried, hobliging, htest⟩ :=
        Rule.exists_run_test_of_reply options lead hreply
      obtain ⟨occasions, hacts⟩ := hcarried.exists_actionsReach
      have hread : ⟨.store (.getRule ruleId), .ok (some stored)⟩ ∈
          (trial.program options).transcript answer s := by
        rw [← hreply]
        exact List.mem_cons_self
      refine ⟨occasions, .rule hread hacts hobliging, ?_⟩
      rw [program, Program.run_map, htest, ← hacts.handedOver_eq]
      exact Intents.notifications_of calls

theorem exists_reaches_workflow (workflowId : Uuid) (lead : Option Lead) (triggerData : Json) :
    let trial := Trial.workflow workflowId lead triggerData
    ∃ occasions, trial.Reaches options ((trial.program options).transcript answer s) occasions ∧
      intended ((trial.program options).run answer s).1 =
        occasions.filterMap (Occasion.sent? options.defaultRecipients) := by
  intro trial
  cases hreply : (answer (.store (.getWorkflow workflowId)) s).1 with
  | error error =>
    apply exists_reaches_of_failed
    rw [program, Program.run_map, Workflow.preview, Program.run_store_bind_error hreply]
    rfl
  | ok found =>
    cases found with
    | none =>
      apply exists_reaches_of_failed
      rw [program, Program.run_map, Workflow.preview, Program.run_store_bind_ok hreply]
      rfl
    | some stored =>
      obtain ⟨fresh, real, ended, report, s', hruns, hobliging, hpreview⟩ :=
        Workflow.exists_run_preview_of_reply options triggerData lead hreply
      obtain ⟨turns, final, stamped, hcourse, rfl, -⟩ :=
        Workflow.exists_course_of_runs_run rfl hruns
      have hread : ⟨.store (.getWorkflow workflowId), .ok (some stored)⟩ ∈
          (trial.program options).transcript answer s := by
        rw [← hreply]
        exact List.mem_cons_self
      refine ⟨_, .workflow hread hcourse (List.forall_mem_append.1 hobliging).1, ?_⟩
      rw [program, Program.run_map, hpreview, ← Turn.handedOver_flatMap_calls]
      refine (Intents.notifications_of _).trans ?_
      rw [handedOver_append_of_isQuiet (isQuiet_stamp stamped)]

end Trial

/-! ### Deliveries -/

namespace Notification

/-- There is something to read, and there are those who can receive it. -/
structure IsDeliverable (notification : Notification) : Prop where
  readable : Text.isBlankText notification.message = false
  addressed : notification.recipients ≠ []
  addresses : ∀ recipient ∈ notification.recipients, IsAddress recipient

end Notification

theorem Memo.isDeliverable_notification {memo : Memo} {defaults : List String} {view : RecordView}
    (hdefaults : ∀ recipient ∈ defaults, Notification.IsAddress recipient)
    (hqualifies : memo.Qualifies defaults view) :
    (memo.notification defaults view).IsDeliverable :=
  ⟨hqualifies.1, hqualifies.2, memo.isAddress_of_mem_recipients hdefaults⟩

theorem Occasion.sent?_eq_some_iff {occasion : Occasion} {defaults : List String}
    {notification : Notification} :
    occasion.sent? defaults = some notification ↔
      occasion.memo.Qualifies defaults occasion.view ∧
      occasion.memo.notification defaults occasion.view = notification := by
  rw [sent?, Option.ite_none_right_eq_some, Option.some_inj]

/-- **What is sent is what the occasions ask for**: a command hands to senders, and a trial shows,
one notification for each occasion that is reached with a memo that qualifies, in their order, and
no other. With recipients from the settings, each of them can be delivered, says what its memo says
of the record, and goes to those whom its memo names or else to the default recipients. -/
theorem Notification.sent_on_occasions {lookup : String → Option String} {settings : Settings}
    {options : Options} (hread : Settings.read lookup = .ok settings)
    (hdefaults : options.defaultRecipients = settings.options.defaultRecipients) {σ : Type}
    (answer : (call : Call) → σ → call.Reply × σ) (s : σ) :
    (∀ command : Command,
      let exchanges := (command.program options).transcript answer s
      ∃ occasions, command.Reaches options exchanges occasions ∧
        handedOver exchanges = occasions.filterMap (Occasion.sent? options.defaultRecipients)) ∧
    (∀ trial : Trial,
      let exchanges := (trial.program options).transcript answer s
      handedOver exchanges = [] ∧
      ∃ occasions, trial.Reaches options exchanges occasions ∧
        Trial.intended ((trial.program options).run answer s).1 =
          occasions.filterMap (Occasion.sent? options.defaultRecipients)) ∧
    ∀ occasion notification, Occasion.sent? options.defaultRecipients occasion = some notification →
      notification.IsDeliverable ∧
      notification.message = Template.render occasion.view.text? occasion.memo.message ∧
      notification.recipients =
        if occasion.memo.named = [] then settings.options.defaultRecipients
        else occasion.memo.named := by
  refine ⟨fun command => ?_,
    fun trial => ⟨(Trial.isQuiet_transcript answer options s trial).handedOver_eq_nil, ?_⟩, ?_⟩
  · obtain ⟨occasions, hreach⟩ :=
      Command.exists_reaches_of_runs (Program.runs_transcript answer (command.program options) s)
    exact ⟨occasions, hreach, hreach.handedOver_eq⟩
  · cases trial with
    | rule ruleId lead => exact Trial.exists_reaches_rule answer options s ruleId lead
    | workflow workflowId lead triggerData =>
      exact Trial.exists_reaches_workflow answer options s workflowId lead triggerData
  · intro occasion notification hsent
    obtain ⟨hqualifies, rfl⟩ := Occasion.sent?_eq_some_iff.1 hsent
    have haddresses : ∀ recipient ∈ options.defaultRecipients, IsAddress recipient := by
      rw [hdefaults]
      exact Settings.isAddress_of_mem_defaultRecipients hread
    refine ⟨Memo.isDeliverable_notification haddresses hqualifies, rfl, ?_⟩
    rw [← hdefaults]
    rfl

/-- Settings with two default recipients. -/
def teamSettings (setting : String) : Option String :=
  if setting = "AUTOMATION_DEFAULT_RECIPIENTS" then some " ops ,, sales" else none

/-- What is chosen according to these settings. -/
def teamOptions : Options := { defaultRecipients := ["ops", "sales"] }

/-- A rule with three things to say, of which the first is blank for a lead without an address and
the second is meant for no one in particular. -/
def tellTeam : Rule :=
  { Rule.blank Program.stillFresh "tell the team" .assignment 0 with
    actions := [.notify "{{email}}" ["sales"], .notify "{{status}} lead" [" , "],
      .notify "Score {{score}}" ["ann, bob"]] }

/-- The rule and a lead without an address. -/
def teamStore : Store where
  leads := [.blank Program.stillFresh]
  rules := [tellTeam]

/-- The event that the lead has been scored. -/
def teamEvent : Event := .leadScored .epoch (Lead.blank Program.stillFresh).id 0 0

/-- The blank message is not sent, and the others go to their recipients or to the default ones. -/
theorem Notification.sent_on_occasions_tellTeam :
    let program := (Command.dispatch teamEvent).program teamOptions
    let exchanges := program.transcript Host.still.answer teamStore
    ∃ settings occasions, Settings.read teamSettings = .ok settings ∧
      teamOptions.defaultRecipients = settings.options.defaultRecipients ∧
      (Command.dispatch teamEvent).Reaches teamOptions exchanges occasions ∧
      handedOver exchanges = occasions.filterMap (Occasion.sent? teamOptions.defaultRecipients) ∧
      (handedOver exchanges).map
        (fun notification => (notification.message, notification.recipients)) =
        [("RAW lead", ["ops", "sales"]), ("Score 0", ["ann", "bob"])] := by
  intro program exchanges
  obtain ⟨settings, hread⟩ : ∃ settings, Settings.read teamSettings = .ok settings :=
    Settings.exists_read rfl rfl
  have hdefaults : teamOptions.defaultRecipients = settings.options.defaultRecipients := by
    rw [Settings.defaultRecipients_of_read hread]
    decide +kernel
  obtain ⟨occasions, hreach, hsent⟩ :=
    (sent_on_occasions hread hdefaults Host.still.answer teamStore).1 (.dispatch teamEvent)
  exact ⟨settings, occasions, hread, hdefaults, hreach, hsent, by decide +kernel⟩

end LeadAutomation
