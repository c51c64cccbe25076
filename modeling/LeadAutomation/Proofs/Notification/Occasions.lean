import LeadAutomation.Proofs.Action.Carried
import LeadAutomation.Proofs.Dispatch
import LeadAutomation.Proofs.Notification.Memos
import LeadAutomation.Proofs.Rehearsals

/-!
# Occasions to notify

A run comes to an occasion wherever it reaches an action or a step that has something to say, with
the record as it is by then. What is reached depends on much else: on what matches, on what earlier
actions write, on conditions, failures and breakdowns. `ActionsReach`, `Rule.Reaches` and
`Workflow.Reaches` say it piece by piece, each beside the calls that the piece makes, and every run
reaches something in their sense.

What is handed to a sender follows from the occasions alone: each memo that qualifies is sent once,
in its place, and nothing else is sent, whatever comes of the sending.
-/

namespace LeadAutomation

/-! ### What is handed over -/

/-- The notification that a call hands to a sender. -/
def Call.notification? : Call → Option Notification
  | .effect (.notify notification) => some notification
  | .effect (.integrate _) | .effect (.enrich _) | .store _ | .stamp => none

/-- The notifications that are handed to a sender, in order. -/
def handedOver (exchanges : List Exchange) : List Notification :=
  exchanges.filterMap fun exchange => exchange.call.notification?

/-- No call goes to a system outside. -/
def IsQuiet (exchanges : List Exchange) : Prop := ∀ exchange ∈ exchanges, ¬ exchange.call.IsEffect

@[simp]
theorem handedOver_append (exchanges others : List Exchange) :
    handedOver (exchanges ++ others) = handedOver exchanges ++ handedOver others :=
  List.filterMap_append

theorem IsQuiet.handedOver_eq_nil {exchanges : List Exchange} (h : IsQuiet exchanges) :
    handedOver exchanges = [] := by
  refine List.filterMap_eq_nil_iff.2 fun exchange hmem => ?_
  have hquiet := h exchange hmem
  obtain ⟨call | call | _, reply⟩ := exchange
  · rfl
  · exact absurd trivial hquiet
  · rfl

theorem handedOver_append_of_isQuiet {exchanges others : List Exchange} (h : IsQuiet others) :
    handedOver (exchanges ++ others) = handedOver exchanges := by
  rw [handedOver_append, h.handedOver_eq_nil, List.append_nil]

theorem handedOver_append_of_isQuiet_left {exchanges others : List Exchange}
    (h : IsQuiet exchanges) :
    handedOver (exchanges ++ others) = handedOver others := by
  rw [handedOver_append, h.handedOver_eq_nil, List.nil_append]

theorem isQuiet_nil : IsQuiet [] := List.forall_mem_nil _

theorem isQuiet_stamp (fresh : Fresh) : IsQuiet [⟨.stamp, fresh⟩] := List.forall_mem_singleton.2 id

theorem IsQuiet.append {exchanges others : List Exchange} (h : IsQuiet exchanges)
    (hothers : IsQuiet others) :
    IsQuiet (exchanges ++ others) :=
  List.forall_mem_append.2 ⟨h, hothers⟩

theorem Intents.notifications_of (exchanges : List Exchange) :
    (Intents.of (exchanges.filterMap Exchange.asked?)).notifications = handedOver exchanges := by
  have hadded (intents : Intents) :
    ((exchanges.filterMap Exchange.asked?).foldl add intents).notifications =
      intents.notifications ++ handedOver exchanges := by
    induction exchanges generalizing intents with
    | nil => exact (List.append_nil _).symm
    | cons exchange rest ih =>
      obtain ⟨call | (notification | call | request) | _, reply⟩ := exchange
      · exact ih intents
      · exact (ih (intents.add (.notify notification))).trans (List.append_assoc _ [notification] _)
      · exact ih (intents.add (.integrate call))
      · exact ih (intents.add (.enrich request))
      · exact ih intents
  exact (hadded {}).trans (List.nil_append _)

/-- Where a call to a system outside is followed by computing alone, what is handed over is what the
call hands over. -/
theorem handedOver_of_runs_effect {β : Type} {call : EffectCall}
    {f : Except AutomationError call.Result → Program β} {exchanges : List Exchange}
    {ended : Outcome β} (hf : ∀ reply, ∃ b, f reply = pure b)
    (h : ((Program.effect call).caught >>= f).Runs exchanges ended) :
    handedOver exchanges = (Call.effect call).notification?.toList := by
  have hlast {reply : Except AutomationError call.Result} {rest : List Exchange}
      (hrest : (f reply).Runs rest ended) : rest = [] := by
    obtain ⟨b, hb⟩ := hf reply
    rw [hb] at hrest
    exact (Program.runs_pure.1 hrest).1
  have hone (reply : (Call.effect call).Reply) :
      handedOver [⟨.effect call, reply⟩] = (Call.effect call).notification?.toList := by
    cases call <;> rfl
  obtain ⟨result, rest, rfl, hrest⟩ | ⟨error, rest, rfl, hrest⟩ | ⟨text, rfl, -⟩ :=
    Program.runs_effect_caught_bind.1 h
  · rw [hlast hrest, hone]
  · rw [hlast hrest, hone]
  · exact hone _

theorem Program.exists_runs_of_bind_quiet {α β : Type} {p : Program α} {f : α → Program β}
    {exchanges : List Exchange} {ended : Outcome β} (h : (p >>= f).Runs exchanges ended)
    (hf : ∀ a, (f a).CallsOnly fun call => ¬ call.IsEffect) :
    ∃ own after outcome, exchanges = own ++ after ∧ p.Runs own outcome ∧ IsQuiet after := by
  obtain ⟨a, own, after, rfl, hp, hrest⟩ | ⟨error, hp, -⟩ | ⟨text, hp, -⟩ := runs_bind.1 h
  · exact ⟨own, after, _, rfl, hp, (hf a).of_mem hrest⟩
  · exact ⟨exchanges, [], _, (List.append_nil _).symm, hp, isQuiet_nil⟩
  · exact ⟨exchanges, [], _, (List.append_nil _).symm, hp, isQuiet_nil⟩

/-! ### Occasions -/

/-- A memo that a run comes to, with the record as it is by then. -/
structure Occasion where
  memo : Memo
  view : RecordView

/-- What is sent on an occasion, if the memo qualifies. -/
def Occasion.sent? (defaults : List String) (occasion : Occasion) : Option Notification :=
  if occasion.memo.Qualifies defaults occasion.view
    then some (occasion.memo.notification defaults occasion.view) else none

theorem Occasion.filterMap_toList (defaults : List String) (reached : Option Occasion) :
    reached.toList.filterMap (sent? defaults) = (reached.bind (sent? defaults)).toList := by
  cases reached with
  | none => rfl
  | some occasion => cases hsent : occasion.sent? defaults <;> simp [hsent]

def Action.occasion? (action : Action) (view : RecordView) : Option Occasion :=
  action.memo?.map fun memo => ⟨memo, view⟩

def Step.occasion? (step : Step) (view : RecordView) : Option Occasion :=
  step.memo?.map fun memo => ⟨memo, view⟩

def Turn.occasion? {options : Options} (turn : Turn options) : Option Occasion :=
  turn.step.occasion? turn.view

def ActionPlan.notification? : ActionPlan → Option Notification
  | .notify notification => some notification
  | .write _ | .enrich _ | .fault _ => none

/-- To carry out a plan hands over its notification, whatever comes of it. -/
theorem ActionPlan.handedOver_of_runs_carryOut {plan : ActionPlan} {action : Action}
    {exchanges : List Exchange} {ended : Outcome ActionOutcome}
    (h : (plan.carryOut action).Runs exchanges ended) :
    handedOver exchanges = plan.notification?.toList := by
  cases plan with
  | write planned =>
    obtain ⟨rfl, -⟩ := Program.runs_pure.1 h
    rfl
  | fault reason =>
    obtain ⟨rfl, -⟩ := Program.runs_pure.1 h
    rfl
  | notify notification =>
    exact handedOver_of_runs_effect (by rintro (error | ⟨⟩) <;> exact ⟨_, rfl⟩) h
  | enrich request => exact handedOver_of_runs_effect (by rintro (error | ⟨⟩) <;> exact ⟨_, rfl⟩) h

theorem Action.notification?_plan (action : Action) (view : RecordView) (defaults : List String) :
    (action.plan view defaults).notification? =
      (action.occasion? view).bind (Occasion.sent? defaults) := by
  have hwrite (deed : String) (planned : Except ActionFault PlannedWrite) :
      (planWrite view.lead deed planned).notification? = none := by
    unfold planWrite
    split <;> rfl
  unfold occasion? memo? plan
  cases action.kind with
  | other text unknown => rfl
  | known kind =>
    cases kind with
    | assignment => exact hwrite _ _
    | scoring => exact hwrite _ _
    | statusChange => exact hwrite _ _
    | enrichment =>
      cases view.lead <;> rfl
    | notification =>
      rw [if_pos rfl, Option.map_some, Option.bind_some, Occasion.sent?, ← Memo.compose_toOption]
      cases hplan : action.planNotification view defaults with
      | ok notification => rw [planNotification] at hplan; rw [hplan]; rfl
      | error reason => rw [planNotification] at hplan; rw [hplan]; rfl

theorem Action.handedOver_of_runs {action : Action} {view : RecordView} {defaults : List String}
    {exchanges : List Exchange} {ended : Outcome ActionOutcome}
    (h : ((action.plan view defaults).carryOut action).Runs exchanges ended) :
    handedOver exchanges = (action.occasion? view).toList.filterMap (Occasion.sent? defaults) := by
  rw [ActionPlan.handedOver_of_runs_carryOut h, notification?_plan, Occasion.filterMap_toList]

theorem Step.handedOver_of_runs_performNotification
    {composed : Except Notification.Unsendable Notification} {exchanges : List Exchange}
    {ended : Outcome StepOutcome} (h : (performNotification composed).Runs exchanges ended) :
    handedOver exchanges = composed.toOption.toList := by
  cases composed with
  | error reason =>
    obtain ⟨rfl, -⟩ := Program.runs_pure.1 h
    rfl
  | ok notification => exact handedOver_of_runs_effect (by rintro (error | ⟨⟩) <;> exact ⟨_, rfl⟩) h

theorem Step.handedOver_of_runs_performIntegration {call : IntegrationCall}
    {exchanges : List Exchange} {ended : Outcome StepOutcome}
    (h : (performIntegration call).Runs exchanges ended) : handedOver exchanges = [] :=
  handedOver_of_runs_effect (by rintro (error | reply) <;> exact ⟨_, rfl⟩) h

/-- To carry out a step hands over what is sent on its occasion, whatever comes of it. -/
theorem Step.handedOver_of_runs {step : Step} {now : Timestamp} {options : Options}
    {view : RecordView} {exchanges : List Exchange} {ended : Outcome (StepOutcome × LeadPatch)}
    (h : (step.perform now options view).Runs exchanges ended) :
    handedOver exchanges =
      (step.occasion? view).toList.filterMap (Occasion.sent? options.defaultRecipients) := by
  have hnone (hpure : ∃ a : StepOutcome × LeadPatch, (pure a : Program _).Runs exchanges ended) :
      handedOver exchanges = [] := by
    obtain ⟨a, hruns⟩ := hpure
    obtain ⟨rfl, -⟩ := Program.runs_pure.1 hruns
    rfl
  unfold perform at h
  unfold occasion? memo?
  split at h
  · next fault hsettings =>
    rw [hsettings]
    exact hnone ⟨_, h⟩
  · next action hsettings =>
    rw [hsettings]
    obtain ⟨own, after, outcome, rfl, hruns, hquiet⟩ :=
        Program.exists_runs_of_bind_quiet h fun outcome => by
      split <;> exact .pure _
    rw [handedOver_append_of_isQuiet hquiet]
    exact Action.handedOver_of_runs hruns
  · next conditions hsettings =>
    rw [hsettings]
    split at h <;> exact hnone ⟨_, h⟩
  · next minutes hsettings =>
    rw [hsettings]
    exact hnone ⟨_, h⟩
  · next message subject named hsettings =>
    rw [hsettings]
    obtain rfl := recipients_of_settings hsettings
    let memo : Memo :=
      ⟨message, subject, StepSettings.recipients step.config,
        fun _ => StepSettings.isAddress_of_mem_recipients⟩
    obtain ⟨own, after, outcome, rfl, hruns, hquiet⟩ :=
      Program.exists_runs_of_bind_quiet h fun _ => .pure _
    rw [handedOver_append_of_isQuiet hquiet, handedOver_of_runs_performNotification hruns,
      Occasion.filterMap_toList]
    exact congrArg Option.toList (memo.compose_toOption options.defaultRecipients view)
  · next integration action data hsettings =>
    rw [hsettings]
    obtain ⟨own, after, outcome, rfl, hruns, hquiet⟩ :=
      Program.exists_runs_of_bind_quiet h fun _ => .pure _
    rw [handedOver_append_of_isQuiet hquiet]
    exact handedOver_of_runs_performIntegration hruns

theorem Turn.handedOver_calls {options : Options} (turn : Turn options) :
    handedOver turn.calls =
      turn.occasion?.toList.filterMap (Occasion.sent? options.defaultRecipients) := by
  obtain ⟨ended, hruns, -⟩ := turn.performed
  change handedOver turn.exchanges = _
  exact Step.handedOver_of_runs hruns

/-! ### Actions in sequence -/

/-- `ActionsReach now defaults payload actions lead exchanges occasions` says that `actions`,
carried out on `lead` one after another with the calls and replies in `exchanges`, reach
`occasions`: all of them are reached unless one breaks down, and that is the last. -/
inductive ActionsReach (now : Timestamp) (defaults : List String) (payload : Json) :
    List Action → Option Lead → List Exchange → List Occasion → Prop
  | done {lead : Option Lead} : ActionsReach now defaults payload [] lead [] []
  | broken {action : Action} {rest : List Action} {lead : Option Lead} {exchanges : List Exchange}
    {text : Option String}
      (breaks : ((action.plan ⟨lead, payload⟩ defaults).carryOut action).Runs exchanges
        (.crashed text)) :
      ActionsReach now defaults payload (action :: rest) lead exchanges
        (action.occasion? ⟨lead, payload⟩).toList
  | next {action : Action} {rest : List Action} {lead : Option Lead} {own others : List Exchange}
    {outcome : ActionOutcome}
      {later : List Occasion}
        (carries : ((action.plan ⟨lead, payload⟩ defaults).carryOut action).Runs own
          (.returned outcome))
      (goesOn : ActionsReach now defaults payload rest
        (lead.map ((action.plan ⟨lead, payload⟩ defaults).patch.applyTo now)) others later) :
      ActionsReach now defaults payload (action :: rest) lead (own ++ others)
        ((action.occasion? ⟨lead, payload⟩).toList ++ later)

section

variable {now : Timestamp} {defaults : List String} {payload : Json} {actions : List Action}
  {lead final : Option Lead}
  {exchanges : List Exchange} {occasions : List Occasion}

theorem ActionsReach.handedOver_eq
    (h : ActionsReach now defaults payload actions lead exchanges occasions) :
    handedOver exchanges = occasions.filterMap (Occasion.sent? defaults) := by
  induction h with
  | done => rfl
  | broken breaks => exact Action.handedOver_of_runs breaks
  | next carries goesOn ih =>
    rw [handedOver_append, Action.handedOver_of_runs carries, ih, List.filterMap_append]

theorem exists_actionsReach {ended : Outcome (AppliedActions × Option Lead)}
    (h : (applyActions now defaults payload actions lead).Runs exchanges ended) :
    ∃ occasions, ActionsReach now defaults payload actions lead exchanges occasions := by
  induction actions generalizing lead exchanges ended with
  | nil =>
    obtain ⟨rfl, -⟩ := Program.runs_pure.1 h
    exact ⟨[], .done⟩
  | cons action rest ih =>
    obtain ⟨outcome, own, others, rfl, hown, hrest⟩ | ⟨error, hown, -⟩ | ⟨text, hown, -⟩ :=
      Program.runs_bind.1 h
    · obtain ⟨_, hlater⟩ := Program.exists_runs_of_bind_pure hrest
      obtain ⟨later, hreach⟩ := ih hlater
      exact ⟨_, .next hown hreach⟩
    · cases ActionPlan.ends_of_runs_carryOut hown
    · exact ⟨_, .broken hown⟩

theorem CarriedOut.exists_actionsReach {applied : AppliedActions}
    (h : CarriedOut now defaults payload actions lead exchanges applied final) :
    ∃ occasions, ActionsReach now defaults payload actions lead exchanges occasions := by
  induction h with
  | done => exact ⟨[], .done⟩
  | next carries goesOn ih =>
    obtain ⟨later, hreach⟩ := ih
    exact ⟨_, .next carries hreach⟩

end

/-! ### Rules and workflows -/

/-- `rule.Reaches options payload lead exchanges occasions` says that a rule that is tried on
`lead`, with the calls and replies in `exchanges`, reaches `occasions`: those of its actions, if it
matches. -/
inductive Rule.Reaches (options : Options) (payload : Json) (lead : Lead) (rule : Rule) :
    List Exchange → List Occasion → Prop
  | unmatched
    (misses : ¬ (rule.tryOn (RecordView.lookup ⟨some lead, payload⟩)
      options.emptyRulePolicy).matched = true) :
      Reaches options payload lead rule [] []
  | matched {fresh : Fresh} {own after : List Exchange} {occasions : List Occasion}
      (hits : (rule.tryOn (RecordView.lookup ⟨some lead, payload⟩)
        options.emptyRulePolicy).matched = true)
      (acts : ActionsReach fresh.now options.defaultRecipients payload
        (rule.tryOn (RecordView.lookup ⟨some lead, payload⟩) options.emptyRulePolicy).actions
          (some lead) own occasions)
      (quietAfter : IsQuiet after) :
      Reaches options payload lead rule (⟨.stamp, fresh⟩ :: (own ++ after)) occasions

/-- `workflow.Reaches options payload lead exchanges occasions` says that a workflow that is set off
for `lead`, with the calls and replies in `exchanges`, reaches `occasions`: those of the steps that
it carries out, unless its record could not be stored. -/
inductive Workflow.Reaches (options : Options) (payload : Json) (lead : Option Lead)
    (workflow : Workflow) :
    List Exchange → List Occasion → Prop
  | unstarted {exchanges : List Exchange} {record : Execution} {error : AutomationError}
    (quiet : IsQuiet exchanges)
      (refused : ⟨.store (.createExecution record), .error error⟩ ∈ exchanges) :
      Reaches options payload lead workflow exchanges []
  | started {before after : List Exchange} {turns : List (Turn options)} {final : Option Lead}
      (course : Course options payload workflow.stepsInOrder lead turns final)
        (quietBefore : IsQuiet before)
      (quietAfter : IsQuiet after) :
      Reaches options payload lead workflow (before ++ turns.flatMap Turn.calls ++ after)
        (turns.filterMap Turn.occasion?)

theorem Rule.Reaches.handedOver_eq {options : Options} {payload : Json} {lead : Lead} {rule : Rule}
    {exchanges : List Exchange} {occasions : List Occasion}
    (h : rule.Reaches options payload lead exchanges occasions) :
    handedOver exchanges = occasions.filterMap (Occasion.sent? options.defaultRecipients) := by
  cases h with
  | unmatched misses => rfl
  | @matched fresh own after _ hits acts quietAfter =>
    change handedOver (own ++ after) = _
    rw [handedOver_append_of_isQuiet quietAfter, acts.handedOver_eq]

theorem Turn.handedOver_flatMap_calls {options : Options} (turns : List (Turn options)) :
    handedOver (turns.flatMap calls) =
      (turns.filterMap occasion?).filterMap (Occasion.sent? options.defaultRecipients) := by
  induction turns with
  | nil => rfl
  | cons turn rest ih =>
    rw [List.flatMap_cons, handedOver_append, handedOver_calls, ih, ← List.filterMap_append]
    cases hoccasion : turn.occasion? <;> simp [hoccasion]

theorem Workflow.Reaches.handedOver_eq {options : Options} {payload : Json} {lead : Option Lead}
    {workflow : Workflow} {exchanges : List Exchange} {occasions : List Occasion}
    (h : workflow.Reaches options payload lead exchanges occasions) :
    handedOver exchanges = occasions.filterMap (Occasion.sent? options.defaultRecipients) := by
  cases h with
  | unstarted quiet refused => exact quiet.handedOver_eq_nil
  | started course quietBefore quietAfter =>
    rw [handedOver_append_of_isQuiet quietAfter, handedOver_append_of_isQuiet_left quietBefore,
      Turn.handedOver_flatMap_calls]

theorem Event.exists_reaches_of_runs_applyRule {options : Options} {payload : Json} {rule : Rule}
    {lead : Lead} {exchanges : List Exchange} {ended : Outcome (Summary × Lead)}
    (h : (applyRule options payload rule lead).Runs exchanges ended) :
    ∃ occasions, rule.Reaches options payload lead exchanges occasions := by
  unfold applyRule at h
  dsimp only at h
  split at h
  · next hits =>
    obtain ⟨fresh, rest, rfl, hacts⟩ := Program.runs_stamp_bind.1 h
    obtain ⟨own, after, outcome, rfl, hruns, hafter⟩ :=
        Program.exists_runs_of_bind_quiet hacts fun acted =>
      .bind (storeWrites_callsOnly (fun _ => id) (fun _ _ => id) _ _) fun _ => .pure _
    obtain ⟨occasions, hreach⟩ := exists_actionsReach hruns
    exact ⟨occasions, .matched hits hreach hafter⟩
  · next misses =>
    obtain ⟨rfl, -⟩ := Program.runs_pure.1 h
    exact ⟨[], .unmatched misses⟩

namespace Workflow

variable {options : Options} {payload : Json} {lead : Option Lead} {workflow : Workflow}
  {exchanges before after : List Exchange}
  {occasions : List Occasion}

theorem Reaches.within (h : workflow.Reaches options payload lead exchanges occasions)
    (hbefore : IsQuiet before) (hafter : IsQuiet after) :
    workflow.Reaches options payload lead (before ++ exchanges ++ after) occasions := by
  cases h with
  | unstarted quiet refused =>
    exact .unstarted ((hbefore.append quiet).append hafter)
      (List.mem_append_left _ (List.mem_append_right _ refused))
  | @started first last turns final course quietBefore quietAfter =>
    have hsame : before ++ (first ++ turns.flatMap Turn.calls ++ last) ++ after =
        (before ++ first) ++ turns.flatMap Turn.calls ++ (last ++ after) := by
      simp only [List.append_assoc]
    rw [hsame]
    exact .started course (hbefore.append quietBefore) (quietAfter.append hafter)

theorem exists_reaches_of_runs_run {record : Execution} {ended : Outcome (Execution × RunReport)}
    (hrunning : record.status = .running)
    (h : (workflow.run options record lead).Runs exchanges ended) :
    ∃ occasions, workflow.Reaches options record.triggerData lead exchanges occasions := by
  obtain ⟨turns, final, fresh, hcourse, rfl, -⟩ := exists_course_of_runs_run hrunning h
  have hreach :
    workflow.Reaches options record.triggerData lead
      ([] ++ turns.flatMap Turn.calls ++ [⟨.stamp, fresh⟩])
      (turns.filterMap Turn.occasion?) := .started hcourse isQuiet_nil (isQuiet_stamp fresh)
  exact ⟨_, hreach⟩

theorem exists_reaches_of_runs_launch {event : EventKind} {ended : Outcome Execution}
    (h : (workflow.launch options lead event payload).Runs exchanges ended) :
    ∃ occasions, workflow.Reaches options payload lead exchanges occasions := by
  rw [launch_eq] at h
  obtain ⟨fresh, _, rfl, hcreates⟩ := Program.runs_stamp_bind.1 h
  obtain ⟨reply, rest, rfl, hrest⟩ := Program.runs_ask.1 hcreates
  let record := Execution.start fresh workflow (lead.map (·.id)) (some event) payload []
  have hopening : IsQuiet [⟨.stamp, fresh⟩, ⟨.store (.createExecution record), reply⟩] :=
    List.forall_mem_cons.2 ⟨not_false, List.forall_mem_singleton.2 not_false⟩
  cases reply with
  | error error =>
    obtain ⟨rfl, -⟩ := Program.runs_fail.1 hrest
    exact ⟨[], .unstarted hopening (List.mem_cons_of_mem _ List.mem_cons_self)⟩
  | ok =>
    have hkept :
        (workflow.run options record lead >>= fun done =>
            keep (lead.map (·.id)) done.1 done.2.patch).Runs rest ended :=
      hrest
    obtain ⟨own, after, outcome, rfl, hruns, hafter⟩ :=
        Program.exists_runs_of_bind_quiet hkept fun done =>
      keep_callsOnly not_false (fun _ _ => not_false) _ _
    have hrunning : record.status = .running := rfl
    obtain ⟨occasions, hreach⟩ := exists_reaches_of_runs_run hrunning hruns
    exact ⟨occasions, hreach.within hopening hafter⟩

end Workflow

end LeadAutomation
