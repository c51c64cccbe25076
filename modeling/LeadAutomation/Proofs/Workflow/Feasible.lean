import LeadAutomation.Proofs.Action.Scores
import LeadAutomation.Proofs.Workflow.Readable

/-!
# Steps that can be carried out

A workflow that passed its checks has steps that can be read, and that is all: its checks do not
look at what the settings of a step say. So a step of it may fail whatever systems outside do, and
`Workflow.run_feasible` says exactly which steps do. A condition never fails, a delay fails if it is
negative, and an action fails if its own data do not make sense. Each gap between the check and the
run is one of these.
-/

namespace LeadAutomation

open Validation

/-! ### What is asked of actions and steps -/

/-- The data of an action make sense: what it assigns, scores, sets or says is there and can be
read. -/
def Action.IsFeasible (action : Action) (view : RecordView) : Prop :=
  match action.kind with
  | .known .assignment =>
    (∃ assignee, Uuid.ofText? (Text.trim (valueText action)) = some assignee) ∧ action.NamesAssignee
  | .known .scoring => ∃ requested, action.value.bind FieldValue.number? = some requested
  | .known .statusChange => ∃ status, LeadStatus.ofText? (valueText action) = some status
  | .known .notification =>
    Text.isBlankText (Template.render view.text? (action.valueText?.getD "")) = false
  | .known .enrichment => True
  | .other .. => False

/-- The settings of a step make sense. -/
def StepSettings.IsFeasible (view : RecordView) : StepSettings → Prop
  | .action asked => asked.IsFeasible view
  | .condition _ => True
  | .delay minutes => 0 ≤ minutes.value
  | .notification message _ _ => Text.isBlankText (Template.render view.text? message) = false
  | .integration .. => True

/-- A system outside that was asked for something has done it. -/
def Exchange.IsGranted : Exchange → Prop
  | ⟨.effect _, reply⟩ => ∃ result, reply = .returned result
  | ⟨.store _, _⟩ | ⟨.stamp, _⟩ => True

theorem Program.isGranted_of_mem_transcript {α σ : Type}
    {answer : (call : Call) → σ → call.Reply × σ}
    (hgranted : ∀ call s, ∃ result, (answer (.effect call) s).1 = .returned result) {p : Program α}
    {state : σ} :
    ∀ exchange ∈ p.transcript answer state, exchange.IsGranted := by
  intro exchange hmem
  obtain ⟨s, hreply⟩ := exists_of_mem_transcript hmem
  obtain ⟨call | call | _, reply⟩ := exchange
  · trivial
  · obtain ⟨result, hresult⟩ := hgranted call s
    exact ⟨result, hreply.trans hresult⟩
  · trivial

/-! ### Plans -/

theorem Notification.exists_compose_iff {message : String} {subject : Option String}
    {named defaults : List String} {view : RecordView} (hdefaults : defaults ≠ []) :
    (∃ notification, compose message subject named defaults view = .ok notification) ↔
      Text.isBlankText (Template.render view.text? message) = false := by
  have hrecipients : (if named.isEmpty then defaults else named).isEmpty = false := by
    split
    · simpa using hdefaults
    · next hnamed => simpa using hnamed
  unfold compose
  dsimp only
  split
  · next hblank => simp [hblank]
  · next hblank =>
    rw [if_neg (by rw [hrecipients]; nofun)]
    simpa using hblank

namespace Action

variable {action : Action} {view : RecordView} {defaults : List String} {lead : Lead}

theorem exists_planAssignment_iff : (∃ write, action.planAssignment = .ok write) ↔
    (∃ assignee, Uuid.ofText? (Text.trim (valueText action)) = some assignee) ∧
    action.NamesAssignee := by
  constructor
  · rintro ⟨write, hwrite⟩
    unfold planAssignment at hwrite
    split at hwrite
    · cases hwrite
    next given hgiven =>
    obtain ⟨rfl, -⟩ := valueText?_eq_some_iff.1 hgiven
    split at hwrite
    · cases hwrite
    next assignee hassignee =>
    split at hwrite
    · cases hwrite
    next patch hpatch =>
      exact ⟨⟨assignee, hassignee⟩, isSome_assignmentPatch?_iff.1 (Option.isSome_of_eq_some hpatch)⟩
  · rintro ⟨⟨assignee, hassignee⟩, hnames⟩
    have hsome : (assignmentPatch? action.target assignee).isSome = true :=
      isSome_assignmentPatch?_iff.2 hnames
    obtain ⟨patch, hpatch⟩ := Option.isSome_iff_exists.1 hsome
    simp [planAssignment, valueText?_of_ofText?_uuid hassignee, hassignee, hpatch]

theorem exists_planScoring_iff : (∃ write, action.planScoring = .ok write) ↔
    ∃ requested, action.value.bind FieldValue.number? = some requested := by
  unfold planScoring
  cases action.value.bind FieldValue.number? with
  | none => simp
  | some requested => simp

theorem valueText?_of_ofText?_status {status : LeadStatus}
    (h : LeadStatus.ofText? (valueText action) = some status) :
    action.valueText? = some (Text.trim (valueText action)) := by
  refine valueText?_eq_some_iff.2 ⟨rfl, fun hempty => ?_⟩
  rw [← LeadStatus.ofText?_trim, hempty] at h
  cases h

theorem exists_planStatusChange_iff : (∃ write, action.planStatusChange = .ok write) ↔
    ∃ status, LeadStatus.ofText? (valueText action) = some status := by
  constructor
  · rintro ⟨write, hwrite⟩
    unfold planStatusChange at hwrite
    split at hwrite
    · cases hwrite
    next given hgiven =>
    obtain ⟨rfl, -⟩ := valueText?_eq_some_iff.1 hgiven
    split at hwrite
    · cases hwrite
    next status hstatus => exact ⟨status, (LeadStatus.ofText?_trim _).symm.trans hstatus⟩
  · rintro ⟨status, hstatus⟩
    simp [planStatusChange, valueText?_of_ofText?_status hstatus, LeadStatus.ofText?_trim, hstatus]

theorem exists_fault_planWrite_iff {deed : String} {planned : Except ActionFault PlannedWrite} :
    (∃ fault, planWrite (some lead) deed planned = .fault fault) ↔
    ¬ ∃ write, planned = .ok write := by
  cases planned with
  | ok write => simp [planWrite]
  | error fault => simp [planWrite]

theorem not_isFeasible_of_other {kind : String}
    {unknown : Named.spoken? kind = (none : Option ActionKind)}
    (h : action.kind = .other kind unknown) : ¬ action.IsFeasible view := by
  unfold IsFeasible
  rw [h]
  exact not_false

/-- On a lead, and with someone to notify, only what is said in an action itself can keep it from
being planned. -/
theorem exists_fault_iff (hlead : view.lead = some lead) (hdefaults : defaults ≠ []) :
    (∃ fault, action.plan view defaults = .fault fault) ↔ ¬ action.IsFeasible view := by
  unfold plan IsFeasible
  rw [hlead]
  cases action.kind with
  | known kind =>
    cases kind with
    | assignment => exact exists_fault_planWrite_iff.trans (not_congr exists_planAssignment_iff)
    | scoring => exact exists_fault_planWrite_iff.trans (not_congr exists_planScoring_iff)
    | statusChange => exact exists_fault_planWrite_iff.trans (not_congr exists_planStatusChange_iff)
    | notification =>
      have hcomposed :
          (∃ notification, action.planNotification view defaults = .ok notification) ↔ _ :=
        Notification.exists_compose_iff hdefaults
      dsimp only
      rw [← hcomposed]
      cases action.planNotification view defaults with
      | ok notification => simp
      | error reason => simp
    | enrichment => simp
  | other text unknown => simp

end Action

theorem ActionPlan.error_of_runs_carryOut {plan : ActionPlan} {action : Action}
    {exchanges : List Exchange} {outcome : ActionOutcome}
    (h : (plan.carryOut action).Runs exchanges (.returned outcome))
    (hgranted : ∀ exchange ∈ exchanges, exchange.IsGranted) :
    (∃ fault, plan = .fault fault ∧ outcome.error = some fault.message) ∨
      (¬ ∃ fault, plan = .fault fault) ∧ outcome.error = none := by
  have hrefused {call : EffectCall} {error : AutomationError} {rest : List Exchange}
      (heq : exchanges = ⟨.effect call, .failed error⟩ :: rest) : False := by
    obtain ⟨result, hresult⟩ := hgranted _ (heq ▸ List.mem_cons_self)
    cases hresult
  cases plan with
  | write write =>
    cases (Program.runs_pure.1 h).2
    exact .inr ⟨by simp, rfl⟩
  | notify notification =>
    obtain ⟨⟨⟩, rest, -, hrest⟩ | ⟨error, rest, heq, -⟩ | ⟨text, -, hended⟩ :=
      Program.runs_effect_caught_bind.1 h
    · cases (Program.runs_pure.1 hrest).2
      exact .inr ⟨by simp, rfl⟩
    · exact (hrefused heq).elim
    · cases hended
  | enrich request =>
    obtain ⟨⟨⟩, rest, -, hrest⟩ | ⟨error, rest, heq, -⟩ | ⟨text, -, hended⟩ :=
      Program.runs_effect_caught_bind.1 h
    · cases (Program.runs_pure.1 hrest).2
      exact .inr ⟨by simp, rfl⟩
    · exact (hrefused heq).elim
    · cases hended
  | fault fault =>
    cases (Program.runs_pure.1 h).2
    exact .inl ⟨fault, rfl, rfl⟩

theorem Action.exists_unsupported_iff {action : Action} {view : RecordView} {defaults : List String}
    {fault : ActionFault} (h : action.plan view defaults = .fault fault) :
    (∃ kind, fault.message = (ActionFault.unsupported kind).message) ↔
    ∃ kind unknown, action.kind = .other kind unknown := by
  constructor
  · rintro ⟨kind, hmessage⟩
    by_contra hknown
    exact message_ne_unsupported_of_plan h
      (fun text unknown hkind => hknown ⟨text, unknown, hkind⟩) kind hmessage
  · rintro ⟨kind, unknown, hkind⟩
    unfold plan at h
    rw [hkind] at h
    cases h
    exact ⟨kind, rfl⟩

/-! ### Turns -/

theorem Step.delayOutcome_eq_failed_iff {now : Timestamp} {minutes : Binary64} :
    (∃ error halts, delayOutcome now minutes = .failed error halts) ↔ ¬ 0 ≤ minutes.value := by
  rw [not_le, minutes.value_lt_zero_iff]
  unfold delayOutcome Binary64.less
  rw [Binary64.worth_zero]
  split
  · next hless => simpa using hless
  · next hless => simpa using hless

namespace Turn

variable {options : Options} {turn : Turn options} {settings : StepSettings} {lead : Lead}

/-- What becomes of a step is decided by its settings: it fails if they make no sense, and only
then. -/
structure Decided (turn : Turn options) (settings : StepSettings) : Prop where
  read : turn.step.settings = .ok settings
  success : turn.entry.success = true ↔ settings.IsFeasible turn.view
  /-- What is said of actions of unknown kinds is said of no others. -/
  unsupported : ∀ action, settings = .action action →
    ((∃ kind, turn.entry.error = some (ActionFault.unsupported kind).message) ↔
      ∃ kind unknown, action.kind = .other kind unknown)

theorem entry_of_failed {error : String} {halts : Bool} (h : turn.outcome = .failed error halts) :
    turn.entry.success = false ∧ turn.entry.error = some error := by
  rw [entry, h]
  exact ⟨rfl, rfl⟩

theorem entry_of_passed {result : Json}
    (h : turn.outcome = .passed result ∨ turn.outcome = .stopped result) :
    turn.entry.success = true ∧ turn.entry.error = none := by
  rw [entry]
  obtain h | h := h
  all_goals
    rw [h]
    exact ⟨rfl, rfl⟩

theorem decided_of_passed {result : Json} (hsettings : turn.step.settings = .ok settings)
    (h : turn.outcome = .passed result ∨ turn.outcome = .stopped result)
    (hfeasible : settings.IsFeasible turn.view) :
    turn.Decided settings := by
  obtain ⟨hsuccess, herror⟩ := entry_of_passed h
  refine ⟨hsettings, iff_of_true hsuccess hfeasible, ?_⟩
  rintro action rfl
  refine iff_of_false ?_ ?_
  · rintro ⟨kind, hmessage⟩
    rw [herror] at hmessage
    cases hmessage
  · rintro ⟨kind, unknown, hkind⟩
    exact Action.not_isFeasible_of_other hkind hfeasible

theorem decided_of_failed {error : String} {halts : Bool}
    (hsettings : turn.step.settings = .ok settings) (h : turn.outcome = .failed error halts)
    (hfeasible : ¬ settings.IsFeasible turn.view)
    (hkind : ∀ action, settings = .action action →
      ((∃ kind, error = (ActionFault.unsupported kind).message) ↔
        ∃ kind unknown, action.kind = .other kind unknown)) :
    turn.Decided settings := by
  obtain ⟨hsuccess, herror⟩ := entry_of_failed h
  refine ⟨hsettings, iff_of_false (by rw [hsuccess]; nofun) hfeasible, fun action haction => ?_⟩
  rw [herror, ← hkind action haction]
  simp only [Option.some.injEq]

/-- Where systems outside do what they are asked, only the settings of a step keep it from
succeeding. -/
theorem decided (hsettings : turn.step.settings = .ok settings) (hlead : turn.view.lead = some lead)
    (hdefaults : options.defaultRecipients ≠ [])
    (hgranted : ∀ exchange ∈ turn.exchanges, exchange.IsGranted) :
    turn.Decided settings := by
  have hhappens := turn.happens
  generalize houtcome : turn.outcome = outcome at hhappens
  generalize hexchanges : turn.exchanges = exchanges at hhappens hgranted
  generalize turn.patch = patch at hhappens
  have hreply {call : EffectCall} {reply : Outcome call.Result}
    (heq : exchanges = [⟨.effect call, reply⟩]) :
      ∃ result, reply = .returned result :=
        hgranted ⟨.effect call, reply⟩ (heq ▸ List.mem_singleton_self _)
  cases hhappens with
  | unreadable unread =>
    rw [hsettings] at unread
    cases unread
  | acted read runs well =>
    obtain rfl := Except.ok.inj (hsettings.symm.trans read)
    obtain ⟨fault, -, herror⟩ | ⟨hplanned, -⟩ := ActionPlan.error_of_runs_carryOut runs hgranted
    · rw [well] at herror
      cases herror
    · refine decided_of_passed hsettings (.inl houtcome) (not_not.1 fun hinfeasible => hplanned ?_)
      exact (Action.exists_fault_iff hlead hdefaults).2 hinfeasible
  | misacted read runs ill =>
    obtain rfl := Except.ok.inj (hsettings.symm.trans read)
    obtain ⟨fault, hplan, herror⟩ | ⟨-, hnone⟩ := ActionPlan.error_of_runs_carryOut runs hgranted
    · obtain rfl := Option.some.inj (ill.symm.trans herror)
      refine decided_of_failed hsettings houtcome
        ((Action.exists_fault_iff hlead hdefaults).1 ⟨fault, hplan⟩) ?_
      rintro action ⟨rfl⟩
      exact Action.exists_unsupported_iff hplan
    · rw [ill] at hnone
      cases hnone
  | met read holds =>
    obtain rfl := Except.ok.inj (hsettings.symm.trans read)
    exact decided_of_passed hsettings (.inl houtcome) trivial
  | unmet read fails =>
    obtain rfl := Except.ok.inj (hsettings.symm.trans read)
    exact decided_of_passed hsettings (.inr houtcome) trivial
  | delayed read delay =>
    obtain rfl := Except.ok.inj (hsettings.symm.trans read)
    refine decided_of_passed hsettings (.inl houtcome) (not_not.1 fun hnegative => ?_)
    obtain ⟨error, halts, hfailed⟩ := Step.delayOutcome_eq_failed_iff.2 hnegative
    rw [delay] at hfailed
    cases hfailed
  | undelayed read delay =>
    obtain rfl := Except.ok.inj (hsettings.symm.trans read)
    exact decided_of_failed hsettings houtcome (Step.delayOutcome_eq_failed_iff.1 ⟨_, _, delay⟩)
      fun _ h => nomatch h
  | sent read composed =>
    obtain rfl := Except.ok.inj (hsettings.symm.trans read)
    exact decided_of_passed hsettings (.inl houtcome)
      ((Notification.exists_compose_iff hdefaults).1 ⟨_, composed⟩)
  | @uncomposed message subject recipients reason read composed =>
    obtain rfl := Except.ok.inj (hsettings.symm.trans read)
    have hblank : ¬ Text.isBlankText (Template.render turn.view.text? message) = false := by
      rw [← Notification.exists_compose_iff hdefaults, composed]
      nofun
    exact decided_of_failed hsettings houtcome hblank fun _ h => nomatch h
  | integrated read =>
    obtain rfl := Except.ok.inj (hsettings.symm.trans read)
    exact decided_of_passed hsettings (.inl houtcome) trivial
  | refused | rejected | brokeActing | brokeSending | brokeIntegrating =>
    obtain ⟨result, hresult⟩ := hreply rfl
    cases hresult

end Turn

namespace Workflow

/-- A workflow that passed its checks, run on a lead, with someone to notify and with systems
outside that do all they are asked, fails in exactly those of its steps whose settings make no
sense: each step whose turn comes can be read, and it succeeds just if its settings are feasible. A
condition always succeeds, a delay unless it is negative, and an action that assigns, scores or sets
a status unless it names no assignee and attribute to assign, no number or no status. Only actions
of unknown kinds fail as such. -/
theorem run_feasible {σ : Type} (answer : (call : Call) → σ → call.Reply × σ) (world : σ)
    (options : Options) (workflow : Workflow) (execution : Execution) (lead : Lead)
    {warnings : List String} (hvalid : workflow.validate = .ok warnings)
    (hrunning : execution.status = .running) (hdefaults : options.defaultRecipients ≠ [])
    (hgranted : ∀ call s, ∃ result, (answer (.effect call) s).1 = .returned result) :
    ∃ (turns : List (Turn options)) (final : Option Lead) (fresh : Fresh) (ended : Execution),
      ((workflow.run options execution (some lead)).run answer world).1 =
        .returned (ended, ⟨LeadPatch.mergeAll (turns.map Turn.patch), final⟩) ∧
      (workflow.run options execution (some lead)).transcript answer world =
        turns.flatMap Turn.calls ++ [⟨.stamp, fresh⟩] ∧
      Course options execution.triggerData workflow.stepsInOrder (some lead) turns final ∧
      ended.log = execution.log ++ turns.map Turn.entry ∧
      ∀ turn ∈ turns, ∃ settings, turn.Decided settings := by
  obtain ⟨turns, final, fresh, hcourse, hcalls, hended⟩ :=
    exists_course_of_runs_run hrunning (Program.runs_transcript answer _ world)
  refine ⟨turns, final, fresh, _, hended, hcalls, hcourse, rfl, fun turn hmem => ?_⟩
  have hlisted : turn.step ∈ workflow.stepsInOrder :=
    hcourse.map_step_prefix.subset (List.mem_map_of_mem hmem)
  obtain ⟨settings, hsettings⟩ :=
    Step.parseConfig_eq_ok_iff.1
      (parseConfig_of_validate hvalid turn.step (List.mem_mergeSort.1 hlisted))
  obtain ⟨given, hlead⟩ := Option.isSome_iff_exists.1 (hcourse.isSome_view rfl turn hmem)
  refine ⟨settings, Turn.decided hsettings hlead hdefaults fun exchange hexchange => ?_⟩
  have hcalled : exchange ∈ turns.flatMap Turn.calls :=
    List.mem_flatMap.2 ⟨turn, hmem, List.mem_cons_of_mem _ hexchange⟩
  exact Program.isGranted_of_mem_transcript hgranted exchange
    (hcalls ▸ List.mem_append_left _ hcalled)

/-- A workflow in which nothing makes sense, and which passes its checks nevertheless. -/
def misguided : Workflow where
  id := ⟨1⟩
  name := "Misguided"
  description := none
  trigger := .manual
  active := true
  priority := 0
  steps := [
    ⟨⟨2⟩, .known .action, "assign somewhere", 1, .obj [
      ("target", .str "assigned_user"), ("type", .str "assignment"),
      ("value", .str "00000000-0000-0000-0000-0000000000aa")]⟩,
    ⟨⟨3⟩, .known .action, "assign someone", 2, .obj [
      ("target", .str "user"), ("type", .str "assignment"), ("value", .str "sales")]⟩,
    ⟨⟨4⟩, .known .action, "score", 3, .obj [("type", .str "scoring"), ("value", .str "high")]⟩,
    ⟨⟨5⟩, .known .action, "set status", 4,
      .obj [("type", .str "status_change"), ("value", .str "HOT")]⟩,
    ⟨⟨6⟩, .known .action, "call hook", 5, .obj [("type", .str "webhook")]⟩,
    ⟨⟨7⟩, .known .delay, "wait", 6, .obj [("duration", .int (-5))]⟩]
  createdBy := none
  createdAt := .epoch
  updatedAt := none

/-- Options with someone to notify, under which a run goes on after actions that fail. -/
def undeterred : Options := { continueOnStepFailure := true, defaultRecipients := ["sales"] }

theorem stepsInOrder_misguided : misguided.stepsInOrder = misguided.steps :=
  List.mergeSort_of_pairwise (by decide)

theorem validate_misguided : misguided.validate = .ok [] := by
  have hnumbered : misguided.isNumbered = true := by
    rw [isNumbered, List.mergeSort_of_pairwise (by decide)]
    rfl
  have hviolations : misguided.violations = [] := by
    rw [violations, checkPositions, hnumbered]
    decide +kernel
  rw [validate, hviolations]
  rfl

theorem still_grants (call : EffectCall) (s : Store) :
    ∃ result, (Host.still.answer (.effect call) s).1 = .returned result := ⟨_, rfl⟩

/-- The record of a run of `misguided` that begins. -/
def misguidedStart : Execution := .start Program.stillFresh misguided none none .null []

theorem run_feasible_misguided :
    let lead := Lead.blank Program.stillFresh
    misguided.validate = .ok [] ∧ misguidedStart.status = .running ∧
    undeterred.defaultRecipients ≠ [] ∧
    (∀ call s, ∃ result, (Host.still.answer (.effect call) s).1 = .returned result) ∧
    ∃ (turns : List (Turn undeterred)) (final : Option Lead) (fresh : Fresh) (ended : Execution),
      ((misguided.run undeterred misguidedStart (some lead)).run Host.still.answer {}).1 =
        .returned (ended, ⟨LeadPatch.mergeAll (turns.map Turn.patch), final⟩) ∧
      (misguided.run undeterred misguidedStart (some lead)).transcript Host.still.answer {} =
        turns.flatMap Turn.calls ++ [⟨.stamp, fresh⟩] ∧
      Course undeterred .null misguided.stepsInOrder (some lead) turns final ∧
      ended.log = turns.map Turn.entry ∧
      ∀ turn ∈ turns, ∃ settings, turn.Decided settings :=
  ⟨validate_misguided, rfl, List.cons_ne_nil _ _, still_grants,
    run_feasible Host.still.answer {} undeterred misguided misguidedStart _ validate_misguided rfl
      (List.cons_ne_nil _ _)
      still_grants⟩

/-- What passes the checks need not make sense: each step of this workflow fails in a way that no
lead, no payload and no system outside has a part in. -/
theorem misguided_fails :
    misguided.validate = .ok [] ∧ undeterred.defaultRecipients ≠ [] ∧
    (∀ call s, ∃ result, (Host.still.answer (.effect call) s).1 = .returned result) ∧
    ∃ ended report,
      ((misguided.run undeterred misguidedStart (some (.blank Program.stillFresh))).run
        Host.still.answer {}).1 =
        .returned (ended, report) ∧
      ended.log.map (fun entry => (entry.stepName, entry.success, entry.error)) = [
        ("assign somewhere", false, some "unknown assignment target 'assigneduser'"),
        ("assign someone", false, some "'sales' is not a valid assignee id"),
        ("score", false, some "score value 'high' is not numeric"),
        ("set status", false, some "'HOT' is not a valid lead status"),
        ("call hook", false, some "unsupported action type 'webhook'"),
        ("wait", false, some "delay duration -5 is negative")] := by
  refine ⟨validate_misguided, List.cons_ne_nil _ _, still_grants, ?_⟩
  rw [run, stepsInOrder_misguided]
  exact ⟨_, _, rfl, by decide +kernel⟩

end Workflow

end LeadAutomation
