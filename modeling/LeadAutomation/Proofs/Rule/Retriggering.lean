import LeadAutomation.Proofs.Action.Carried
import LeadAutomation.Proofs.Dispatch

/-!
# Rules that set themselves off

A rule without a scope stays out of the events that rules of its kind bring about, so that it cannot
set itself off again. But the kind of a rule is a label: what the rule does is given by its actions,
and these may be of any kind. Whether a rule brings about the very event that it takes part in is
decided by its actions alone: `Event.retriggers_iff`. So the filter keeps its promise for rules
whose actions are what their label says, and for others it does not.
-/

namespace LeadAutomation

/-- The kind of event that an action of some kind brings about, if it goes well. -/
def ActionKind.raises? : ActionKind → Option EventKind
  | .scoring => some .leadScored
  | .statusChange => some .leadStatusChanged
  | .assignment | .notification | .enrichment => none

/-- The kind of event that an action brings about, where a word for its kind is known. -/
def Word.raises? : Word ActionKind → Option EventKind
  | .known kind => kind.raises?
  | .other .. => none

/-- An action in a dispatch went well that brings about an event of some kind. -/
def Summary.Retriggers (event : EventKind) (summary : Summary) : Prop :=
  ∃ outcome ∈ summary.actions, outcome.success = true ∧ outcome.kind.raises? = some event

/-- A rule has something to write that brings about an event of some kind, whatever its label is. -/
def Rule.BringsAbout (event : EventKind) (rule : Rule) : Prop :=
  ∃ action ∈ rule.actions, action.write?.isSome = true ∧ action.kind.raises? = some event

/-- The actions of a rule bring about what its label says, if they bring about anything. -/
def Rule.IsTrueToLabel (rule : Rule) : Prop :=
  ∀ action ∈ rule.actions, ∀ event, action.kind.raises? = some event →
    rule.kind.raises? = some event

theorem Rule.raises?_ne_of_appliesTo {rule : Rule} {event : EventKind}
    (happlies : rule.appliesTo event = true) (hscope : rule.scope = []) :
    rule.kind.raises? ≠ some event := by
  simp only [appliesTo, hscope, List.isEmpty_nil, if_true, Bool.and_eq_true,
    decide_eq_true_eq] at happlies
  exact happlies.2

namespace Action

variable {action : Action} {view : RecordView} {defaults : List String} {own : List Exchange}
  {outcome : ActionOutcome}

theorem kind_of_runs_carryOut
    (h : ((action.plan view defaults).carryOut action).Runs own (.returned outcome)) :
    outcome.kind = action.kind := by
  obtain ⟨write, -, rfl⟩ | ⟨fault, -, rfl⟩ | ⟨value, rfl⟩ | ⟨error, rfl⟩ :=
    ActionPlan.outcome_of_runs_carryOut h <;> rfl

/-- On a lead, an action that can bring about an event either writes or cannot be done. -/
theorem plan_of_raises {event : EventKind} {lead : Lead}
    (hraises : action.kind.raises? = some event) (hlead : view.lead = some lead) :
    (∃ write, action.plan view defaults = .write write) ∨ ∃ fault, action.plan view defaults =
      .fault fault := by
  have hplan : ∀ deed planned, (∃ write, planWrite (some lead) deed planned = .write write) ∨
      ∃ fault, planWrite (some lead) deed planned = .fault fault := by
    rintro deed (fault | write)
    · exact .inr ⟨fault, rfl⟩
    · exact .inl ⟨write, rfl⟩
  unfold plan
  rw [hlead]
  split
  · exact hplan _ _
  · exact hplan _ _
  · exact hplan _ _
  · next hkind => simp [hkind, Word.raises?, ActionKind.raises?] at hraises
  · next hkind => simp [hkind, Word.raises?, ActionKind.raises?] at hraises
  · exact .inr ⟨_, rfl⟩

/-- On a lead, an action that brings about an event goes well just if it has something to write. -/
theorem raises_iff {event : EventKind} (hlead : view.lead.isSome = true)
    (h : ((action.plan view defaults).carryOut action).Runs own (.returned outcome)) :
    outcome.success = true ∧ outcome.kind.raises? = some event ↔
      action.write?.isSome = true ∧ action.kind.raises? = some event := by
  obtain ⟨lead, hlead⟩ := Option.isSome_iff_exists.1 hlead
  rw [kind_of_runs_carryOut h]
  refine and_congr_left fun hraises => ?_
  have hplan : (∃ write, action.plan view defaults = .write write) ∨ ∃ fault,
      action.plan view defaults = .fault fault :=
    plan_of_raises hraises hlead
  obtain ⟨write, hplan⟩ | ⟨fault, hplan⟩ := hplan
  · have hwrite : action.write? = some write := (plan_eq_write_iff hlead).1 hplan
    rw [hplan] at h
    obtain ⟨-, hended⟩ := Program.runs_pure.1 h
    cases hended
    simp [hwrite, ActionOutcome.ofSuccess]
  · have hwrite : action.write? = none := by
      refine Option.eq_none_iff_forall_ne_some.2 fun write hsome => ?_
      cases hplan.symm.trans ((plan_eq_write_iff hlead).2 hsome)
    rw [hplan] at h
    obtain ⟨-, hended⟩ := Program.runs_pure.1 h
    cases hended
    simp [hwrite, ActionOutcome.ofFailure]

end Action

theorem exists_mem_iff_of_forall₂ {α β : Type} {P : α → Prop} {Q : β → Prop} {as : List α}
    {bs : List β} (h : List.Forall₂ (fun a b => Q b ↔ P a) as bs) :
    (∃ b ∈ bs, Q b) ↔ ∃ a ∈ as, P a := by
  induction h with
  | nil => simp
  | cons hfirst _ ih => simp only [List.exists_mem_cons_iff, hfirst, ih]

namespace Event

variable {options : Options}

/-- A rule that takes part carries out all its actions if it matches, and else none. -/
theorem exists_carriedOut_of_runs {payload : Json} {rule : Rule} {lead left : Lead}
    {exchanges : List Exchange} {summary : Summary}
    (h : (applyRule options payload rule lead).Runs exchanges (.returned (summary, left))) :
    summary.participant = .rule rule ∧ ((summary.matched = false ∧ summary.actions = []) ∨
      summary.matched = true ∧ ∃ now calls applied final,
        CarriedOut now options.defaultRecipients payload rule.actions
          (some lead) calls applied final ∧
        summary.actions = applied.outcomes) := by
  unfold applyRule at h
  dsimp only at h
  split at h
  · next hmatched =>
    obtain ⟨fresh, rest, rfl, hrest⟩ := Program.runs_stamp_bind.1 h
    obtain ⟨⟨applied, final⟩, calls, rest, rfl, hacts, hrest⟩ := Program.runs_bind_returned.1 hrest
    obtain ⟨stored, _, _, -, -, hends⟩ := Program.runs_bind_returned.1 hrest
    obtain ⟨-, hended⟩ := Program.runs_pure.1 hends
    cases hended
    rw [Rule.actions_of_matched hmatched] at hacts
    exact ⟨rfl, .inr ⟨rfl, fresh.now, calls, applied, final, carriedOut_of_runs hacts, rfl⟩⟩
  · obtain ⟨-, hended⟩ := Program.runs_pure.1 h
    cases hended
    exact ⟨rfl, .inl ⟨rfl, rfl⟩⟩

theorem retriggers_iff_of_runs {event : EventKind} {payload : Json} {rule : Rule} {lead left : Lead}
    {exchanges : List Exchange} {summary : Summary}
    (h : (applyRule options payload rule lead).Runs exchanges (.returned (summary, left))) :
    summary.Retriggers event ↔ summary.matched = true ∧ rule.BringsAbout event := by
  obtain ⟨-, ⟨hmatched, hactions⟩ | ⟨hmatched, now, calls, applied, final, hcarried, hactions⟩⟩ :=
    exists_carriedOut_of_runs h
  · simp [Summary.Retriggers, hmatched, hactions]
  · have hpaired :
      List.Forall₂ (fun action outcome => outcome.success = true ∧
        outcome.kind.raises? = some event ↔
        action.write?.isSome = true ∧ action.kind.raises? =
          some event) rule.actions applied.outcomes :=
      hcarried.forall₂ rfl fun action _ view own outcome => Action.raises_iff
    rw [Summary.Retriggers, hactions, exists_mem_iff_of_forall₂ hpaired]
    exact (and_iff_right hmatched).symm

theorem appliesTo_of_mem_schedule {event : EventKind} {rules : List Rule}
    {workflows : List Workflow} {rule : Rule}
    (h : .rule rule ∈ Participant.schedule (rules.filter (·.appliesTo event)) workflows) :
    rule.appliesTo event = true := by
  obtain ⟨other, hother, heq⟩ | ⟨workflow, -, heq⟩ := Participant.mem_schedule.1 h
  · cases heq
    exact (List.mem_filter.1 hother).2
  · cases heq

theorem exists_apply_of_runs {event : Event} {participants : List Participant} {lead : Lead}
    {exchanges : List Exchange} {summaries : List Summary}
    (h : (event.applyAll options participants lead).Runs exchanges (.returned summaries)) :
    ∀ summary ∈ summaries, ∃ participant ∈ participants, ∃ given own left,
      (event.apply options given participant).Runs own (.returned (summary, left)) := by
  induction participants generalizing lead exchanges summaries with
  | nil =>
    obtain ⟨-, hended⟩ := Program.runs_pure.1 h
    cases hended
    exact List.forall_mem_nil _
  | cons participant rest ih =>
    obtain ⟨⟨first, left⟩, own, others, rfl, hfirst, hrest⟩ := Program.runs_bind_returned.1 h
    obtain ⟨later, more, _, -, hlater, hends⟩ := Program.runs_bind_returned.1 hrest
    obtain ⟨-, hended⟩ := Program.runs_pure.1 hends
    cases hended
    refine List.forall_mem_cons.2 ⟨⟨participant, List.mem_cons_self, lead, own, left, hfirst⟩,
      fun summary hmem => ?_⟩
    obtain ⟨other, hother, happly⟩ := ih hlater summary hmem
    exact ⟨other, List.mem_cons_of_mem _ hother, happly⟩

theorem participant_of_runs_apply {event : Event} {participant : Participant} {lead left : Lead}
    {exchanges : List Exchange} {summary : Summary}
    (h : (event.apply options lead participant).Runs exchanges (.returned (summary, left))) :
    summary.participant = participant := by
  cases participant with
  | rule rule => exact (exists_carriedOut_of_runs h).1
  | workflow workflow =>
    obtain ⟨ended, _, _, -, -, hrest⟩ := Program.runs_bind_returned.1 h
    obtain ⟨found, _, _, -, -, hrest⟩ := Program.runs_bind_returned.1 hrest
    obtain ⟨stored, _, _, -, -, hends⟩ := Program.runs_bind_returned.1 hrest
    obtain ⟨-, hended⟩ := Program.runs_pure.1 hends
    cases hended
    rfl

/-- In a dispatch, whatever the store holds and the systems outside do, a rule brings about the
event it takes part in just if it matches and has an action to that effect. Without a scope it is
not labelled as doing so; but only if it is true to its label does that keep it from setting itself
off. -/
theorem retriggers_iff (options : Options) (event : Event) {exchanges : List Exchange}
    {summaries : List Summary} (h : (event.dispatch options).Runs exchanges (.returned summaries)) :
    ∀ summary ∈ summaries, ∀ rule, summary.participant = .rule rule →
      (summary.Retriggers event.kind ↔ summary.matched = true ∧ rule.BringsAbout event.kind) ∧
      (rule.scope = [] → rule.kind.raises? ≠ some event.kind ∧
        (rule.IsTrueToLabel → ¬ summary.Retriggers event.kind)) := by
  rw [dispatch_eq] at h
  obtain ⟨⟨lead, participants⟩, _, _, rfl, hopening, hturns⟩ := Program.runs_bind_returned.1 h
  obtain ⟨rules, workflows, rfl, -, -⟩ := exists_participants_of_runs hopening
  intro summary hmem rule hrule
  obtain ⟨participant, hparticipant, given, own, left, happly⟩ :=
    exists_apply_of_runs hturns summary hmem
  obtain rfl : participant = .rule rule := (participant_of_runs_apply happly).symm.trans hrule
  have hiff : summary.Retriggers event.kind ↔
      summary.matched = true ∧ rule.BringsAbout event.kind :=
    retriggers_iff_of_runs happly
  refine ⟨hiff, fun hscope => ?_⟩
  have hlabel := Rule.raises?_ne_of_appliesTo (appliesTo_of_mem_schedule hparticipant) hscope
  refine ⟨hlabel, fun htrue hretriggers => ?_⟩
  obtain ⟨-, action, haction, -, hraises⟩ := hiff.1 hretriggers
  exact hlabel (htrue action haction _ hraises)

/-- A rule that is labelled as an assignment and scores leads. -/
def routeAndScore : Rule :=
  { Rule.blank Program.stillFresh "route and score" .assignment 0 with
    actions := [.setScore (.ofNat false 70)] }

/-- The rule and a lead. -/
def routedLead : Store where
  leads := [.blank Program.stillFresh]
  rules := [routeAndScore]

/-- The event that the lead has been scored. -/
def leadWasScored : Event := .leadScored .epoch (Lead.blank Program.stillFresh).id 40 70

/-- What becomes of the rule. -/
def routedAndScored : Summary where
  participant := .rule routeAndScore
  matched := true
  actions :=
    [{ kind := .known .scoring, target := "score", success := true, value := some (.int 70) }]

theorem run_leadWasScored : ((leadWasScored.dispatch {}).run Host.still.answer routedLead).1 =
    .returned [routedAndScored] := by
  with_unfolding_all rfl

theorem retriggers_iff_leadWasScored :
    (leadWasScored.dispatch {}).Runs
      ((leadWasScored.dispatch {}).transcript Host.still.answer routedLead)
      (.returned [routedAndScored]) ∧
    ∀ summary ∈ [routedAndScored], ∀ rule, summary.participant = .rule rule →
      (summary.Retriggers .leadScored ↔ summary.matched = true ∧ rule.BringsAbout .leadScored) ∧
      (rule.scope = [] → rule.kind.raises? ≠ some .leadScored ∧
        (rule.IsTrueToLabel → ¬ summary.Retriggers .leadScored)) := by
  have hruns := Program.runs_transcript Host.still.answer (leadWasScored.dispatch {}) routedLead
  rw [run_leadWasScored] at hruns
  exact ⟨hruns, retriggers_iff {} leadWasScored hruns⟩

/-- A rule without a scope scores a lead because the lead has been scored. -/
theorem retriggers_routeAndScore :
    routeAndScore ∈ routedLead.rules ∧ routeAndScore.scope = [] ∧ leadWasScored.kind = .leadScored ∧
    ((leadWasScored.dispatch {}).run Host.still.answer routedLead).1 = .returned [routedAndScored] ∧
    routedAndScored.participant = .rule routeAndScore ∧ routedAndScored.Retriggers .leadScored :=
  ⟨List.mem_singleton_self _, rfl, rfl, run_leadWasScored, rfl, _,
    List.mem_singleton_self _, rfl, rfl⟩

end Event

end LeadAutomation
