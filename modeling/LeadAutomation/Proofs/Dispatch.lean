import LeadAutomation.Proofs.Action.Outcomes
import LeadAutomation.Proofs.Order
import LeadAutomation.Proofs.Workflow.Launches

/-!
# Dispatching in turn

On a host, a dispatch does what one would do by hand: sort what takes part in the event, and for
each in turn look up the lead in the store, let the participant act on it, and store what it wrote.
The code reads the lead back only where a participant may have changed it; that this is enough is
the invariant of `exists_run_applyAll`: the lead that a dispatch holds is the lead that is stored.
-/

namespace LeadAutomation

namespace Store

variable (store : Store) (event : EventKind)

/-- The rules that take part in an event. -/
def rulesFor : List Rule := store.rules.filter fun rule => rule.active && rule.appliesTo event

/-- The workflows that take part in an event. -/
def workflowsFor : List Workflow :=
  store.workflows.filter fun workflow => workflow.active && Trigger.ofEvent? event =
    some workflow.trigger

/-- What takes part in an event, rules before workflows. -/
def participants : List Participant :=
  (store.rulesFor event).map .rule ++ (store.workflowsFor event).map .workflow

end Store

namespace Host

variable {σ : Type} (host : Host σ) (options : Options) (event : Event)

/-- `host.TakesPart options event lead s participant summary patch s'` says that `participant`,
where the store holds `lead`, takes the host from `s` to `s'`, makes `patch` and is summed up so. -/
inductive TakesPart (lead : Lead) (s : σ) : Participant → Summary → LeadPatch → σ → Prop
  | unmatched {rule : Rule}
      (fails : (rule.tryOn (RecordView.lookup ⟨some lead, event.payload⟩)
        options.emptyRulePolicy).matched = false) :
      TakesPart lead s (.rule rule) { participant := .rule rule, matched := false } .empty s
  | matched {rule : Rule} {applied : AppliedActions} {final : Option Lead}
    {left : Lead} {acted s' : σ}
      (holds : (rule.tryOn (RecordView.lookup ⟨some lead, event.payload⟩)
        options.emptyRulePolicy).matched = true)
      (acts : (applyActions (host.answer .stamp s).1.now options.defaultRecipients event.payload
          (rule.tryOn (RecordView.lookup ⟨some lead, event.payload⟩)
            options.emptyRulePolicy).actions (some lead)).run
        host.answer (host.answer .stamp s).2 = (.returned (applied, final), acted))
      (stores : (Event.storeWrites lead.id applied.patch).run host.answer acted =
        (.returned left, s')) :
      TakesPart lead s (.rule rule)
        { participant := .rule rule, matched := true, actions := applied.outcomes,
          error := applied.firstError? }
        applied.patch s'
  | workflow {workflow : Workflow} {ended : Execution} {report : RunReport} {ran launched : σ}
      (runs : (workflow.run options (workflow.startedRecord host lead event.kind event.payload s)
        (some lead)).run
        host.answer (workflow.started host lead event.kind event.payload s) =
          (.returned (ended, report), ran))
      (launches : (workflow.launch options (some lead) event.kind event.payload).run host.answer s =
        (.returned ended, launched)) :
      TakesPart lead s (.workflow workflow)
        { participant := .workflow workflow, matched := true, execution := ended,
          error := ended.errorMessage }
        report.patch (host.answer (.store (.getLead lead.id)) launched).2

/-- `host.InTurn options event participants s summaries writes s'` says that `participants`, one
after another, take the host from `s` to `s'`, each on the lead as it is stored by then; `writes`
are their patches with the times of storing them. -/
inductive InTurn : List Participant → σ → List Summary → List (LeadPatch × Timestamp) → σ → Prop
  | done {s : σ} : InTurn [] s [] [] s
  | next {participant : Participant} {rest : List Participant} {s s' s'' : σ} {lead : Lead}
    {summary : Summary}
      {patch : LeadPatch} {now : Timestamp} {summaries : List Summary}
        {writes : List (LeadPatch × Timestamp)}
      (stored : Store.find? Lead.id event.leadId (host.store s).leads = some lead)
      (takesPart : host.TakesPart options event lead s participant summary patch s')
      (written : host.store s' = (host.store s).written event.leadId patch now summary.execution)
      (later : InTurn rest s' summaries writes s'') :
      InTurn (participant :: rest) s (summary :: summaries) ((patch, now) :: writes) s''

variable {options event}

theorem TakesPart.summary_participant {host : Host σ} {lead : Lead} {s s' : σ}
    {participant : Participant} {summary : Summary} {patch : LeadPatch}
    (h : host.TakesPart options event lead s participant summary patch s') :
    summary.participant = participant := by
  cases h <;> rfl

theorem InTurn.map_participant {host : Host σ} {participants : List Participant} {s s' : σ}
    {summaries : List Summary} {writes : List (LeadPatch × Timestamp)}
    (h : host.InTurn options event participants s summaries writes s') :
    summaries.map Summary.participant = participants := by
  induction h with
  | done => rfl
  | next stored takesPart written later ih => rw [List.map_cons, takesPart.summary_participant, ih]

/-- After a sequence of turns the lead is what the patches made in them come to, one after
another. -/
theorem InTurn.find?_leads {host : Host σ} {participants : List Participant} {s s' : σ}
    {summaries : List Summary} {writes : List (LeadPatch × Timestamp)}
    (h : host.InTurn options event participants s summaries writes s') {lead : Lead}
    (hstored : Store.find? Lead.id event.leadId (host.store s).leads = some lead) :
    Store.find? Lead.id event.leadId (host.store s').leads =
      some (writes.foldl (fun lead (patch, now) => patch.applyTo now lead) lead) := by
  induction h generalizing lead with
  | done => exact hstored
  | next stored takesPart written later ih =>
    apply ih
    rw [written]
    exact Store.find?_written hstored

end Host

theorem Participant.mem_schedule {participant : Participant} {rules : List Rule}
    {workflows : List Workflow} :
    participant ∈ schedule rules workflows ↔
      (∃ rule ∈ rules, participant = .rule rule) ∨ ∃ workflow ∈ workflows,
      participant = .workflow workflow := by
  rw [schedule, Rule.byPriority, List.mem_mergeSort, List.mem_append, List.mem_map, List.mem_map]
  simp only [eq_comm]

theorem Rule.actions_of_matched {rule : Rule} {lookup : String → Option FieldValue}
    {policy : EmptyRulePolicy} (h : (rule.tryOn lookup policy).matched = true) :
    (rule.tryOn lookup policy).actions = rule.actions :=
  if_pos h

namespace Event

section CallsOnly

variable {allowed : Call → Prop}

theorem storeWrites_callsOnly (hread : ∀ id, allowed (.store (.getLead id)))
    (hpatch : ∀ id patch, allowed (.store (.applyPatch id patch))) (leadId : Uuid)
    (patch : LeadPatch) :
    (storeWrites leadId patch).CallsOnly allowed := by
  unfold storeWrites
  split
  · exact .bind (.store (hread _)) fun found => .orFail _ found
  · exact .store (hpatch _ _)

theorem applyRule_callsOnly (hstamp : allowed .stamp) (heffect : ∀ call, allowed (.effect call))
    (hread : ∀ id, allowed (.store (.getLead id)))
    (hpatch : ∀ id patch, allowed (.store (.applyPatch id patch))) (options : Options)
    (payload : Json) (rule : Rule) (lead : Lead) :
    (applyRule options payload rule lead).CallsOnly allowed := by
  unfold applyRule
  dsimp only
  split
  · refine .bind (.stamp hstamp) fun fresh =>
      .bind (applyActions_callsOnly (fun _ => heffect _) (fun _ => heffect _) _ _ _ _ _) ?_
    rintro ⟨applied, -⟩
    exact .bind (storeWrites_callsOnly hread hpatch _ _) fun left => .pure _
  · exact .pure _

end CallsOnly

variable {σ : Type} {host : Host σ} {options : Options} {event : Event}

theorem exists_run_storeWrites {leadId : Uuid} {lead : Lead} (patch : LeadPatch) {s : σ}
    (hstored : Store.find? Lead.id leadId (host.store s).leads = some lead) :
    ∃ s' now, (storeWrites leadId patch).run host.answer s =
      (.returned (patch.applyTo now lead), s') ∧
      host.store s' = (host.store s).written leadId patch now none := by
  unfold storeWrites
  by_cases hempty : patch.isEmpty = true
  · have hread : ((host.store s).answer (host.time s) (.getLead leadId)).1 = .ok (some lead) := by
      simp only [Store.answer, hstored]
    refine ⟨(host.answer (.store (.getLead leadId)) s).2, .epoch, ?_, ?_⟩
    · rw [if_pos hempty, host.run_store_bind hread, LeadPatch.applyTo_of_isEmpty _ _ hempty]
      rfl
    · rw [host.store_store, Store.written_of_isEmpty hempty]
      rfl
  · have hpatched : ((host.store s).answer (host.time s) (.applyPatch leadId patch)).1 =
        .ok (patch.applyTo (host.time s) lead) := by
      simp only [Store.answer, hstored]
    refine ⟨(host.answer (.store (.applyPatch leadId patch)) s).2, host.time s, ?_, ?_⟩
    · rw [if_neg hempty, ← Program.bind_pure (.store (.applyPatch leadId patch)),
        host.run_store_bind hpatched]
      rfl
    · rw [host.store_store]
      simp only [Store.answer, hstored]
      rfl

/-- A rule takes part, and the lead that it leaves is the one that is stored. -/
theorem exists_run_applyRule (hcalm : host.IsCalm) (options : Options) (rule : Rule) {lead : Lead}
    {s : σ} (hid : lead.id = event.leadId)
    (hstored : Store.find? Lead.id event.leadId (host.store s).leads = some lead) :
    ∃ summary patch now s', (applyRule options event.payload rule lead).run host.answer s =
        (.returned (summary, patch.applyTo now lead), s') ∧
      host.TakesPart options event lead s (.rule rule) summary patch s' ∧
      host.store s' = (host.store s).written event.leadId patch now summary.execution := by
  unfold applyRule
  cases hmatched :
    (rule.tryOn (RecordView.lookup ⟨some lead, event.payload⟩) options.emptyRulePolicy).matched with
  | false =>
    -- A rule that does not match makes no call at all; that is the empty patch, made at any time.
    refine ⟨_, .empty, .epoch, s, ?_, .unmatched hmatched,
      by rw [Store.written_of_isEmpty rfl]; rfl⟩
    dsimp only
    rw [hmatched]
    rfl
  | true =>
    let acting := (host.answer .stamp s).2
    let actions :=
      (rule.tryOn (RecordView.lookup ⟨some lead, event.payload⟩) options.emptyRulePolicy).actions
    let program :=
      applyActions (host.answer .stamp s).1.now options.defaultRecipients event.payload
        actions (some lead)
    obtain ⟨applied, final, hended⟩ :=
      applyActions_returns (Program.runs_transcript host.answer program acting)
      fun _ => Program.not_isBreakdown_of_mem_transcript hcalm
    let acted := (program.run host.answer acting).2
    have hacts : program.run host.answer acting = (.returned (applied, final), acted) :=
      Prod.ext hended rfl
    have hacted : host.store acted = host.store s := by
      rw [host.store_run_of_isOffline
        (applyActions_callsOnly (fun _ => trivial) (fun _ => trivial) _ _ _ _ _), host.store_stamp]
    have hlead : Store.find? Lead.id event.leadId (host.store acted).leads = some lead := by
      rw [hacted, hstored]
    obtain ⟨s', now, hstores, hs'⟩ := exists_run_storeWrites applied.patch hlead
    refine ⟨_, applied.patch, now, s', ?_, .matched hmatched hacts (by rw [hid]; exact hstores),
      by rw [hs', hacted]⟩
    dsimp only
    rw [hmatched]
    change (program >>= fun _ => _).run host.answer acting = _
    rw [Program.run_bind, hacts]
    change (storeWrites lead.id applied.patch >>= fun _ => _).run host.answer acted = _
    rw [hid, Program.run_bind, hstores]
    rfl

theorem exists_run_applyWorkflow (workflow : Workflow) {lead : Lead} {s : σ}
    (hid : lead.id = event.leadId)
    (hstored : Store.find? Lead.id event.leadId (host.store s).leads = some lead) :
    ∃ summary patch now s', (applyWorkflow options event workflow lead).run host.answer s =
        (.returned (summary, patch.applyTo now lead), s') ∧
      host.TakesPart options event lead s (.workflow workflow) summary patch s' ∧
      host.store s' = (host.store s).written event.leadId patch now summary.execution := by
  have hlead : Store.find? Lead.id lead.id (host.store s).leads = some lead := by rw [hid, hstored]
  obtain ⟨ended, report, ran, launched, now, hrun, hlaunch, hlaunched⟩ :=
    workflow.exists_run_launch host options event.kind event.payload hlead
  rw [hid] at hlaunched
  have hread : ((host.store launched).answer (host.time launched) (.getLead lead.id)).1 =
      .ok (some (report.patch.applyTo now lead)) := by
    simp only [Store.answer, hlaunched, hid, Store.find?_written hstored]
  refine ⟨_, report.patch, now, _, ?_, .workflow hrun hlaunch, ?_⟩
  · unfold applyWorkflow
    rw [Program.run_bind, hlaunch]
    dsimp only
    rw [host.run_store_bind hread]
    rfl
  · rw [host.store_store]
    exact hlaunched

theorem exists_run_apply (hcalm : host.IsCalm) (participant : Participant) {lead : Lead} {s : σ}
    (hid : lead.id = event.leadId)
    (hstored : Store.find? Lead.id event.leadId (host.store s).leads = some lead) :
    ∃ summary patch now s', (event.apply options lead participant).run host.answer s =
        (.returned (summary, patch.applyTo now lead), s') ∧
      host.TakesPart options event lead s participant summary patch s' ∧
      host.store s' = (host.store s).written event.leadId patch now summary.execution := by
  cases participant with
  | rule rule => exact exists_run_applyRule hcalm options rule hid hstored
  | workflow workflow => exact exists_run_applyWorkflow workflow hid hstored

/-- Participants take their turns, if the lead at hand is the one that is stored. -/
theorem exists_run_applyAll (hcalm : host.IsCalm) (options : Options)
    (participants : List Participant) {lead : Lead} {s : σ} (hid : lead.id = event.leadId)
    (hstored : Store.find? Lead.id event.leadId (host.store s).leads = some lead) :
    ∃ summaries writes s', (event.applyAll options participants lead).run host.answer s =
      (.returned summaries, s') ∧
      host.InTurn options event participants s summaries writes s' := by
  induction participants generalizing lead s with
  | nil => exact ⟨[], [], s, rfl, .done⟩
  | cons participant rest ih =>
    obtain ⟨summary, patch, now, next, happly, htakesPart, hnext⟩ :=
      exists_run_apply hcalm participant hid hstored
    have hleft : Store.find? Lead.id event.leadId (host.store next).leads =
        some (patch.applyTo now lead) := by
      rw [hnext]
      exact Store.find?_written hstored
    obtain ⟨summaries, writes, s', hrest, hinTurn⟩ := ih (by rw [LeadPatch.id_applyTo, hid]) hleft
    refine ⟨summary :: summaries, (patch, now) :: writes, s', ?_,
      .next hstored htakesPart hnext hinTurn⟩
    unfold applyAll
    rw [Program.run_bind, happly]
    dsimp only
    rw [Program.run_bind, hrest]
    rfl

theorem exists_run_workflows (host : Host σ) (event : Event) (s : σ) :
    ∃ s', event.workflows.run host.answer s =
      (.returned ((host.store s).workflowsFor event.kind), s') ∧
      host.store s' = host.store s := by
  unfold workflows Store.workflowsFor
  cases htrigger : Trigger.ofEvent? event.kind with
  | none => exact ⟨s, by simp [Program.run, pure], rfl⟩
  | some trigger =>
    refine ⟨(host.answer (.store (.listActiveWorkflows trigger)) s).2, ?_, host.store_store _ _⟩
    have hfilter : ∀ workflow : Workflow, (workflow.appliesTo event.kind &&
        (workflow.active && decide (workflow.trigger = trigger))) =
          (workflow.active && decide (some trigger = some workflow.trigger)) := by
      intro workflow
      rw [Workflow.appliesTo, htrigger]
      cases workflow.active <;> simp [eq_comm]
    dsimp only
    rw [map_eq_pure_bind, host.run_store_bind rfl]
    simp only [List.filter_filter, hfilter]
    rfl

/-- What a dispatch asks the store for at first: the lead, and what takes part in the event. -/
def opening (event : Event) : Program (Lead × List Participant) := do
  let lead ← .orFail (.leadNotFound event.leadId) (← .store (.getLead event.leadId))
  let rules ← (List.filter (·.appliesTo event.kind)) <$> Program.store (.listActiveRules none)
  let workflows ← event.workflows
  pure (lead, Participant.schedule rules workflows)

theorem exists_workflows_of_runs {event : Event} {exchanges : List Exchange}
    {workflows : List Workflow} (h : event.workflows.Runs exchanges (.returned workflows)) :
    ∀ workflow ∈ workflows, ∃ trigger listed,
    ⟨.store (.listActiveWorkflows trigger), .ok listed⟩ ∈ exchanges ∧
      workflow ∈ listed := by
  unfold Event.workflows at h
  split at h
  · next trigger _ =>
    obtain ⟨listed, hlists, rfl⟩ := Program.runs_map_returned.1 h
    obtain rfl := Program.runs_store_returned.1 hlists
    exact fun workflow hmem =>
      ⟨trigger, listed, List.mem_singleton_self _, (List.mem_filter.1 hmem).1⟩
  · obtain ⟨-, hended⟩ := Program.runs_pure.1 h
    cases hended
    exact List.forall_mem_nil _

theorem exists_participants_of_runs {event : Event} {exchanges : List Exchange} {lead : Lead}
    {participants : List Participant}
    (h : event.opening.Runs exchanges (.returned (lead, participants))) :
    ∃ rules workflows,
    participants = Participant.schedule (rules.filter (·.appliesTo event.kind)) workflows ∧
      ⟨.store (.listActiveRules none), .ok rules⟩ ∈ exchanges ∧
      ∀ workflow ∈ workflows, ∃ trigger listed,
      ⟨.store (.listActiveWorkflows trigger), .ok listed⟩ ∈ exchanges ∧
        workflow ∈ listed := by
  obtain ⟨found, _, rest, rfl, -, hrest⟩ := Program.runs_bind_returned.1 h
  obtain ⟨given, _, rest, rfl, -, hrest⟩ := Program.runs_bind_returned.1 hrest
  obtain ⟨applicable, _, rest, rfl, hlists, hrest⟩ := Program.runs_bind_returned.1 hrest
  obtain ⟨workflows, _, rest, rfl, hworkflows, hends⟩ := Program.runs_bind_returned.1 hrest
  obtain ⟨rules, hlisted, rfl⟩ := Program.runs_map_returned.1 hlists
  obtain rfl := Program.runs_store_returned.1 hlisted
  obtain ⟨rfl, hended⟩ := Program.runs_pure.1 hends
  cases hended
  refine ⟨rules, workflows, rfl, by simp, fun workflow hmem => ?_⟩
  obtain ⟨trigger, listed, hlisted, hworkflow⟩ := exists_workflows_of_runs hworkflows workflow hmem
  exact ⟨trigger, listed, by simp [hlisted], hworkflow⟩

theorem dispatch_eq (options : Options) (event : Event) :
    event.dispatch options = event.opening >>= fun (lead, participants) =>
      event.applyAll options participants lead := by
  simp only [dispatch, opening, bind_assoc, Program.pure_bind]

theorem exists_run_opening {lead : Lead} {s : σ}
    (hstored : Store.find? Lead.id event.leadId (host.store s).leads = some lead) :
    ∃ begun, event.opening.run host.answer s =
      (.returned (lead, Participant.schedule ((host.store s).rulesFor event.kind)
        ((host.store s).workflowsFor event.kind)), begun) ∧
      host.store begun = host.store s := by
  have hread : ((host.store s).answer (host.time s) (.getLead event.leadId)).1 =
      .ok (some lead) := by
    simp only [Store.answer, hstored]
  let found := (host.answer (.store (.getLead event.leadId)) s).2
  have hfound : host.store found = host.store s := host.store_store _ _
  let listed := (host.answer (.store (.listActiveRules none)) found).2
  have hlisted : host.store listed = host.store s := by rw [host.store_store, hfound]; rfl
  obtain ⟨begun, hworkflows, hbegun⟩ := exists_run_workflows host event listed
  have hrules :
    ((host.store found).rules.filter fun rule => rule.active &&
      Option.all (rule.kind = ·) none).filter
      (·.appliesTo event.kind) = (host.store s).rulesFor event.kind := by
    rw [hfound, List.filter_filter, Store.rulesFor]
    congr 1
    funext rule
    rw [Option.all_none, Bool.and_true, Bool.and_comm]
  refine ⟨begun, ?_, by rw [hbegun, hlisted]⟩
  unfold opening
  rw [host.run_store_bind hread]
  change ((List.filter _ <$> Program.store (.listActiveRules none)) >>= fun _ => _).run
    host.answer found = _
  rw [map_eq_pure_bind, bind_assoc, host.run_store_bind rfl]
  change (event.workflows >>= fun _ => _).run host.answer listed = _
  rw [Program.run_bind, hworkflows, hlisted, ← hrules]
  rfl

theorem exists_run_dispatch (options : Options) {lead : Lead} {s : σ}
    (hstored : Store.find? Lead.id event.leadId (host.store s).leads = some lead) :
    ∃ begun, (event.dispatch options).run host.answer s =
        (event.applyAll options (Participant.schedule ((host.store s).rulesFor event.kind)
          ((host.store s).workflowsFor event.kind)) lead).run host.answer begun ∧
      host.store begun = host.store s := by
  obtain ⟨begun, hopening, hbegun⟩ := exists_run_opening hstored
  exact ⟨begun, by rw [dispatch_eq, Program.run_bind, hopening], hbegun⟩

/-- A dispatch lets what takes part in its event act in turn, each participant on the lead as it is
stored by then, and the lead that is stored at the end is what their patches come to. -/
theorem dispatch_in_turn (hcalm : host.IsCalm) (options : Options) (event : Event) (s : σ)
    {lead : Lead} (hstored : Store.find? Lead.id event.leadId (host.store s).leads = some lead) :
    ∃ participants summaries writes begun s',
      StablySorted (fun p q => q ≤ p) Participant.priority
        ((host.store s).participants event.kind) participants ∧
      host.store begun = host.store s ∧
      host.InTurn options event participants begun summaries writes s' ∧
      (event.dispatch options).run host.answer s = (.returned summaries, s') ∧
      summaries.map Summary.participant = participants ∧
      Store.find? Lead.id event.leadId (host.store s').leads =
        some (writes.foldl (fun lead (patch, now) => patch.applyTo now lead) lead) := by
  obtain ⟨begun, hdispatch, hbegun⟩ := exists_run_dispatch options hstored
  have hheld : Store.find? Lead.id event.leadId (host.store begun).leads = some lead := by
    rw [hbegun, hstored]
  obtain ⟨summaries, writes, s', happlyAll, hinTurn⟩ :=
    exists_run_applyAll hcalm options _ (Store.id_of_find? hstored) hheld
  exact ⟨_, summaries, writes, begun, s', Rule.byPriority_stablySorted _ _, hbegun, hinTurn,
    hdispatch.trans happlyAll, hinTurn.map_participant, hinTurn.find?_leads hheld⟩

/-- A lead, a rule that qualifies hot leads and, with a higher priority, a rule that makes all leads
hot. -/
def hotLead : Store where
  leads := [.blank Program.stillFresh]
  rules := [
    .qualifyHotLeads Program.stillFresh (.ofNat false 60),
    { Rule.blank Program.stillFresh "Score all leads" .scoring 90 with
      id := ⟨1⟩
      actions := [.setScore (.ofNat false 70)] }]

theorem dispatch_in_turn_hotLead :
    let lead := Lead.blank Program.stillFresh
    let event := Event.leadCreated .epoch lead.id
    Host.still.IsCalm ∧ Store.find? Lead.id event.leadId hotLead.leads = some lead ∧
    ∃ participants summaries writes begun s',
      StablySorted (fun p q => q ≤ p) Participant.priority
        (hotLead.participants event.kind) participants ∧
      begun = hotLead ∧ Host.still.InTurn {} event participants begun summaries writes s' ∧
      (event.dispatch {}).run Host.still.answer hotLead = (.returned summaries, s') ∧
      summaries.map Summary.participant = participants ∧
      Store.find? Lead.id event.leadId s'.leads =
        some (writes.foldl (fun lead (patch, now) => patch.applyTo now lead) lead) := by
  have hcalm : Host.still.IsCalm := fun call s text => nofun
  exact ⟨hcalm, rfl, dispatch_in_turn hcalm {} _ hotLead rfl⟩

end Event

end LeadAutomation
