import LeadAutomation.Proofs.Action.Carried
import LeadAutomation.Proofs.Faults
import LeadAutomation.Proofs.Interleavings
import LeadAutomation.Proofs.Workflow.Writes
import Mathlib.Data.Option.Basic

/-!
# The last write counts

Dispatches and started workflows hold copies of leads, and while one of them is at work others store
what they have written, so its copy goes stale. Nothing is lost by that. What is stored of a lead
are patches, a patch sets only what the actions of one rule or one workflow write, and what these
write is settled before any copy is looked at. So after every call of every interleaving each
attribute of a stored lead has the value that was last written to it, if it was written at all:
`Command.last_write_counts`.
-/

namespace LeadAutomation

open LeadPatch

/-! ### Patches in a history -/

/-- The patch that is made on a lead, if one is. -/
def Exchange.patchOn? (id : Uuid) : Exchange → Option LeadPatch
  | ⟨.store (.applyPatch other patch), _⟩ => if other = id then some patch else none
  | ⟨.store _, _⟩ | ⟨.effect _, _⟩ | ⟨.stamp, _⟩ => none

/-- The patches that are made on a lead in a history, in their order. -/
def patchesOn {ι : Type} (id : Uuid) (history : List (ι × Exchange)) : List LeadPatch :=
  history.filterMap fun entry => entry.2.patchOn? id

theorem patchesOn_concat {ι : Type} {id : Uuid} {history : List (ι × Exchange)}
    {entry : ι × Exchange} :
    patchesOn id (history ++ [entry]) = patchesOn id history ++ (entry.2.patchOn? id).toList := by
  rw [patchesOn, List.filterMap_append, ← patchesOn]
  cases hpatch : entry.2.patchOn? id <;> simp [hpatch]

/-- The lead with an identifier in the store of a host. -/
def Host.lead? {σ : Type} (host : Host σ) (id : Uuid) (s : σ) : Option Lead :=
  Store.find? Lead.id id (host.store s).leads

/-- A call that saves no lead leaves a lead as it is or makes its patch on it. -/
theorem Host.lead?_answer {σ : Type} (host : Host σ) (id : Uuid) {call : Call}
    (hsaves : ∀ lead, call ≠ .store (.saveLead lead)) (s : σ) :
    host.lead? id (host.answer call s).2 =
      (host.lead? id s).map fun lead => lead.patched
        (((Exchange.mk call (host.answer call s).1).patchOn? id).toList.map fun patch =>
          (patch, host.time s)) := by
  have hsame : ∀ found : Option Lead, found = found.map fun lead => lead.patched [] := by
    rintro (_ | lead) <;> rfl
  obtain call | call | _ := call
  · rw [lead?, host.store_store]
    cases call with
    | saveLead lead => exact absurd rfl (hsaves lead)
    | applyPatch other patch =>
      have hid : ∀ lead, (patch.applyTo (host.time s) lead).id = lead.id :=
        fun lead => patch.id_applyTo _ lead
      have hleads : ((host.store s).answer (host.time s) (.applyPatch other patch)).2.leads =
          Store.modify Lead.id other (patch.applyTo (host.time s)) (host.store s).leads := by
        cases hstored : Store.find? Lead.id other (host.store s).leads with
        | some lead => simp only [Store.answer, hstored]
        | none => simp only [Store.answer, hstored, Store.modify_of_find?_eq_none hstored]
      rw [hleads]
      by_cases heq : other = id
      · subst heq
        rw [Store.find?_modify hid, Exchange.patchOn?, if_pos rfl]
        rfl
      · rw [Store.find?_modify_of_ne hid heq, Exchange.patchOn?, if_neg heq]
        exact hsame _
    | updateExecution execution =>
      unfold Store.answer
      dsimp only
      split <;> exact hsame _
    | _ => exact hsame _
  · rw [lead?, host.store_effect]
    exact hsame _
  · rw [lead?, host.store_stamp]
    exact hsame _

/-! ### What is written -/

/-- The action of a step, if it is one. -/
def Step.action? (step : Step) : Option Action :=
  match step.settings with
  | .ok (.action action) => some action
  | _ => none

namespace Turn

variable {options : Options}

theorem writes_eq (turn : Turn options) : turn.writes =
    (turn.step.action?.map fun action =>
      (action.plan turn.view options.defaultRecipients).patch).getD .empty := by
  unfold writes Step.action?
  cases turn.step.settings with
  | error fault => rfl
  | ok settings => cases settings <;> rfl

theorem patch_eq_of_action {turn : Turn options} {action : Action}
    (hsettings : turn.step.settings = .ok (.action action)) :
    turn.patch = (action.plan turn.view options.defaultRecipients).patch := by
  obtain ⟨ended, hruns, hsettled⟩ := turn.performed
  simp only [Step.perform, hsettings, Step.performAction] at hruns
  obtain ⟨outcome, own, rest, -, hplan, hrest⟩ | ⟨error, hplan, -⟩ | ⟨text, hplan, rfl⟩ :=
    Program.runs_bind.1 hruns
  · split at hrest
    · obtain ⟨-, rfl⟩ := Program.runs_pure.1 hrest
      exact (Prod.mk.inj hsettled).2.symm
    · obtain ⟨-, rfl⟩ := Program.runs_pure.1 hrest
      exact (Prod.mk.inj hsettled).2.symm
  · have hends := ActionPlan.ends_of_runs_carryOut hplan
    generalize turn.exchanges = exchanges at hends
    cases hends
  · -- What breaks down has asked something of a system outside, and so has nothing to write.
    have hends := ActionPlan.ends_of_runs_carryOut hplan
    generalize turn.exchanges = exchanges at hends
    cases hends with
    | breakdown unwritten => exact (Prod.mk.inj hsettled).2.symm.trans unwritten.symm

/-- A turn writes what its action is to write, whatever comes of it. -/
theorem patch_eq_writes (turn : Turn options) : turn.patch = turn.writes := by
  rw [turn.patch_eq]
  split
  · rfl
  · next hfailed =>
    unfold writes
    split
    · next action hsettings => rw [← patch_eq_of_action hsettings, turn.patch_eq, if_neg hfailed]
    · rfl

theorem patch_of_lead {turn : Turn options} {lead : Lead} (hlead : turn.view.lead = some lead) :
    turn.patch = ((turn.step.action?.bind Action.write?).map PlannedWrite.patch).getD .empty := by
  rw [turn.patch_eq_writes, writes_eq]
  cases turn.step.action? with
  | none => rfl
  | some action => exact Action.patch_plan hlead

theorem mergeAll_patch_of_lead {turns : List (Turn options)}
    (hlead : ∀ turn ∈ turns, turn.view.lead.isSome = true) :
    mergeAll (turns.map Turn.patch) =
      mergeAll ((((turns.map Turn.step).filterMap Step.action?).filterMap Action.write?).map
        PlannedWrite.patch) := by
  induction turns with
  | nil => rfl
  | cons turn turns ih =>
    obtain ⟨hfirst, hrest⟩ := List.forall_mem_cons.1 hlead
    obtain ⟨lead, hlead⟩ := Option.isSome_iff_exists.1 hfirst
    rw [List.map_cons, mergeAll_cons, ih hrest, patch_of_lead hlead, List.map_cons]
    cases haction : turn.step.action? with
    | none =>
      rw [List.filterMap_cons_none haction]
      exact empty_merge _
    | some action =>
      rw [List.filterMap_cons_some haction, Option.bind_some]
      cases hwrite : action.write? with
      | none =>
        rw [List.filterMap_cons_none hwrite]
        exact empty_merge _
      | some write =>
        rw [List.filterMap_cons_some hwrite, List.map_cons, mergeAll_cons]
        rfl

end Turn

/-- What a rule or a workflow does to leads, in this order. -/
def Participant.actions : Participant → List Action
  | .rule r => r.actions
  | .workflow w => w.stepsInOrder.filterMap Step.action?

/-- A rule or a workflow is in the reply of the store. -/
def Exchange.Gives (participant : Participant) : Exchange → Prop
  | ⟨.store (.listActiveRules _), .ok rules⟩ => ∃ rule ∈ rules, participant = .rule rule
  | ⟨.store (.listActiveWorkflows _), .ok workflows⟩ =>
    ∃ workflow ∈ workflows, participant = .workflow workflow
  | ⟨.store (.getWorkflow _), .ok found⟩ =>
    ∃ workflow, found = some workflow ∧ participant = .workflow workflow
  | _ => False

/-- The store has given a rule or a workflow before. -/
def Participant.IsGiven (participant : Participant) (had : List Exchange) : Prop :=
  ∃ exchange ∈ had, exchange.Gives participant

theorem Participant.IsGiven.append {participant : Participant} {had : List Exchange}
    (h : participant.IsGiven had) (more : List Exchange) : participant.IsGiven (had ++ more) := by
  obtain ⟨exchange, hmem, hgives⟩ := h
  exact ⟨exchange, List.mem_append_left _ hmem, hgives⟩

/-- A patch is what the first actions of a rule or a workflow write that the store has given
before. -/
def LeadPatch.StemsFrom (patch : LeadPatch) (had : List Exchange) : Prop :=
  ∃ participant : Participant, participant.IsGiven had ∧ ∃ done, done <+: participant.actions ∧
    patch = mergeAll ((done.filterMap Action.write?).map PlannedWrite.patch)

/-- What commands may do to leads after some exchanges: they make patches that set something and
stem from these exchanges. -/
def Command.MayCall (had : List Exchange) : Call → Prop
  | .store (.applyPatch _ patch) => patch.isEmpty = false ∧ patch.StemsFrom had
  | .store (.saveLead _) => False
  | .store _ | .effect _ | .stamp => True

open Program (CallsAfter)

variable {options : Options} {had : List Exchange}

theorem Command.mayCall_of_isOffline {call : Call} (h : call.IsOffline) (had : List Exchange) :
    MayCall had call := by
  cases call with
  | store call => exact h.elim
  | effect call => trivial
  | stamp => trivial

namespace Event

theorem storeWrites_callsAfter {leadId : Uuid} {patch : LeadPatch} (hstems : patch.StemsFrom had) :
    (storeWrites leadId patch).CallsAfter Command.MayCall had := by
  unfold storeWrites
  split
  · exact .of_callsOnly (.bind (.store fun _ => trivial) fun found => .orFail _ found)
  · next hempty => exact .store ⟨by simpa using hempty, hstems⟩

theorem applyRule_callsAfter {payload : Json} {rule : Rule} {lead : Lead}
    (hgiven : Participant.IsGiven (.rule rule) had) :
    (applyRule options payload rule lead).CallsAfter Command.MayCall had := by
  unfold applyRule
  dsimp only
  split
  · next hmatched =>
    refine .stamp_bind trivial fun fresh => ?_
    refine .bind (.of_callsOnly ?_) ?_
    · exact applyActions_callsOnly (fun _ _ => trivial) (fun _ _ => trivial) _ _ _ _ _
    rintro exchanges ⟨applied, final⟩ hruns
    refine .bind (storeWrites_callsAfter ?_) fun _ _ _ => .pure _
    refine ⟨.rule rule, (hgiven.append _).append _, _, List.prefix_refl _, ?_⟩
    rw [(carriedOut_of_runs hruns).patch_eq rfl, Rule.actions_of_matched hmatched]
    rfl
  · exact .pure _

end Event

namespace Workflow

variable {workflow : Workflow} {event : EventKind} {triggerData : Json}

/-- What is kept of a run stems from its workflow. -/
theorem keep_callsAfter {execution ended : Execution} {lead : Option Lead} {report : RunReport}
    {exchanges : List Exchange} (hrunning : execution.status = .running)
    (hruns : (workflow.run options execution lead).Runs exchanges (.returned (ended, report)))
    (hgiven : Participant.IsGiven (.workflow workflow) had) :
    (keep (lead.map (·.id)) ended report.patch).CallsAfter Command.MayCall had := by
  refine .store_bind trivial fun _ => .bind ?_ fun _ _ _ => .pure _
  cases lead with
  | none => exact .pure _
  | some lead =>
    change (write (some lead.id) report.patch).CallsAfter _ _
    unfold write
    dsimp only
    split
    · exact .pure _
    · next hempty =>
      refine .bind (.store ⟨by simpa using hempty, ?_⟩) fun _ _ _ => .pure _
      obtain ⟨turns, final, fresh, hcourse, -, hended⟩ := exists_course_of_runs_run hrunning hruns
      cases hended
      refine ⟨.workflow workflow, hgiven.append _,
        (turns.map Turn.step).filterMap Step.action?, ?_, ?_⟩
      · exact hcourse.map_step_prefix.filterMap _
      · exact Turn.mergeAll_patch_of_lead (hcourse.isSome_view rfl)

theorem launch_callsAfter {lead : Option Lead}
    (hgiven : Participant.IsGiven (.workflow workflow) had) :
    (workflow.launch options lead event triggerData).CallsAfter Command.MayCall had := by
  rw [launch_eq]
  refine .stamp_bind trivial fun fresh => .store_bind trivial fun _ => ?_
  refine .bind
    (.of_callsOnly
      ((run_isOffline options workflow _ lead).mono fun _ => Command.mayCall_of_isOffline)) ?_
  rintro exchanges ⟨ended, report⟩ hruns
  exact keep_callsAfter rfl hruns (((hgiven.append _).append _).append _)

end Workflow

namespace Event

theorem apply_callsAfter (event : Event) {lead : Lead} {participant : Participant}
    (hgiven : participant.IsGiven had) :
    (event.apply options lead participant).CallsAfter Command.MayCall had := by
  cases participant with
  | rule rule => exact applyRule_callsAfter hgiven
  | workflow workflow =>
    refine .bind (Workflow.launch_callsAfter hgiven) fun _ ended _ =>
      .store_bind trivial fun found => ?_
    exact .of_callsOnly (.bind (.orFail _ found) fun left => .pure _)

theorem applyAll_callsAfter (event : Event) {participants : List Participant} {lead : Lead}
    (hgiven : ∀ participant ∈ participants, participant.IsGiven had) :
    (event.applyAll options participants lead).CallsAfter Command.MayCall had := by
  induction participants generalizing lead had with
  | nil => exact .pure _
  | cons participant rest ih =>
    obtain ⟨hfirst, hrest⟩ := List.forall_mem_cons.1 hgiven
    refine .bind (event.apply_callsAfter hfirst) ?_
    rintro exchanges ⟨summary, left⟩ -
    exact .bind (ih fun other hmem => (hrest other hmem).append _) fun _ _ _ => .pure _

theorem isGiven_of_runs_opening {event : Event} {exchanges : List Exchange} {lead : Lead}
    {participants : List Participant}
    (hruns : event.opening.Runs exchanges (.returned (lead, participants))) :
    ∀ participant ∈ participants, participant.IsGiven exchanges := by
  obtain ⟨rules, workflows, rfl, hrules, hworkflows⟩ := exists_participants_of_runs hruns
  intro participant hmem
  obtain ⟨rule, hrule, rfl⟩ | ⟨workflow, hworkflow, rfl⟩ := Participant.mem_schedule.1 hmem
  · exact ⟨_, hrules, rule, (List.mem_filter.1 hrule).1, rfl⟩
  · obtain ⟨trigger, listed, hlisted, hmem⟩ := hworkflows workflow hworkflow
    exact ⟨_, hlisted, workflow, hmem, rfl⟩

theorem opening_mayCall (event : Event) :
    event.opening.CallsOnly fun call => ∀ had, Command.MayCall had call := by
  refine .bind (.store fun _ => trivial) fun found => .bind (.orFail _ found) fun lead => ?_
  refine .bind (.map _ (.store fun _ => trivial)) fun rules => .bind ?_ fun workflows => .pure _
  unfold workflows
  split
  · exact .map _ (.store fun _ => trivial)
  · exact .pure _

theorem dispatch_callsAfter (event : Event) :
    (event.dispatch options).CallsAfter Command.MayCall had := by
  rw [dispatch_eq]
  refine .bind (.of_callsOnly event.opening_mayCall) ?_
  rintro exchanges ⟨lead, participants⟩ hruns
  refine event.applyAll_callsAfter fun participant hmem => ?_
  obtain ⟨exchange, hexchange, hgives⟩ := isGiven_of_runs_opening hruns participant hmem
  exact ⟨exchange, List.mem_append_right _ hexchange, hgives⟩

end Event

theorem Workflow.execute_callsAfter (workflowId : Uuid) (leadId : Option Uuid)
    (triggerData : Json) :
    (execute options workflowId leadId triggerData).CallsAfter Command.MayCall had := by
  refine .store_bind trivial fun found => ?_
  cases found with
  | none => trivial
  | some workflow =>
    have hgiven :
        Participant.IsGiven (.workflow workflow)
            (had ++ [⟨.store (.getWorkflow workflowId), .ok (some workflow)⟩]) :=
      ⟨_, List.mem_append_right _ (List.mem_singleton_self _), workflow, rfl, rfl⟩
    change CallsAfter _ _ (if _ then _ else _)
    split
    · trivial
    · cases leadId with
      | none => exact launch_callsAfter hgiven
      | some id =>
        refine .bind
          (.of_callsOnly (.map _ (.bind (.store fun _ => trivial) fun found => .orFail _ found))) ?_
        exact fun _ _ _ => launch_callsAfter (hgiven.append _)

theorem Command.program_callsAfter (command : Command) :
    (command.program options).CallsAfter MayCall had := by
  cases command with
  | dispatch event => exact .bind event.dispatch_callsAfter fun _ _ _ => .pure _
  | execute workflowId leadId triggerData =>
    exact .bind (Workflow.execute_callsAfter workflowId leadId triggerData) fun _ _ _ => .pure _

/-! ### Commands at once -/

section Running

variable {ι σ : Type} [DecidableEq ι]

/-- Commands that run at once, each with its own options. -/
def Command.running (options : ι → Options) (commands : ι → Command) (s : σ) : Scene ι Unit σ :=
  ⟨fun i => (commands i).program (options i), s⟩

/-- Where no one saves leads, a lead is at any time what the patches made on it so far have left. -/
theorem Host.lead?_after (host : Host σ) {scene : Scene ι Unit σ}
    (hmay : ∀ i, (scene.left i).CallsAfter Command.MayCall []) (id : Uuid) (schedule : List ι) :
    ∃ writes : List (LeadPatch × Timestamp), writes.map Prod.fst =
      patchesOn id (scene.history host.answer schedule) ∧
      host.lead? id (scene.after host.answer schedule).state =
        (host.lead? id scene.state).map fun lead => lead.patched writes := by
  induction schedule using List.reverseRecOn with
  | nil => exact ⟨[], rfl, by rw [Scene.after_nil]; cases host.lead? id scene.state <;> rfl⟩
  | append_singleton earlier i ih =>
    obtain ⟨writes, hwrites, hlead⟩ := ih
    rw [Scene.history_append, Scene.after_append, Scene.after_cons, Scene.after_nil]
    cases hleft : (scene.after host.answer earlier).left i with
    | done ended =>
      rw [Scene.history_of_done hleft, List.append_nil, Scene.turn_of_done hleft]
      exact ⟨writes, hwrites, hlead⟩
    | ask call next =>
      have hsaves : ∀ lead, call ≠ .store (.saveLead lead) := by
        rintro lead rfl
        exact Scene.allowed_of_ask (hmay i) hleft
      rw [Scene.history_of_ask hleft, Scene.state_turn hleft, host.lead?_answer id hsaves, hlead,
        Option.map_map]
      refine ⟨writes ++ _, ?_,
        congrArg (Option.map · _) (funext fun lead => (lead.patched_append writes _).symm)⟩
      rw [List.map_append, hwrites, patchesOn_concat, List.map_map]
      exact congrArg _ (List.map_id _)

/-- Whatever dispatches and started workflows do at once, at every moment each attribute of a lead
shows what was last written to it. Every write is a patch that sets what the actions of one rule or
workflow set which its writer was given, and nothing else. -/
theorem Command.last_write_counts (host : Host σ) (options : ι → Options) (commands : ι → Command)
    (s : σ) (schedule : List ι) :
    let history := (running options commands s).history host.answer schedule
    (∀ id, Option.Rel (fun saved lead => lead.Shows saved (patchesOn id history)) (host.lead? id s)
      (host.lead? id ((running options commands s).after host.answer schedule).state)) ∧
    ∀ before i id patch reply after,
    history = before ++ (i, ⟨.store (.applyPatch id patch), reply⟩) :: after →
      patch.isEmpty = false ∧ patch.StemsFrom (Scene.own i before) := by
  intro history
  have hmay : ∀ i, ((running options commands s).left i).CallsAfter MayCall [] :=
    fun i => (commands i).program_callsAfter
  refine ⟨fun id => ?_, ?_⟩
  · obtain ⟨writes, hwrites, hlead⟩ := host.lead?_after hmay id schedule
    rw [hlead, ← hwrites]
    cases hsaved : host.lead? id s with
    | none =>
      rw [show host.lead? id (running options commands s).state = none from hsaved]
      exact .none
    | some saved =>
      rw [show host.lead? id (running options commands s).state = some saved from hsaved]
      exact .some (saved.shows_patched writes)
  · intro before i id patch reply after hhistory
    obtain ⟨earlier, later, next, -, hbefore, hasks, -, -⟩ := Scene.exists_turn hhistory
    rw [← hbefore]
    exact Scene.allowed_of_ask (hmay i) hasks

end Running

namespace Command

/-- A lead, a workflow that scores it and a rule that qualifies it. -/
def scoringAndQualifying : Store :=
  { scoring with
    rules := [{ Rule.blank Program.stillFresh "qualify" .statusChange 0 with
      actions := [.changeStatus .qualified] }] }

/-- An update of the lead, which sets off the rule, and a start of the workflow. -/
def qualifyOrScore : Bool → Command
  | false => .dispatch (.leadUpdated .epoch (Lead.blank Program.stillFresh).id (.obj []))
  | true => .execute ⟨1⟩ (some (Lead.blank Program.stillFresh).id) .null

/-- The workflow reads the lead, then the rule changes it, and then the workflow stores its
writes. -/
theorem last_write_counts_qualifyOrScore :
    let scene := running (fun _ => {}) qualifyOrScore scoringAndQualifying
    let schedule := [true, true] ++ List.replicate 4 false ++ List.replicate 6 true
    let history := scene.history Host.still.answer schedule
    let after := (scene.after Host.still.answer schedule).state
    after.leads.map (fun lead => (lead.score, lead.status)) = [(70, .qualified)] ∧
    patchesOn ⟨0⟩ history = [{ status := some .qualified }, { score := some 70 }] ∧
    (∀ id, Option.Rel (fun saved lead => lead.Shows saved (patchesOn id history))
      (Host.still.lead? id scoringAndQualifying)
      (Host.still.lead? id after)) ∧
    ∀ before i id patch reply later,
      history = before ++ (i, ⟨.store (.applyPatch id patch), reply⟩) :: later →
      patch.isEmpty = false ∧ patch.StemsFrom (Scene.own i before) := by
  intro scene schedule history after
  obtain ⟨hshows, hstems⟩ :=
    last_write_counts Host.still (fun _ => {}) qualifyOrScore scoringAndQualifying schedule
  exact ⟨by decide +kernel, by decide +kernel, hshows, hstems⟩

end Command

end LeadAutomation
