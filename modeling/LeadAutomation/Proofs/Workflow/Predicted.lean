import LeadAutomation.Proofs.Lead.Views
import LeadAutomation.Proofs.Manners
import LeadAutomation.Proofs.Workflow.Writes
import LeadAutomation.Trial
import Mathlib.Data.List.Forall2

/-!
# Workflows do what their preview shows

A preview runs a workflow in a rehearsal, on a lead that need not be stored and with a record that
never will be. Started for real, the workflow runs on the stored lead, and its record and its writes
are stored. If every system outside obliges, both runs take the same course turn by turn, up to the
clock: `Course.alike`. The clock shows in the times of records, in the time of a lead's last change,
which no step sees, and in the time at which a delay would be over.
-/

namespace LeadAutomation

/-- A value without a member, if it is an object. -/
def Json.without (key : String) : Json → Json
  | .obj members => .obj (members.filter fun member => member.1 ≠ key)
  | json => json

/-- An entry without what depends on the clock: when it was made, how long that took and when a
delay will be over. -/
def LogEntry.untimed (entry : LogEntry) : LogEntry :=
  { entry with
    result := if entry.stepKind = .known .delay then entry.result.map (Json.without "resumeAt")
      else entry.result
    executedAt := .epoch
    durationMs := 0 }

variable {options : Options}

theorem Step.delayOutcome_untimed (minutes : Binary64) :
    (∃ error, ∀ now, delayOutcome now minutes = .failed error true) ∨
      ∃ result, ∀ now, ∃ timed, delayOutcome now minutes = .passed timed ∧
      timed.without "resumeAt" = result := by
  by_cases hnegative : minutes.less .zero = true
  · exact .inl ⟨_, fun now => by rw [delayOutcome, if_pos hnegative]⟩
  · refine .inr ⟨.obj [("delayMinutes", .float minutes)],
      fun now => ⟨_, by rw [delayOutcome, if_neg hnegative], ?_⟩⟩
    simp [Json.without]

namespace Turn

/-- Two turns that differ by the clock alone. -/
structure Alike (turn other : Turn options) : Prop where
  exchanges : turn.exchanges = other.exchanges
  entry : turn.entry.untimed = other.entry.untimed
  patch : turn.patch = other.patch
  ends : turn.ends = other.ends
  stopped : turn.stopped = other.stopped
  failure : turn.failure? = other.failure?
  lead : turn.leadAfter.map Lead.untimed = other.leadAfter.map Lead.untimed

theorem leadAfter_congr {others : Options} {turn : Turn options} {other : Turn others}
    (hview : turn.view.untimed = other.view.untimed) (hpatch : turn.patch = other.patch) :
    turn.leadAfter.map Lead.untimed = other.leadAfter.map Lead.untimed := by
  have hlead : turn.view.lead.map Lead.untimed = other.view.lead.map Lead.untimed :=
    congrArg RecordView.lead hview
  rw [leadAfter, leadAfter, LeadPatch.map_untimed_applyTo,
    LeadPatch.map_untimed_applyTo, hlead, hpatch]

variable {turn other : Turn options} {manner : Manner} {asked : List EffectCall}

theorem alike_of_outcome (hstep : turn.step = other.step)
    (hview : turn.view.untimed = other.view.untimed) (hexchanges : turn.exchanges = other.exchanges)
    (houtcome : turn.outcome = other.outcome) (hpatch : turn.patch = other.patch) :
    turn.Alike other where
  exchanges := hexchanges
  entry := by
    unfold entry
    rw [hstep, houtcome]
    cases other.outcome <;> rfl
  patch := hpatch
  ends := by rw [ends, houtcome, ends]
  stopped := by rw [stopped, houtcome, stopped]
  failure := by rw [failure?, houtcome, hstep, failure?]
  lead := leadAfter_congr hview hpatch

theorem of_delay {minutes : Binary64} (hsettings : turn.step.settings = .ok (.delay minutes)) :
    turn.exchanges = [] ∧ turn.outcome = Step.delayOutcome turn.fresh.now minutes ∧
    turn.patch = .empty := by
  obtain ⟨ended, hruns, hsettled⟩ := turn.performed
  simp only [Step.perform, hsettings] at hruns
  obtain ⟨hexchanges, rfl⟩ := Program.runs_pure.1 hruns
  obtain ⟨houtcome, hpatch⟩ := Prod.mk.inj hsettled
  exact ⟨hexchanges, houtcome.symm, hpatch.symm⟩

theorem alike_of_delay {minutes : Binary64} (hstep : turn.step = other.step)
    (hview : turn.view.untimed = other.view.untimed)
    (hsettings : turn.step.settings = .ok (.delay minutes)) :
    turn.Alike other := by
  have hsettings' : other.step.settings = .ok (.delay minutes) := by rw [← hstep, hsettings]
  have hkind : other.step.kind = .known .delay := Step.kind_of_settings hsettings'
  obtain ⟨hexchanges, houtcome, hpatch⟩ := of_delay hsettings
  obtain ⟨hexchanges', houtcome', hpatch'⟩ := of_delay hsettings'
  rw [← hexchanges'] at hexchanges
  rw [← hpatch'] at hpatch
  obtain ⟨error, hfailed⟩ | ⟨result, hpassed⟩ := Step.delayOutcome_untimed minutes
  · exact alike_of_outcome hstep hview hexchanges
      (by rw [houtcome, houtcome', hfailed, hfailed]) hpatch
  · obtain ⟨timed, hdelay, htimed⟩ := hpassed turn.fresh.now
    obtain ⟨timed', hdelay', htimed'⟩ := hpassed other.fresh.now
    rw [hdelay] at houtcome
    rw [hdelay'] at houtcome'
    refine ⟨hexchanges, ?_, hpatch, by rw [ends, ends, houtcome, houtcome'],
      by rw [stopped, stopped, houtcome, houtcome'],
      by rw [failure?, failure?, houtcome, houtcome'], leadAfter_congr hview hpatch⟩
    simp only [entry, houtcome, houtcome', hstep, Step.entry, Step.entry.logged, LogEntry.untimed,
      hkind, if_true, Option.map_some, htimed, htimed']

/-- Where systems outside reply in one manner, a step comes to the same at any time. -/
theorem alike_of_explains (hstep : turn.step = other.step)
    (hview : turn.view.untimed = other.view.untimed)
    (hexplains : manner.Explains asked turn.exchanges)
    (hexplains' : manner.Explains asked other.exchanges) :
    turn.Alike other := by
  -- A delay is the only step to read the clock, and it asks nothing of systems outside.
  by_cases hdelay : ∃ minutes, turn.step.settings = .ok (.delay minutes)
  · obtain ⟨minutes, hsettings⟩ := hdelay
    exact alike_of_delay hstep hview hsettings
  · obtain ⟨ended, hruns, hsettled⟩ := turn.performed
    obtain ⟨ended', hruns', hsettled'⟩ := other.performed
    rw [Step.perform_of_not_delay (fun minutes hsettings => hdelay ⟨minutes, hsettings⟩) _
      other.fresh.now, Step.perform_congr hview, hstep] at hruns
    obtain ⟨hexchanges, rfl⟩ :=
      hruns.unique_of_explains (Step.perform_callsOnly (fun _ => trivial) _ _ _ _) hruns' hexplains
      hexplains'
    rw [hsettled] at hsettled'
    obtain ⟨houtcome, hpatch⟩ := Prod.mk.inj hsettled'
    exact alike_of_outcome hstep hview hexchanges houtcome hpatch

theorem explains_calls {rest : List Exchange} :
    manner.Explains asked (turn.calls ++ rest) ↔
      manner.Explains asked turn.exchanges ∧
      manner.Explains (asked ++ turn.exchanges.filterMap Exchange.asked?) rest :=
  Manner.explains_append

end Turn

namespace Course

variable {payload : Json} {steps rest : List Step} {step : Step}
  {lead other final left : Option Lead}
  {turns others : List (Turn options)}

theorem eq_of_nil (h : Course options payload [] lead turns final) : turns = [] ∧ final = lead := by
  cases h
  exact ⟨rfl, rfl⟩

theorem exists_of_cons (h : Course options payload (step :: rest) lead turns final) :
    ∃ (turn : Turn options) (later : List (Turn options)), turns = turn :: later ∧
    turn.step = step ∧
      turn.view = ⟨lead, payload⟩ ∧
      (turn.Ends ∧ later = [] ∧ final = turn.leadAfter ∨
        ¬ turn.Ends ∧ Course options payload rest turn.leadAfter later final) := by
  generalize hsteps : step :: rest = steps at h
  cases h with
  | finished => cases hsteps
  | @ended turn _ _ view ends =>
    obtain ⟨rfl, rfl⟩ := List.cons.inj hsteps
    exact ⟨turn, [], rfl, rfl, view, .inl ⟨ends, rfl, rfl⟩⟩
  | @next turn _ _ _ later view goesOn follows =>
    obtain ⟨rfl, rfl⟩ := List.cons.inj hsteps
    exact ⟨turn, later, rfl, rfl, view, .inr ⟨goesOn, follows⟩⟩

/-- Where systems outside reply in one manner, some steps take the same course at any time, on leads
that are the same but for the time of their last change. -/
theorem alike_of_explains {manner : Manner} {asked : List EffectCall}
    (h : Course options payload steps lead turns final)
    (hother : Course options payload steps other others left)
    (hlead : lead.map Lead.untimed = other.map Lead.untimed)
    (hexplains : manner.Explains asked (turns.flatMap Turn.calls))
    (hexplains' : manner.Explains asked (others.flatMap Turn.calls)) :
    List.Forall₂ Turn.Alike turns others ∧ final.map Lead.untimed = left.map Lead.untimed := by
  induction steps generalizing asked lead other turns others with
  | nil =>
    obtain ⟨rfl, rfl⟩ := h.eq_of_nil
    obtain ⟨rfl, rfl⟩ := hother.eq_of_nil
    exact ⟨.nil, hlead⟩
  | cons step rest ih =>
    obtain ⟨turn, later, rfl, hstep, hview, hgoes⟩ := h.exists_of_cons
    obtain ⟨turn', later', rfl, hstep', hview', hgoes'⟩ := hother.exists_of_cons
    obtain ⟨hown, hlater⟩ := Turn.explains_calls.1 hexplains
    obtain ⟨hown', hlater'⟩ := Turn.explains_calls.1 hexplains'
    have hseen : turn.view.untimed = turn'.view.untimed := by
      rw [hview, hview']
      exact congrArg (RecordView.mk · payload) hlead
    have halike : turn.Alike turn' :=
      Turn.alike_of_explains (hstep.trans hstep'.symm) hseen hown hown'
    -- Turns that are alike end the run alike, so neither course outlasts the other.
    have hends : turn.Ends ↔ turn'.Ends := by rw [← turn.ends_iff, ← turn'.ends_iff, halike.ends]
    obtain ⟨hended, rfl, rfl⟩ | ⟨hgoesOn, hrest⟩ := hgoes
    · obtain ⟨-, rfl, rfl⟩ | ⟨hgoesOn', -⟩ := hgoes'
      · exact ⟨.cons halike .nil, halike.lead⟩
      · exact absurd (hends.1 hended) hgoesOn'
    · obtain ⟨hended', -⟩ | ⟨-, hrest'⟩ := hgoes'
      · exact absurd (hends.2 hended') hgoesOn
      · rw [halike.exchanges] at hlater
        obtain ⟨hrestAlike, hfinal⟩ := ih hrest hrest' halike.lead hlater hlater'
        exact ⟨.cons halike hrestAlike, hfinal⟩

theorem alike (h : Course options payload steps lead turns final)
    (hother : Course options payload steps other others left)
    (hlead : lead.map Lead.untimed = other.map Lead.untimed)
    (hobliging : ∀ turn ∈ turns, ∀ exchange ∈ turn.exchanges, exchange.IsObliging)
    (hothers : ∀ turn ∈ others, ∀ exchange ∈ turn.exchanges, exchange.IsObliging) :
    List.Forall₂ Turn.Alike turns others ∧ final.map Lead.untimed = left.map Lead.untimed := by
  have hcalls {taken : List (Turn options)} (h : ∀ turn ∈ taken, ∀ exchange ∈ turn.exchanges,
    exchange.IsObliging) :
      ∀ exchange ∈ taken.flatMap Turn.calls, exchange.IsObliging :=
    List.forall_mem_flatMap.2 fun turn hturn => List.forall_mem_cons.2 ⟨trivial, h turn hturn⟩
  exact h.alike_of_explains hother hlead (Manner.explains_of_isObliging [] (hcalls hobliging))
    (Manner.explains_of_isObliging [] (hcalls hothers))

end Course

theorem Turn.map_congr {α : Type} {forms : Options} {R : Turn options → Turn forms → Prop}
    {turns : List (Turn options)} {others : List (Turn forms)} {f : Turn options → α}
    {g : Turn forms → α} (hfg : ∀ turn other, R turn other → f turn = g other)
    (h : List.Forall₂ R turns others) : turns.map f = others.map g := by
  induction h with
  | nil => rfl
  | cons related rest ih => rw [List.map_cons, List.map_cons, hfg _ _ related, ih]

/-- Two records that tell the same, but for the clock and for what they were started by. -/
structure Execution.TellsAs (record other : Execution) : Prop where
  status : record.status = other.status
  message : record.errorMessage = other.errorMessage
  gate : record.gateStopped = other.gateStopped
  lead : record.leadId = other.leadId
  log : record.log.map LogEntry.untimed = other.log.map LogEntry.untimed

theorem Turn.tellsAs_concluded {record other : Execution} {turns others : List (Turn options)}
    (h : List.Forall₂ Turn.Alike turns others) (hrecord : record.TellsAs other)
    (now later : Timestamp) :
    (record.concluded turns now).TellsAs (other.concluded others later) := by
  have hfailures : turns.map Turn.failure? = others.map Turn.failure? :=
    Turn.map_congr (fun _ _ alike => alike.failure) h
  have hstops : turns.map Turn.stopped = others.map Turn.stopped :=
    Turn.map_congr (fun _ _ alike => alike.stopped) h
  have hentries :
      turns.map (LogEntry.untimed ∘ Turn.entry) = others.map (LogEntry.untimed ∘ Turn.entry) :=
    Turn.map_congr (fun _ _ alike => alike.entry) h
  have hfailure : turns.findSome? Turn.failure? = others.findSome? Turn.failure? := by
    simpa only [List.findSome?_map, Function.id_comp] using congrArg (List.findSome? id) hfailures
  have hstopped : turns.any Turn.stopped = others.any Turn.stopped := by
    simpa only [List.any_map, Function.id_comp] using congrArg (List.any · id) hstops
  constructor
  · simp only [Execution.concluded, hfailure]
  · exact hfailure
  · simp only [Execution.concluded, hstopped, hrecord.gate]
  · exact hrecord.lead
  · simp only [Execution.concluded, List.map_append, List.map_map, hrecord.log, hentries]

theorem Turn.asked_eq {forms : Options} {R : Turn options → Turn forms → Prop}
    {turns : List (Turn options)} {others : List (Turn forms)}
    (hexchanges : ∀ turn other, R turn other → turn.exchanges = other.exchanges)
    (h : List.Forall₂ R turns others) :
    (turns.flatMap Turn.calls).filterMap Exchange.asked? =
      (others.flatMap Turn.calls).filterMap Exchange.asked? := by
  have hcalls : turns.map (List.filterMap Exchange.asked? ∘ Turn.calls) =
      others.map (List.filterMap Exchange.asked? ∘ Turn.calls) := by
    refine Turn.map_congr ?_ h
    intro turn other related
    change turn.calls.filterMap Exchange.asked? = other.calls.filterMap Exchange.asked?
    rw [calls, calls, hexchanges turn other related]
    rfl
  rw [List.filterMap_flatMap, List.filterMap_flatMap, List.flatMap_def, List.flatMap_def]
  exact congrArg List.flatten hcalls

theorem Turn.asked_congr {turns others : List (Turn options)}
    (h : List.Forall₂ Turn.Alike turns others) :
    (turns.flatMap Turn.calls).filterMap Exchange.asked? =
      (others.flatMap Turn.calls).filterMap Exchange.asked? :=
  Turn.asked_eq (fun _ _ alike => alike.exchanges) h

theorem Turn.isObliging_of_calls {turns : List (Turn options)} {exchanges rest : List Exchange}
    (hcalls : exchanges = turns.flatMap Turn.calls ++ rest)
    (hobliging : ∀ exchange ∈ exchanges, exchange.IsObliging) :
    ∀ turn ∈ turns, ∀ exchange ∈ turn.exchanges, exchange.IsObliging := by
  intro turn hturn exchange hmem
  apply hobliging
  rw [hcalls]
  apply List.mem_append_left
  exact List.mem_flatMap.2 ⟨turn, hturn, List.mem_cons_of_mem _ hmem⟩

namespace Workflow

variable {σ : Type} {host : Host σ} {workflow : Workflow} {lead : Option Lead}
  {triggerData : Json} {s t : σ}

/-! ### The two entrances -/

theorem asked_launch {event : EventKind} {ended : Execution} {report : RunReport} {ran : σ} :
    let record :=
      Execution.start (host.answer .stamp s).1 workflow (lead.map (·.id))
        (some event) triggerData []
    let begun := (host.answer (.store (.createExecution record)) (host.answer .stamp s).2).2
    (workflow.run options record lead).run host.answer begun = (.returned (ended, report), ran) →
      Program.asked host.answer (workflow.launch options lead event triggerData) s =
        Program.asked host.answer (workflow.run options record lead) begun := by
  intro record begun hrun
  rw [launch_eq]
  change Program.asked host.answer (Program.store (.createExecution record) >>= fun _ => _)
    (host.answer .stamp s).2 = _
  rw [host.asked_store_bind rfl]
  change Program.asked host.answer (workflow.run options record lead >>= fun _ => _) begun = _
  rw [Program.asked_bind hrun,
    Program.asked_eq_nil (keep_callsOnly not_false (fun _ _ => not_false) _ _), List.append_nil]

/-- An active workflow that is executed is launched on the stored lead. -/
theorem exists_run_execute (options : Options) (triggerData : Json)
    (hworkflow : Store.find? Workflow.id workflow.id (host.store s).workflows = some workflow)
    (hactive : workflow.active = true)
    (hstored : ∀ given, lead = some given →
      Store.find? Lead.id given.id (host.store s).leads = some given) :
    ∃ begun, host.store begun = host.store s ∧
      (execute options workflow.id (lead.map (·.id)) triggerData).run host.answer s =
        (workflow.launch options lead .manual triggerData).run host.answer begun ∧
      Program.asked host.answer (execute options workflow.id (lead.map (·.id)) triggerData) s =
        Program.asked host.answer (workflow.launch options lead .manual triggerData) begun := by
  have hfound : ((host.store s).answer (host.time s) (.getWorkflow workflow.id)).1 =
      .ok (some workflow) := by
    simp only [Store.answer, hworkflow]
  let found := (host.answer (.store (.getWorkflow workflow.id)) s).2
  have hkept : host.store found = host.store s := host.store_store _ _
  unfold execute
  rw [host.run_store_bind hfound, host.asked_store_bind hfound]
  simp only [Program.orFail, Program.pure_bind, hactive, Bool.not_true,
    Bool.false_eq_true, if_false]
  cases lead with
  | none => exact ⟨found, hkept, rfl, rfl⟩
  | some given =>
    have hread : ((host.store found).answer (host.time found) (.getLead given.id)).1 =
        .ok (some given) := by
      simp only [Store.answer, hkept, hstored given rfl]
    have hbegun : host.store (host.answer (.store (.getLead given.id)) found).2 = host.store s := by
      rw [host.store_store]
      exact hkept
    simp only [Option.map_some, map_eq_pure_bind, bind_assoc]
    rw [host.run_store_bind hread, host.asked_store_bind hread]
    exact ⟨_, hbegun, rfl, rfl⟩

theorem exists_run_preview_of_reply {answer : (call : Call) → σ → call.Reply × σ}
    {workflowId : Uuid} (options : Options) (triggerData : Json) (lead : Option Lead)
    (hreply : (answer (.store (.getWorkflow workflowId)) t).1 = .ok (some workflow)) :
    ∃ fresh real ended report t',
      (workflow.run options
        (.start fresh workflow (lead.map (·.id)) none triggerData [("preview", .bool true)])
          lead).Runs
        real (.returned (ended, report)) ∧
      (∀ exchange ∈ real, exchange.IsObliging) ∧
      (preview options workflowId lead triggerData).run answer t =
        (.returned ⟨ended, report.lead, .of (real.filterMap Exchange.asked?)⟩, t') := by
  let stamped := answer .stamp (answer (.store (.getWorkflow workflowId)) t).2
  let record :=
    Execution.start stamped.1 workflow (lead.map (·.id)) none triggerData [("preview", .bool true)]
  let program := workflow.run options record lead
  obtain ⟨real, outcome, rehearsed, hruns, hobliging, hrehearsed⟩ :=
    Program.exists_runs_of_rehearse answer program stamped.2
  have hrunning : record.status = .running := rfl
  obtain ⟨turns, final, fresh, -, -, rfl⟩ := exists_course_of_runs_run hrunning hruns
  refine ⟨stamped.1, real, _, _, rehearsed, hruns, hobliging, ?_⟩
  unfold preview
  rw [Program.run_store_bind_ok hreply]
  change (program.rehearse >>= fun _ => _).run answer stamped.2 = _
  rw [Program.run_bind, hrehearsed]
  rfl

/-- A preview of a stored workflow is a run of it in which everything outside obliges. -/
theorem exists_run_preview (options : Options) (triggerData : Json) (lead : Option Lead)
    (hworkflow : Store.find? Workflow.id workflow.id (host.store t).workflows = some workflow) :
    ∃ fresh real ended report t',
      (workflow.run options
        (.start fresh workflow (lead.map (·.id)) none triggerData [("preview", .bool true)])
          lead).Runs
        real (.returned (ended, report)) ∧
      (∀ exchange ∈ real, exchange.IsObliging) ∧
      (preview options workflow.id lead triggerData).run host.answer t =
        (.returned ⟨ended, report.lead, .of (real.filterMap Exchange.asked?)⟩, t') := by
  apply exists_run_preview_of_reply
  rw [host.answer_store]
  simp only [Store.answer, hworkflow]

/-- If systems outside go well and integrations reply as in a rehearsal, a workflow that is executed
on a stored lead, or on none, leaves the record and the lead that a preview shows and asks for what
the preview intends, whenever the two happen. -/
theorem execute_as_previewed
    (hobliging : ∀ call s, (host.answer (.effect call) s).1 = .returned call.rehearsedReply)
    (options : Options) (workflow : Workflow) (lead : Option Lead) (triggerData : Json)
    (hsame : host.store t = host.store s)
    (hworkflow : Store.find? Workflow.id workflow.id (host.store s).workflows = some workflow)
    (hactive : workflow.active = true)
    (hlead : ∀ given, lead = some given →
      Store.find? Lead.id given.id (host.store s).leads = some given) :
    ∃ ended s' preview t',
      (execute options workflow.id (lead.map (·.id)) triggerData).run host.answer s =
        (.returned ended, s') ∧
      (Workflow.preview options workflow.id lead triggerData).run host.answer t =
        (.returned preview, t') ∧
      ended.TellsAs preview.execution ∧
      Intents.of (Program.asked host.answer
        (execute options workflow.id (lead.map (·.id)) triggerData) s) =
        preview.intents ∧
      (lead.bind fun given => Store.find? Lead.id given.id (host.store s').leads).map Lead.untimed =
        preview.lead.map Lead.untimed ∧
      (lead = none → (host.store s').leads = (host.store s).leads) := by
  obtain ⟨begun, hbegun, hexecute, hasked⟩ :=
    exists_run_execute options triggerData hworkflow hactive hlead
  rw [← hbegun] at hlead
  obtain ⟨ended, report, ran, s', now, hrun, hlaunch, hs'⟩ :=
    exists_run_launch_on host options workflow .manual triggerData lead hlead
  rw [← hsame] at hworkflow
  obtain ⟨fresh, real, shown, reported, t', hreal, hrealObliging, hpreview⟩ :=
    exists_run_preview options triggerData lead hworkflow
  let record :=
    Execution.start (host.answer .stamp begun).1 workflow (lead.map (·.id))
      (some .manual) triggerData []
  let draft :=
    Execution.start fresh workflow (lead.map (·.id)) none triggerData [("preview", .bool true)]
  let started := (host.answer (.store (.createExecution record)) (host.answer .stamp begun).2).2
  have hrecord : record.status = .running := rfl
  have hdraft : draft.status = .running := rfl
  have hruns := Program.runs_transcript host.answer (workflow.run options record lead) started
  obtain ⟨turns, final, ending, hcourse, hcalls, hended⟩ := exists_course_of_runs_run hrecord hruns
  obtain ⟨others, left, ending', hcourse', hcalls', hended'⟩ :=
    exists_course_of_runs_run hdraft hreal
  rw [hrun] at hended
  cases hended
  cases hended'
  have hobliges : ∀ exchange ∈ (workflow.run options record lead).transcript host.answer started,
      exchange.IsObliging :=
    Program.isObliging_of_mem_transcript hobliging
  have hstart : record.TellsAs draft := ⟨rfl, rfl, rfl, rfl, rfl⟩
  obtain ⟨halike, hfinal⟩ := hcourse.alike hcourse' rfl (Turn.isObliging_of_calls hcalls hobliges)
    (Turn.isObliging_of_calls hcalls' hrealObliging)
  refine ⟨_, s', _, t', hexecute.trans hlaunch, hpreview, ?_, ?_, ?_, ?_⟩
  · exact Turn.tellsAs_concluded halike hstart _ _
  · rw [hasked, asked_launch hrun, Program.asked, hcalls, hcalls', List.filterMap_append,
      List.filterMap_append, Turn.asked_congr halike]
    rfl
  · cases lead with
    | none =>
      obtain ⟨rfl, -⟩ := hcourse.final_of_no_lead rfl
      exact hfinal
    | some given =>
      obtain ⟨left, rfl, hleft, -⟩ := hcourse.exists_final rfl
      rw [Option.elim_some] at hs'
      rw [Option.bind_some, hs', Store.find?_written (hlead given rfl), ← hfinal, Option.map_some,
        Option.map_some, hleft, LeadPatch.untimed_applyTo]
      rfl
  · rintro rfl
    rw [hs', Option.elim_none, hbegun]

/-- A workflow that scores a lead, waits, calls an integration and tells sales. -/
def followUp : Workflow where
  id := ⟨1⟩
  name := "follow up"
  description := none
  trigger := .manual
  active := true
  priority := 0
  steps := [
    ⟨⟨2⟩, .known .action, "score", 1,
      .obj [("metadata", .obj []), ("target", .str "score"), ("type", .str "scoring"),
        ("value", .int 70)]⟩,
    ⟨⟨3⟩, .known .delay, "wait", 2, .obj [("duration", .int 5)]⟩,
    ⟨⟨4⟩, .known .integration, "sync", 3,
      .obj [("action", .str "push"), ("integration_id", .str "crm")]⟩,
    ⟨⟨5⟩, .known .notification, "tell", 4,
      .obj [("message", .str "scored"), ("recipients", .arr [.str "sales"])]⟩]
  createdBy := none
  createdAt := .epoch
  updatedAt := none

theorem stepsInOrder_followUp : followUp.stepsInOrder = followUp.steps :=
  List.mergeSort_of_pairwise (by decide)

/-- A lead beside the workflow. -/
def followUpStore : Store := { leads := [Lead.blank Program.stillFresh], workflows := [followUp] }

/-- The notification that `followUp` sends. -/
def followUpNotice : Notification :=
  ⟨"Lead automation notification", "scored", ["sales"], some (Lead.blank Program.stillFresh).id⟩

theorem execute_as_previewed_followUp :
    let lead := Lead.blank Program.stillFresh
    (∀ (call : EffectCall) (s : Store),
      (Host.still.answer (.effect call) s).1 = .returned call.rehearsedReply) ∧
    Store.find? Workflow.id followUp.id followUpStore.workflows = some followUp ∧
    followUp.active = true ∧
    (∀ given, some lead = some given →
      Store.find? Lead.id given.id followUpStore.leads = some given) ∧
    ∃ ended s' preview t',
      (execute {} followUp.id (some lead.id) .null).run Host.still.answer followUpStore =
        (.returned ended, s') ∧
      (Workflow.preview {} followUp.id (some lead) .null).run Host.still.answer followUpStore =
        (.returned preview, t') ∧
      ended.TellsAs preview.execution ∧
      Intents.of (Program.asked Host.still.answer (execute {} followUp.id (some lead.id) .null)
        followUpStore) = preview.intents ∧
      (Store.find? Lead.id lead.id s'.leads).map Lead.untimed = preview.lead.map Lead.untimed ∧
      (some lead = none → s'.leads = followUpStore.leads) ∧
      preview.intents.notifications = [followUpNotice] ∧
      (Store.find? Lead.id lead.id s'.leads).map Lead.score = some 70 := by
  have hobliging : ∀ (call : EffectCall) (s : Store),
      (Host.still.answer (.effect call) s).1 = .returned call.rehearsedReply := fun _ _ => rfl
  have hlead : ∀ given, some (Lead.blank Program.stillFresh) = some given →
      Store.find? Lead.id given.id followUpStore.leads = some given := by
    rintro given ⟨⟩
    rfl
  obtain ⟨ended, s', preview, t', hexecute, hpreview, htells, hintents, hleft, hnone⟩ :=
    execute_as_previewed hobliging {} followUp (some _) .null
      (rfl : followUpStore = followUpStore) rfl rfl hlead
  refine ⟨hobliging, rfl, rfl, hlead, ended, s', preview, t', hexecute, hpreview, htells, hintents,
    hleft, hnone, ?_, ?_⟩
  · rw [← hintents]
    change (Intents.of (Program.asked Host.still.answer (launch {} followUp
      (some (Lead.blank Program.stillFresh)) .manual .null) _)).notifications = _
    simp only [launch, run, stepsInOrder_followUp]
    decide +kernel
  · have hs' := congrArg Prod.snd hexecute
    change ((launch {} followUp (some (Lead.blank Program.stillFresh)) .manual .null).run
      Host.still.answer followUpStore).2 = s' at hs'
    rw [← hs']
    simp only [launch, run, stepsInOrder_followUp]
    decide +kernel

end Workflow

end LeadAutomation
