import LeadAutomation.Proofs.Manners
import LeadAutomation.Proofs.Workflow.Gates
import LeadAutomation.Proofs.Workflow.Predicted

/-!
# What it means to go on after a failure

Options may let a workflow go on after an action that failed. Two runs of a workflow are compared
here that differ in this alone, with systems outside that reply to both in one manner. Up to the
first action that fails they mirror each other turn by turn. There the strict run ends and the
lenient one goes on, but the failure by which a run is judged has been settled by then: whatever
happens later, both runs end with it, `run_strict_lenient`.
-/

namespace LeadAutomation

/-- The options under which a failed action ends a run. -/
def Options.strict (options : Options) : Options := { options with continueOnStepFailure := false }

/-- The options under which a run goes on after a failed action. -/
def Options.lenient (options : Options) : Options := { options with continueOnStepFailure := true }

namespace Step

variable {step : Step} {now : Timestamp} {options others : Options} {view : RecordView}

/-- What the outcome of an action comes to for a step. -/
def verdict (halts : Bool) (plan : ActionPlan) (outcome : ActionOutcome) :
    StepOutcome × LeadPatch :=
  match outcome.error with
  | none => (.passed outcome.toJson, plan.patch)
  | some error => (.failed error halts, plan.patch)

theorem perform_action {action : Action} (hsettings : step.settings = .ok (.action action)) :
    step.perform now options view =
      (action.plan view options.defaultRecipients).carryOut action >>= fun outcome =>
        pure (verdict (!options.continueOnStepFailure)
          (action.plan view options.defaultRecipients) outcome) := by
  simp only [perform, hsettings, performAction]
  refine congrArg (_ >>= ·) (funext fun outcome => ?_)
  unfold verdict
  cases outcome.error <;> rfl

theorem settled_verdict (ended : Outcome ActionOutcome) (plan : ActionPlan) :
    settled (ended.map (verdict true plan)) = settled (ended.map (verdict false plan)) ∨
      ∃ error, settled (ended.map (verdict true plan)) = (.failed error true, plan.patch) ∧
        settled (ended.map (verdict false plan)) = (.failed error false, plan.patch) := by
  cases ended with
  | failed error => exact .inl rfl
  | crashed text => exact .inl rfl
  | returned outcome =>
    simp only [Outcome.map, settled, verdict]
    cases outcome.error with
    | none => exact .inl rfl
    | some error => exact .inr ⟨error, rfl, rfl⟩

theorem perform_of_not_action (haction : ∀ action, step.settings ≠ .ok (.action action))
    (hdefaults : options.defaultRecipients = others.defaultRecipients) :
    step.perform now options view = step.perform now others view := by
  unfold perform
  rw [hdefaults]
  split
  · rfl
  · next action hsettings => exact absurd hsettings (haction action)
  · rfl
  · rfl
  · rfl
  · rfl

end Step

namespace Turn

variable {options others : Options} {manner : Manner} {asked : List EffectCall}

/-- Turns under different options that leave the same behind, up to the clock; one may end its run
and the other not. -/
structure Mirrors (turn : Turn options) (other : Turn others) : Prop where
  exchanges : turn.exchanges = other.exchanges
  entry : turn.entry.untimed = other.entry.untimed
  patch : turn.patch = other.patch
  stopped : turn.stopped = other.stopped
  failure : turn.failure? = other.failure?
  lead : turn.leadAfter.map Lead.untimed = other.leadAfter.map Lead.untimed

theorem mirrors_of_outcome {turn : Turn options} {other : Turn others}
    (hstep : turn.step = other.step) (hview : turn.view.untimed = other.view.untimed)
    (hexchanges : turn.exchanges = other.exchanges) (houtcome : turn.outcome = other.outcome)
    (hpatch : turn.patch = other.patch) : turn.Mirrors other where
  exchanges := hexchanges
  entry := by
    unfold entry
    rw [hstep, houtcome]
    cases other.outcome <;> rfl
  patch := hpatch
  stopped := by rw [stopped, houtcome, stopped]
  failure := by rw [failure?, houtcome, hstep, failure?]
  lead := leadAfter_congr hview hpatch

/-- An action that failed. -/
def FailsActing (turn : Turn options) : Prop := turn.step.kind = .known .action ∧ turn.Failed

theorem FailsActing.failure?_ne_none {turn : Turn options} (h : turn.FailsActing) :
    turn.failure? ≠ none := by
  obtain ⟨hkind, hfailed⟩ := h
  rw [Ne, failure?_eq_none_iff, not_not]
  refine ⟨hfailed, ?_⟩
  rintro ⟨message, subject, recipients, hsettings, -⟩
  rw [Step.kind_of_settings hsettings] at hkind
  cases hkind

/-- A turn that could have been taken under other options as well. -/
def recast (turn : Turn options) (others : Options)
    (hperform : turn.step.perform turn.fresh.now options turn.view =
      turn.step.perform turn.fresh.now others turn.view) :
    Turn others where
  step := turn.step
  fresh := turn.fresh
  view := turn.view
  exchanges := turn.exchanges
  outcome := turn.outcome
  patch := turn.patch
  performed := hperform ▸ turn.performed

theorem of_action {turn : Turn options} {action : Action}
    (hsettings : turn.step.settings = .ok (.action action)) :
    ∃ ended, ((action.plan turn.view options.defaultRecipients).carryOut action).Runs
      turn.exchanges ended ∧
      (turn.outcome, turn.patch) =
        Step.settled
          (ended.map (Step.verdict (!options.continueOnStepFailure)
            (action.plan turn.view options.defaultRecipients))) := by
  obtain ⟨ended, hruns, hsettled⟩ := turn.performed
  rw [Step.perform_action hsettings] at hruns
  obtain ⟨outcome, hcarries, rfl⟩ | ⟨error, hcarries, rfl⟩ | ⟨text, hcarries, rfl⟩ :=
    Program.runs_bind_pure.1 hruns
  · exact ⟨_, hcarries, hsettled.symm⟩
  · exact ⟨_, hcarries, hsettled.symm⟩
  · exact ⟨_, hcarries, hsettled.symm⟩

section Compared

variable {turn : Turn options.strict} {other : Turn options.lenient}

theorem mirrors_of_action {action : Action} (hstep : turn.step = other.step)
    (hview : turn.view.untimed = other.view.untimed)
    (hsettings : turn.step.settings = .ok (.action action))
    (hexplains : manner.Explains asked turn.exchanges)
    (hexplains' : manner.Explains asked other.exchanges) :
    turn.Mirrors other ∧ (turn.ends = other.ends ∨ turn.ends = true ∧ turn.FailsActing) := by
  have hsettings' : other.step.settings = .ok (.action action) := by rw [← hstep, hsettings]
  have hkind : other.step.kind = .known .action := Step.kind_of_settings hsettings'
  obtain ⟨ended, hcarries, hsettled⟩ := of_action hsettings
  obtain ⟨ended', hcarries', hsettled'⟩ := of_action hsettings'
  rw [Action.plan_congr hview] at hcarries hsettled
  obtain ⟨hexchanges, rfl⟩ := hcarries.unique_of_explains
    (ActionPlan.carryOut_callsOnly (fun _ => trivial) (fun _ => trivial) _ _) hcarries'
      hexplains hexplains'
  obtain hsame | ⟨error, hhalting, hgoing⟩ :=
    Step.settled_verdict ended (action.plan other.view options.defaultRecipients)
  · have hboth : (turn.outcome, turn.patch) = (other.outcome, other.patch) :=
      hsettled.trans (hsame.trans hsettled'.symm)
    obtain ⟨houtcome, hpatch⟩ := Prod.mk.inj hboth
    exact ⟨mirrors_of_outcome hstep hview hexchanges houtcome hpatch,
      .inl (by rw [ends, houtcome, ends])⟩
  · obtain ⟨houtcome, hpatch⟩ := Prod.mk.inj (hsettled.trans hhalting)
    obtain ⟨houtcome', hpatch'⟩ := Prod.mk.inj (hsettled'.trans hgoing)
    have hpatches : turn.patch = other.patch := hpatch.trans hpatch'.symm
    refine ⟨⟨hexchanges, ?_, hpatches, by rw [stopped, stopped, houtcome, houtcome'], ?_,
      leadAfter_congr hview hpatches⟩,
      .inr ⟨by rw [ends, houtcome], hstep ▸ hkind, ?_⟩⟩
    · simp only [entry, houtcome, houtcome', hstep, Step.entry, Step.entry.logged, LogEntry.untimed]
    · simp [failure?, houtcome, houtcome', hstep, Step.counts, hkind]
    · simp only [Failed, entry, houtcome, Step.entry, Step.entry.logged]

/-- A turn of the strict run and the same turn of the lenient one leave the same behind, and end
their runs alike unless an action failed. -/
theorem mirrors (hstep : turn.step = other.step) (hview : turn.view.untimed = other.view.untimed)
    (hexplains : manner.Explains asked turn.exchanges)
    (hexplains' : manner.Explains asked other.exchanges) :
    turn.Mirrors other ∧ (turn.ends = other.ends ∨ turn.ends = true ∧ turn.FailsActing) := by
  by_cases haction : ∃ action, other.step.settings = .ok (.action action)
  · obtain ⟨action, hsettings⟩ := haction
    exact mirrors_of_action hstep hview (hstep ▸ hsettings) hexplains hexplains'
  · have hperform : other.step.perform other.fresh.now options.lenient other.view =
        other.step.perform other.fresh.now options.strict other.view :=
      Step.perform_of_not_action (fun action hsettings => haction ⟨action, hsettings⟩) rfl
    have halike : turn.Alike (other.recast options.strict hperform) :=
      alike_of_explains hstep hview hexplains hexplains'
    exact ⟨⟨halike.exchanges, halike.entry, halike.patch, halike.stopped, halike.failure,
      halike.lead⟩, .inl halike.ends⟩

end Compared

end Turn

variable {options : Options}

/-- A lenient course goes as the strict one does for as long as that one lasts, and it outlasts it
only if an action failed. -/
theorem Course.mirrors {manner : Manner} {asked : List EffectCall} {payload : Json}
    {steps : List Step} {lead other final left : Option Lead} {turns : List (Turn options.strict)}
    {others : List (Turn options.lenient)}
    (h : Course options.strict payload steps lead turns final)
    (hother : Course options.lenient payload steps other others left)
    (hlead : lead.map Lead.untimed = other.map Lead.untimed)
    (hexplains : manner.Explains asked (turns.flatMap Turn.calls))
    (hexplains' : manner.Explains asked (others.flatMap Turn.calls)) :
    ∃ shared rest, others = shared ++ rest ∧ List.Forall₂ Turn.Mirrors turns shared ∧
      (rest = [] ∧ final.map Lead.untimed = left.map Lead.untimed ∨ ∃ turn ∈ turns,
        turn.FailsActing) := by
  induction steps generalizing asked lead other turns others with
  | nil =>
    obtain ⟨rfl, rfl⟩ := h.eq_of_nil
    obtain ⟨rfl, rfl⟩ := hother.eq_of_nil
    exact ⟨[], [], rfl, .nil, .inl ⟨rfl, hlead⟩⟩
  | cons step rest ih =>
    obtain ⟨turn, later, rfl, hstep, hview, hgoes⟩ := h.exists_of_cons
    obtain ⟨turn', later', rfl, hstep', hview', hgoes'⟩ := hother.exists_of_cons
    obtain ⟨hown, hlater⟩ := Turn.explains_calls.1 hexplains
    obtain ⟨hown', hlater'⟩ := Turn.explains_calls.1 hexplains'
    have hseen : turn.view.untimed = turn'.view.untimed := by
      rw [hview, hview']
      exact congrArg (RecordView.mk · payload) hlead
    obtain ⟨hmirrors, hends⟩ := Turn.mirrors (hstep.trans hstep'.symm) hseen hown hown'
    obtain hends | ⟨hended, hfails⟩ := hends
    · have hboth : turn.Ends ↔ turn'.Ends := by rw [← turn.ends_iff, ← turn'.ends_iff, hends]
      obtain ⟨hended, rfl, rfl⟩ | ⟨hgoesOn, hrest⟩ := hgoes
      · obtain ⟨-, rfl, rfl⟩ | ⟨hgoesOn', -⟩ := hgoes'
        · exact ⟨[turn'], [], rfl, .cons hmirrors .nil, .inl ⟨rfl, hmirrors.lead⟩⟩
        · exact absurd (hboth.1 hended) hgoesOn'
      · obtain ⟨hended', -⟩ | ⟨-, hrest'⟩ := hgoes'
        · exact absurd (hboth.2 hended') hgoesOn
        · rw [hmirrors.exchanges] at hlater
          obtain ⟨shared, others, rfl, hshared, hcompared⟩ :=
            ih hrest hrest' hmirrors.lead hlater hlater'
          refine ⟨turn' :: shared, others, rfl, .cons hmirrors hshared, hcompared.imp_right ?_⟩
          rintro ⟨failing, hmem, hfails⟩
          exact ⟨failing, List.mem_cons_of_mem _ hmem, hfails⟩
    · -- The strict course ends here, whatever the lenient one goes on to.
      obtain ⟨-, rfl, -⟩ | ⟨hgoesOn, -⟩ := hgoes
      · exact ⟨[turn'], later', rfl, .cons hmirrors .nil, .inr ⟨turn, List.mem_cons_self, hfails⟩⟩
      · exact absurd (turn.ends_iff.1 hended) hgoesOn

/-- A record without the times of its end and of its entries. -/
def Execution.timeless (record : Execution) : Execution :=
  { record with
    completedAt := record.completedAt.map fun _ => .epoch
    log := record.log.map LogEntry.untimed }

section Mirrored

variable {execution : Execution} {turns : List (Turn options.strict)}
  {shared rest : List (Turn options.lenient)}

theorem Turn.failure_mirrored (h : List.Forall₂ Turn.Mirrors turns shared) :
    turns.findSome? Turn.failure? = shared.findSome? Turn.failure? := by
  have hfailures : turns.map Turn.failure? = shared.map Turn.failure? :=
    Turn.map_congr (fun _ _ mirrors => mirrors.failure) h
  simpa only [List.findSome?_map, Function.id_comp] using congrArg (List.findSome? id) hfailures

/-- Whatever comes after the first failure that counts does not change how a run is judged. -/
theorem Turn.failure_append (h : List.Forall₂ Turn.Mirrors turns shared)
    (hrest : rest = [] ∨ ∃ turn ∈ turns, turn.FailsActing) :
    turns.findSome? Turn.failure? = (shared ++ rest).findSome? Turn.failure? := by
  obtain rfl | ⟨turn, hmem, hfails⟩ := hrest
  · rw [Turn.failure_mirrored h, List.append_nil]
  · have hsome : turns.findSome? Turn.failure? ≠ none := by
      intro hnone
      exact hfails.failure?_ne_none (List.findSome?_eq_none_iff.1 hnone turn hmem)
    rw [List.findSome?_append, ← Turn.failure_mirrored h,
      Option.or_of_isSome (Option.isSome_iff_ne_none.2 hsome)]

theorem Turn.entries_mirrored (h : List.Forall₂ Turn.Mirrors turns shared) :
    turns.map (LogEntry.untimed ∘ Turn.entry) = shared.map (LogEntry.untimed ∘ Turn.entry) :=
  Turn.map_congr (fun _ _ mirrors => mirrors.entry) h

theorem Turn.timeless_concluded (h : List.Forall₂ Turn.Mirrors turns shared)
    (now later : Timestamp) :
    (execution.concluded turns now).timeless = (execution.concluded shared later).timeless := by
  have hstops : turns.map Turn.stopped = shared.map Turn.stopped :=
    Turn.map_congr (fun _ _ mirrors => mirrors.stopped) h
  have hstopped : turns.any Turn.stopped = shared.any Turn.stopped := by
    simpa only [List.any_map, Function.id_comp] using congrArg (List.any · id) hstops
  simp only [Execution.timeless, Execution.concluded, List.map_append, List.map_map,
    Turn.failure_mirrored h, hstopped, Turn.entries_mirrored h, Option.map_some]

end Mirrored

namespace Workflow

theorem run_of_not_running {workflow : Workflow} {execution : Execution} {lead : Option Lead}
    (h : execution.status ≠ .running) :
    workflow.run options execution lead =
      .fail (.executionState (.notRunning execution.id execution.status)) := by
  rw [run, if_pos h]

/-- Where systems outside reply in one manner, a run that ends with the first failed action and one
that goes on are judged alike: they have the same status and the same error, and the log of the
first is the beginning of the log of the second. If no action fails there is no difference between
the two but what they read off their clocks. -/
theorem run_strict_lenient {σ τ : Type} {manner : Manner} {asked : σ → List EffectCall}
    {asked' : τ → List EffectCall} {answer : (call : Call) → σ → call.Reply × σ}
    {answer' : (call : Call) → τ → call.Reply × τ} (hgoverns : manner.Governs asked answer)
    (hgoverns' : manner.Governs asked' answer') (options : Options) (workflow : Workflow)
    (execution : Execution) (lead : Option Lead) (s : σ) (t : τ) (hasked : asked s = asked' t) :
    let strict := workflow.run options.strict execution lead
    let lenient := workflow.run options.lenient execution lead
    (execution.status ≠ .running → ∃ error, strict = .fail error ∧ lenient = .fail error) ∧
    (execution.status = .running → ∃ ended report ended' report',
      (strict.run answer s).1 = .returned (ended, report) ∧ (lenient.run answer' t).1 =
        .returned (ended', report') ∧
      ended.status = ended'.status ∧ ended.errorMessage = ended'.errorMessage ∧
      ended.log.map LogEntry.untimed <+: ended'.log.map LogEntry.untimed ∧
      ((∀ entry ∈ ended.log.drop execution.log.length, entry.stepKind = .known .action →
        entry.success = true) →
        ended.timeless = ended'.timeless ∧ report.patch = report'.patch ∧
        report.lead.map Lead.untimed = report'.lead.map Lead.untimed ∧
        strict.asked answer s = lenient.asked answer' t)) := by
  intro strict lenient
  refine ⟨fun hnot => ⟨_, run_of_not_running hnot, run_of_not_running hnot⟩, fun hrunning => ?_⟩
  have hexplains := hgoverns.explains_transcript strict s
  have hexplains' := hgoverns'.explains_transcript lenient t
  obtain ⟨turns, final, fresh, hcourse, hcalls, hended⟩ :=
    exists_course_of_runs_run hrunning (Program.runs_transcript answer strict s)
  obtain ⟨others, left, fresh', hcourse', hcalls', hended'⟩ :=
    exists_course_of_runs_run hrunning (Program.runs_transcript answer' lenient t)
  rw [hcalls] at hexplains
  rw [hcalls', ← hasked] at hexplains'
  obtain ⟨shared, rest, rfl, hmirrors, hcompared⟩ :=
    hcourse.mirrors hcourse' rfl (Manner.explains_append.1 hexplains).1
    (Manner.explains_append.1 hexplains').1
  have hfailure := Turn.failure_append hmirrors (hcompared.imp_left And.left)
  refine ⟨_, _, _, _, hended, hended', ?_, hfailure, ?_, ?_⟩
  · simp only [Execution.concluded, hfailure]
  · simp only [Execution.concluded, List.map_append, List.map_map, Turn.entries_mirrored hmirrors]
    exact ⟨_, List.append_assoc _ _ _⟩
  · intro hwell
    obtain ⟨rfl, hlead⟩ | ⟨turn, hmem, hkind, hfailed⟩ := hcompared
    · rw [List.append_nil] at hcalls' hended' ⊢
      have hpatches : turns.map Turn.patch = shared.map Turn.patch :=
        Turn.map_congr (fun _ _ mirrors => mirrors.patch) hmirrors
      refine ⟨Turn.timeless_concluded hmirrors _ _, by rw [hpatches], hlead, ?_⟩
      rw [Program.asked, Program.asked, hcalls, hcalls', List.filterMap_append,
        List.filterMap_append, Turn.asked_eq (fun _ _ mirrors => mirrors.exchanges) hmirrors]
      rfl
    · have hentry :
          turn.entry ∈ (execution.concluded turns fresh.now).log.drop execution.log.length := by
        rw [Execution.concluded, List.drop_left]
        exact List.mem_map_of_mem hmem
      have hsuccess := hwell turn.entry hentry (turn.entry_stepKind.trans hkind)
      rw [hfailed] at hsuccess
      cases hsuccess

/-- Systems outside to which everything goes well. -/
def obliging : Manner := fun _ call => .returned call.rehearsedReply

/-- The strict run ends where the action fails; the lenient one goes on to the condition. -/
theorem run_strict_lenient_hotOnly :
    let answer := obliging.surroundings fun _ => Program.stillFresh
    let lead := some (Lead.blank Program.stillFresh)
    let strict := hotOnly.run (Options.strict {}) hotOnlyStart lead
    let lenient := hotOnly.run (Options.lenient {}) hotOnlyStart lead
    obliging.Governs (fun asked => asked) answer ∧ hotOnlyStart.status = .running ∧
    (strict.run answer []).1.map
      (fun (ended, _) => (ended.status, ended.log.map LogEntry.stepName)) =
      .returned (.failed, ["mark hot"]) ∧
    (lenient.run answer []).1.map
      (fun (ended, _) => (ended.status, ended.log.map LogEntry.stepName)) =
      .returned (.failed, ["mark hot", "scored"]) ∧
    ∃ ended report ended' report',
      (strict.run answer []).1 = .returned (ended, report) ∧
      (lenient.run answer []).1 = .returned (ended', report') ∧
      ended.status = ended'.status ∧ ended.errorMessage = ended'.errorMessage ∧
      ended.log.map LogEntry.untimed <+: ended'.log.map LogEntry.untimed ∧
      ((∀ entry ∈ ended.log.drop hotOnlyStart.log.length,
          entry.stepKind = .known .action → entry.success = true) →
        ended.timeless = ended'.timeless ∧ report.patch = report'.patch ∧
        report.lead.map Lead.untimed = report'.lead.map Lead.untimed ∧
        strict.asked answer [] = lenient.asked answer []) := by
  have hgoverns := obliging.governs_surroundings fun _ => Program.stillFresh
  refine ⟨hgoverns, rfl, ?_, ?_,
    (run_strict_lenient hgoverns hgoverns {} hotOnly hotOnlyStart _ [] [] rfl).2 rfl⟩
  · rw [run, stepsInOrder_hotOnly]
    rfl
  · rw [run, stepsInOrder_hotOnly]
    rfl

end Workflow

end LeadAutomation
