import LeadAutomation.Proofs.Messages
import LeadAutomation.Proofs.Rule.Validated
import LeadAutomation.Proofs.Workflow.Courses

/-!
# Steps that can be read

The configuration of a step is free-form and is read twice: when its workflow is checked, only to
see whether that is possible, and when the step is carried out. The theorem of this module,
`Workflow.run_parseConfig`, says that what is told to the author of a workflow is what happens to
its runs. A step that the check rejects fails with the words of the check and does nothing else, and
a step that the check accepts may fail in many ways, but never so.
-/

namespace LeadAutomation

open Validation

/-! ### Two readings of a configuration -/

private theorem discard_map {ε α β : Type} (f : α → β) (result : Except ε α) :
    discard (f <$> result) = discard result := by
  cases result <;> rfl

theorem StepSettings.check_eq (kind : StepKind) (config : Json) :
    check kind config = discard (decode kind config) := by
  cases kind with
  | action => exact (discard_map _ _).symm
  | condition => exact (discard_map _ _).symm
  | delay => exact (discard_map _ _).symm
  | notification => exact (discard_map _ _).symm
  | integration => rfl

namespace Step

variable {step : Step}

theorem parseConfig_eq : step.parseConfig = (discard step.settings).mapError StepFault.message := by
  unfold parseConfig settings
  cases hkind : step.kind with
  | known kind =>
    dsimp only
    rw [StepSettings.check_eq]
    cases StepSettings.decode kind step.config <;> rfl
  | other text unknown => rfl

theorem parseConfig_eq_ok_iff : step.parseConfig = .ok () ↔
    ∃ settings, step.settings = .ok settings := by
  rw [parseConfig_eq]
  cases step.settings with
  | ok settings =>
    change (.ok () : Except String Unit) = .ok () ↔ _
    simp
  | error fault =>
    change (.error fault.message : Except String Unit) = .ok () ↔ _
    simp

theorem parseConfig_eq_error_iff {message : String} :
    step.parseConfig = .error message ↔
    ∃ fault, step.settings = .error fault ∧ fault.message = message := by
  rw [parseConfig_eq]
  cases step.settings with
  | ok settings =>
    change (.ok () : Except String Unit) = .error message ↔ _
    simp
  | error fault =>
    change (.error fault.message : Except String Unit) = .error message ↔ _
    simp

end Step

theorem Workflow.parseConfig_of_validate {workflow : Workflow} {warnings : List String}
    (h : workflow.validate = .ok warnings) :
    ∀ step ∈ workflow.steps, step.parseConfig = .ok () := by
  unfold validate at h
  split at h
  · next hempty =>
    have hsteps : checkItems checkStep workflow.steps = [] := by
      rw [List.isEmpty_iff] at hempty
      exact (List.append_eq_nil_iff.1 hempty).2
    intro step hmem
    obtain ⟨index, hindex⟩ := List.mem_iff_getElem?.1 hmem
    have hconfig := (List.append_eq_nil_iff.1 (checkItems_eq_nil_iff.1 hsteps index step hindex)).2
    unfold checkConfig at hconfig
    split at hconfig
    · next hparsed => exact hparsed
    · cases hconfig
  · cases h

/-! ### What becomes of steps -/

/-- A turn fails with a message, and does nothing else: it makes no call to a system outside, writes
nothing and leaves the lead as it is. -/
structure Turn.FailsUnread {options : Options} (turn : Turn options) (message : String) : Prop where
  entry : turn.entry = {
    stepName := turn.step.name
    stepKind := turn.step.kind
    position := turn.step.position
    success := false
    result := none
    error := some message
    executedAt := turn.fresh.now
    durationMs := 0 }
  exchanges : turn.exchanges = []
  patch : turn.patch = .empty
  leadAfter : turn.leadAfter = turn.view.lead

namespace Step

variable {now : Timestamp} {options : Options} {view : RecordView} {step : Step}
  {exchanges : List Exchange}
  {patch : LeadPatch} {error : String} {halts : Bool}

theorem unlike_of_delayOutcome {minutes : Binary64}
    (h : delayOutcome now minutes = .failed error halts) :
    StepFault.Unlike error := by
  unfold delayOutcome at h
  split at h
  · cases h
    exact .of_initial (Text.getElem?_append (Text.getElem?_append rfl)) (by decide)
  · cases h

/-- A step that can be read and in which nothing breaks down never fails as if it could not be
read. -/
theorem Happens.unlike (h : step.Happens now options view exchanges (.failed error halts) patch)
    {settings : StepSettings} (hsettings : step.settings = .ok settings)
    (hcalm : ∀ exchange ∈ exchanges, ¬ exchange.IsBreakdown) :
    StepFault.Unlike error := by
  have hbroken {call : EffectCall} {text : Option String}
      (heq : exchanges = [⟨.effect call, .crashed text⟩]) : False := by
    rw [heq] at hcalm
    exact hcalm _ (List.mem_singleton_self _) ⟨call, text, rfl⟩
  cases h with
  | unreadable unread =>
    rw [hsettings] at unread
    cases unread
  | misacted read runs ill =>
    obtain ⟨write, -, rfl⟩ | ⟨fault, hplan, rfl⟩ | ⟨value, rfl⟩ | ⟨error, rfl⟩ :=
      ActionPlan.outcome_of_runs_carryOut runs
    · cases ill
    · obtain rfl := Option.some.inj ill
      exact Action.unlike_of_plan hplan
    · cases ill
    · obtain rfl := Option.some.inj ill
      exact .message error
  | undelayed read delay => exact unlike_of_delayOutcome delay
  | uncomposed read composed => exact .unsendable _
  | refused read composed => exact .message _
  | rejected read => exact .message _
  | brokeActing read => exact (hbroken rfl).elim
  | brokeSending read composed => exact (hbroken rfl).elim
  | brokeIntegrating read => exact (hbroken rfl).elim

end Step

namespace Turn

variable {options : Options} {turn : Turn options} {message : String}

theorem outcome_of_unreadable {fault : StepFault} (h : turn.step.settings = .error fault) :
    turn.exchanges = [] ∧ turn.outcome = .failed fault.message true ∧ turn.patch = .empty := by
  obtain ⟨ended, hruns, hsettled⟩ := turn.performed
  unfold Step.perform at hruns
  rw [h] at hruns
  obtain ⟨hexchanges, rfl⟩ := Program.runs_pure.1 hruns
  obtain ⟨houtcome, hpatch⟩ := Prod.mk.inj hsettled
  exact ⟨hexchanges, houtcome.symm, hpatch.symm⟩

theorem failsUnread (h : turn.step.parseConfig = .error message) : turn.FailsUnread message := by
  obtain ⟨fault, hsettings, rfl⟩ := Step.parseConfig_eq_error_iff.1 h
  obtain ⟨hexchanges, houtcome, hpatch⟩ := outcome_of_unreadable hsettings
  refine ⟨?_, hexchanges, hpatch, ?_⟩
  · rw [entry, houtcome]
    rfl
  · rw [leadAfter, hpatch]
    cases turn.view.lead <;> rfl

theorem ends_of_unreadable (h : turn.step.parseConfig = .error message) :
    turn.Ends ∧ turn.failure?.isSome = true := by
  obtain ⟨fault, hsettings, rfl⟩ := Step.parseConfig_eq_error_iff.1 h
  obtain ⟨-, houtcome, -⟩ := outcome_of_unreadable hsettings
  rw [← turn.ends_iff, ends, failure?, houtcome]
  exact ⟨rfl, rfl⟩

theorem error_ne_of_parsed (h : turn.step.parseConfig = .ok ())
    (hcalm : ∀ exchange ∈ turn.exchanges, ¬ exchange.IsBreakdown) (fault : StepFault) :
    turn.entry.error ≠ some fault.message := by
  obtain ⟨settings, hsettings⟩ := Step.parseConfig_eq_ok_iff.1 h
  have hhappens := turn.happens
  rw [entry]
  cases houtcome : turn.outcome with
  | passed result => simp [Step.entry, Step.entry.logged]
  | stopped result => simp [Step.entry, Step.entry.logged]
  | failed error halts =>
    rw [houtcome] at hhappens
    intro heq
    exact (hhappens.unlike hsettings hcalm).message_ne fault (Option.some.inj heq)

end Turn

namespace Workflow

/-- Whatever the surroundings do, a step that the check of configurations rejects fails in its turn
with the message of the check, makes no call to a system outside and writes nothing, and its run
ends there and has failed. A step that the check accepts can be read in its turn, too, and unless
something breaks down nothing is said of it that is said of steps that cannot be read. So each step
of a workflow that passed its checks can be read. -/
theorem run_parseConfig {σ : Type} (answer : (call : Call) → σ → call.Reply × σ) (world : σ)
    (options : Options) (workflow : Workflow) (execution : Execution) (lead : Option Lead)
    (hrunning : execution.status = .running) :
    ∃ (turns : List (Turn options)) (final : Option Lead) (fresh : Fresh) (ended : Execution),
      ((workflow.run options execution lead).run answer world).1 =
        .returned (ended, ⟨LeadPatch.mergeAll (turns.map Turn.patch), final⟩) ∧
      (workflow.run options execution lead).transcript answer world =
        turns.flatMap Turn.calls ++ [⟨.stamp, fresh⟩] ∧
      Course options execution.triggerData workflow.stepsInOrder lead turns final ∧
      ended.log = execution.log ++ turns.map Turn.entry ∧
      (∀ turn ∈ turns, ∀ message, turn.step.parseConfig = .error message →
        turn.FailsUnread message ∧ turns.getLast? = some turn ∧ final = turn.view.lead ∧
        ended.status = .failed) ∧
      (∀ turn ∈ turns, turn.step.parseConfig = .ok () →
        (∃ settings, turn.step.settings = .ok settings) ∧
        ((∀ exchange ∈ turn.exchanges, ¬ exchange.IsBreakdown) → ∀ fault : StepFault,
          turn.entry.error ≠ some fault.message)) ∧
      ∀ warnings, workflow.validate = .ok warnings →
        ∀ step ∈ workflow.stepsInOrder, ∃ settings, step.settings = .ok settings := by
  obtain ⟨turns, final, fresh, hcourse, hcalls, hended⟩ :=
    exists_course_of_runs_run hrunning (Program.runs_transcript answer _ world)
  refine ⟨turns, final, fresh, _, hended, hcalls, hcourse, rfl, ?_, ?_, ?_⟩
  · intro turn hmem message hparsed
    obtain ⟨hends, hfails⟩ := Turn.ends_of_unreadable hparsed
    have hunread := Turn.failsUnread hparsed
    have hlast := hcourse.getLast?_of_ends hmem hends
    have hfailed : (turns.findSome? Turn.failure?).isSome = true :=
      List.findSome?_isSome_iff.2 ⟨turn, hmem, hfails⟩
    exact ⟨hunread, hlast, (hcourse.final_eq_of_getLast? hlast).trans hunread.leadAfter,
      if_pos hfailed⟩
  · intro turn hmem hparsed
    exact ⟨Step.parseConfig_eq_ok_iff.1 hparsed, Turn.error_ne_of_parsed hparsed⟩
  · intro warnings hvalid step hmem
    exact Step.parseConfig_eq_ok_iff.1
      (parseConfig_of_validate hvalid step (List.mem_mergeSort.1 hmem))

/-- A step whose action does not say what kind of action it is. -/
def garbledStep : Step :=
  ⟨⟨2⟩, .known .action, "score", 1, .obj [("target", .str "score"), ("value", .int 70)]⟩

/-- A workflow that would not pass its checks. -/
def garbled : Workflow where
  id := ⟨1⟩
  name := "Score"
  description := none
  trigger := .manual
  active := true
  priority := 0
  steps := [garbledStep]
  createdBy := none
  createdAt := .epoch
  updatedAt := none

theorem run_parseConfig_garbled :
    let execution := Execution.start Program.stillFresh garbled none none .null []
    let message := "invalid action config: missing field `type`"
    execution.status = .running ∧ garbledStep.parseConfig = .error message ∧
    ∃ (turn : Turn {}) (fresh : Fresh) (ended : Execution),
      turn.step = garbledStep ∧ turn.FailsUnread message ∧
      ((garbled.run {} execution none).run Host.still.answer {}).1 =
        .returned (ended, ⟨.empty, none⟩) ∧
      (garbled.run {} execution none).transcript Host.still.answer {} =
        [⟨.stamp, turn.fresh⟩, ⟨.stamp, fresh⟩] ∧
      ended.log = [turn.entry] ∧ ended.status = .failed := by
  intro execution message
  have hrunning : execution.status = .running := rfl
  have hparsed : garbledStep.parseConfig = .error message := by decide +kernel
  obtain ⟨turns, final, fresh, ended, hended, hcalls, hcourse, hlog, hrejected, -, -⟩ :=
    run_parseConfig Host.still.answer {} {} garbled execution none hrunning
  have hsteps : garbled.stepsInOrder = [garbledStep] := List.mergeSort_singleton _
  have hprefix : turns.map Turn.step <+: [garbledStep] := hsteps ▸ hcourse.map_step_prefix
  cases turns with
  | nil =>
    obtain ⟨last, hlast, -⟩ := hcourse.getLast?_ends (hsteps ▸ Nat.one_pos)
    cases hlast
  | cons turn rest =>
    obtain ⟨hstep, hrest⟩ := List.cons_prefix_cons.1 hprefix
    obtain rfl : rest = [] := List.map_eq_nil_iff.1 (List.prefix_nil.1 hrest)
    have hview := hcourse.view_of_cons
    obtain ⟨hunread, -, rfl, hfailed⟩ :=
      hrejected turn (List.mem_singleton_self _) message (hstep ▸ hparsed)
    refine ⟨hrunning, hparsed, turn, fresh, ended, hstep, hunread, ?_, ?_, hlog, hfailed⟩
    · rw [hended, List.map_singleton, hunread.patch, hview]
      rfl
    · rw [hcalls, List.flatMap_singleton, Turn.calls, hunread.exchanges]
      rfl

end Workflow

end LeadAutomation
