import LeadAutomation.Proofs.Order
import LeadAutomation.Proofs.Workflow.Courses
import LeadAutomation.Scripted

/-!
# Runs and their records

The record that a run leaves is a true account of it. The log has one entry for each turn; it breaks
off only where the rules let a run end early; status and message tell of the first failure that
counts, if there is one; and the record says that a condition ended the run just if the last turn
was a condition that was not met. None of this depends on what the systems outside reply or on
whether they break down.
-/

namespace LeadAutomation

variable {options : Options}

/-- The first of some turns whose failure counts. -/
def Turn.IsFirstFailure (turns : List (Turn options)) (first : Turn options) : Prop :=
  first.Counts ∧ ∃ earlier later, turns = earlier ++ first :: later ∧
    ∀ turn ∈ earlier, ¬ turn.Counts

/-- `ended.AccountsFor steps turns` says that `ended` is a true account of `turns` as a run of
`steps`. -/
structure Execution.AccountsFor (ended : Execution) (steps : List Step)
    (turns : List (Turn options)) : Prop where
  terminal : ended.status.isTerminal = true
  log : ended.log = turns.map Turn.entry
  labels : ended.log.map (fun entry => (entry.stepName, entry.stepKind, entry.position)) =
    turns.map fun turn => (turn.step.name, turn.step.kind, turn.step.position)
  inOrder : turns.map Turn.step <+: steps
  cutShort : turns.length < steps.length → ∃ last, turns.getLast? = some last ∧ last.Ends
  notBefore : ∀ turn ∈ turns.dropLast, ¬ turn.Ends
  failed : ended.status = .failed ↔ ∃ turn ∈ turns, turn.Counts
  message : ended.status = .failed → ∃ first error, Turn.IsFirstFailure turns first ∧
    first.entry.error = some error ∧ ended.errorMessage =
      some ("step '" ++ first.step.name ++ "': " ++ error)
  completed : ended.status ≠ .failed → ended.status = .completed ∧ ended.errorMessage = none
  gate : ended.gateStopped = true ↔ ∃ last, turns.getLast? = some last ∧ last.IsUnmet

namespace Workflow

theorem findSome?_failure_eq_none_iff (turns : List (Turn options)) :
    turns.findSome? Turn.failure? = none ↔ ∀ turn ∈ turns, ¬ turn.Counts := by
  simp only [List.findSome?_eq_none_iff, Turn.failure?_eq_none_iff]

theorem exists_isFirstFailure_of_findSome? {turns : List (Turn options)} {message : String}
    (h : turns.findSome? Turn.failure? = some message) :
    ∃ first error, Turn.IsFirstFailure turns first ∧ first.entry.error = some error ∧
      message = first.step.failureMessage error := by
  obtain ⟨earlier, first, later, rfl, hfirst, hearlier⟩ := List.findSome?_eq_some_iff.1 h
  obtain ⟨hcounts, error, herror, rfl⟩ := first.failure?_eq_some_iff.1 hfirst
  refine ⟨first, error, ⟨hcounts, earlier, later, rfl, ?_⟩, herror, rfl⟩
  intro turn hmem
  exact turn.failure?_eq_none_iff.1 (hearlier turn hmem)

theorem accountsFor_concluded {execution : Execution} {payload : Json} {steps : List Step}
    {lead final : Option Lead} {turns : List (Turn options)}
    (hcourse : Course options payload steps lead turns final) (hlog : execution.log = [])
    (hgate : execution.gateStopped = false) (now : Timestamp) :
    (execution.concluded turns now).AccountsFor steps turns where
  terminal := by
    unfold Execution.concluded
    split <;> rfl
  log := by simp [Execution.concluded, hlog]
  labels := by
    have hentry :
      ∀ turn : Turn options, (turn.entry.stepName, turn.entry.stepKind, turn.entry.position) =
        (turn.step.name, turn.step.kind, turn.step.position) := by
      intro turn
      unfold Turn.entry Step.entry
      split <;> rfl
    simp [Execution.concluded, hlog, hentry]
  inOrder := hcourse.map_step_prefix
  cutShort := hcourse.getLast?_ends
  notBefore := hcourse.not_ends_of_mem_dropLast
  failed := by
    have hnone := findSome?_failure_eq_none_iff turns
    unfold Execution.concluded
    cases hfailure : turns.findSome? Turn.failure? with
    | none => simpa using hnone.1 hfailure
    | some message => simpa [hfailure] using hnone
  message := by
    intro hfailed
    unfold Execution.concluded at hfailed ⊢
    cases hfailure : turns.findSome? Turn.failure? with
    | none => simp [hfailure] at hfailed
    | some message =>
      obtain ⟨first, error, hfirst, herror, rfl⟩ := exists_isFirstFailure_of_findSome? hfailure
      exact ⟨first, error, hfirst, herror, rfl⟩
  completed := by
    intro hnot
    unfold Execution.concluded at hnot ⊢
    cases hfailure : turns.findSome? Turn.failure? with
    | none => exact ⟨rfl, rfl⟩
    | some message => simp [hfailure] at hnot
  gate := by
    rw [← hcourse.any_stopped_iff]
    simp [Execution.concluded, hgate]

/-- Whatever the surroundings do, a run of a fresh record returns, calls nothing but what its turns
call, and leaves a true account of its turns. -/
theorem run_accountsFor {σ : Type} (answer : (call : Call) → σ → call.Reply × σ) (world : σ)
    (options : Options) (workflow : Workflow) (execution : Execution) (lead : Option Lead)
    (hrunning : execution.status = .running) (hlog : execution.log = [])
    (hgate : execution.gateStopped = false) :
    ∃ (ended : Execution) (report : RunReport) (turns : List (Turn options)) (fresh : Fresh),
      ((workflow.run options execution lead).run answer world).1 = .returned (ended, report) ∧
      (workflow.run options execution lead).transcript answer world =
        turns.flatMap Turn.calls ++ [⟨.stamp, fresh⟩] ∧
      StablySorted (· ≤ ·) Step.position workflow.steps workflow.stepsInOrder ∧
      Course options execution.triggerData workflow.stepsInOrder lead turns report.lead ∧
      ended.AccountsFor workflow.stepsInOrder turns := by
  obtain ⟨turns, final, fresh, hcourse, hcalls, hended⟩ :=
    exists_course_of_runs_run hrunning (Program.runs_transcript answer _ world)
  exact ⟨_, _, turns, fresh, hended, hcalls, workflow.stepsInOrder_stablySorted, hcourse,
    accountsFor_concluded hcourse hlog hgate fresh.now⟩

/-- The options under which a run goes on after an action that failed. -/
def lenient : Options := { continueOnStepFailure := true }

/-- A workflow of an action that cannot be carried out, a condition that a lead without a score does
not meet and a wait. -/
def eventful : Workflow where
  id := ⟨1⟩
  name := "eventful"
  description := none
  trigger := .manual
  active := true
  priority := 0
  steps := [
    ⟨⟨2⟩, .known .action, "mark hot", 1,
      .obj [("target", .str "status"), ("type", .str "status_change"), ("value", .str "HOT")]⟩,
    ⟨⟨3⟩, .known .condition, "scored", 2,
      .obj [("field", .str "score"), ("operator", .str "greater_than"), ("value", .int 50)]⟩,
    ⟨⟨4⟩, .known .delay, "wait", 3, .obj []⟩]
  createdBy := none
  createdAt := .epoch
  updatedAt := none

/-- The record of a run of `eventful` that begins. -/
def eventfulStart : Execution :=
  .start Program.stillFresh eventful (some (Lead.blank Program.stillFresh).id) none .null []

/-- The record of a run of `eventful` on a lead without a score, which the condition ends. -/
def eventfulEnd : Execution :=
  { eventfulStart with
    status := .failed
    errorMessage := some "step 'mark hot': 'HOT' is not a valid lead status"
    completedAt := some .epoch
    log := [
      ⟨"mark hot", .known .action, 1, false, none,
        some "'HOT' is not a valid lead status", .epoch, 0⟩,
      ⟨"scored", .known .condition, 2, true, some (.obj [("passed", .bool false)]), none,
        .epoch, 0⟩]
    gateStopped := true }

theorem run_eventful :
    ((eventful.run lenient eventfulStart (some (Lead.blank Program.stillFresh))).run
      (Surroundings.answer fun _ => Program.stillFresh) {}).1 =
        .returned (eventfulEnd, ⟨.empty, some (Lead.blank Program.stillFresh)⟩) := by
  rw [run, show eventful.stepsInOrder = eventful.steps from
    List.mergeSort_of_pairwise (by decide)]
  rfl

theorem run_accountsFor_eventful :
    let answer := Surroundings.answer fun _ => Program.stillFresh
    let lead := some (Lead.blank Program.stillFresh)
    eventfulStart.status = .running ∧ eventfulStart.log = [] ∧
    eventfulStart.gateStopped = false ∧
    ∃ (report : RunReport) (turns : List (Turn lenient)) (fresh : Fresh),
      ((eventful.run lenient eventfulStart lead).run answer {}).1 =
        .returned (eventfulEnd, report) ∧
      (eventful.run lenient eventfulStart lead).transcript answer {} =
        turns.flatMap Turn.calls ++ [⟨.stamp, fresh⟩] ∧
      StablySorted (· ≤ ·) Step.position eventful.steps eventful.stepsInOrder ∧
      Course lenient .null eventful.stepsInOrder lead turns report.lead ∧
      eventfulEnd.AccountsFor eventful.stepsInOrder turns := by
  intro answer lead
  obtain ⟨ended, report, turns, fresh, hended, hcalls, hsorted, hcourse, haccounts⟩ :=
    run_accountsFor answer {} lenient eventful eventfulStart lead rfl rfl rfl
  obtain ⟨rfl, rfl⟩ := Prod.mk.inj (Outcome.returned.inj (run_eventful.symm.trans hended))
  exact ⟨rfl, rfl, rfl, _, turns, fresh, hended, hcalls, hsorted, hcourse, haccounts⟩

/-- A workflow of one condition, which everything meets. -/
def unconditional : Workflow where
  id := ⟨1⟩
  name := "unconditional"
  description := none
  trigger := .manual
  active := true
  priority := 0
  steps := [⟨⟨2⟩, .known .condition, "no conditions", 1, .obj [("conditions", .arr [])]⟩]
  createdBy := none
  createdAt := .epoch
  updatedAt := none

/-- The record of a run of `unconditional` that begins. -/
def unconditionalStart : Execution := .start Program.stillFresh unconditional none none .null []

/-- A run whose last step is a condition need not have been stopped by it. -/
theorem not_gateStopped_unconditional :
    ∃ ended : Execution,
      ((unconditional.run {} unconditionalStart none).run
        (Surroundings.answer fun _ => Program.stillFresh) {}).1 =
        .returned (ended, ⟨.empty, none⟩) ∧
      (ended.log.getLast?.map LogEntry.stepKind) = some (.known .condition) ∧
      ended.gateStopped = false := by
  have hsteps : unconditional.stepsInOrder = unconditional.steps := List.mergeSort_singleton _
  refine ⟨{ unconditionalStart with
    status := .completed
    completedAt := some .epoch
    log := [⟨"no conditions", .known .condition, 1, true, some (.obj [("passed", .bool true)]),
      none, .epoch, 0⟩] },
    ?_, rfl, rfl⟩
  rw [run, hsteps]
  rfl

end Workflow

end LeadAutomation
