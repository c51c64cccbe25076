import LeadAutomation.Proofs.Workflow.Accounts

/-!
# Runs that a condition ends

A condition that is not met ends a run, and that is expected: the run is meant to be a completed
one, stopped at its gate. Whether a run has failed is settled elsewhere, by the first failure that
counts, and one such failure can come before a gate: that of an action after which the options let
the run go on. Such a run is stopped at its gate and has failed all the same. It is the only
exception, `completes_at_gate_iff`.
-/

namespace LeadAutomation

variable {options : Options}

namespace Turn

variable (turn : Turn options)

/-- The step is an action that failed, and the run went on after it. -/
def IsForgiven : Prop := turn.Failed ∧ turn.IsTolerated

variable {turn}

theorem IsForgiven.counts (h : turn.IsForgiven) : turn.Counts := by
  obtain ⟨hfailed, -, ⟨action, hsettings⟩, -⟩ := h
  refine ⟨hfailed, ?_⟩
  rintro ⟨message, subject, recipients, hother, -⟩
  rw [hsettings] at hother
  cases hother

theorem Counts.isForgiven (h : turn.Counts) (hgoesOn : ¬ turn.Ends) : turn.IsForgiven := by
  refine ⟨h.1, Classical.byContradiction fun hnot => ?_⟩
  exact hgoesOn (.inr ⟨h, hnot⟩)

theorem IsUnmet.not_failed (h : turn.IsUnmet) : ¬ turn.Failed := by
  unfold Failed entry
  obtain ⟨_, -, hmet⟩ | ⟨_, houtcome, -⟩ | ⟨_, _, -, hmet, -⟩ := turn.verdict
  · exact absurd h hmet
  · simp [houtcome, Step.entry, Step.entry.logged]
  · exact absurd h hmet

end Turn

/-- Before a gate that ends the run, no failure counts but that of a forgiven action. -/
theorem Course.counts_iff_isForgiven {payload : Json} {steps : List Step} {lead final : Option Lead}
    {turns : List (Turn options)} (h : Course options payload steps lead turns final)
    {gate turn : Turn options} (hgate : gate ∈ turns) (hunmet : gate.IsUnmet)
    (hmem : turn ∈ turns) :
    turn.Counts ↔ turn.IsForgiven := by
  refine ⟨fun hcounts => ?_, fun hforgiven => hforgiven.counts⟩
  by_cases hends : turn.Ends
  · -- Only the gate ends the run, and a gate does not fail.
    have hlast := h.getLast?_of_ends hgate (.inl hunmet)
    rw [h.getLast?_of_ends hmem hends, Option.some.injEq] at hlast
    exact absurd hcounts.1 (hlast ▸ hunmet.not_failed)
  · exact hcounts.isForgiven hends

/-- A record says that its run was completed and stopped at a gate. -/
def Execution.CompletedAtGate (ended : Execution) : Prop :=
  ended.status = .completed ∧ ended.errorMessage = none ∧ ended.outcome = .gateStopped

/-- A record says that its run was stopped at a gate and failed, with the first failure that
counts. -/
def Execution.FailedAtGate (ended : Execution) (turns : List (Turn options)) : Prop :=
  ended.status = .failed ∧ ended.gateStopped = true ∧ ended.outcome = .failed ∧
    ∃ first error, Turn.IsFirstFailure turns first ∧ first.IsForgiven ∧
      first.entry.error = some error ∧
      ended.errorMessage = some ("step '" ++ first.step.name ++ "': " ++ error)

namespace Execution

variable (execution : Execution) {turns : List (Turn options)}

theorem completedAtGate_concluded (hstopped : turns.any Turn.stopped = true)
    (hfailure : turns.findSome? Turn.failure? = none) (now : Timestamp) :
    (execution.concluded turns now).CompletedAtGate := by
  simp [CompletedAtGate, concluded, outcome, hstopped, hfailure]

theorem failed_concluded {message : String}
    (hfailure : turns.findSome? Turn.failure? = some message) (now : Timestamp) :
    (execution.concluded turns now).status = .failed ∧
    (execution.concluded turns now).outcome = .failed ∧
      (execution.concluded turns now).errorMessage = some message := by
  simp [concluded, outcome, hfailure]

end Execution

namespace Workflow

/-- Whatever the systems outside do, a run in which a condition is not met is recorded as completed
and stopped at its gate just if no action was forgiven before; if one was, the run is recorded as
failed. -/
theorem completes_at_gate_iff {σ : Type} (answer : (call : Call) → σ → call.Reply × σ) (world : σ)
    (options : Options) (workflow : Workflow) (execution : Execution) (lead : Option Lead)
    (hrunning : execution.status = .running) :
    ∃ (ended : Execution) (report : RunReport) (turns : List (Turn options)) (fresh : Fresh),
      ((workflow.run options execution lead).run answer world).1 = .returned (ended, report) ∧
      (workflow.run options execution lead).transcript answer world =
        turns.flatMap Turn.calls ++ [⟨.stamp, fresh⟩] ∧
      ended.log = execution.log ++ turns.map Turn.entry ∧
      Course options execution.triggerData workflow.stepsInOrder lead turns report.lead ∧
      ∀ gate ∈ turns, gate.IsUnmet →
        (ended.CompletedAtGate ↔ ¬ ∃ turn ∈ turns, turn.IsForgiven) ∧
        ((∃ turn ∈ turns, turn.IsForgiven) → ended.FailedAtGate turns) := by
  obtain ⟨turns, final, fresh, hcourse, hcalls, hended⟩ :=
    exists_course_of_runs_run hrunning (Program.runs_transcript answer _ world)
  refine ⟨_, _, turns, fresh, hended, hcalls, rfl, hcourse, ?_⟩
  intro gate hgate hunmet
  have hstopped : turns.any Turn.stopped = true :=
    List.any_eq_true.2 ⟨gate, hgate, gate.stopped_iff.2 hunmet⟩
  have hcounts : ∀ turn ∈ turns, (turn.Counts ↔ turn.IsForgiven) :=
    fun turn hmem => hcourse.counts_iff_isForgiven hgate hunmet hmem
  cases hfailure : turns.findSome? Turn.failure? with
  | none =>
    have hnone : ¬ ∃ turn ∈ turns, turn.IsForgiven := by
      rintro ⟨turn, hmem, hforgiven⟩
      exact (findSome?_failure_eq_none_iff turns).1 hfailure turn hmem hforgiven.counts
    exact ⟨iff_of_true (execution.completedAtGate_concluded hstopped hfailure _) hnone,
      fun hsome => absurd hsome hnone⟩
  | some message =>
    obtain ⟨first, error, hfirst, herror, rfl⟩ := exists_isFirstFailure_of_findSome? hfailure
    obtain ⟨hstatus, houtcome, hmessage⟩ := execution.failed_concluded hfailure fresh.now
    obtain ⟨earlier, later, hturns, -⟩ := hfirst.2
    have hmem : first ∈ turns := hturns ▸ List.mem_append_right earlier List.mem_cons_self
    have hforgiven : first.IsForgiven := (hcounts first hmem).1 hfirst.1
    refine ⟨iff_of_false ?_ (not_not_intro ⟨first, hmem, hforgiven⟩), fun _ => ?_⟩
    · rintro ⟨hcompleted, -⟩
      rw [hstatus] at hcompleted
      cases hcompleted
    · refine ⟨hstatus, ?_, houtcome, first, error, hfirst, hforgiven, herror, hmessage⟩
      simp [Execution.concluded, hstopped]

/-- A workflow whose action cannot be carried out and whose condition a lead without a score does
not meet. -/
def hotOnly : Workflow where
  id := ⟨1⟩
  name := "hot only"
  description := none
  trigger := .manual
  active := true
  priority := 0
  steps := [
    ⟨⟨2⟩, .known .action, "mark hot", 1,
      .obj [("target", .str "status"), ("type", .str "status_change"), ("value", .str "HOT")]⟩,
    ⟨⟨3⟩, .known .condition, "scored", 2,
      .obj [("field", .str "score"), ("operator", .str "greater_than"), ("value", .int 50)]⟩]
  createdBy := none
  createdAt := .epoch
  updatedAt := none

/-- The record of a run of `hotOnly` that begins. -/
def hotOnlyStart : Execution :=
  .start Program.stillFresh hotOnly (some (Lead.blank Program.stillFresh).id) none .null []

theorem stepsInOrder_hotOnly : hotOnly.stepsInOrder = hotOnly.steps :=
  List.mergeSort_of_pairwise (by decide)

theorem completes_at_gate_iff_hotOnly :
    let answer := Surroundings.answer fun _ => Program.stillFresh
    let lead := some (Lead.blank Program.stillFresh)
    hotOnlyStart.status = .running ∧
    ∃ (ended : Execution) (report : RunReport) (turns : List (Turn lenient)) (fresh : Fresh),
      ((hotOnly.run lenient hotOnlyStart lead).run answer {}).1 = .returned (ended, report) ∧
      (hotOnly.run lenient hotOnlyStart lead).transcript answer {} =
        turns.flatMap Turn.calls ++ [⟨.stamp, fresh⟩] ∧
      ended.log = hotOnlyStart.log ++ turns.map Turn.entry ∧
      Course lenient .null hotOnly.stepsInOrder lead turns report.lead ∧
      ∀ gate ∈ turns, gate.IsUnmet →
        (ended.CompletedAtGate ↔ ¬ ∃ turn ∈ turns, turn.IsForgiven) ∧
        ((∃ turn ∈ turns, turn.IsForgiven) → ended.FailedAtGate turns) :=
  ⟨rfl, completes_at_gate_iff _ _ lenient hotOnly hotOnlyStart _ rfl⟩

/-- A condition that is not met need not end its run as completed. -/
theorem not_completedAtGate_hotOnly :
    let lead := Lead.blank Program.stillFresh
    ∃ (ended : Execution) (report : RunReport) (conditions : List Condition),
      ((hotOnly.run lenient hotOnlyStart (some lead)).run
        (Surroundings.answer fun _ => Program.stillFresh) {}).1 =
        .returned (ended, report) ∧
      (hotOnly.stepsInOrder.getLast?.map Step.settings) = some (.ok (.condition conditions)) ∧
      Condition.chainHolds (RecordView.mk (some lead) .null).lookup conditions = false ∧
      ended.log.map (fun entry => (entry.stepName, entry.success, entry.result)) =
        [("mark hot", false, none), ("scored", true, some (.obj [("passed", .bool false)]))] ∧
      ended.gateStopped = true ∧ ended.status = .failed ∧
      ended.errorMessage = some "step 'mark hot': 'HOT' is not a valid lead status" ∧
      ended.outcome = .failed := by
  refine ⟨{ hotOnlyStart with
    status := .failed
    errorMessage := some "step 'mark hot': 'HOT' is not a valid lead status"
    completedAt := some .epoch
    log := [
      ⟨"mark hot", .known .action, 1, false, none,
        some "'HOT' is not a valid lead status", .epoch, 0⟩,
      ⟨"scored", .known .condition, 2, true, some (.obj [("passed", .bool false)]),
        none, .epoch, 0⟩]
    gateStopped := true }, ⟨.empty, some (Lead.blank Program.stillFresh)⟩,
    [⟨"score", .known .greaterThan, some (.number (.ofInt 50)), .and⟩], ?_, ?_, ?_, rfl,
      rfl, rfl, rfl, rfl⟩
  · rw [run, stepsInOrder_hotOnly]
    rfl
  · rw [stepsInOrder_hotOnly]
    rfl
  · decide +kernel

end Workflow

end LeadAutomation
