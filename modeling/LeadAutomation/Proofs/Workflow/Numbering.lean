import LeadAutomation.Proofs.Host
import LeadAutomation.Proofs.Validation.Flaws
import LeadAutomation.Proofs.Workflow.Accounts

/-!
# Numbered steps

The steps of a workflow are to be numbered from one, and may be listed in any order. The check of
the positions is exact, and it is what makes positions mean something when a workflow runs:
`Workflow.run_numbered` says that a workflow that passed its checks runs its steps by their numbers,
and that in which order they are listed makes no difference to anything it does.
-/

namespace LeadAutomation

namespace Workflow

open Validation

variable {workflow : Workflow} {warnings : List String}

/-! ### The check of positions -/

theorem exists_steps_violation_iff :
    (∃ violations, workflow.validate = .error violations ∧ ∃ violation ∈ violations,
      violation.field = "steps") ↔
      ¬ workflow.Numbered := by
  constructor
  · rintro ⟨violations, hrejected, violation, hmem, hfield⟩
    obtain rfl : workflow.violations = violations := by
      unfold validate at hrejected
      split at hrejected
      · cases hrejected
      · exact Except.error.inj hrejected
    obtain ⟨place, message, hflaw, rfl⟩ := mem_violations_iff.1 hmem
    -- Nothing but the positions is reported under this name.
    have hplace : place = .whole "steps" :=
      List.inj_on_of_nodup_map workflow.nodup_map_key_places (mem_places_of_flaw hflaw)
        (List.mem_append_left _ (List.mem_map.2 ⟨"steps", by simp, rfl⟩)) hfield
    cases hflaw with
    | name => exact absurd hplace (by decide)
    | priority => exact absurd hplace (by decide)
    | steps misnumbered => exact misnumbered
    | step => cases hplace
  · intro hmisnumbered
    have hmem := mem_violations_iff.2 ⟨_, _, .steps hmisnumbered, rfl⟩
    refine ⟨workflow.violations, if_neg fun hempty => ?_, _, hmem, rfl⟩
    exact List.ne_nil_of_mem hmem (List.isEmpty_iff.1 hempty)

theorem validate_eq_ok_iff :
    workflow.validate = .ok warnings ↔
    workflow.warnings = warnings ∧ ∀ place message, ¬ workflow.Flaw place message := by
  unfold validate
  split
  · next hempty =>
    have hsound (place : Place) (message : String) : ¬ workflow.Flaw place message := fun hflaw =>
      List.ne_nil_of_mem (mem_violations_iff.2 ⟨place, message, hflaw, rfl⟩)
        (List.isEmpty_iff.1 hempty)
    simp [hsound]
  · next hnonempty =>
    obtain ⟨violation, hmem⟩ := List.exists_mem_of_ne_nil _ (mt List.isEmpty_iff.2 hnonempty)
    obtain ⟨place, message, hflaw, -⟩ := mem_violations_iff.1 hmem
    exact iff_of_false nofun fun h => h.2 place message hflaw

theorem numbered_of_validate (h : workflow.validate = .ok warnings) : workflow.Numbered := by
  by_contra hmisnumbered
  exact (validate_eq_ok_iff.1 h).2 _ _ (.steps hmisnumbered)

section

variable {steps : List Step}

theorem numbered_of_perm (hperm : steps.Perm workflow.steps) (h : workflow.Numbered) :
    { workflow with steps }.Numbered := by
  unfold Numbered
  rw [hperm.length_eq]
  exact (hperm.map _).trans h

/-- What is wrong with a workflow is wrong with it in whatever order its steps are listed, perhaps
at another place. -/
theorem exists_flaw_of_perm (hperm : steps.Perm workflow.steps) {place : Place} {message : String}
    (h : { workflow with steps }.Flaw place message) :
    ∃ place message, workflow.Flaw place message := by
  cases h with
  | name blank => exact ⟨_, _, .name blank⟩
  | priority outside => exact ⟨_, _, .priority outside⟩
  | steps misnumbered => exact ⟨_, _, .steps fun h => misnumbered (numbered_of_perm hperm h)⟩
  | step listed flaw =>
    obtain ⟨index, hindex⟩ := List.mem_iff_getElem?.1 (hperm.subset (List.mem_of_getElem? listed))
    exact ⟨_, _, .step hindex flaw⟩

theorem validate_of_perm (hperm : steps.Perm workflow.steps)
    (h : workflow.validate = .ok warnings) :
    { workflow with steps }.validate = .ok warnings := by
  obtain ⟨rfl, hsound⟩ := validate_eq_ok_iff.1 h
  refine validate_eq_ok_iff.2 ⟨?_, fun place message hflaw => ?_⟩
  · simp only [Workflow.warnings, hperm.isEmpty_eq]
  · obtain ⟨place, message, hflaw⟩ := exists_flaw_of_perm hperm hflaw
    exact hsound place message hflaw

end

/-! ### Running by number -/

theorem map_position_stepsInOrder (h : workflow.Numbered) :
    workflow.stepsInOrder.map (·.position.toInt) =
    (List.range workflow.steps.length).map fun (index : Nat) => (index : Int) + 1 := by
  have hperm :
      (workflow.stepsInOrder.map (·.position.toInt)).Perm (workflow.steps.map (·.position.toInt)) :=
    (List.mergeSort_perm _ _).map _
  have hsorted : (workflow.stepsInOrder.map (·.position.toInt)).Pairwise (· ≤ ·) :=
    List.pairwise_map.2 (workflow.stepsInOrder_stablySorted.ordered.imp Int32.le_iff_toInt_le.1)
  exact (hperm.trans h).eq_of_pairwise (fun _ _ _ _ => Int.le_antisymm) hsorted
    ((pairwise_lt_numbers _).imp Int.le_of_lt)

section

variable {steps : List Step}

theorem stepsInOrder_of_perm (hperm : steps.Perm workflow.steps) (h : workflow.Numbered) :
    { workflow with steps }.stepsInOrder = workflow.stepsInOrder := by
  have hnumbers : ((workflow.steps.map Step.position).map Int32.toInt).Nodup := by
    rw [List.map_map]
    exact h.nodup_iff.2 ((pairwise_lt_numbers _).imp Int.ne_of_lt)
  refine (stepsInOrder_stablySorted _).unique
    (fun _ _ => Int32.le_antisymm) workflow.stepsInOrder_stablySorted fun position => ?_
  exact (filter_key_of_perm hperm.symm hnumbers.of_map position).symm

theorem run_of_perm (hperm : steps.Perm workflow.steps) (h : workflow.Numbered) (options : Options)
    (execution : Execution) (lead : Option Lead) :
    { workflow with steps }.run options execution lead = workflow.run options execution lead := by
  rw [run, stepsInOrder_of_perm hperm h, ← run]

theorem launch_of_perm (hperm : steps.Perm workflow.steps) (h : workflow.Numbered)
    (options : Options) (lead : Option Lead) (event : EventKind) (triggerData : Json) :
    { workflow with steps }.launch options lead event triggerData =
      workflow.launch options lead event triggerData := by
  simp only [launch, run_of_perm hperm h]
  rfl

end

section

variable {options : Options} {payload : Json} {lead final : Option Lead}
  {turns : List (Turn options)}

theorem isPrefix_map_position_log
    (hcourse : Course options payload workflow.stepsInOrder lead turns final) :
    (turns.map Turn.entry).map LogEntry.position <+: workflow.stepsInOrder.map Step.position := by
  have hpositions : (turns.map Turn.entry).map LogEntry.position =
      (turns.map Turn.step).map Step.position := by
    rw [List.map_map, List.map_map]
    exact List.map_congr_left fun turn _ => turn.entry_position
  rw [hpositions]
  exact hcourse.map_step_prefix.map _

theorem position_of_getElem?_log (h : workflow.Numbered)
    (hcourse : Course options payload workflow.stepsInOrder lead turns final) {index : Nat}
    {entry : LogEntry} (hentry : (turns.map Turn.entry)[index]? = some entry) :
    entry.position.toInt = index + 1 := by
  obtain ⟨rest, hrest⟩ := isPrefix_map_position_log hcourse
  have hposition : (workflow.stepsInOrder.map (·.position.toInt))[index]? =
      some entry.position.toInt := by
    have hlogged : (workflow.stepsInOrder.map Step.position)[index]? = some entry.position := by
      rw [← hrest,
        List.getElem?_append_left (by simpa using (List.getElem?_eq_some_iff.1 hentry).1),
        List.getElem?_map, hentry]
      rfl
    rw [List.getElem?_map, Option.map_eq_some_iff] at hlogged
    obtain ⟨step, hstep, hposition⟩ := hlogged
    rw [List.getElem?_map, hstep, ← hposition]
    rfl
  rw [map_position_stepsInOrder h, List.getElem?_map, Option.map_eq_some_iff] at hposition
  obtain ⟨number, hnumber, heq⟩ := hposition
  obtain ⟨hlt, rfl⟩ := List.getElem?_eq_some_iff.1 hnumber
  rw [← heq, List.getElem_range]

/-- A run that neither fails nor stops at a gate logs every step. -/
theorem map_position_log_eq
    (hcourse : Course options payload workflow.stepsInOrder lead turns final)
    (hcounts : ∀ turn ∈ turns, ¬ turn.Counts) (hunmet : ∀ turn ∈ turns, ¬ turn.IsUnmet) :
    (turns.map Turn.entry).map LogEntry.position = workflow.stepsInOrder.map Step.position := by
  refine (isPrefix_map_position_log hcourse).eq_of_length_le (Nat.le_of_not_lt fun hcut => ?_)
  obtain ⟨last, hlast, hends⟩ := hcourse.getLast?_ends (by simpa using hcut)
  have hmem := List.mem_of_getLast? hlast
  obtain hgate | hhalts := hends
  · exact hunmet last hmem hgate
  · exact hcounts last hmem hhalts.1

end

/-- The check of a workflow tells of its positions just if these are not the numbers from one to the
count of its steps. If it accepts a workflow, then whatever the surroundings do, the first entry in
the log of a new execution is that of the step with number one, the second that of the step with
number two, and so on, to the last step unless the run fails or a condition stops it. A workflow
that differs in nothing but the order in which its steps are listed is accepted, too, and does the
same, call by call. -/
theorem run_numbered (workflow : Workflow) :
    ((∃ violations, workflow.validate = .error violations ∧
        ∃ violation ∈ violations, violation.field = "steps") ↔ ¬ workflow.Numbered) ∧
    ∀ warnings, workflow.validate = .ok warnings →
      (∀ {σ : Type} (answer : (call : Call) → σ → call.Reply × σ) (world : σ) (options : Options)
          (execution : Execution) (lead : Option Lead),
          execution.status = .running → execution.log = [] →
        ∃ ended report,
          ((workflow.run options execution lead).run answer world).1 = .returned (ended, report) ∧
          (∀ (index : Nat) (entry : LogEntry), ended.log[index]? = some entry →
            entry.position.toInt = index + 1) ∧
          ended.log.map LogEntry.position <+: workflow.stepsInOrder.map Step.position ∧
          (ended.status = .completed → ended.gateStopped = false →
            ended.log.map LogEntry.position = workflow.stepsInOrder.map Step.position)) ∧
      ∀ steps : List Step, steps.Perm workflow.steps →
        { workflow with steps }.validate = .ok warnings ∧
        (∀ options execution lead,
          { workflow with steps }.run options execution lead =
            workflow.run options execution lead) ∧
        ∀ options lead event triggerData,
          { workflow with steps }.launch options lead event triggerData =
            workflow.launch options lead event triggerData := by
  refine ⟨exists_steps_violation_iff, fun warnings hvalid => ?_⟩
  have hnumbered := numbered_of_validate hvalid
  constructor
  · intro σ answer world options execution lead hrunning hnew
    obtain ⟨turns, final, fresh, hcourse, -, hended⟩ :=
      exists_course_of_runs_run hrunning (Program.runs_transcript answer _ world)
    refine ⟨_, _, hended, ?_⟩
    rw [Execution.concluded, hnew, List.nil_append]
    refine ⟨fun index entry => position_of_getElem?_log hnumbered hcourse,
      isPrefix_map_position_log hcourse, fun hcompleted hgate => ?_⟩
    have hcounts : ∀ turn ∈ turns, ¬ turn.Counts := by
      rw [← findSome?_failure_eq_none_iff, ← Option.not_isSome_iff_eq_none]
      intro hfailed
      rw [if_pos hfailed] at hcompleted
      cases hcompleted
    have hunmet : ∀ turn ∈ turns, ¬ turn.IsUnmet := by
      intro turn hmem hturn
      have hstopped := List.any_eq_false.1 (Bool.or_eq_false_iff.1 hgate).1 turn hmem
      exact hstopped (turn.stopped_iff.2 hturn)
    exact map_position_log_eq hcourse hcounts hunmet
  · intro steps hperm
    exact ⟨validate_of_perm hperm hvalid, run_of_perm hperm hnumbered,
      launch_of_perm hperm hnumbered⟩

/-- A workflow of two waits, the second of which is listed first. -/
def backwards : Workflow where
  id := ⟨1⟩
  name := "Wait twice"
  description := none
  trigger := .manual
  active := true
  priority := 0
  steps := [⟨⟨3⟩, .known .delay, "second", 2, .obj []⟩, ⟨⟨2⟩, .known .delay, "first", 1, .obj []⟩]
  createdBy := none
  createdAt := .epoch
  updatedAt := none

theorem validate_backwards : backwards.validate = .ok [] := by
  have hnumbered : backwards.Numbered := .swap _ _ _
  have hviolations : backwards.violations = [] := by
    rw [violations, checkPositions, isNumbered_iff.2 hnumbered]
    decide +kernel
  rw [validate, hviolations]
  rfl

theorem stepsInOrder_backwards : backwards.stepsInOrder = backwards.steps.reverse := by
  have hlisted : { backwards with steps := backwards.steps.reverse }.stepsInOrder =
      backwards.steps.reverse := List.mergeSort_of_pairwise (by decide)
  rw [← hlisted]
  exact (stepsInOrder_of_perm (List.reverse_perm _)
    (numbered_of_validate validate_backwards)).symm

theorem run_numbered_backwards :
    let execution := Execution.start Program.stillFresh backwards none none .null []
    backwards.validate = .ok [] ∧ execution.status = .running ∧ execution.log = [] ∧
    backwards.steps.reverse.Perm backwards.steps ∧
    (¬ ∃ violations, backwards.validate = .error violations ∧
      ∃ violation ∈ violations, violation.field = "steps") ∧
    (∃ ended report,
      ((backwards.run {} execution none).run Host.still.answer {}).1 = .returned (ended, report) ∧
      (∀ (index : Nat) (entry : LogEntry), ended.log[index]? = some entry →
        entry.position.toInt = index + 1) ∧
      ended.log.map LogEntry.position <+: backwards.stepsInOrder.map Step.position ∧
      ended.status = .completed ∧ ended.gateStopped = false ∧
      ended.log.map (fun entry => (entry.stepName, entry.position)) =
        [("first", 1), ("second", 2)]) ∧
    { backwards with steps := backwards.steps.reverse }.validate = .ok [] ∧
    { backwards with steps := backwards.steps.reverse }.run {} execution none =
      backwards.run {} execution none := by
  intro execution
  have hvalid := validate_backwards
  have hperm : backwards.steps.reverse.Perm backwards.steps := List.reverse_perm _
  obtain ⟨-, hruns⟩ := run_numbered backwards
  obtain ⟨hpositions, hlistings⟩ := hruns [] hvalid
  obtain ⟨hreversed, hsame, -⟩ := hlistings backwards.steps.reverse hperm
  obtain ⟨ended, report, hended, hnumbers, hprefix, -⟩ :=
    hpositions Host.still.answer {} {} execution none rfl rfl
  have hentries : ended.status = .completed ∧ ended.gateStopped = false ∧
      ended.log.map (fun entry => (entry.stepName, entry.position)) =
        [("first", 1), ("second", 2)] := by
    rw [run, stepsInOrder_backwards] at hended
    cases hended
    exact ⟨rfl, rfl, rfl⟩
  refine ⟨hvalid, rfl, rfl, hperm, fun ⟨violations, hrejected, _⟩ => ?_,
    ⟨ended, report, hended, hnumbers, hprefix, hentries⟩, hreversed, hsame {} execution none⟩
  rw [hvalid] at hrejected
  cases hrejected

end Workflow

end LeadAutomation
