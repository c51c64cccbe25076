import LeadAutomation.Proofs.Workflow.Turns

/-!
# Courses

The course of a run is the list of its turns: each step sees the lead as the turn before it left it,
and the first turn that ends the run is the last. Every run takes a course, whatever it is told, and
what it returns can be computed from the turns alone; so everything that is to be said about runs is
said about courses.
-/

namespace LeadAutomation

/-- `Course options payload steps lead turns final` says that `turns` are a run of `steps` that
begins with `lead` and leaves `final`. -/
inductive Course (options : Options) (payload : Json) :
    List Step → Option Lead → List (Turn options) → Option Lead → Prop
  | finished {lead : Option Lead} : Course options payload [] lead [] lead
  | ended {turn : Turn options} {rest : List Step} {lead : Option Lead}
    (view : turn.view = ⟨lead, payload⟩)
      (ends : turn.Ends) : Course options payload (turn.step :: rest) lead [turn] turn.leadAfter
  | next {turn : Turn options} {rest : List Step} {lead final : Option Lead}
    {turns : List (Turn options)}
      (view : turn.view = ⟨lead, payload⟩) (goesOn : ¬ turn.Ends)
      (later : Course options payload rest turn.leadAfter turns final) :
      Course options payload (turn.step :: rest) lead (turn :: turns) final

namespace Course

variable {options : Options} {payload : Json} {steps : List Step} {lead final : Option Lead}
  {turns : List (Turn options)}

theorem map_step_prefix (h : Course options payload steps lead turns final) :
    turns.map Turn.step <+: steps := by
  induction h with
  | finished => exact List.nil_prefix
  | ended => exact ⟨_, rfl⟩
  | next view goesOn later ih => exact List.cons_prefix_cons.2 ⟨rfl, ih⟩

/-- A course that leaves steps out ends with a turn that ends it. -/
theorem getLast?_ends (h : Course options payload steps lead turns final)
    (hcut : turns.length < steps.length) :
    ∃ last, turns.getLast? = some last ∧ last.Ends := by
  induction h with
  | finished => exact absurd hcut (Nat.lt_irrefl 0)
  | ended view ends => exact ⟨_, rfl, ends⟩
  | @next turn rest lead final turns view goesOn later ih =>
    obtain ⟨last, hlast, hends⟩ := ih (Nat.lt_of_succ_lt_succ hcut)
    exact ⟨last, by rw [List.getLast?_cons, hlast]; rfl, hends⟩

theorem not_ends_of_mem_dropLast (h : Course options payload steps lead turns final) :
    ∀ turn ∈ turns.dropLast, ¬ turn.Ends := by
  induction h with
  | finished => simp
  | ended => simp
  | @next turn rest lead final turns view goesOn later ih =>
    intro earlier hmem
    cases turns with
    | nil => cases hmem
    | cons second others =>
      rw [List.dropLast_cons_cons] at hmem
      rcases List.mem_cons.1 hmem with rfl | hmem
      · exact goesOn
      · exact ih earlier hmem

/-- A turn that ends the run is the last one. -/
theorem getLast?_of_ends (h : Course options payload steps lead turns final) {turn : Turn options}
    (hmem : turn ∈ turns) (hends : turn.Ends) : turns.getLast? = some turn := by
  have hne : turns ≠ [] := List.ne_nil_of_mem hmem
  rw [← List.dropLast_concat_getLast hne, List.mem_append, List.mem_singleton] at hmem
  rcases hmem with hmem | rfl
  · exact absurd hends (h.not_ends_of_mem_dropLast turn hmem)
  · exact List.getLast?_eq_some_getLast hne

theorem view_of_cons {turn : Turn options}
    (h : Course options payload steps lead (turn :: turns) final) :
    turn.view = ⟨lead, payload⟩ := by
  cases h with
  | ended view ends => exact view
  | next view goesOn later => exact view

theorem isSome_view (h : Course options payload steps lead turns final)
    (hlead : lead.isSome = true) :
    ∀ turn ∈ turns, turn.view.lead.isSome = true := by
  induction h with
  | finished => exact List.forall_mem_nil _
  | ended view ends => exact List.forall_mem_singleton.2 (by rwa [view])
  | next view goesOn later ih =>
    refine List.forall_mem_cons.2 ⟨by rwa [view], ih ?_⟩
    rwa [Turn.leadAfter, Option.isSome_map, view]

theorem final_eq_of_getLast? (h : Course options payload steps lead turns final)
    {last : Turn options} (hlast : turns.getLast? = some last) : final = last.leadAfter := by
  induction h with
  | finished => cases hlast
  | ended view ends => exact congrArg Turn.leadAfter (Option.some.inj hlast)
  | @next turn rest lead final turns view goesOn later ih =>
    cases turns with
    | nil =>
      obtain rfl : turn = last := Option.some.inj hlast
      cases later
      rfl
    | cons second others => exact ih (List.getLast?_cons_cons.symm.trans hlast)

/-- A run is stopped by a condition just if its last turn is a condition that is not met. -/
theorem any_stopped_iff (h : Course options payload steps lead turns final) :
    turns.any Turn.stopped = true ↔ ∃ last, turns.getLast? = some last ∧ last.IsUnmet := by
  rw [List.any_eq_true]
  constructor
  · rintro ⟨turn, hmem, hstopped⟩
    have hunmet := turn.stopped_iff.1 hstopped
    exact ⟨turn, h.getLast?_of_ends hmem (.inl hunmet), hunmet⟩
  · rintro ⟨last, hlast, hunmet⟩
    exact ⟨last, List.mem_of_getLast? hlast, last.stopped_iff.2 hunmet⟩

end Course

/-! ### What a run returns -/

/-- The record of a run as it stands at its end, after some turns. -/
def Execution.concluded {options : Options} (execution : Execution) (turns : List (Turn options))
    (now : Timestamp) :
    Execution :=
  { execution with
    status := if (turns.findSome? Turn.failure?).isSome then .failed else .completed
    errorMessage := turns.findSome? Turn.failure?
    completedAt := some now
    log := execution.log ++ turns.map Turn.entry
    gateStopped := turns.any Turn.stopped || execution.gateStopped }

/-- Where a run stands after some turns, which left `lead`. -/
def RunState.afterTurns {options : Options} (state : RunState) (turns : List (Turn options))
    (lead : Option Lead) :
    RunState where
  execution := { state.execution with
    log := state.execution.log ++ turns.map Turn.entry
    gateStopped := turns.any Turn.stopped || state.execution.gateStopped }
  lead
  patch := (turns.map Turn.patch).foldl LeadPatch.merge state.patch
  failure := state.failure.or (turns.findSome? Turn.failure?)

theorem Execution.record_of_running {execution : Execution} {entry : LogEntry}
    (hrunning : execution.status = .running) :
    execution.record entry = .ok { execution with log := execution.log ++ [entry] } := by
  rw [record, if_neg (by simp [hrunning])]

namespace Workflow

variable {options : Options}

/-- What a step does to the state of a run, where the outcome has been looked at already. -/
private theorem after_eq_of_record {state : RunState} {step : Step} {now : Timestamp}
    {outcome : StepOutcome} {patch : LeadPatch} {gate ends : Bool} {failure : Option String}
    (hrunning : state.execution.status = .running)
    (hafter : state.after step now outcome patch =
      ({ state.execution with gateStopped := gate }.record (step.entry now outcome)).map fun ex =>
        (⟨ex, state.lead.map (patch.applyTo now), state.patch.merge patch, failure⟩, ends)) :
    state.after step now outcome patch =
      .ok (⟨{ state.execution with
          gateStopped := gate
          log := state.execution.log ++ [step.entry now outcome] },
        state.lead.map (patch.applyTo now), state.patch.merge patch, failure⟩, ends) := by
  rw [hafter, Execution.record_of_running]
  · rfl
  · exact hrunning

theorem after_eq_ok {state : RunState} {turn : Turn options}
    (hrunning : state.execution.status = .running) (hview : turn.view.lead = state.lead) :
    state.after turn.step turn.fresh.now turn.outcome turn.patch =
      .ok (state.afterTurns [turn] turn.leadAfter, turn.ends) := by
  obtain ⟨step, fresh, ⟨lead, payload⟩, exchanges, outcome, patch, performed⟩ := turn
  obtain rfl : lead = state.lead := hview
  simp only [RunState.afterTurns, Turn.leadAfter, List.map_singleton, List.any_cons, List.any_nil,
    List.findSome?_singleton]
  cases outcome with
  | passed result =>
    rw [after_eq_of_record hrunning rfl, Turn.failure?, Option.or_none]
    rfl
  | stopped result =>
    rw [after_eq_of_record hrunning rfl, Turn.failure?, Option.or_none]
    rfl
  | failed error halts =>
    rw [after_eq_of_record hrunning rfl]
    dsimp only [Turn.failure?]
    by_cases hcounts : step.counts halts = true
    · rw [if_pos hcounts, if_pos hcounts]
      rfl
    · rw [if_neg hcounts, if_neg hcounts, Option.or_none]
      rfl

theorem afterTurns_nil (state : RunState) :
    state.afterTurns ([] : List (Turn options)) state.lead = state := by
  simp [RunState.afterTurns]

theorem afterTurns_cons (state : RunState) (turn : Turn options) (turns : List (Turn options))
    (final : Option Lead) :
    (state.afterTurns [turn] turn.leadAfter).afterTurns turns final =
      state.afterTurns (turn :: turns) final := by
  simp only [RunState.afterTurns, RunState.mk.injEq, Execution.mk.injEq, List.map_cons,
    List.map_nil, List.foldl_cons, List.foldl_nil, List.any_cons, List.any_nil, List.findSome?_cons,
    List.findSome?_nil, true_and]
  refine ⟨⟨by simp, ?_⟩, ?_⟩
  · cases turn.stopped <;> simp
  · cases turn.failure? <;> simp

/-- The first of some steps takes a turn, and the rest follow unless the turn ends the run. -/
theorem exists_turn_of_runs_runSteps {step : Step} {rest : List Step} {state : RunState}
    {exchanges : List Exchange} {ended : Outcome RunState}
    (hrunning : state.execution.status = .running)
    (h : (runSteps options (step :: rest) state).Runs exchanges ended) :
    ∃ (turn : Turn options) (others : List Exchange), turn.step = step ∧
      turn.view = ⟨state.lead, state.execution.triggerData⟩ ∧ exchanges = turn.calls ++ others ∧
      (if turn.ends then pure (state.afterTurns [turn] turn.leadAfter)
        else runSteps options rest (state.afterTurns [turn] turn.leadAfter)).Runs others ended := by
  obtain ⟨fresh, remaining, rfl, hstep⟩ := Program.runs_stamp_bind.1 h
  obtain ⟨outcome, own, others, rfl, hattempt, hrest⟩ | ⟨error, hattempt, -⟩ |
      ⟨text, hattempt, -⟩ :=
    Program.runs_bind.1 hstep
  · obtain ⟨performed, hruns, hended⟩ := Program.runs_attempt.1 hattempt
    cases hended
    let turn : Turn options :=
      ⟨step, fresh, ⟨state.lead, state.execution.triggerData⟩, own, (Step.settled outcome).1,
        (Step.settled outcome).2,
        outcome, hruns, rfl⟩
    refine ⟨turn, others, rfl, rfl, rfl, ?_⟩
    change (guardState (state.after turn.step turn.fresh.now turn.outcome turn.patch) >>=
        fun next =>
      if next.2 then pure next.1 else runSteps options rest next.1).Runs others ended at hrest
    rwa [after_eq_ok hrunning rfl] at hrest
  · obtain ⟨_, -, hended⟩ := Program.runs_attempt.1 hattempt
    cases hended
  · obtain ⟨_, -, hended⟩ := Program.runs_attempt.1 hattempt
    cases hended

theorem exists_course_of_runs_runSteps {steps : List Step} {state : RunState}
    {exchanges : List Exchange} {ended : Outcome RunState}
    (hrunning : state.execution.status = .running)
    (h : (runSteps options steps state).Runs exchanges ended) :
    ∃ turns final, Course options state.execution.triggerData steps state.lead turns final ∧
      exchanges = turns.flatMap Turn.calls ∧ ended = .returned (state.afterTurns turns final) := by
  induction steps generalizing state exchanges with
  | nil =>
    obtain ⟨rfl, rfl⟩ := Program.runs_pure.1 h
    exact ⟨[], state.lead, .finished, rfl, by rw [afterTurns_nil]⟩
  | cons step rest ih =>
    obtain ⟨turn, others, rfl, hview, rfl, hrest⟩ := exists_turn_of_runs_runSteps hrunning h
    by_cases hends : turn.Ends
    · rw [if_pos (turn.ends_iff.2 hends)] at hrest
      obtain ⟨rfl, rfl⟩ := Program.runs_pure.1 hrest
      exact ⟨[turn], turn.leadAfter, .ended hview hends, by simp, rfl⟩
    · rw [if_neg (mt turn.ends_iff.1 hends)] at hrest
      have hnext : (state.afterTurns [turn] turn.leadAfter).execution.status = .running := hrunning
      obtain ⟨turns, final, hcourse, rfl, rfl⟩ := ih hnext hrest
      exact ⟨turn :: turns, final, .next hview hends hcourse, by simp, by rw [afterTurns_cons]⟩

theorem finalize_afterTurns {execution : Execution} {lead final : Option Lead}
    (hrunning : execution.status = .running) (turns : List (Turn options)) (now : Timestamp) :
    let state := RunState.afterTurns ⟨execution, lead, .empty, none⟩ turns final
    state.execution.finalize now (if state.failure.isSome then .failed
      else .completed) state.failure =
      .ok (execution.concluded turns now) := by
  simp only [RunState.afterTurns, Option.none_or, Execution.finalize, Execution.concluded, hrunning]
  cases turns.findSome? Turn.failure? with
  | none => rfl
  | some message => rfl

/-- A run takes a course and returns what the turns of the course come to. -/
theorem exists_course_of_runs_run {workflow : Workflow} {execution : Execution} {lead : Option Lead}
    {exchanges : List Exchange} {ended : Outcome (Execution × RunReport)}
    (hrunning : execution.status = .running)
    (h : (workflow.run options execution lead).Runs exchanges ended) :
    ∃ turns final fresh,
    Course options execution.triggerData workflow.stepsInOrder lead turns final ∧
      exchanges = turns.flatMap Turn.calls ++ [⟨.stamp, fresh⟩] ∧
      ended = .returned (execution.concluded turns fresh.now,
        ⟨(turns.map Turn.patch).foldl LeadPatch.merge .empty, final⟩) := by
  unfold run at h
  rw [if_neg (by simpa using hrunning)] at h
  obtain ⟨state, before, after, rfl, hsteps, hrest⟩ | ⟨error, hsteps, -⟩ | ⟨text, hsteps, -⟩ :=
    Program.runs_bind.1 h
  · obtain ⟨turns, final, hcourse, rfl, hended⟩ := exists_course_of_runs_runSteps hrunning hsteps
    cases hended
    obtain ⟨fresh, rest, rfl, hfinish⟩ := Program.runs_stamp_bind.1 hrest
    dsimp only at hfinish
    rw [finalize_afterTurns hrunning] at hfinish
    obtain ⟨rfl, rfl⟩ := Program.runs_pure.1 hfinish
    exact ⟨turns, final, fresh, hcourse, rfl, rfl⟩
  · obtain ⟨_, _, _, _, hended⟩ := exists_course_of_runs_runSteps hrunning hsteps
    cases hended
  · obtain ⟨_, _, _, _, hended⟩ := exists_course_of_runs_runSteps hrunning hsteps
    cases hended

theorem ended_of_runs_run {workflow : Workflow} {execution ended : Execution} {lead : Option Lead}
    {report : RunReport} {exchanges : List Exchange} (hrunning : execution.status = .running)
    (h : (workflow.run options execution lead).Runs exchanges (.returned (ended, report))) :
    ended.id = execution.id ∧ ended.status.isTerminal = true := by
  obtain ⟨turns, final, fresh, -, -, hended⟩ := exists_course_of_runs_run hrunning h
  cases hended
  refine ⟨rfl, ?_⟩
  unfold Execution.concluded
  split <;> rfl

end Workflow

end LeadAutomation
