import LeadAutomation.Proofs.FrailHost
import LeadAutomation.Proofs.Workflow.Launches

/-!
# Workflows on a frail host

A started workflow leaves two things in the store, its record as it ended and its writes on the
lead, and storing either of them can fail. The order in which they are stored decides what a fault
can leave behind. The record comes first; so an execution is left running only if its own end could
not be stored, and then none of its writes is on the lead.

`FrailHost.Launches` lists the ways in which a launch can go. What a launch leaves behind is read
off the list.
-/

namespace LeadAutomation

open Program (moment)

/-- Whether something is written to a lead. -/
def Exchange.IsPatch (exchange : Exchange) : Prop :=
  ∃ leadId patch, exchange.call = .store (.applyPatch leadId patch)

/-- A workflow to be started, with what it is started on and by. -/
structure Launch where
  workflow : Workflow
  lead : Option Lead
  event : EventKind
  payload : Json

namespace Launch

variable {σ : Type} (options : Options) (host : FrailHost σ) (launch : Launch)

def program : Program Execution :=
  launch.workflow.launch options launch.lead launch.event launch.payload

/-- The record with which the workflow is started, by what the clock says. -/
def record (s : σ) : Execution :=
  .start (host.answer .stamp s).1 launch.workflow (launch.lead.map (·.id))
    (some launch.event) launch.payload []

def creation (s : σ) : StoreCall := .createExecution (launch.record host s)

/-- The surroundings once that record has been stored or refused. -/
def begun (s : σ) : σ := (host.answer (.store (launch.creation host s)) (host.answer .stamp s).2).2

/-- The calls before the run: the time is asked for, and the record is to be stored. -/
def opening (s : σ) : List (Exchange × σ) :=
  [moment host.answer .stamp s,
    moment host.answer (.store (launch.creation host s)) (host.answer .stamp s).2]

def run (s : σ) : Program (Execution × RunReport) :=
  launch.workflow.run options (launch.record host s) launch.lead

/-- The calls up to the one that is to store how the execution ended. -/
def ending (s : σ) (ended : Execution) (ran : σ) : List (Exchange × σ) :=
  launch.opening host s ++ (launch.run options host s).trace host.answer (launch.begun host s) ++
    [moment host.answer (.store (.updateExecution ended)) ran]

def write (report : RunReport) : Program Unit :=
  Workflow.write (launch.lead.map (·.id)) report.patch

/-- What is left to do once the time is known. -/
def started (s : σ) : Program Execution :=
  Program.store (launch.creation host s) >>= fun _ =>
      launch.run options host s >>= fun (ended, report) =>
    Workflow.keep (launch.lead.map (·.id)) ended report.patch

theorem trace_program (s : σ) : (launch.program options).trace host.answer s =
    moment host.answer .stamp s :: (launch.started options host s).trace host.answer
      (host.answer .stamp s).2 := by
  unfold program
  rw [Workflow.launch_eq]
  rfl

theorem run_program (s : σ) : (launch.program options).run host.answer s =
    (launch.started options host s).run host.answer (host.answer .stamp s).2 := by
  unfold program
  rw [Workflow.launch_eq]
  rfl

theorem run_callsOnly (s : σ) : (launch.run options host s).CallsOnly Call.SparesExecutions :=
  (Workflow.run_isOffline options _ _ _).mono fun _ => Call.IsOffline.sparesExecutions

theorem program_callsOnly : (launch.program options).CallsOnly Call.IsOrderly := by
  unfold program
  rw [Workflow.launch_eq]
  refine .bind (.stamp trivial) fun fresh => .bind (.store trivial) fun _ => .bind_of_runs ?_ ?_
  · exact (Workflow.run_isOffline options _ _ _).mono fun _ hcall =>
      hcall.sparesExecutions.isOrderly
  · intro exchanges (ended, report) hruns
    -- What a run returns has ended, so it is in order to store it.
    obtain ⟨-, hterminal⟩ := Workflow.ended_of_runs_run rfl hruns
    exact Workflow.keep_callsOnly hterminal (fun _ _ => trivial) _ _

/-- The end of the launched workflow could not be stored. -/
def IsStranded (s : σ) (trace : List (Exchange × σ)) : Prop :=
  ∃ ended error left, (⟨.store (.updateExecution ended), .error error⟩, left) ∈ trace ∧
    ended.id = (launch.record host s).id ∧ ended.status.isTerminal = true

end Launch

namespace FrailHost

variable {σ : Type} (host : FrailHost σ) (options : Options) (launch : Launch)

/-- How a launch can go, by its trace and the surroundings that it leaves. -/
inductive Launches (s : σ) : List (Exchange × σ) → σ → Prop
  | refused {error : AutomationError}
      (refuses : (host.answer (.store (launch.creation host s)) (host.answer .stamp s).2).1 =
        .error error) :
      Launches s (launch.opening host s) (launch.begun host s)
  | stranded {ended : Execution} {report : RunReport} {ran : σ} {error : AutomationError}
      (creates : (host.answer (.store (launch.creation host s)) (host.answer .stamp s).2).1 =
        .ok ())
      (runs : (launch.run options host s).run host.answer (launch.begun host s) =
        (.returned (ended, report), ran))
      (refuses : (host.answer (.store (.updateExecution ended)) ran).1 = .error error) :
      Launches s (launch.ending options host s ended ran)
        (host.answer (.store (.updateExecution ended)) ran).2
  | finished {ended : Execution} {report : RunReport} {ran : σ}
      (creates : (host.answer (.store (launch.creation host s)) (host.answer .stamp s).2).1 =
        .ok ())
      (runs : (launch.run options host s).run host.answer (launch.begun host s) =
        (.returned (ended, report), ran))
      (stores : (host.answer (.store (.updateExecution ended)) ran).1 = .ok ()) :
      Launches s
        (launch.ending options host s ended ran ++
          (launch.write report).trace host.answer
            (host.answer (.store (.updateExecution ended)) ran).2)
        ((launch.write report).run host.answer
          (host.answer (.store (.updateExecution ended)) ran).2).2

/-- Each write to a lead in a launch comes after the end of the execution under an identifier has
been stored, and from then on, through the write and what comes later, what is stored under the
identifier has ended. -/
def WritesAfterEnd (id : Uuid) (own later : List (Exchange × σ)) : Prop :=
  ∀ before writing after, own = before ++ writing :: after → writing.1.IsPatch →
    ∃ earlier ended kept between,
      before = earlier ++ (⟨.store (.updateExecution ended), .ok ()⟩, kept) :: between ∧
      ended.id = id ∧ ended.status.isTerminal = true ∧
      host.StaysEnded id
        ((⟨.store (.updateExecution ended), .ok ()⟩,
          kept) :: (between ++ writing :: after ++ later))

variable {host options launch} {s ran : σ} {ended : Execution} {report : RunReport}

theorem exists_run_run (options : Options) (launch : Launch) (s : σ) :
    ∃ ended report ran,
      (launch.run options host s).run host.answer (launch.begun host s) =
        (.returned (ended, report), ran) := by
  have hrunning : (launch.record host s).status = .running := rfl
  obtain ⟨turns, final, fresh, -, -, hended⟩ := Workflow.exists_course_of_runs_run hrunning
    (Program.runs_transcript host.answer (launch.run options host s) (launch.begun host s))
  exact ⟨_, _, _, Prod.ext hended rfl⟩

theorem ended_of_run
    (hran : (launch.run options host s).run host.answer (launch.begun host s) =
      (.returned (ended, report), ran)) :
    ended.id = (launch.record host s).id ∧ ended.status.isTerminal = true := by
  have hruns :=
    Program.runs_transcript host.answer (launch.run options host s) (launch.begun host s)
  rw [hran] at hruns
  exact Workflow.ended_of_runs_run rfl hruns

theorem launches (launch : Launch) (s : σ) :
    host.Launches options launch s ((launch.program options).trace host.answer s)
      ((launch.program options).run host.answer s).2 := by
  rw [Launch.trace_program, Launch.run_program, Launch.started]
  cases hcreate : (host.answer (.store (launch.creation host s)) (host.answer .stamp s).2).1 with
  | error error =>
    rw [Program.trace_store_bind_error hcreate, Program.run_store_bind_error hcreate]
    exact .refused hcreate
  | ok result =>
    -- From here the run always returns, so only the store can cut the launch short.
    obtain ⟨ended, report, ran, hran⟩ := exists_run_run options launch s
    rw [Program.trace_store_bind_ok hcreate, Program.run_store_bind_ok hcreate]
    change host.Launches options launch s
      (launch.opening host s ++ (launch.run options host s >>= _).trace host.answer
        (launch.begun host s))
      ((launch.run options host s >>= _).run host.answer (launch.begun host s)).2
    rw [Program.trace_bind, Program.run_bind, hran, ← List.append_assoc]
    dsimp only
    unfold Workflow.keep
    cases hupdate : (host.answer (.store (.updateExecution ended)) ran).1 with
    | error error =>
      rw [Program.trace_store_bind_error hupdate, Program.run_store_bind_error hupdate]
      exact .stranded hcreate hran hupdate
    | ok result =>
      rw [Program.trace_store_bind_ok hupdate, Program.run_store_bind_ok hupdate,
        Program.trace_bind_pure, Program.run_bind_pure, List.append_cons]
      exact .finished hcreate hran hupdate

theorem executions_stamp (s : σ) : host.executions (host.answer .stamp s).2 = host.executions s :=
  executions_answer .stamp trivial s

theorem executions_begun
    (h : (host.answer (.store (launch.creation host s)) (host.answer .stamp s).2).1 = .ok ()) :
    host.executions (launch.begun host s) =
      Store.upsert Execution.id (launch.record host s) (host.executions s) := by
  rw [← executions_stamp s]
  exact executions_create h

theorem executions_ran
    (hran : (launch.run options host s).run host.answer (launch.begun host s) =
      (.returned (ended, report), ran)) :
    host.executions ran = host.executions (launch.begun host s) := by
  have hkeeps :
    host.executions ((launch.run options host s).run host.answer (launch.begun host s)).2 =
      host.executions (launch.begun host s) :=
        executions_run (launch.run_callsOnly options host s) _
  rwa [hran] at hkeeps

/-! ### What a launch leaves behind -/

theorem exists_between {α : Type} {first second before after : List α} {item : α}
    (h : first ++ second = before ++ item :: after) (hitem : item ∉ first) :
    ∃ between, before = first ++ between ∧ second = between ++ item :: after := by
  obtain ⟨between, hbefore, hsecond⟩ | ⟨rest, hfirst, hrest⟩ := List.append_eq_append_iff.1 h
  · exact ⟨between, hbefore, hsecond⟩
  · cases rest with
    | nil => exact ⟨[], by simpa using hfirst.symm, hrest.symm⟩
    | cons head tail =>
      cases hrest
      exact absurd (hfirst ▸ List.mem_append_right before List.mem_cons_self) hitem

theorem Launches.running {trace : List (Exchange × σ)} {left : σ}
    (h : host.Launches options launch s trace left) {record : Execution}
    (hmem : record ∈ host.executions left) (hrunning : record.status = .running) :
    record ∈ host.executions s ∨ record = launch.record host s ∧
    launch.IsStranded host s trace := by
  cases h with
  | refused refuses =>
    have hbegun : host.executions (launch.begun host s) = host.executions s :=
      (executions_of_error refuses).trans (executions_stamp s)
    exact .inl (hbegun ▸ hmem)
  | @stranded ended report ran error creates runs refuses =>
    rw [executions_of_error refuses, executions_ran runs, executions_begun creates] at hmem
    obtain ⟨hid, hterminal⟩ := ended_of_run runs
    rcases Store.mem_upsert hmem with rfl | hold
    · refine .inr ⟨rfl, ended, error, (host.answer (.store (.updateExecution ended)) ran).2, ?_,
        hid, hterminal⟩
      rw [← refuses]
      exact List.mem_append_right _ List.mem_cons_self
    · exact .inl hold
  | @finished ended report ran creates runs stores =>
    -- The record of the end takes the place of the one that was stored as running.
    have hwrite : (launch.write report).CallsOnly Call.SparesExecutions :=
      Workflow.write_callsOnly (fun _ _ => trivial) _ _
    obtain ⟨hid, hterminal⟩ := ended_of_run runs
    rw [executions_run hwrite, executions_update stores, executions_ran runs,
      executions_begun creates, Store.upsert_upsert hid.symm] at hmem
    rcases Store.mem_upsert hmem with rfl | hold
    · rw [hrunning] at hterminal
      cases hterminal
    · exact .inl hold

theorem not_isPatch_of_mem_opening {step : Exchange × σ} (h : step ∈ launch.opening host s) :
    ¬ step.1.IsPatch := by
  rintro ⟨leadId, patch, hcall⟩
  unfold Launch.opening at h
  rw [List.mem_cons, List.mem_singleton] at h
  rcases h with rfl | rfl <;> cases hcall

/-- No lead is written to before the end of the execution is to be stored. -/
theorem not_isPatch_of_mem_ending {step : Exchange × σ}
    (h : step ∈ launch.ending options host s ended ran) :
    ¬ step.1.IsPatch := by
  unfold Launch.ending at h
  rw [List.mem_append, List.mem_append, List.mem_singleton] at h
  obtain (hopening | hrun) | rfl := h
  · exact not_isPatch_of_mem_opening hopening
  · have hoffline := (Workflow.run_isOffline options _ _ _).of_mem_trace step hrun
    rintro ⟨leadId, patch, hcall⟩
    rw [hcall] at hoffline
    exact hoffline
  · rintro ⟨leadId, patch, hcall⟩
    cases hcall

theorem Launches.writesAfterEnd {trace later : List (Exchange × σ)} {left : σ}
    (h : host.Launches options launch s trace left)
    (hlater : (host.store left).HasEnded (launch.record host s).id →
      host.StaysEnded (launch.record host s).id later) :
    host.WritesAfterEnd (launch.record host s).id trace later := by
  intro before writing after hsplit hpatch
  have hmem : writing ∈ trace := by
    rw [hsplit]
    exact List.mem_append_right _ List.mem_cons_self
  cases h with
  | refused refuses => exact absurd hpatch (not_isPatch_of_mem_opening hmem)
  | stranded creates runs refuses => exact absurd hpatch (not_isPatch_of_mem_ending hmem)
  | @finished ended report ran creates runs stores =>
    obtain ⟨between, rfl, hwrite⟩ :=
      exists_between hsplit fun hending => not_isPatch_of_mem_ending hending hpatch
    obtain ⟨hid, hterminal⟩ := ended_of_run runs
    let kept := (host.answer (.store (.updateExecution ended)) ran).2
    have hkept : (host.store kept).HasEnded (launch.record host s).id := by
      refine ⟨ended, ?_, hterminal⟩
      change Store.find? _ _ (host.executions kept) = _
      rw [executions_update stores, Store.find?_upsert, if_pos hid]
    have horderly : (launch.write report).CallsOnly Call.IsOrderly :=
      Workflow.write_callsOnly (fun _ _ => trivial) _ _
    have hupdate : moment host.answer (.store (.updateExecution ended)) ran =
        (⟨.store (.updateExecution ended), .ok ()⟩, kept) := by
      rw [← stores]
      rfl
    refine ⟨launch.opening host s ++
      (launch.run options host s).trace host.answer (launch.begun host s), ended, kept, between,
      ?_, hid, hterminal, .inr ⟨hkept, ?_⟩⟩
    · unfold Launch.ending
      rw [List.append_assoc, hupdate]
      rfl
    · rw [← hwrite]
      exact staysEnded_trace_append horderly hkept hlater

end FrailHost

end LeadAutomation
