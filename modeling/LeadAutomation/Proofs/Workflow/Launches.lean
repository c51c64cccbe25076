import LeadAutomation.Proofs.Host
import LeadAutomation.Proofs.Lead.Patches
import LeadAutomation.Proofs.Workflow.Courses
import LeadAutomation.Workflow.Launch

/-!
# Started workflows

On a host, a workflow that is started on a stored lead runs once, from a record that is stored as
running, and leaves two things in the store: its record as it ended and its merged writes on the
lead.
-/

namespace LeadAutomation

/-- The store after something wrote a patch to a lead and, if it was a workflow, left a record. -/
def Store.written (store : Store) (leadId : Uuid) (patch : LeadPatch) (now : Timestamp)
    (record : Option Execution) :
    Store :=
  { store with
    leads := modify Lead.id leadId (patch.applyTo now) store.leads
    executions :=
      record.elim store.executions fun record => upsert Execution.id record store.executions }

namespace Store

variable {store : Store} {leadId : Uuid} {patch : LeadPatch} {now : Timestamp}
  {record : Option Execution}

theorem find?_written {lead : Lead} (hstored : find? Lead.id leadId store.leads = some lead) :
    find? Lead.id leadId (store.written leadId patch now record).leads =
      some (patch.applyTo now lead) := by
  rw [written, find?_modify (fun lead => patch.id_applyTo now lead), hstored]
  rfl

theorem written_of_isEmpty (hempty : patch.isEmpty = true) :
    store.written leadId patch now record =
      { store with
        executions := record.elim store.executions fun record =>
          upsert Execution.id record store.executions } := by
  rw [written, modify_eq_self fun lead => LeadPatch.applyTo_of_isEmpty now lead hempty]

end Store

namespace Workflow

variable {σ : Type} (host : Host σ)

theorem exists_run_run (options : Options) (workflow : Workflow) {execution : Execution}
    (lead : Option Lead) (hrunning : execution.status = .running) (s : σ) :
    ∃ ended report s', (workflow.run options execution lead).run host.answer s =
      (.returned (ended, report), s') ∧
      ended.id = execution.id ∧ host.store s' = host.store s := by
  obtain ⟨turns, final, fresh, -, -, hended⟩ := exists_course_of_runs_run hrunning
    (Program.runs_transcript host.answer (workflow.run options execution lead) s)
  exact ⟨_, _, _, Prod.ext hended rfl, rfl,
    host.store_run_of_isOffline (run_isOffline options workflow execution lead) s⟩

theorem find?_executions_of_run {options : Options} {workflow : Workflow} {record ended : Execution}
    {lead : Option Lead} {report : RunReport} {s s' : σ} (hrunning : record.status = .running)
    (hrun : (workflow.run options record lead).run host.answer
      (host.answer (.store (.createExecution record)) s).2 = (.returned (ended, report), s')) :
    Store.find? Execution.id ended.id (host.store s').executions = some record := by
  obtain ⟨_, _, _, hrun', hid, hstore⟩ := exists_run_run host options workflow lead hrunning
    (host.answer (.store (.createExecution record)) s).2
  rw [hrun] at hrun'
  cases hrun'
  rw [hstore, host.store_store, hid]
  change Store.find? Execution.id record.id (Store.upsert Execution.id record _) = _
  rw [Store.find?_upsert, if_pos rfl]

/-- Storing the writes of a run on its lead, if it has one and there are any. -/
def write (leadId : Option Uuid) (patch : LeadPatch) : Program Unit :=
  match leadId with
  | some id => if patch.isEmpty then pure () else discard (.store (.applyPatch id patch))
  | none => pure ()

/-- What a started workflow does once its run is over: its record is stored, and then its writes. -/
def keep (leadId : Option Uuid) (ended : Execution) (patch : LeadPatch) : Program Execution :=
  Program.store (.updateExecution ended) >>= fun _ => write leadId patch >>= fun _ => pure ended

theorem write_callsOnly {allowed : Call → Prop}
    (hpatch : ∀ id patch, allowed (.store (.applyPatch id patch))) (leadId : Option Uuid)
    (patch : LeadPatch) : (write leadId patch).CallsOnly allowed := by
  unfold write
  split
  · split
    · exact .pure _
    · exact .map _ (.store (hpatch _ _))
  · exact .pure _

theorem keep_callsOnly {allowed : Call → Prop} {ended : Execution}
    (hupdate : allowed (.store (.updateExecution ended)))
    (hpatch : ∀ id patch, allowed (.store (.applyPatch id patch))) (leadId : Option Uuid)
    (patch : LeadPatch) :
    (keep leadId ended patch).CallsOnly allowed :=
  .bind (.store hupdate) fun _ => .bind (write_callsOnly hpatch leadId patch) fun _ => .pure _

theorem launch_eq (options : Options) (workflow : Workflow) (lead : Option Lead) (event : EventKind)
    (triggerData : Json) :
    workflow.launch options lead event triggerData = Program.stamp >>= fun fresh =>
      let record := Execution.start fresh workflow (lead.map (·.id)) (some event) triggerData []
      Program.store (.createExecution record) >>= fun _ =>
        workflow.run options record lead >>= fun (ended, report) =>
        keep (lead.map (·.id)) ended report.patch := by
  unfold launch keep write
  cases lead with
  | none => rfl
  | some given =>
    simp only [Option.map_some]
    congr 1
    funext fresh
    congr 1
    funext _
    congr 1
    funext ⟨ended, report⟩
    congr 1
    funext _
    split <;> rfl

variable {host} {leadId : Uuid} {lead : Lead} {ended before : Execution} {s : σ}

theorem exists_run_keep_none (patch : LeadPatch)
    (hrecord : Store.find? Execution.id ended.id (host.store s).executions = some before) :
    ∃ s', (keep none ended patch).run host.answer s = (.returned ended, s') ∧
      host.store s' =
        { host.store s with
          executions := Store.upsert Execution.id ended (host.store s).executions } := by
  have hresult : ((host.store s).answer (host.time s) (.updateExecution ended)).1 = .ok () := by
    simp only [Store.answer, hrecord]
  refine ⟨(host.answer (.store (.updateExecution ended)) s).2, ?_, ?_⟩
  · unfold keep
    rw [host.run_store_bind hresult]
    rfl
  · rw [host.store_store]
    simp only [Store.answer, hrecord]

theorem exists_run_keep (patch : LeadPatch)
    (hlead : Store.find? Lead.id leadId (host.store s).leads = some lead)
    (hrecord : Store.find? Execution.id ended.id (host.store s).executions = some before) :
    ∃ s' now, (keep (some leadId) ended patch).run host.answer s = (.returned ended, s') ∧
      host.store s' = (host.store s).written leadId patch now (some ended) := by
  have hresult : ((host.store s).answer (host.time s) (.updateExecution ended)).1 = .ok () := by
    simp only [Store.answer, hrecord]
  let kept := (host.answer (.store (.updateExecution ended)) s).2
  have hkept : host.store kept =
      { host.store s with
        executions := Store.upsert Execution.id ended (host.store s).executions } := by
    rw [host.store_store]
    simp only [Store.answer, hrecord]
  unfold keep write
  rw [host.run_store_bind hresult]
  by_cases hempty : patch.isEmpty = true
  · refine ⟨kept, .epoch, ?_, ?_⟩
    · dsimp only
      rw [if_pos hempty]
      rfl
    · rw [hkept, Store.written_of_isEmpty hempty]
      rfl
  · have hpatched : ((host.store kept).answer (host.time kept) (.applyPatch leadId patch)).1 =
        .ok (patch.applyTo (host.time kept) lead) := by
      simp only [Store.answer, hkept, hlead]
    refine ⟨(host.answer (.store (.applyPatch leadId patch)) kept).2, host.time kept, ?_, ?_⟩
    · dsimp only
      rw [if_neg hempty]
      change ((Program.store (.applyPatch leadId patch) >>= fun _ => pure ()) >>= fun _ =>
        pure ended).run host.answer
        kept = _
      rw [bind_assoc, host.run_store_bind hpatched]
      rfl
    · rw [host.store_store]
      simp only [Store.answer, hkept, hlead]
      rfl

variable (host)

/-- The record with which a workflow is started on a lead, by what the clock says. -/
def startedRecord (workflow : Workflow) (lead : Lead) (event : EventKind) (payload : Json) (s : σ) :
    Execution :=
  .start (host.answer .stamp s).1 workflow (some lead.id) (some event) payload []

/-- The surroundings with that record stored. -/
def started (workflow : Workflow) (lead : Lead) (event : EventKind) (payload : Json) (s : σ) : σ :=
  (host.answer (.store (.createExecution (workflow.startedRecord host lead event payload s)))
    (host.answer .stamp s).2).2

/-- A started workflow, on a stored lead or on none, runs from the record that it stores first. -/
theorem exists_run_launch_on (options : Options) (workflow : Workflow) (event : EventKind)
    (payload : Json) (lead : Option Lead) {s : σ}
    (hstored : ∀ given, lead = some given →
      Store.find? Lead.id given.id (host.store s).leads = some given) :
    let record :=
      Execution.start (host.answer .stamp s).1 workflow (lead.map (·.id)) (some event) payload []
    let begun := (host.answer (.store (.createExecution record)) (host.answer .stamp s).2).2
    ∃ ended report ran s' now,
      (workflow.run options record lead).run host.answer begun = (.returned (ended, report), ran) ∧
      (workflow.launch options lead event payload).run host.answer s = (.returned ended, s') ∧
      host.store s' = lead.elim
        { host.store s with
          executions := Store.upsert Execution.id ended (host.store s).executions }
        fun given => (host.store s).written given.id report.patch now (some ended) := by
  intro record begun
  have hbegun : host.store begun =
      { host.store s with
        executions := Store.upsert Execution.id record (host.store s).executions } := by
    change host.store (host.answer (.store _) _).2 = _
    rw [host.store_store, host.store_stamp]
    rfl
  have hrunning : record.status = .running := rfl
  obtain ⟨ended, report, ran, hrun, hid, hran⟩ :=
    exists_run_run host options workflow lead hrunning begun
  have hrecord : Store.find? Execution.id ended.id (host.store ran).executions = some record :=
    find?_executions_of_run host hrunning hrun
  have hlaunch : (workflow.launch options lead event payload).run host.answer s =
      (keep (lead.map (·.id)) ended report.patch).run host.answer ran := by
    rw [launch_eq, host.run_stamp_bind]
    change (Program.store (.createExecution record) >>= fun _ => _).run host.answer _ = _
    rw [host.run_store_bind rfl]
    change ((workflow.run options record lead) >>= fun _ => _).run host.answer begun = _
    rw [Program.run_bind, hrun]
  cases lead with
  | none =>
    obtain ⟨s', hkeep, hs'⟩ := exists_run_keep_none report.patch hrecord
    refine ⟨ended, report, ran, s', .epoch, hrun, hlaunch.trans hkeep, ?_⟩
    rw [hs', hran, hbegun, Option.elim_none]
    simp only [Store.upsert_upsert hid.symm]
  | some given =>
    have hlead : Store.find? Lead.id given.id (host.store ran).leads = some given := by
      rw [hran, hbegun]
      exact hstored given rfl
    obtain ⟨s', now, hkeep, hs'⟩ := exists_run_keep report.patch hlead hrecord
    refine ⟨ended, report, ran, s', now, hrun, hlaunch.trans hkeep, ?_⟩
    rw [hs', hran, hbegun, Option.elim_some]
    simp only [Store.written, Option.elim_some, Store.upsert_upsert hid.symm]

theorem exists_run_launch (options : Options) (workflow : Workflow) (event : EventKind)
    (payload : Json) {lead : Lead} {s : σ}
    (hstored : Store.find? Lead.id lead.id (host.store s).leads = some lead) :
    ∃ ended report ran s' now,
      (workflow.run options (workflow.startedRecord host lead event payload s) (some lead)).run
        host.answer
        (workflow.started host lead event payload s) = (.returned (ended, report), ran) ∧
      (workflow.launch options (some lead) event payload).run host.answer s =
        (.returned ended, s') ∧
      host.store s' = (host.store s).written lead.id report.patch now (some ended) := by
  refine exists_run_launch_on host options workflow event payload (some lead) ?_
  rintro given ⟨⟩
  exact hstored

end Workflow

end LeadAutomation
