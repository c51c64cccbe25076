import LeadAutomation.Proofs.Records
import LeadAutomation.Proofs.Workflow.Accounts

/-!
# Finality

Two parties that know nothing of each other write records of executions. A run stores its record as
running when it begins and again, as it ended, when it is over; a sweep ends the records of runs
that look abandoned. A record that has ended is meant to stay as it is, whatever the order of these
deeds.

It does, with one exception. A run that is swept while it still goes on replaces its record all the
same when it ends, since the store replaces records without looking at them. The ledger kept by
`recordAfter_of_open` tells at any point what is stored of a run that goes on, and from it follows
that there is no other way in which a record that has ended can change.
-/

namespace LeadAutomation

/-- A run that came to its end, with its record before and after. -/
structure FinishedRun (id : Uuid) where
  started : Execution
  ended : Execution
  id_started : started.id = id
  running : started.status = .running
  genuine : ∃ (options : Options) (workflow : Workflow) (lead : Option Lead)
    (exchanges : List Exchange) (report : RunReport),
      (workflow.run options started lead).Runs exchanges (.returned (ended, report))

/-- What is done to the records of a store. -/
inductive Deed where
  /-- A run begins. -/
  | create (id : Uuid)
  /-- A run is over. -/
  | update (id : Uuid)
  | sweep (cutoff : Timestamp) (message : String)

namespace FinishedRun

variable {id : Uuid} (run : FinishedRun id)

theorem exists_concluded :
    ∃ (options : Options) (turns : List (Turn options)) (now : Timestamp),
    run.ended = run.started.concluded turns now := by
  obtain ⟨options, workflow, lead, exchanges, report, hruns⟩ := run.genuine
  obtain ⟨turns, final, fresh, -, -, hended⟩ := Workflow.exists_course_of_runs_run run.running hruns
  exact ⟨options, turns, fresh.now, (Prod.mk.inj (Outcome.returned.inj hended)).1⟩

theorem id_ended : run.ended.id = id := by
  obtain ⟨options, turns, now, hended⟩ := run.exists_concluded
  rw [hended]
  exact run.id_started

theorem log_ne_of_failed (hfailed : run.ended.status = .failed) :
    run.ended.log ≠ run.started.log := by
  obtain ⟨options, turns, now, hended⟩ := run.exists_concluded
  rw [hended] at hfailed ⊢
  unfold Execution.concluded at hfailed ⊢
  cases turns with
  | nil => simp at hfailed
  | cons turn turns => simp

end FinishedRun

namespace Store

variable (runs : (id : Uuid) → FinishedRun id) (clock : List Deed → Timestamp) (store : Store)

def deedCall : Deed → StoreCall
  | .create id => .createExecution (runs id).started
  | .update id => .updateExecution (runs id).ended
  | .sweep cutoff message => .failStaleExecutions cutoff message

/-- The store after some deeds, the latest first; `clock` says when the next one was done. -/
def afterDeeds : List Deed → Store
  | [] => store
  | deed :: earlier => ((afterDeeds earlier).answer (clock earlier) (deedCall runs deed)).2

def recordAfter (history : List Deed) (id : Uuid) : Option Execution :=
  find? Execution.id id (store.afterDeeds runs clock history).executions

def swept (now cutoff : Timestamp) (message : String) (record : Execution) : Execution :=
  if isStale cutoff record then abandon now message record else record

variable {now cutoff : Timestamp} {message : String} {record : Execution}

theorem swept_of_isTerminal (hterminal : record.status.isTerminal = true) :
    swept now cutoff message record = record := by
  have hnot : isStale cutoff record = false := by
    cases hstatus : record.status <;> simp_all [isStale, ExecutionStatus.isTerminal]
  rw [swept, hnot]
  rfl

theorem swept_of_isStale (hstale : isStale cutoff record = true) :
    swept now cutoff message record =
      { record with status := .failed, errorMessage := some message, completedAt := some now } := by
  have hrunning : record.status = .running := by
    simp only [isStale, Bool.and_eq_true, decide_eq_true_eq] at hstale
    exact hstale.1
  rw [swept, if_pos hstale, abandon, Execution.finalize, hrunning]
  rfl

@[simp]
theorem id_swept : (swept now cutoff message record).id = record.id := by
  by_cases hstale : isStale cutoff record = true
  · rw [swept_of_isStale hstale]
  · rw [swept, if_neg hstale]

variable {runs clock store} {history earlier : List Deed} {id wanted : Uuid}

theorem recordAfter_create :
    store.recordAfter runs clock (.create id :: earlier) wanted =
      if id = wanted then some (runs id).started
      else store.recordAfter runs clock earlier wanted := by
  change find? Execution.id wanted (upsert Execution.id (runs id).started _) = _
  rw [find?_upsert, (runs id).id_started]
  rfl

theorem recordAfter_update :
    store.recordAfter runs clock (.update id :: earlier) wanted =
      if id = wanted then (store.recordAfter runs clock earlier id).map fun _ => (runs id).ended
      else store.recordAfter runs clock earlier wanted := by
  have hid := (runs id).id_ended
  unfold recordAfter
  cases hfound : find? Execution.id id (store.afterDeeds runs clock earlier).executions with
  | some before =>
    simp only [afterDeeds, deedCall, answer, hid, hfound, find?_upsert]
    rfl
  | none =>
    simp only [afterDeeds, deedCall, answer, hid, hfound]
    split
    · next heq => rw [← heq, hfound]; rfl
    · rfl

theorem recordAfter_sweep :
    store.recordAfter runs clock (.sweep cutoff message :: earlier) id =
      (store.recordAfter runs clock earlier id).map (swept (clock earlier) cutoff message) :=
  find?_map fun _ => id_swept

end Store

open Store

/-- Some deeds, the latest first, as runs and sweeps can do them in any order: a run begins once,
with an identifier of its own, and is over at most once, after it began. -/
inductive IsInterleaving (store : Store) : List Deed → Prop
  | start : IsInterleaving store []
  | create {earlier : List Deed} {id : Uuid} (before : IsInterleaving store earlier)
      (unstored : find? Execution.id id store.executions = none) (fresh : .create id ∉ earlier) :
      IsInterleaving store (.create id :: earlier)
  | update {earlier : List Deed} {id : Uuid} (before : IsInterleaving store earlier)
    (begun : .create id ∈ earlier)
      (once : .update id ∉ earlier) : IsInterleaving store (.update id :: earlier)
  | sweep {earlier : List Deed} {cutoff : Timestamp} {message : String}
    (before : IsInterleaving store earlier) :
      IsInterleaving store (.sweep cutoff message :: earlier)

/-- A sweep whose cutoff lies after the beginning of a run came after the run had begun. -/
def IsSwept (runs : (id : Uuid) → FinishedRun id) (history : List Deed) (id : Uuid) : Prop :=
  ∃ later earlier cutoff message, history = later ++ .sweep cutoff message :: earlier ∧
    .create id ∈ earlier ∧
    (runs id).started.startedAt.before cutoff = true

/-- A run was swept while it went on, and was over later. -/
def IsOvertaken (runs : (id : Uuid) → FinishedRun id) (history : List Deed) (id : Uuid) : Prop :=
  ∃ later earlier, history = later ++ .update id :: earlier ∧ IsSwept runs earlier id

theorem isSwept_cons_iff {runs : (id : Uuid) → FinishedRun id} {deed : Deed} {history : List Deed}
    {id : Uuid} :
    IsSwept runs (deed :: history) id ↔ IsSwept runs history id ∨
      ∃ cutoff message, deed = .sweep cutoff message ∧ .create id ∈ history ∧
        (runs id).started.startedAt.before cutoff = true := by
  constructor
  · rintro ⟨later, earlier, cutoff, message, hhistory, hmem, hcutoff⟩
    rcases List.cons_eq_append_iff.1 hhistory with ⟨rfl, heq⟩ | ⟨later, rfl, rfl⟩
    · obtain ⟨rfl, rfl⟩ := List.cons.inj heq
      exact .inr ⟨cutoff, message, rfl, hmem, hcutoff⟩
    · exact .inl ⟨later, earlier, cutoff, message, rfl, hmem, hcutoff⟩
  · rintro (⟨later, earlier, cutoff, message, rfl, hmem, hcutoff⟩ |
      ⟨cutoff, message, rfl, hmem, hcutoff⟩)
    · exact ⟨deed :: later, earlier, cutoff, message, rfl, hmem, hcutoff⟩
    · exact ⟨[], history, cutoff, message, rfl, hmem, hcutoff⟩

theorem IsSwept.create_mem {runs : (id : Uuid) → FinishedRun id} {history : List Deed} {id : Uuid}
    (h : IsSwept runs history id) : .create id ∈ history := by
  obtain ⟨later, earlier, cutoff, message, rfl, hmem, -⟩ := h
  exact List.mem_append_right later (List.mem_cons_of_mem _ hmem)

/-- Two records tell of one end. -/
structure Execution.SameEnd (record other : Execution) : Prop where
  status : record.status = other.status
  errorMessage : record.errorMessage = other.errorMessage
  completedAt : record.completedAt = other.completedAt
  log : record.log = other.log
  gateStopped : record.gateStopped = other.gateStopped

/-- From any point of a history on at which the record of an execution has ended, it tells of the
same end. -/
def StaysFinal (runs : (id : Uuid) → FinishedRun id) (clock : List Deed → Timestamp) (store : Store)
    (history : List Deed) : Prop :=
  ∀ rest later earlier id record, history = rest ++ (later ++ earlier) →
    store.recordAfter runs clock earlier id = some record → record.status.isTerminal = true →
    ∃ left, store.recordAfter runs clock (later ++ earlier) id = some left ∧ left.SameEnd record

namespace IsInterleaving

variable {runs : (id : Uuid) → FinishedRun id} {clock : List Deed → Timestamp} {store : Store}
  {history later earlier : List Deed} {deed : Deed} {id : Uuid} {record : Execution}

theorem of_cons (h : IsInterleaving store (deed :: history)) : IsInterleaving store history := by
  cases h with
  | create before => exact before
  | update before => exact before
  | sweep before => exact before

theorem of_append (h : IsInterleaving store (later ++ earlier)) : IsInterleaving store earlier := by
  induction later with
  | nil => exact h
  | cons deed later ih => exact ih h.of_cons

theorem recordAfter_of_not_mem (h : IsInterleaving store history)
    (hunstored : find? Execution.id id store.executions = none)
    (huncreated : .create id ∉ history) :
    store.recordAfter runs clock history id = none := by
  induction h with
  | start => exact hunstored
  | @create earlier other before unstored fresh ih =>
    rw [List.mem_cons, not_or] at huncreated
    rw [recordAfter_create, if_neg (by rintro rfl; exact huncreated.1 rfl), ih huncreated.2]
  | @update earlier other before begun once ih =>
    rw [List.mem_cons, not_or] at huncreated
    rw [recordAfter_update, if_neg (by rintro rfl; exact huncreated.2 begun), ih huncreated.2]
  | sweep before ih =>
    rw [List.mem_cons, not_or] at huncreated
    rw [recordAfter_sweep, ih huncreated.2]
    rfl

variable (runs clock) in
/-- While a run goes on its record is the one that it stored, until a sweep ends it. -/
theorem recordAfter_of_open (h : IsInterleaving store history) (hcreated : .create id ∈ history)
    (hopen : .update id ∉ history) :
    store.recordAfter runs clock history id = some (runs id).started ∧ ¬ IsSwept runs history id ∨
    ∃ record, store.recordAfter runs clock history id = some record ∧ record.status = .failed ∧
      record.log = (runs id).started.log ∧ IsSwept runs history id := by
  induction h with
  | start => cases hcreated
  | @create earlier other before unstored fresh ih =>
    rw [recordAfter_create, isSwept_cons_iff]
    split
    · next heq =>
      subst heq
      -- The run begins only now, so no sweep came after its beginning.
      refine .inl ⟨rfl, ?_⟩
      rintro (hswept | ⟨_, _, hdeed, -⟩)
      · exact fresh hswept.create_mem
      · cases hdeed
    · next hne =>
      have hearlier : .create id ∈ earlier :=
        (List.mem_cons.1 hcreated).resolve_left (by rintro ⟨⟩; exact hne rfl)
      simpa using ih hearlier fun hmem => hopen (List.mem_cons_of_mem _ hmem)
  | @update earlier other before begun once ih =>
    rw [List.mem_cons, not_or] at hopen
    have hearlier : .create id ∈ earlier := (List.mem_cons.1 hcreated).resolve_left nofun
    rw [recordAfter_update, if_neg (by rintro rfl; exact hopen.1 rfl), isSwept_cons_iff]
    simpa using ih hearlier hopen.2
  | @sweep earlier cutoff message before ih =>
    rw [List.mem_cons, not_or] at hopen
    have hearlier : .create id ∈ earlier := (List.mem_cons.1 hcreated).resolve_left nofun
    rw [recordAfter_sweep, isSwept_cons_iff]
    obtain ⟨hrecord, hunswept⟩ | ⟨record, hrecord, hfailed, hlog, hswept⟩ := ih hearlier hopen.2
    · rw [hrecord, Option.map_some]
      by_cases hcutoff : (runs id).started.startedAt.before cutoff = true
      · have hstale : isStale cutoff (runs id).started = true := by
          simp [isStale, hcutoff, (runs id).running]
        rw [swept_of_isStale hstale]
        exact .inr ⟨_, rfl, rfl, rfl, .inr ⟨cutoff, message, rfl, hearlier, hcutoff⟩⟩
      · have hfresh : ¬ isStale cutoff (runs id).started = true := by simp [isStale, hcutoff]
        rw [swept, if_neg hfresh]
        refine .inl ⟨rfl, ?_⟩
        rintro (hswept | ⟨_, _, ⟨⟩, -, hbefore⟩)
        · exact hunswept hswept
        · exact hcutoff hbefore
    · -- An earlier sweep has ended the record, and this one passes it over.
      have hterminal : record.status.isTerminal = true := by rw [hfailed]; rfl
      rw [hrecord, Option.map_some, swept_of_isTerminal hterminal]
      exact .inr ⟨record, rfl, hfailed, hlog, .inl hswept⟩

/-- A record that has ended is left alone by the next deed, unless that is the end of a run that was
swept. -/
theorem recordAfter_cons_of_isTerminal (h : IsInterleaving store (deed :: history))
    (hrecord : store.recordAfter runs clock history id = some record)
    (hterminal : record.status.isTerminal = true) :
    store.recordAfter runs clock (deed :: history) id = some record ∨ deed = .update id ∧
    IsSwept runs history id := by
  cases h with
  | @create _ other before unstored fresh =>
    have hne : other ≠ id := by
      rintro rfl
      rw [before.recordAfter_of_not_mem unstored fresh] at hrecord
      cases hrecord
    exact .inl (by rw [recordAfter_create, if_neg hne, hrecord])
  | @update _ other before begun once =>
    by_cases heq : other = id
    · subst heq
      obtain ⟨hopen, -⟩ | ⟨_, _, _, _, hswept⟩ := before.recordAfter_of_open runs clock begun once
      · rw [hopen, Option.some.injEq] at hrecord
        rw [← hrecord, (runs other).running] at hterminal
        cases hterminal
      · exact .inr ⟨rfl, hswept⟩
    · exact .inl (by rw [recordAfter_update, if_neg heq, hrecord])
  | sweep before =>
    exact .inl (by rw [recordAfter_sweep, hrecord, Option.map_some, swept_of_isTerminal hterminal])

theorem recordAfter_append_of_isTerminal (h : IsInterleaving store (later ++ earlier))
    (hnot : ∀ id, ¬ IsOvertaken runs (later ++ earlier) id)
    (hrecord : store.recordAfter runs clock earlier id = some record)
    (hterminal : record.status.isTerminal = true) :
    store.recordAfter runs clock (later ++ earlier) id = some record := by
  induction later with
  | nil => exact hrecord
  | cons deed later ih =>
    have hnotBefore : ∀ id, ¬ IsOvertaken runs (later ++ earlier) id := by
      rintro id ⟨rest, before, heq, hswept⟩
      exact hnot id ⟨deed :: rest, before, by rw [List.cons_append, heq]; rfl, hswept⟩
    have hkept := ih h.of_cons hnotBefore
    obtain hkept | ⟨rfl, hswept⟩ := recordAfter_cons_of_isTerminal h hkept hterminal
    · exact hkept
    · exact absurd ⟨[], later ++ earlier, rfl, hswept⟩ (hnot id)

theorem not_staysFinal_of_isOvertaken (h : IsInterleaving store history)
    (hovertaken : IsOvertaken runs history id) :
    ¬ StaysFinal runs clock store history := by
  intro hfinal
  obtain ⟨rest, earlier, rfl, hswept⟩ := hovertaken
  obtain ⟨before, begun, once⟩ : IsInterleaving store earlier ∧ .create id ∈ earlier ∧
      .update id ∉ earlier := by
    cases of_append h with
    | update before begun once => exact ⟨before, begun, once⟩
  obtain ⟨-, hunswept⟩ | ⟨record, hrecord, hfailed, hlog, -⟩ :=
    before.recordAfter_of_open runs clock begun once
  · exact hunswept hswept
  · have hterminal : record.status.isTerminal = true := by rw [hfailed]; rfl
    obtain ⟨left, hleft, hsame⟩ := hfinal rest [.update id] earlier id record rfl hrecord hterminal
    change store.recordAfter runs clock (.update id :: earlier) id = some left at hleft
    rw [recordAfter_update, if_pos rfl, hrecord, Option.map_some, Option.some.injEq] at hleft
    subst hleft
    exact (runs id).log_ne_of_failed (hsame.status.trans hfailed) (hsame.log.trans hlog)

end IsInterleaving

/-- In an interleaving of runs and sweeps, records that have ended stay as they are just if no run
is overtaken. -/
theorem staysFinal_iff {store : Store} {history : List Deed} (runs : (id : Uuid) → FinishedRun id)
    (clock : List Deed → Timestamp) (h : IsInterleaving store history) :
    StaysFinal runs clock store history ↔ ∀ id, ¬ IsOvertaken runs history id := by
  constructor
  · intro hfinal id hovertaken
    exact h.not_staysFinal_of_isOvertaken hovertaken hfinal
  · rintro hnot rest later earlier id record rfl hrecord hterminal
    have hnotYet : ∀ id, ¬ IsOvertaken runs (later ++ earlier) id := by
      rintro id ⟨between, before, heq, hswept⟩
      exact hnot id ⟨rest ++ between, before, by rw [heq, List.append_assoc], hswept⟩
    exact ⟨record, h.of_append.recordAfter_append_of_isTerminal hnotYet hrecord hterminal, rfl,
      rfl, rfl, rfl, rfl⟩

def idleWorkflow : Workflow where
  id := ⟨1⟩
  name := "idle"
  description := none
  trigger := .manual
  active := true
  priority := 0
  steps := []
  createdBy := none
  createdAt := .epoch
  updatedAt := none

/-- A run that does nothing, in no time. -/
def FinishedRun.idle (id : Uuid) : FinishedRun id where
  started := { Execution.start Program.stillFresh idleWorkflow none none .null [] with id }
  ended := { Execution.start Program.stillFresh idleWorkflow none none .null [] with
    id
    status := .completed
    completedAt := some .epoch }
  id_started := rfl
  running := rfl
  genuine := by
    refine ⟨{}, idleWorkflow, none, [⟨.stamp, Program.stillFresh⟩], ⟨.empty, none⟩, ?_⟩
    have hsteps : idleWorkflow.stepsInOrder = [] := List.mergeSort_nil
    rw [Workflow.run, hsteps, if_neg fun hnot => hnot rfl]
    change (Program.stamp >>= fun fresh => _).Runs _ _
    exact Program.runs_stamp_bind.2 ⟨Program.stillFresh, [], rfl, .done _⟩

/-- A run begins, is swept and is over. -/
def overtakenHistory : List Deed :=
  [.update ⟨2⟩, .sweep ⟨1, 0, by decide, by decide⟩ "abandoned", .create ⟨2⟩]

theorem staysFinal_iff_overtakenHistory :
    IsInterleaving {} overtakenHistory ∧
    (StaysFinal FinishedRun.idle (fun _ => .epoch) {} overtakenHistory ↔
      ∀ id, ¬ IsOvertaken FinishedRun.idle overtakenHistory id) := by
  have h : IsInterleaving {} overtakenHistory :=
    .update (.sweep (.create .start rfl (by simp))) (by simp) (by simp)
  exact ⟨h, staysFinal_iff FinishedRun.idle (fun _ => .epoch) h⟩

/-- A record that a sweep has ended as failed ends up as completed. -/
theorem not_staysFinal_overtakenHistory :
    IsInterleaving {} overtakenHistory ∧
    ¬ StaysFinal FinishedRun.idle (fun _ => .epoch) {} overtakenHistory := by
  refine ⟨.update (.sweep (.create .start rfl (by simp))) (by simp) (by simp), ?_⟩
  intro hfinal
  obtain ⟨left, hleft, hsame⟩ :=
    hfinal [] [.update ⟨2⟩] [.sweep ⟨1, 0, by decide, by decide⟩ "abandoned", .create ⟨2⟩] ⟨2⟩
    { (FinishedRun.idle ⟨2⟩).started with
      status := .failed
      errorMessage := some "abandoned"
      completedAt := some .epoch } rfl rfl rfl
  have hended : left = (FinishedRun.idle ⟨2⟩).ended := (Option.some.inj hleft).symm
  rw [hended] at hsame
  cases hsame.status

end LeadAutomation
