import LeadAutomation.Proofs.Execution.History

/-!
# Sweeps

A sweep goes once through the executions of a store and ends those that still run although they were
started before a point in time. What it changes is read off the records before and after, by
`Store.altered`, and compared with what is stale.

A sweep changes just what is stale, says how many that were, and touches nothing else. So to sweep
again changes nothing, and an earlier cutoff before a later one changes what the later one would
have changed alone: `Store.sweeps_stale`.
-/

namespace LeadAutomation.Store

/-- The identifiers under which another store holds another record, or none. -/
def altered (store next : Store) : List Uuid :=
  (store.executions.filter fun execution => find? Execution.id execution.id next.executions ≠
    some execution).map Execution.id

variable {store next : Store} {now now' cutoff cutoff' : Timestamp} {message message' : String}
  {execution : Execution}

/-! ### One record -/

theorem isStale_iff :
    isStale cutoff execution = true ↔
    execution.status = .running ∧ execution.startedAt.before cutoff = true := by
  rw [isStale, Bool.and_eq_true, decide_eq_true_eq]

theorem isStale_of_not_before (hle : cutoff'.before cutoff = false)
    (hstale : isStale cutoff execution = true) :
    isStale cutoff' execution = true := by
  rw [isStale_iff] at hstale ⊢
  refine hstale.imp_right fun hbefore => ?_
  exact (Timestamp.before_or_before hbefore cutoff').resolve_right
    (by rw [hle]; exact Bool.false_ne_true)

theorem swept_of_not_isStale (hfresh : ¬ isStale cutoff execution = true) :
    swept now cutoff message execution = execution :=
  if_neg hfresh

theorem swept_ne_iff : swept now cutoff message execution ≠ execution ↔
    isStale cutoff execution = true := by
  by_cases hstale : isStale cutoff execution = true
  · refine iff_of_true (fun heq => ?_) hstale
    have hstatus := congrArg Execution.status heq
    rw [swept_of_isStale hstale, (isStale_iff.1 hstale).1] at hstatus
    cases hstatus
  · exact iff_of_false (fun hne => hne (swept_of_not_isStale hstale)) hstale

/-- What has been swept is stale no longer, for no cutoff. -/
theorem not_isStale_swept (hstale : isStale cutoff execution = true) :
    ¬ isStale cutoff' (swept now cutoff message execution) = true := by
  rw [swept_of_isStale hstale, isStale_iff]
  rintro ⟨⟨⟩, -⟩

theorem not_isStale_of_swept (hle : cutoff.before cutoff' = false) :
    ¬ isStale cutoff' (swept now cutoff message execution) = true := by
  by_cases hstale : isStale cutoff execution = true
  · exact not_isStale_swept hstale
  · rw [swept_of_not_isStale hstale]
    exact fun hearlier => hstale (isStale_of_not_before hle hearlier)

/-- Two sweeps, the later one with the same or a later cutoff, change what the later one changes
alone. -/
theorem swept_swept_ne_iff (hle : cutoff'.before cutoff = false) :
    swept now' cutoff' message' (swept now cutoff message execution) ≠ execution ↔
    isStale cutoff' execution = true := by
  by_cases hstale : isStale cutoff execution = true
  · rw [swept_of_not_isStale (not_isStale_swept hstale), swept_ne_iff]
    exact iff_of_true hstale (isStale_of_not_before hle hstale)
  · rw [swept_of_not_isStale hstale, swept_ne_iff]

/-! ### All records -/

theorem altered_of_map {change : Execution → Execution}
    (hids : (store.executions.map Execution.id).Nodup)
    (hchange : ∀ execution, (change execution).id = execution.id)
    (hnext : next.executions = store.executions.map change) :
    altered store next =
      (store.executions.filter fun execution => change execution ≠ execution).map Execution.id := by
  unfold altered
  congr 1
  refine List.filter_congr fun execution hmem => ?_
  rw [hnext, find?_map hchange, (find?_id_eq_some_iff hids).2 hmem]
  simp only [Option.map_some, ne_eq, Option.some.injEq]

/-- The store after a sweep. -/
def sweep (store : Store) (now cutoff : Timestamp) (message : String) : Store :=
  { store with executions := store.executions.map (swept now cutoff message) }

theorem answer_failStaleExecutions :
    store.answer now (.failStaleExecutions cutoff message) =
      (.ok (store.executions.countP (isStale cutoff)), store.sweep now cutoff message) := by
  rw [List.countP_eq_length_filter]
  rfl

theorem altered_sweep (hids : (store.executions.map Execution.id).Nodup) :
    altered store (store.sweep now cutoff message) =
      (store.executions.filter (isStale cutoff)).map Execution.id := by
  rw [altered_of_map hids (fun _ => id_swept) rfl]
  simp only [swept_ne_iff, Bool.decide_eq_true]

theorem altered_sweep_sweep (hids : (store.executions.map Execution.id).Nodup)
    (hle : cutoff'.before cutoff = false) :
    altered store ((store.sweep now cutoff message).sweep now' cutoff' message') =
      (store.executions.filter (isStale cutoff')).map Execution.id := by
  have hid (execution : Execution) :
      (swept now' cutoff' message' (swept now cutoff message execution)).id = execution.id :=
        id_swept.trans id_swept
  have hnext : ((store.sweep now cutoff message).sweep now' cutoff' message').executions =
      store.executions.map fun execution =>
        swept now' cutoff' message' (swept now cutoff message execution) :=
    List.map_map
  rw [altered_of_map hids hid hnext]
  simp only [swept_swept_ne_iff hle, Bool.decide_eq_true]

theorem answer_sweep_again (hle : cutoff.before cutoff' = false) :
    (store.sweep now cutoff message).answer now' (.failStaleExecutions cutoff' message') =
      (.ok 0, store.sweep now cutoff message) := by
  have hnone : ∀ execution ∈ (store.sweep now cutoff message).executions,
      ¬ isStale cutoff' execution = true := by
    intro execution hmem
    obtain ⟨before, -, rfl⟩ := List.mem_map.1 hmem
    exact not_isStale_of_swept hle
  have hsame : (store.sweep now cutoff message).executions.map (swept now' cutoff' message') =
      (store.sweep now cutoff message).executions :=
    (List.map_congr_left fun execution hmem => swept_of_not_isStale (hnone execution hmem)).trans
      (List.map_id _)
  rw [answer_failStaleExecutions, List.countP_eq_zero.2 hnone, sweep, hsame]

/-- **A sweep changes just what is stale**, and says how many that are. An execution that runs and
was started before the cutoff ends as failed with the message of the sweep, and all else that is
known of it stays; every other execution and all rules, workflows and leads are as they were. A
second sweep with the same or an earlier cutoff finds nothing, and one with the same or a later
cutoff has, with the first, changed what it would have changed alone. -/
theorem sweeps_stale (hids : (store.executions.map Execution.id).Nodup) (now cutoff : Timestamp)
    (message : String) :
    let (count, swept) := store.answer now (.failStaleExecutions cutoff message)
    count = .ok (altered store swept).length ∧
    altered store swept = (store.executions.filter fun execution =>
      execution.status = .running ∧ execution.startedAt.before cutoff = true).map Execution.id ∧
    (∀ execution ∈ store.executions, find? Execution.id execution.id swept.executions =
      some (if execution.status = .running ∧ execution.startedAt.before cutoff = true then
          { execution with
            status := .failed, errorMessage := some message, completedAt := some now }
        else execution)) ∧
    swept.executions.map Execution.id = store.executions.map Execution.id ∧
      swept.rules = store.rules ∧
    swept.workflows = store.workflows ∧ swept.leads = store.leads ∧
    (∀ now' cutoff' message', cutoff.before cutoff' = false →
      swept.answer now' (.failStaleExecutions cutoff' message') = (.ok 0, swept)) ∧
    ∀ now' cutoff' message', cutoff'.before cutoff = false → ∀ alone message'',
      altered store (swept.answer now' (.failStaleExecutions cutoff' message')).2 =
        altered store (store.answer alone (.failStaleExecutions cutoff' message'')).2 := by
  rw [answer_failStaleExecutions]
  have hstale :
    (fun execution : Execution =>
      decide (execution.status = .running ∧ execution.startedAt.before cutoff = true)) =
      isStale cutoff := by
    funext execution
    exact Bool.eq_iff_iff.2 (decide_eq_true_iff.trans isStale_iff.symm)
  refine ⟨?_, ?_, fun execution hmem => ?_, ?_, rfl, rfl, rfl,
    fun now' cutoff' message' hle => answer_sweep_again hle, ?_⟩
  · rw [altered_sweep hids, List.length_map, List.countP_eq_length_filter]
  · rw [altered_sweep hids, hstale]
  · rw [sweep, find?_map fun _ => id_swept, (find?_id_eq_some_iff hids).2 hmem, Option.map_some,
      Option.some.injEq]
    split
    · next hrunning => exact swept_of_isStale (isStale_iff.2 hrunning)
    · next hrunning => exact swept_of_not_isStale fun h => hrunning (isStale_iff.1 h)
  · rw [sweep, List.map_map]
    exact List.map_congr_left fun execution _ => id_swept
  · intro now' cutoff' message' hle alone message''
    rw [answer_failStaleExecutions, answer_failStaleExecutions, altered_sweep_sweep hids hle,
      altered_sweep hids]

/-- Two executions that began at once, one that began a minute later, and one that has ended. -/
def busy : Store :=
  let ended : Execution := { Execution.start Program.stillFresh Http.ping none none .null [] with
    id := ⟨9⟩
    status := .completed
    completedAt := some .epoch }
  startedThrice.after [(.epoch, .createExecution ended)]

theorem sweeps_stale_busy :
    let minute : Timestamp := ⟨60, 0, by decide, by decide⟩
    let later : Timestamp := ⟨61, 0, by decide, by decide⟩
    let (count, swept) := busy.answer later (.failStaleExecutions minute "abandoned")
    (busy.executions.map Execution.id).Nodup ∧ minute.before Timestamp.epoch = false ∧
    later.before minute = false ∧
    count = .ok (altered busy swept).length ∧ altered busy swept = [⟨0⟩, ⟨7⟩] ∧
    swept.answer later (.failStaleExecutions .epoch "again") = (.ok 0, swept) ∧
    altered busy (swept.answer later (.failStaleExecutions later "again")).2 =
      altered busy (busy.answer later (.failStaleExecutions later "alone")).2 := by
  intro minute later
  have hids : (busy.executions.map Execution.id).Nodup :=
    nodup_executions_answer (nodup_executions_after _) _ _
  obtain ⟨hcount, haltered, -, -, -, -, -, hagain, hafter⟩ :=
    sweeps_stale hids later minute "abandoned"
  exact ⟨hids, rfl, rfl, hcount, haltered.trans (by decide +kernel),
    hagain later .epoch "again" rfl,
    hafter later later "again" rfl later "alone"⟩

end LeadAutomation.Store
