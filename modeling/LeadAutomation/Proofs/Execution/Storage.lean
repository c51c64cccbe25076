import LeadAutomation.Proofs.RoundTrips
import LeadAutomation.Proofs.Workflow.Courses
import LeadAutomation.Proofs.Workflow.Results
import LeadAutomation.Scripted

/-!
# Records of runs in storage

The record of a run is stored as JSON and read back from there. An entry of its log that holds a
result of `null` is written with it, but a reader takes `null` for no result at all; everything else
comes back, `Execution.decode_toJson`. Since no step but an integration results in `null`, the
record that a run leaves survives storage just if no integration replied `null`:
`Workflow.run_stored_iff`.
-/

namespace LeadAutomation

open Json.Draft (ofJson)

/-! ### What is read back -/

/-- An entry that holds no result rather than `null`. -/
def LogEntry.withoutNull (entry : LogEntry) : LogEntry :=
  { entry with result := entry.result.filter (· ≠ .null) }

/-- An execution whose entries hold no result rather than `null`. -/
def Execution.withoutNulls (execution : Execution) : Execution :=
  { execution with log := execution.log.map LogEntry.withoutNull }

/-- The free-form data of an execution is in canonical form. -/
structure Execution.IsCanonical (execution : Execution) : Prop where
  triggerData : execution.triggerData.IsCanonical
  extra : execution.context.extra.IsCanonical
  results : ∀ entry ∈ execution.log, ∀ result ∈ entry.result, result.IsCanonical

namespace LogEntry

theorem nullable_value {result : Json} (h : result.IsCanonical) :
    Decoder.nullable Decoder.value (ofJson result) =
      .ok (if result = .null then none else some result) := by
  -- A reader looks for `null` before it looks for a value.
  by_cases hnull : result = .null
  · rw [if_pos hnull, hnull]
    rfl
  · rw [if_neg hnull]
    change Decoder.nullable Decoder.value (ofJson (.orNull id (some result))) = .ok (some result)
    refine Decoder.nullable_orNull (some result) fun b hb => ?_
    cases hb
    exact ⟨hnull, Decoder.value_ofJson h⟩

/-- An entry is read back without a `null`. -/
theorem decode_toJson {entry : LogEntry} (h : ∀ result ∈ entry.result, result.IsCanonical) :
    decode (ofJson entry.toJson) = .ok entry.withoutNull := by
  obtain ⟨stepName, stepKind, position, success, result, error, executedAt, durationMs⟩ := entry
  have hread :
    LogEntry.withoutNull ⟨stepName, stepKind, position, success, result, error,
      executedAt, durationMs⟩ =
      ⟨stepName, stepKind, position, success, result.bind fun json => if json = .null then none
        else some json,
        error.bind some, executedAt, durationMs⟩ := by
    cases error <;> cases result <;> simp [withoutNull, Option.filter]
  rw [hread]
  -- The object has a member for a result or an error just if the entry has one, so each lookup
  -- depends on both.
  refine Fields.Gives.decode_obj ?_ _
  refine .seq (.seq (.seq (.seq (.seq (.seq (.seq (.map ?_ _) ?_) ?_) ?_) ?_) ?_) ?_) ?_
  · exact .required (by cases error <;> cases result <;> rfl) rfl
  · exact .required (by cases error <;> cases result <;> rfl) (Decoder.word_text stepKind)
  · exact .required (by cases error <;> cases result <;> rfl) (Decoder.int32_toInt position)
  · exact .required (by cases error <;> cases result <;> rfl) rfl
  · exact .optional (by cases error <;> cases result <;> rfl) fun json hjson =>
      nullable_value (h json hjson)
  · exact .optional (by cases error <;> cases result <;> rfl) fun _ _ => rfl
  · exact .required (by cases error <;> cases result <;> rfl) (Decoder.timestamp_toJson executedAt)
  · exact .required (by cases error <;> cases result <;> rfl) (Decoder.int64_toInt durationMs)

theorem isCanonical_of_decode {draft : Json.Draft} {entry : LogEntry}
    (h : decode draft = .ok entry) :
    ∀ result ∈ entry.result, result.IsCanonical := by
  refine Fields.Yields.of_decode (Q := fun entry => ∀ result ∈ entry.result,
    result.IsCanonical) ?_ h
  refine .skip "duration_ms" ?_
  refine .skip "executed_at" ?_
  refine .skip "error" ?_
  refine .keep "result" (.optional fun _ _ => Decoder.isCanonical_of_value) ?_
  refine .skip "success" ?_
  refine .skip "order" ?_
  refine .skip "step_type" ?_
  refine .start "step_name" ?_
  grind

theorem withoutNull_eq_self_iff {entry : LogEntry} :
    entry.withoutNull = entry ↔ entry.result ≠ some .null := by
  obtain ⟨stepName, stepKind, position, success, result, error, executedAt, durationMs⟩ := entry
  cases result <;> simp [withoutNull, Option.filter]

end LogEntry

namespace ExecutionContext

theorem decode_toJson {context : ExecutionContext} (h : context.extra.IsCanonical) :
    decode (ofJson context.toJson) = .ok context := by
  obtain ⟨workflowName, trigger, event, timestamp, extra⟩ := context
  refine Fields.Gives.decode_obj ?_ _
  refine .seq (.seq (.seq (.seq (.map ?_ _) ?_) ?_) ?_) ?_
  · exact .required rfl rfl
  · exact .required rfl (Decoder.named_name trigger)
  · exact .spare rfl fun kind _ => ⟨(Decoder.text_str _).1, Decoder.named_name kind⟩
  · exact .required rfl (Decoder.timestamp_toJson timestamp)
  · exact .defaulted rfl (Decoder.members_obj h)

theorem isCanonical_of_decode {draft : Json.Draft} {context : ExecutionContext}
    (h : decode draft = .ok context) :
    context.extra.IsCanonical := by
  refine Fields.Yields.of_decode (Q := fun context => context.extra.IsCanonical) ?_ h
  refine .keep "extra" (.defaulted (fun _ _ => Decoder.isCanonical_of_members) rfl) ?_
  refine .skip "timestamp" ?_
  refine .skip "event" ?_
  refine .skip "trigger" ?_
  refine .start "workflow_name" ?_
  grind

end ExecutionContext

namespace Execution

/-- An execution is read back but for results that are `null`. -/
theorem decode_toJson {execution : Execution} (h : execution.IsCanonical) :
    decode (ofJson execution.toJson) = .ok execution.withoutNulls := by
  obtain ⟨htriggerData, hextra, hresults⟩ := h
  obtain ⟨id, workflowId, leadId, status, startedAt, completedAt, errorMessage, triggerData,
    context, log, gateStopped⟩ := execution
  have hlog : Decoder.list LogEntry.decode (ofJson (.arr (log.map LogEntry.toJson))) =
      .ok (log.map LogEntry.withoutNull) :=
    Decoder.list_map log fun entry hmem => LogEntry.decode_toJson (hresults entry hmem)
  change _ = Except.ok
    (⟨id, workflowId, leadId, status, startedAt, completedAt, errorMessage, triggerData, context,
    log.map LogEntry.withoutNull, gateStopped⟩ : Execution)
  refine Fields.Gives.decode_obj ?_ _
  refine .seq (.seq (.seq (.seq (.seq (.seq (.seq (.seq (.seq (.seq
    (.map ?_ _) ?_) ?_) ?_) ?_) ?_) ?_) ?_) ?_) ?_) ?_
  · exact .required rfl (Decoder.uuid_toJson id)
  · exact .required rfl (Decoder.uuid_toJson workflowId)
  · exact .nullable rfl fun lead _ => ⟨lead.toJson_ne_null, Decoder.uuid_toJson lead⟩
  · exact .required rfl (Decoder.named_name status)
  · exact .required rfl (Decoder.timestamp_toJson startedAt)
  · exact .nullable rfl fun t _ => ⟨t.toJson_ne_null, Decoder.timestamp_toJson t⟩
  · exact .nullable rfl fun text _ => Decoder.text_str text
  · exact .required rfl (Decoder.value_ofJson htriggerData)
  · exact .required rfl (ExecutionContext.decode_toJson hextra)
  · exact .required rfl hlog
  · exact .defaulted rfl rfl

theorem isCanonical_of_decode {draft : Json.Draft} {execution : Execution}
    (h : decode draft = .ok execution) :
    execution.IsCanonical := by
  refine Fields.Yields.of_decode (Q := IsCanonical) ?_ h
  have hresults : ∀ draft log, Decoder.list LogEntry.decode draft = .ok log →
      ∀ entry ∈ log, ∀ result ∈ entry.result, result.IsCanonical := by
    intro draft log h entry hmem
    obtain ⟨item, hitem⟩ := Decoder.exists_of_mem_list h hmem
    exact LogEntry.isCanonical_of_decode hitem
  refine .skip "gate_stopped" ?_
  refine .keep "step_results" (.required hresults) ?_
  refine .keep "execution_context" (.required fun _ _ => ExecutionContext.isCanonical_of_decode) ?_
  refine .keep "trigger_data" (.required fun _ _ => Decoder.isCanonical_of_value) ?_
  refine .skip "error_message" ?_
  refine .skip "completed_at" ?_
  refine .skip "started_at" ?_
  refine .skip "status" ?_
  refine .skip "lead_id" ?_
  refine .skip "workflow_id" ?_
  refine .start "id" ?_
  intros
  exact ⟨by assumption, by assumption, by assumption⟩

theorem withoutNulls_eq_self_iff {execution : Execution} :
    execution.withoutNulls = execution ↔ ∀ entry ∈ execution.log, entry.result ≠ some .null := by
  obtain ⟨id, workflowId, leadId, status, startedAt, completedAt, errorMessage, triggerData,
    context, log, gateStopped⟩ := execution
  have hlog : log.map LogEntry.withoutNull = log ↔ ∀ entry ∈ log, entry.withoutNull = entry := by
    simpa using List.map_inj_left (l := log) (f := LogEntry.withoutNull) (g := fun entry => entry)
  simp [withoutNulls, hlog, LogEntry.withoutNull_eq_self_iff]

theorem decode_toJson_eq_self_iff {execution : Execution} :
    decode (ofJson execution.toJson) = .ok execution ↔
      execution.IsCanonical ∧ ∀ entry ∈ execution.log, entry.result ≠ some .null := by
  rw [← withoutNulls_eq_self_iff]
  constructor
  · intro h
    have hcanonical := isCanonical_of_decode h
    rw [decode_toJson hcanonical] at h
    exact ⟨hcanonical, Except.ok.inj h⟩
  · rintro ⟨hcanonical, hself⟩
    rw [decode_toJson hcanonical, hself]

/-! ### What runs leave -/

section Concluded

variable {options : Options} {turns : List (Turn options)} {execution : Execution}

theorem isCanonical_concluded (hcanonical : execution.IsCanonical)
    (hreplies : ∀ turn ∈ turns, ∀ exchange ∈ turn.exchanges, ∀ json, exchange.Replied json →
      json.IsCanonical)
    (now : Timestamp) : (execution.concluded turns now).IsCanonical where
  triggerData := hcanonical.triggerData
  extra := hcanonical.extra
  results := by
    intro entry hmem
    rcases List.mem_append.1 hmem with hmem | hmem
    · exact hcanonical.results entry hmem
    · obtain ⟨turn, hturn, rfl⟩ := List.mem_map.1 hmem
      exact turn.isCanonical_entry_result (hreplies turn hturn)

theorem log_concluded_ne_null_iff (now : Timestamp) :
    (∀ entry ∈ (execution.concluded turns now).log, entry.result ≠ some .null) ↔
      (∀ entry ∈ execution.log, entry.result ≠ some .null) ∧
        ∀ turn ∈ turns, ∀ exchange ∈ turn.exchanges, ¬ exchange.Replied .null := by
  simp [concluded, or_imp, forall_and, Turn.entry_result_eq_null_iff]

end Concluded

end Execution

namespace Workflow

/-- Whatever the surroundings do, the record that a run leaves is read back from storage but for
results that are `null`, and so unchanged just if there was no such result to begin with and no
integration replied `null`. -/
theorem run_stored_iff {σ : Type} (answer : (call : Call) → σ → call.Reply × σ) (world : σ)
    (options : Options) (workflow : Workflow) (execution : Execution) (lead : Option Lead)
    (hrunning : execution.status = .running) (hcanonical : execution.IsCanonical)
    (hreplies : ∀ exchange ∈ (workflow.run options execution lead).transcript answer world, ∀ json,
      exchange.Replied json → json.IsCanonical) :
    ∃ (ended : Execution) (report : RunReport),
      ((workflow.run options execution lead).run answer world).1 = .returned (ended, report) ∧
      Execution.decode (ofJson ended.toJson) = .ok ended.withoutNulls ∧
      (Execution.decode (ofJson ended.toJson) = .ok ended ↔
        (∀ entry ∈ execution.log, entry.result ≠ some .null) ∧
          ∀ exchange ∈ (workflow.run options execution lead).transcript answer world,
          ¬ exchange.Replied .null) := by
  obtain ⟨turns, final, fresh, -, hcalls, hended⟩ :=
    exists_course_of_runs_run hrunning (Program.runs_transcript answer _ world)
  -- What integrations reply is known of the calls as a whole; the log is made turn by turn.
  have hturns :=
    (Turn.forall_calls_iff
      (fun fresh json h => absurd h (Exchange.not_replied_stamp json fresh)) turns fresh).1
    (hcalls ▸ hreplies)
  have hread := Execution.isCanonical_concluded hcanonical hturns fresh.now
  refine ⟨_, _, hended, Execution.decode_toJson hread, ?_⟩
  rw [Execution.decode_toJson_eq_self_iff, Execution.log_concluded_ne_null_iff, hcalls,
    Turn.forall_calls_iff (Exchange.not_replied_stamp .null)]
  exact and_iff_right hread

/-- A workflow of one integration. -/
def syncing : Workflow where
  id := ⟨1⟩
  name := "Sync"
  description := none
  trigger := .manual
  active := true
  priority := 0
  steps := [⟨⟨2⟩, .known .integration, "sync crm", 1,
    .obj [("action", .str "sync"), ("integrationId", .str "crm")]⟩]
  createdBy := none
  createdAt := .epoch
  updatedAt := none

/-- The record of a run of `syncing` that begins. -/
def syncingStart : Execution := .start Program.stillFresh syncing none none .null []

/-- The integration replies with `reply`, and all else goes well. -/
def syncingWith (reply : Json) : Surroundings := { script.integrations := [.returned (some reply)] }

theorem stepsInOrder_syncing : syncing.stepsInOrder = syncing.steps := List.mergeSort_singleton _

theorem transcript_syncing (reply : Json) :
    (syncing.run {} syncingStart none).transcript (Surroundings.answer fun _ => Program.stillFresh)
      (syncingWith reply) =
      [⟨.stamp, Program.stillFresh⟩,
        ⟨.effect (.integrate ⟨"crm", "sync", .null⟩), .returned reply⟩,
        ⟨.stamp, Program.stillFresh⟩] := by
  rw [run, stepsInOrder_syncing]
  rfl

theorem eq_of_replied_syncing {reply json : Json} {exchange : Exchange}
    (hmem : exchange ∈ (syncing.run {} syncingStart none).transcript
      (Surroundings.answer fun _ => Program.stillFresh) (syncingWith reply))
    (hreplied : exchange.Replied json) : json = reply := by
  obtain ⟨call, rfl⟩ := hreplied
  rw [transcript_syncing] at hmem
  have hcalled : call = ⟨"crm", "sync", .null⟩ ∧ json = reply := by simpa using hmem
  exact hcalled.2

/-- A run whose integration replies with an object; its record survives. -/
theorem run_stored_iff_syncing :
    syncingStart.status = .running ∧ syncingStart.IsCanonical ∧
    (∀ exchange ∈ (syncing.run {} syncingStart none).transcript
        (Surroundings.answer fun _ => Program.stillFresh)
        (syncingWith (.obj [("contacts", .null)])),
      ∀ json, exchange.Replied json → json.IsCanonical) ∧
    ∃ (ended : Execution) (report : RunReport),
      ((syncing.run {} syncingStart none).run (Surroundings.answer fun _ => Program.stillFresh)
        (syncingWith (.obj [("contacts", .null)]))).1 = .returned (ended, report) ∧
      Execution.decode (ofJson ended.toJson) = .ok ended := by
  have hcanonical : syncingStart.IsCanonical := ⟨rfl, rfl, by simp [syncingStart, Execution.start]⟩
  have hreplies : ∀ exchange ∈ (syncing.run {} syncingStart none).transcript
      (Surroundings.answer fun _ => Program.stillFresh) (syncingWith (.obj [("contacts", .null)])),
      ∀ json, exchange.Replied json → json.IsCanonical := by
    intro exchange hmem json hreplied
    rw [eq_of_replied_syncing hmem hreplied]
    rfl
  obtain ⟨ended, report, hended, -, hstored⟩ :=
    run_stored_iff _ _ {} syncing syncingStart none rfl hcanonical hreplies
  refine ⟨rfl, hcanonical, hreplies, ended, report, hended,
    hstored.2 ⟨by simp [syncingStart, Execution.start], ?_⟩⟩
  intro exchange hmem hreplied
  cases eq_of_replied_syncing hmem hreplied

/-- A run whose integration replies `null`; its record is not read back as it was. -/
theorem not_stored_syncing_null :
    ∃ (ended : Execution) (report : RunReport),
      ((syncing.run {} syncingStart none).run (Surroundings.answer fun _ => Program.stillFresh)
        (syncingWith .null)).1 =
        .returned (ended, report) ∧
      Execution.decode (ofJson ended.toJson) ≠ .ok ended := by
  let entry : LogEntry := ⟨"sync crm", .known .integration, 1, true, some .null, none, .epoch, 0⟩
  refine ⟨{ syncingStart with status := .completed, completedAt := some .epoch, log := [entry] },
    ⟨.empty, none⟩, ?_, ?_⟩
  · rw [run, stepsInOrder_syncing]
    rfl
  · intro h
    exact (Execution.decode_toJson_eq_self_iff.1 h).2 entry (List.mem_singleton_self entry) rfl

end Workflow

end LeadAutomation
