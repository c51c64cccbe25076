import LeadAutomation.Proofs.Action.Carried
import LeadAutomation.Proofs.Host
import LeadAutomation.Proofs.Json.Canonical
import LeadAutomation.Proofs.Rehearsals
import LeadAutomation.Proofs.Workflow.Turns

/-!
# What steps result in

The log keeps a result of each step that succeeds. The result of an integration is whatever the
integration replied; every other result is an object that the run makes itself, in canonical form:
`Turn.result_cases`.
-/

namespace LeadAutomation

open Json

/-! ### Objects that a run makes -/

theorem Notification.isCanonical_receipt (notification : Notification) :
    notification.receipt.IsCanonical :=
  isCanonical_obj_of_keys ["message", "recipients"] (.refl _) (by decide) (by simp)

theorem EnrichmentRequest.isCanonical_receipt (request : EnrichmentRequest) :
    request.receipt.IsCanonical :=
  isCanonical_obj_of_keys ["provider", "queued"] (.refl _) (by decide) (by simp)

theorem ActionOutcome.isCanonical_toJson {outcome : ActionOutcome}
    (h : ∀ value ∈ outcome.value, value.IsCanonical) :
    outcome.toJson.IsCanonical := by
  refine isCanonical_obj_of_keys
    (["action_type", "duration_ms"] ++ ["error"] ++ ["note"] ++ ["success", "target"] ++ ["value"])
      ?_ (by decide) ?_
  · simp only [List.map_append]
    exact (((((List.Sublist.refl _).append (keys_optional ..)).append (keys_optional ..)).append
      (.refl _)).append
      (keys_optional ..))
  · simp only [List.forall_mem_append]
    refine ⟨⟨⟨⟨?_, isCanonical_optional "error" _ ?_⟩, isCanonical_optional "note" _ ?_⟩, ?_⟩,
      isCanonical_optional "value" _ h⟩
    · simp [Json.int]
    · simp
    · simp
    · simp

namespace Action

variable {action : Action} {view : RecordView} {defaults : List String} {write : PlannedWrite}

theorem isCanonical_value_of_write? (h : action.write? = some write) : write.value.IsCanonical := by
  unfold write? at h
  cases hkind : action.kind with
  | other text unknown => simp [hkind] at h
  | known kind =>
    rw [hkind] at h
    cases kind with
    | notification | enrichment => cases h
    | assignment =>
      simp only [planAssignment] at h
      split at h
      · cases h
      · split at h
        · cases h
        · split at h
          · cases h
          · cases h
            rfl
    | scoring =>
      simp only [planScoring] at h
      split at h
      · cases h
      · cases h
        rfl
    | statusChange =>
      simp only [planStatusChange] at h
      split at h
      · cases h
      · split at h
        · cases h
        · cases h
          rfl

theorem isCanonical_value_of_plan (h : action.plan view defaults = .write write) :
    write.value.IsCanonical := by
  cases hlead : view.lead with
  | none =>
    unfold plan at h
    rw [hlead] at h
    split at h
    · cases h
    · cases h
    · cases h
    · split at h <;> cases h
    · cases h
    · cases h
  | some lead => exact isCanonical_value_of_write? ((plan_eq_write_iff hlead).1 h)

theorem isCanonical_of_runs {exchanges : List Exchange} {outcome : ActionOutcome}
    (h : ((action.plan view defaults).carryOut action).Runs exchanges (.returned outcome)) :
    outcome.toJson.IsCanonical := by
  let reportsCanonical (outcome : ActionOutcome) : Prop :=
    ∀ value ∈ outcome.value, value.IsCanonical
  have hfailure : ∀ error, reportsCanonical (.ofFailure action error) := fun _ _ h => nomatch h
  have hsuccess : ∀ {value note}, value.IsCanonical →
      reportsCanonical (.ofSuccess action value note) := by
    intro value note hvalue reported hreported
    cases hreported
    exact hvalue
  refine ActionOutcome.isCanonical_toJson (show reportsCanonical outcome from ?_)
  cases hplan : action.plan view defaults with
  | write write =>
    rw [hplan] at h
    obtain ⟨-, hended⟩ := Program.runs_pure.1 h
    cases hended
    exact hsuccess (isCanonical_value_of_plan hplan)
  | fault fault =>
    rw [hplan] at h
    obtain ⟨-, hended⟩ := Program.runs_pure.1 h
    cases hended
    exact hfailure _
  | notify notification =>
    rw [hplan] at h
    refine outcome_of_request reportsCanonical (fun reply => ?_) h
    cases reply with
    | ok reply => exact ⟨_, rfl, hsuccess notification.isCanonical_receipt⟩
    | error error => exact ⟨_, rfl, hfailure _⟩
  | enrich request =>
    rw [hplan] at h
    refine outcome_of_request reportsCanonical (fun reply => ?_) h
    cases reply with
    | ok reply => exact ⟨_, rfl, hsuccess request.isCanonical_receipt⟩
    | error error => exact ⟨_, rfl, hfailure _⟩

end Action

theorem Step.isCanonical_of_delayOutcome {now : Timestamp} {minutes : Binary64} {result : Json}
    (h : delayOutcome now minutes = .passed result) : result.IsCanonical ∧ result ≠ .null := by
  unfold delayOutcome at h
  split at h
  · cases h
  · generalize resumeAt? now minutes = resume at h
    cases h
    refine ⟨isCanonical_obj_of_keys ["delayMinutes", "resumeAt"] (.refl _) (by decide) ?_, by simp⟩
    cases resume <;> simp [orNull, Timestamp.toJson, Json.float]

/-! ### Replies of integrations -/

/-- An integration replied with a value. -/
def Exchange.Replied (json : Json) (exchange : Exchange) : Prop :=
  ∃ call, exchange = ⟨.effect (.integrate call), .returned json⟩

theorem Exchange.not_replied_stamp (json : Json) (fresh : Fresh) :
    ¬ Replied json ⟨.stamp, fresh⟩ := by
  rintro ⟨call, h⟩
  cases h

namespace Turn

variable {options : Options} {result : Json}

theorem not_replied_of_action {action : Action} {view : RecordView} {defaults : List String}
    {exchanges : List Exchange} {ended : Outcome ActionOutcome}
    (h : ((action.plan view defaults).carryOut action).Runs exchanges ended) :
    ∀ exchange ∈ exchanges, ¬ exchange.Replied result := by
  have hcalls : ((action.plan view defaults).carryOut action).CallsOnly fun call =>
      ∀ asked, call ≠ .effect (.integrate asked) :=
    ActionPlan.carryOut_callsOnly (fun _ _ => nofun) (fun _ _ => nofun) _ _
  intro exchange hmem hreplied
  obtain ⟨asked, rfl⟩ := hreplied
  exact hcalls.of_mem h _ hmem asked rfl

theorem outcome_of_replied (turn : Turn options) {exchange : Exchange}
    (hmem : exchange ∈ turn.exchanges) (hreplied : exchange.Replied result) :
    turn.outcome = .passed result := by
  have hhappens := turn.happens
  generalize turn.exchanges = exchanges at hmem hhappens
  generalize turn.outcome = outcome at hhappens
  generalize turn.patch = patch at hhappens
  cases hhappens with
  | acted _ runs => exact absurd hreplied (not_replied_of_action runs exchange hmem)
  | misacted _ runs => exact absurd hreplied (not_replied_of_action runs exchange hmem)
  | integrated =>
    obtain ⟨asked, rfl⟩ := hreplied
    cases List.mem_singleton.1 hmem
    rfl
  | unreadable | met | unmet | delayed | undelayed | uncomposed => cases hmem
  | sent | refused | rejected | brokeActing | brokeSending | brokeIntegrating =>
    obtain ⟨asked, rfl⟩ := hreplied
    cases List.mem_singleton.1 hmem

/-- A result is the reply of an integration or an object that the run has made. -/
theorem result_cases (turn : Turn options)
    (h : turn.outcome = .passed result ∨ turn.outcome = .stopped result) :
    (∃ exchange ∈ turn.exchanges, exchange.Replied result) ∨ result.IsCanonical ∧
    result ≠ .null := by
  have hhappens := turn.happens
  generalize turn.exchanges = exchanges at hhappens
  generalize turn.outcome = outcome at h hhappens
  generalize turn.patch = patch at hhappens
  rcases h with rfl | rfl
  · cases hhappens with
    | acted _ runs well =>
      exact .inr ⟨Action.isCanonical_of_runs runs, by simp [ActionOutcome.toJson]⟩
    | met => exact .inr ⟨rfl, by simp⟩
    | delayed _ delay => exact .inr (Step.isCanonical_of_delayOutcome delay)
    | sent => exact .inr ⟨Notification.isCanonical_receipt _, by simp [Notification.receipt]⟩
    | integrated => exact .inl ⟨_, List.mem_singleton_self _, _, rfl⟩
  · cases hhappens with
    | unmet => exact .inr ⟨rfl, by simp⟩

theorem entry_result_eq_some_iff (turn : Turn options) :
    turn.entry.result = some result ↔
    turn.outcome = .passed result ∨ turn.outcome = .stopped result := by
  unfold entry
  cases turn.outcome <;> simp [Step.entry, Step.entry.logged]

/-- The log holds `null` for just the steps whose integration replied so. -/
theorem entry_result_eq_null_iff (turn : Turn options) :
    turn.entry.result = some .null ↔ ∃ exchange ∈ turn.exchanges, exchange.Replied .null := by
  constructor
  · intro h
    rcases turn.result_cases (turn.entry_result_eq_some_iff.1 h) with hreplied | ⟨-, hne⟩
    · exact hreplied
    · exact absurd rfl hne
  · rintro ⟨exchange, hmem, hreplied⟩
    exact turn.entry_result_eq_some_iff.2 (.inl (turn.outcome_of_replied hmem hreplied))

theorem isCanonical_entry_result (turn : Turn options)
    (hreplies : ∀ exchange ∈ turn.exchanges, ∀ json, exchange.Replied json → json.IsCanonical) :
    ∀ result ∈ turn.entry.result, result.IsCanonical := by
  intro result h
  rcases turn.result_cases (turn.entry_result_eq_some_iff.1 h) with ⟨exchange, hmem, hreplied⟩ |
    ⟨hcanonical, -⟩
  · exact hreplies exchange hmem result hreplied
  · exact hcanonical

/-- What holds of every question for the time holds of all calls of a run just if it holds of those
that its steps make. -/
theorem forall_calls_iff {p : Exchange → Prop} (hstamp : ∀ fresh, p ⟨.stamp, fresh⟩)
    (turns : List (Turn options)) (fresh : Fresh) :
    (∀ exchange ∈ turns.flatMap Turn.calls ++ [⟨.stamp, fresh⟩], p exchange) ↔
      ∀ turn ∈ turns, ∀ exchange ∈ turn.exchanges, p exchange := by
  constructor
  · intro h turn hturn exchange hmem
    exact h exchange
      (List.mem_append_left _ (List.mem_flatMap.2 ⟨turn, hturn, List.mem_cons_of_mem _ hmem⟩))
  · intro h exchange hmem
    rw [List.mem_append, List.mem_singleton, List.mem_flatMap] at hmem
    rcases hmem with ⟨turn, hturn, hcalled⟩ | rfl
    · rcases List.mem_cons.1 hcalled with rfl | hcalled
      · exact hstamp _
      · exact h turn hturn exchange hcalled
    · exact hstamp _

end Turn

end LeadAutomation
