import LeadAutomation.Proofs.Execution.Finality
import LeadAutomation.Proofs.FrailHost
import LeadAutomation.Proofs.Http.Unreadable
import LeadAutomation.Proofs.Registers

/-!
# History

The history of a workflow is its executions, the latest first, up to a limit. The store goes through
its executions in an order that means nothing, so where two of them began at one time either may
come first, and at the end of a history that is cut off either may be left out. `IsHistory` says all
that can be relied on: how many are listed, that none is listed twice, that they descend in time,
and that nothing later than what is listed has been left out.

What the store lists is such a history whatever the order and the limit, and what is asked for by
request is one for a limit between 1 and 200: `Store.lists_history`.
-/

namespace LeadAutomation

/-- Executions are the history of a workflow among those stored, up to a limit. -/
structure IsHistory (workflowId : Uuid) (limit : Int) (stored listed : List Execution) : Prop where
  length : (listed.length : Int) =
    min (max limit 0) (stored.countP fun execution => execution.workflowId = workflowId)
  distinct : (listed.map Execution.id).Nodup
  own : ∀ execution ∈ listed, execution ∈ stored ∧ execution.workflowId = workflowId
  descending : listed.Pairwise fun first second => first.startedAt.before second.startedAt = false
  latest : ∀ omitted ∈ stored, omitted.workflowId = workflowId → omitted ∉ listed →
    ∀ execution ∈ listed, execution.startedAt.before omitted.startedAt = false

section

variable {workflowId : Uuid} {limit : Int} {stored iterated listed : List Execution}

theorem IsHistory.of_perm (hperm : iterated.Perm stored)
    (h : IsHistory workflowId limit iterated listed) :
    IsHistory workflowId limit stored listed where
  length := by rw [h.length, hperm.countP_eq]
  distinct := h.distinct
  own execution hmem := (h.own execution hmem).imp_left hperm.mem_iff.1
  descending := h.descending
  latest omitted hmem := h.latest omitted (hperm.mem_iff.2 hmem)

namespace Store

theorem latestFirst_perm (executions : List Execution) : (latestFirst executions).Perm executions :=
  List.mergeSort_perm _ _

theorem pairwise_latestFirst (executions : List Execution) :
    (latestFirst executions).Pairwise fun first second =>
      first.startedAt.before second.startedAt = false := by
  have htrans (s t u : Timestamp) (hst : s.before t = false) (htu : t.before u = false) :
      s.before u = false := by
    rw [← Bool.not_eq_true]
    intro hsu
    obtain hearlier | hlater := Timestamp.before_or_before hsu t
    · exact Bool.false_ne_true (hst.symm.trans hearlier)
    · exact Bool.false_ne_true (htu.symm.trans hlater)
  have htotal (s t : Timestamp) : s.before t = false ∨ t.before s = false := by
    cases hst : s.before t with
    | false => exact .inl rfl
    | true => exact .inr (Timestamp.before_asymm hst)
  have hsorted :=
    mergeSort_stablySorted (fun s t : Timestamp => s.before t = false) htrans htotal
      Execution.startedAt executions
  simpa only [latestFirst, Bool.decide_eq_false] using hsorted.ordered

theorem isHistory_take (hids : (stored.map Execution.id).Nodup) :
    IsHistory workflowId limit stored
      ((latestFirst (stored.filter fun execution => execution.workflowId = workflowId)).take
        limit.toNat) := by
  have hperm := latestFirst_perm (stored.filter fun execution => execution.workflowId = workflowId)
  have hmem (execution : Execution) :
      execution ∈ latestFirst (stored.filter fun execution => execution.workflowId = workflowId) ↔
        execution ∈ stored ∧ execution.workflowId = workflowId := by
    rw [hperm.mem_iff, List.mem_filter, decide_eq_true_eq]
  have hpairwise :=
    pairwise_latestFirst (stored.filter fun execution => execution.workflowId = workflowId)
  have hlength :
    (latestFirst (stored.filter fun execution => execution.workflowId = workflowId)).length =
      stored.countP fun execution => execution.workflowId = workflowId := by
    rw [hperm.length_eq, List.countP_eq_length_filter]
  have hnodup :
      ((latestFirst (stored.filter fun execution => execution.workflowId = workflowId)).map
          Execution.id).Nodup :=
    (hperm.map Execution.id).nodup_iff.2 (hids.sublist (List.filter_sublist.map Execution.id))
  generalize latestFirst (stored.filter fun execution => execution.workflowId = workflowId) =
    all at hmem hpairwise hlength hnodup
  refine ⟨?_, hnodup.sublist ((List.take_sublist _ _).map _), fun execution hlisted => ?_,
    hpairwise.sublist (List.take_sublist _ _),
    ?_⟩
  · rw [List.length_take, hlength]
    omega
  · exact (hmem execution).1 (List.mem_of_mem_take hlisted)
  · -- What is left out comes after all that is listed.
    intro omitted hstored hworkflow hnot execution hlisted
    have hsplit := (hmem omitted).2 ⟨hstored, hworkflow⟩
    rw [← List.take_append_drop limit.toNat all, List.mem_append] at hsplit
    rw [← List.take_append_drop limit.toNat all, List.pairwise_append] at hpairwise
    exact hpairwise.2.2 execution hlisted omitted (hsplit.resolve_left hnot)

/-! ### Executions under their identifiers -/

theorem nodup_executions_answer {store : Store} (h : (store.executions.map Execution.id).Nodup)
    (now : Timestamp) (call : StoreCall) :
    ((store.answer now call).2.executions.map Execution.id).Nodup := by
  by_cases hspares : call.SparesExecutions
  · rwa [executions_answer hspares]
  · cases call with
    | createExecution execution => exact nodup_upsert h
    | updateExecution execution =>
      simp only [answer]
      split
      · exact nodup_upsert h
      · exact h
    | failStaleExecutions cutoff message =>
      have hsame :
        ((store.answer now (.failStaleExecutions cutoff message)).2.executions.map Execution.id) =
          store.executions.map Execution.id := by
        change (store.executions.map (swept now cutoff message)).map Execution.id = _
        rw [List.map_map]
        exact List.map_congr_left fun execution _ => id_swept
      rwa [hsame]
    | _ => exact absurd trivial hspares

theorem nodup_executions_after (calls : List (Timestamp × StoreCall)) :
    ((after {} calls).executions.map Execution.id).Nodup := by
  induction calls using List.reverseRecOn with
  | nil => exact List.nodup_nil
  | append_singleton calls timed ih =>
    rw [after_concat]
    exact nodup_executions_answer ih timed.1 timed.2

end Store

end

/-! ### History by request -/

namespace Http.Service

variable {σ : Type} {host : Host σ} (service : Service) {request : Request} {segment : String}
  {workflowId : Uuid}
  {asked : Option Int}

theorem respond_get {route : Route} (hmethod : request.method = "GET")
    (hroute : Route.ofPath? request.target.path = some route) (hget : "GET" ∈ route.methods) :
    service.respond request = conclude (service.handle request "GET" route) := by
  unfold respond
  simp [hmethod, hroute, hget]

theorem exists_run_respond_history {s : σ} {listed : List Execution}
    (hmethod : request.method = "GET")
    (hroute : Route.ofPath? request.target.path = some (.workflowExecutions segment))
    (hid : Request.pathId segment = .ok workflowId)
    (hasked : request.queryInteger? "limit" = .ok asked)
    (hstored : (Store.find? Workflow.id workflowId (host.store s).workflows).isSome = true)
    (hlisted : ∀ now,
      ((host.store s).answer now (.listExecutions workflowId (historyLimit asked))).1 =
        .ok listed) :
    ∃ s', (service.respond request).run host.answer s =
      (.returned (.ok (.arr (listed.map Execution.toJson))), s') ∧
      host.store s' = host.store s := by
  obtain ⟨workflow, hworkflow⟩ := Option.isSome_iff_exists.1 hstored
  have hlookup : ((host.store s).answer (host.time s) (.getWorkflow workflowId)).1 =
      .ok (some workflow) := by
    simp only [Store.answer, hworkflow]
  have hkept : host.store (host.answer (.store (.getWorkflow workflowId)) s).2 = host.store s :=
    host.store_store _ _
  refine ⟨_, ?_,
    ((host.store_store (.listExecutions workflowId (historyLimit asked)) _).trans rfl).trans hkept⟩
  rw [respond_get service hmethod hroute (List.mem_singleton_self _), run_conclude, handle,
    listExecutions, hid, hasked]
  simp only [Handled.reading]
  rw [Execution.history, bind_assoc, host.run_store_bind hlookup]
  simp only [Program.orFail, Program.pure_bind]
  have hread : ((host.store (host.answer (.store (.getWorkflow workflowId)) s).2).answer
      (host.time (host.answer (.store (.getWorkflow workflowId)) s).2)
      (.listExecutions workflowId (historyLimit asked))).1 = .ok listed := by
    rw [hkept]
    exact hlisted _
  rw [host.run_store_bind hread]
  rfl

end Http.Service

open Http in
/-- **The history of a workflow is the latest of its executions**, up to the limit: in whichever
order the store goes through its executions, and for every limit, the store lists such a history. A
request for the history of a stored workflow is answered with what the store lists up to the limit
that was asked for, or 50, brought between 1 and 200. -/
theorem Store.lists_history {store : Store} {iterated : List Execution}
    (hids : (store.executions.map Execution.id).Nodup) (horder : iterated.Perm store.executions)
    (workflowId : Uuid) :
    (∀ (now : Timestamp) (limit : Int), ∃ listed,
      { store with executions := iterated }.answer now (.listExecutions workflowId limit) =
        (.ok listed, { store with executions := iterated }) ∧
      IsHistory workflowId limit store.executions listed) ∧
    ∀ {σ : Type} (host : Host σ) (service : Service) (request : Request) (segment : String)
        (asked : Option Int) (s : σ),
      host.store s = { store with executions := iterated } → request.method = "GET" →
      Route.ofPath? request.target.path = some (.workflowExecutions segment) →
      Request.pathId segment = .ok workflowId →
      request.queryInteger? "limit" = .ok asked →
      (find? Workflow.id workflowId store.workflows).isSome = true →
      let limit := max 1 (min 200 (asked.getD 50))
      ∃ listed s',
        (∀ now, ({ store with executions := iterated }.answer now
          (.listExecutions workflowId limit)).1 = .ok listed) ∧
        (service.respond request).run host.answer s =
          (.returned (.ok (.arr (listed.map Execution.toJson))), s') ∧
        host.store s' = host.store s ∧ IsHistory workflowId limit store.executions listed := by
  have hhistory (limit : Int) : IsHistory workflowId limit store.executions
      ((latestFirst (iterated.filter fun execution => execution.workflowId = workflowId)).take
        limit.toNat) :=
    (isHistory_take ((horder.map Execution.id).nodup_iff.2 hids)).of_perm horder
  refine ⟨fun now limit => ⟨_, rfl, hhistory limit⟩, ?_⟩
  intro σ host service request segment asked s hstore hmethod hroute hid hasked hstored limit
  have hlisted (now : Timestamp) :
    ((host.store s).answer now (.listExecutions workflowId (historyLimit asked))).1 =
      .ok ((latestFirst (iterated.filter fun execution => execution.workflowId = workflowId)).take
        limit.toNat) := by
    rw [hstore]
    rfl
  obtain ⟨s', hrun, hkept⟩ :=
    Service.exists_run_respond_history service hmethod hroute hid hasked (by rwa [hstore]) hlisted
  exact ⟨_, s', fun _ => rfl, hrun, hkept, hhistory limit⟩

/-- A workflow that was started three times, twice of them at once. -/
def startedThrice : Store :=
  let first := Execution.start Program.stillFresh Http.ping none none .null []
  .after {} [(.epoch, .saveWorkflow Http.ping), (.epoch, .createExecution first),
    (.epoch, .createExecution { first with id := ⟨7⟩ }),
    (.epoch, .createExecution { first with id := ⟨8⟩, startedAt := ⟨60, 0, by decide, by decide⟩ })]

/-- A request for the last two executions of the workflow. -/
def Http.lastTwo : Request where
  method := "GET"
  target := ⟨"/api/v1/workflows/00000000-0000-0000-0000-000000000001/executions", "limit=2"⟩
  contentType := none
  body := ""

open Http in
theorem Store.lists_history_startedThrice :
    let store := { startedThrice with executions := startedThrice.executions.reverse }
    let segment := "00000000-0000-0000-0000-000000000001"
    (startedThrice.executions.map Execution.id).Nodup ∧
    store.executions.Perm startedThrice.executions ∧
    lastTwo.method = "GET" ∧ Route.ofPath? lastTwo.target.path =
      some (.workflowExecutions segment) ∧
    Request.pathId segment = .ok ⟨1⟩ ∧ lastTwo.queryInteger? "limit" = .ok (some 2) ∧
    (find? Workflow.id ⟨1⟩ startedThrice.workflows).isSome = true ∧
    (∃ listed, store.answer .epoch (.listExecutions ⟨1⟩ (-1)) = (.ok listed, store) ∧
      IsHistory ⟨1⟩ (-1) startedThrice.executions listed) ∧
    ∃ listed s', (Service.respond { options := {} } lastTwo).run Host.still.answer store =
        (.returned (.ok (.arr (listed.map Execution.toJson))), s') ∧
      IsHistory ⟨1⟩ 2 startedThrice.executions listed := by
  intro store segment
  have hids : (startedThrice.executions.map Execution.id).Nodup := nodup_executions_after _
  have hroute : Route.ofPath? lastTwo.target.path = some (.workflowExecutions segment) := by
    decide +kernel
  have hid : Request.pathId segment = .ok ⟨1⟩ := by decide +kernel
  have hasked : lastTwo.queryInteger? "limit" = .ok (some 2) := by decide +kernel
  obtain ⟨hstore, hrequest⟩ := lists_history hids (List.reverse_perm startedThrice.executions) ⟨1⟩
  obtain ⟨listed, s', -, hrun, -, hhistory⟩ :=
    hrequest Host.still { options := {} } lastTwo segment
      (some 2) store rfl rfl hroute hid hasked rfl
  exact ⟨hids, List.reverse_perm _, rfl, hroute, hid, hasked, rfl, hstore .epoch (-1), listed, s',
    hrun, hhistory⟩

end LeadAutomation
