import LeadAutomation.Http.Service
import LeadAutomation.Proofs.Workflow.Predicted

/-!
# Bodies that cannot be read

A workflow can be previewed and started by request, and the body of such a request may be left out.
The service takes a body that it cannot read for one that has been left out. So a client that sends
a misspelt identifier of a lead, or text that is no JSON, is not told: the workflow runs on no lead
and with no payload, and what it does is done. Nothing but the workflow itself can keep it from
running: `respond_unreadable`.
-/

namespace LeadAutomation.Http

open Program (asked)

/-! ### Conclusions -/

/-- The response to how a handler ended. -/
def conclusion : Outcome Handled → Program Response
  | .returned (.response response) => pure response
  | .returned (.rejection reason) => pure (.ofRejection reason)
  | .returned (.error error) => Program.stamp >>= fun fresh => pure (.ofError fresh.now error)
  | .failed error => Program.stamp >>= fun fresh => pure (.ofError fresh.now (.ofAutomation error))
  | .crashed text => .done (.crashed text)

theorem Service.conclude_eq (handler : Program Handled) :
    conclude handler = handler.attempt >>= conclusion := by
  change (handler.attempt >>= _) >>= _ = _
  rw [bind_assoc]
  congr 1
  funext outcome
  obtain (response | reason | error) | error | text := outcome <;> rfl

theorem conclusion_callsOnly {allowed : Call → Prop} (hstamp : allowed .stamp)
    (ended : Outcome Handled) :
    (conclusion ended).CallsOnly allowed := by
  obtain (response | reason | error) | error | text := ended
  · exact .pure _
  · exact .pure _
  · exact .bind (.stamp hstamp) fun fresh => .pure _
  · exact .bind (.stamp hstamp) fun fresh => .pure _
  · trivial

section

variable {σ : Type} {answer : (call : Call) → σ → call.Reply × σ}
  {handler : Program Handled} {s : σ}

theorem Service.run_conclude : (conclude handler).run answer s =
    (conclusion (handler.run answer s).1).run answer (handler.run answer s).2 := by
  rw [conclude_eq, Program.run_bind, Program.run_attempt]

theorem Service.asked_conclude : asked answer (conclude handler) s = asked answer handler s := by
  rw [conclude_eq, Program.asked_bind (Program.run_attempt answer handler s),
    Program.asked_eq_nil (conclusion_callsOnly id _), List.append_nil, asked,
    Program.transcript_attempt]
  rfl

end

/-! ### Requests that make a workflow run -/

/-- The two ways to have a workflow run by request. -/
inductive Entrance where
  | preview
  | execute

namespace Entrance

def route : Entrance → String → Route
  | preview => .workflowPreview
  | execute => .workflowExecute

/-- The body of a request does not fit, where `fresh` supplies what it may leave out. -/
def Unreadable (fresh : Fresh) (request : Request) : Entrance → Prop
  | preview =>
    ∃ reason, request.read ((previewFields fresh).decode "PreviewRequest") = .error reason
  | execute => ∃ reason, request.read (executeFields.decode "ExecuteRequest") = .error reason

/-- Running a workflow with nothing to go by. -/
def work (options : Options) (id : Uuid) : Entrance → Program Handled
  | preview => Workflow.preview options id none .null >>= fun preview => pure (.ok preview.toJson)
  | execute => Workflow.execute options id none .null >>= fun ended => pure (.ok ended.toJson)

/-- What comes of a request without a body. -/
def bare (options : Options) (segment : String) : Entrance → Program Handled
  | preview =>
    Program.stamp >>= fun _ => Handled.reading (Request.pathId segment) (preview.work options)
  | execute => Handled.reading (Request.pathId segment) (execute.work options)

/-- A segment of the path leads to a workflow in the store that may run. -/
def Reaches (store : Store) (segment : String) (entrance : Entrance) : Prop :=
  ∃ id workflow, Request.pathId segment = .ok id ∧ Store.find? Workflow.id id store.workflows =
    some workflow ∧
    (entrance = execute → workflow.active = true)

end Entrance

namespace Request

/-- A request with its body left out. -/
def withoutBody (request : Request) : Request := { request with contentType := none, body := "" }

theorem unreadable_withoutBody (request : Request) (fresh : Fresh) (entrance : Entrance) :
    entrance.Unreadable fresh request.withoutBody := by
  cases entrance <;> exact ⟨.notJson, rfl⟩

end Request

namespace Service

variable {σ : Type} {service : Service} {request : Request} {segment : String} {entrance : Entrance}

theorem respond_post (hmethod : request.method = "POST")
    (hroute : Route.ofPath? request.target.path = some (entrance.route segment)) :
    service.respond request =
      conclude (service.handle request "POST" (entrance.route segment)) := by
  have hpost : "POST" ∈ (entrance.route segment).methods := by
    cases entrance <;> exact List.mem_singleton_self _
  unfold respond
  simp [hmethod, hroute, hpost]

theorem handle_of_unreadable {answer : (call : Call) → σ → call.Reply × σ} {s : σ}
    (hunreadable : entrance.Unreadable (answer .stamp s).1 request) :
    (service.handle request "POST" (entrance.route segment)).run answer s =
      (entrance.bare service.options segment).run answer s ∧
      asked answer (service.handle request "POST" (entrance.route segment)) s =
        asked answer (entrance.bare service.options segment) s := by
  cases entrance with
  | preview =>
    obtain ⟨reason, hread⟩ := hunreadable
    unfold handle previewWorkflow
    change Program.run answer (Handled.reading _ _) (answer .stamp s).2 = _ ∧
      asked answer (Handled.reading _ _) (answer .stamp s).2 = _
    rw [hread]
    exact ⟨rfl, rfl⟩
  | execute =>
    obtain ⟨reason, hread⟩ := hunreadable
    have hhandle : service.handle request "POST" (.workflowExecute segment) =
        Entrance.execute.bare service.options segment := by
      rw [handle, executeWorkflow, hread]
      rfl
    exact ⟨congrArg (Program.run answer · s) hhandle, congrArg (asked answer · s) hhandle⟩

/-- A request with a body that cannot be read does what the same request without a body does. -/
theorem respond_of_unreadable {answer : (call : Call) → σ → call.Reply × σ} {s : σ}
    (hmethod : request.method = "POST")
    (hroute : Route.ofPath? request.target.path = some (entrance.route segment))
    (hunreadable : entrance.Unreadable (answer .stamp s).1 request) :
    (service.respond request).run answer s =
      (conclude (entrance.bare service.options segment)).run answer s ∧
      asked answer (service.respond request) s =
        asked answer (conclude (entrance.bare service.options segment)) s := by
  obtain ⟨hrun, hasked⟩ := handle_of_unreadable hunreadable
  rw [respond_post hmethod hroute, run_conclude, run_conclude, hrun, asked_conclude,
    asked_conclude, hasked]
  exact ⟨rfl, rfl⟩

end Service

/-! ### What comes of it -/

/-- A program answers that the request is at fault and has done nothing: the store is as it was, and
nothing has been asked of systems outside. -/
def Refuses {σ : Type} (host : Host σ) (program : Program Response) (s : σ) : Prop :=
  ∃ response s', program.run host.answer s = (.returned response, s') ∧
    (400 ≤ response.status ∧ response.status < 500) ∧
    host.store s' = host.store s ∧ asked host.answer program s = []

/-- Whether a handler ends by finding fault with its request. -/
def FindsFault : Outcome Handled → Prop
  | .returned (.rejection _) | .failed (.workflowNotFound _) | .failed (.invalidDefinition _) =>
    True
  | _ => False

section

variable {σ : Type} {host : Host σ} {handler : Program Handled} {s s' : σ}

theorem refuses_conclude {ended : Outcome Handled} (hrun : handler.run host.answer s = (ended, s'))
    (hfault : FindsFault ended) (hstore : host.store s' = host.store s)
    (hasked : asked host.answer handler s = []) :
    Refuses host (Service.conclude handler) s := by
  unfold Refuses
  rw [Service.run_conclude, Service.asked_conclude, hrun]
  obtain (response | reason | error) | error | text := ended
  · exact hfault.elim
  · refine ⟨_, s', rfl, ?_, hstore, hasked⟩
    cases reason <;> decide
  · exact hfault.elim
  · refine ⟨_, _, rfl, ?_, (host.store_stamp s').trans hstore, hasked⟩
    cases error with
    | workflowNotFound id => exact (by decide : 400 ≤ 404 ∧ 404 < 500)
    | invalidDefinition detail => exact (by decide : 400 ≤ 400 ∧ 400 < 500)
    | _ => exact hfault.elim
  · exact hfault.elim

theorem not_refuses_conclude {json : Json}
    (hrun : handler.run host.answer s = (.returned (.ok json), s')) :
    ¬ Refuses host (Service.conclude handler) s := by
  rintro ⟨response, left, hends, ⟨hlow, -⟩, -⟩
  rw [Service.run_conclude, hrun] at hends
  cases hends
  exact absurd hlow (by decide : ¬ 400 ≤ 200)

end

namespace Entrance

variable {σ : Type} (host : Host σ) (options : Options) {entrance : Entrance} {segment : String}
  {id : Uuid} {s : σ}

theorem exists_run_work {workflow : Workflow}
    (hfound : Store.find? Workflow.id id (host.store s).workflows = some workflow)
    (hactive : entrance = execute → workflow.active = true) :
    ∃ json s', (entrance.work options id).run host.answer s = (.returned (.ok json), s') := by
  cases entrance with
  | preview =>
    have hreply : (host.answer (.store (.getWorkflow id)) s).1 = .ok (some workflow) := by
      rw [host.answer_store]
      simp only [Store.answer, hfound]
    obtain ⟨_, _, ended, report, s', -, -, hpreview⟩ :=
      Workflow.exists_run_preview_of_reply options .null none hreply
    exact ⟨_, s', Program.run_bind_pure_of_returned hpreview⟩
  | execute =>
    obtain rfl := Store.id_of_find? hfound
    have hnone (s : σ) (given : Lead) (h : none = some given) :
        Store.find? Lead.id given.id (host.store s).leads = some given := by cases h
    obtain ⟨begun, -, hexecute, -⟩ :=
      Workflow.exists_run_execute options .null hfound (hactive rfl) (hnone s)
    obtain ⟨ended, report, ran, s', now, -, hlaunch, -⟩ :=
      Workflow.exists_run_launch_on host options workflow .manual .null none (hnone begun)
    exact ⟨_, s', Program.run_bind_pure_of_returned (hexecute.trans hlaunch)⟩

theorem exists_run_work_of_unfit
    (hunfit : ∀ workflow, Store.find? Workflow.id id (host.store s).workflows = some workflow →
      entrance = execute ∧ workflow.active = false) :
    ∃ ended s', (entrance.work options id).run host.answer s = (ended, s') ∧ FindsFault ended ∧
      host.store s' = host.store s ∧ asked host.answer (entrance.work options id) s = [] := by
  have hkept : host.store (host.answer (.store (.getWorkflow id)) s).2 = host.store s :=
    host.store_store _ _
  cases hfound : Store.find? Workflow.id id (host.store s).workflows with
  | none =>
    have hresult : ((host.store s).answer (host.time s) (.getWorkflow id)).1 = .ok none := by
      simp only [Store.answer, hfound]
    refine ⟨.failed (.workflowNotFound id), _, ?_, trivial, hkept, ?_⟩
    · cases entrance with
      | preview => rw [work, Workflow.preview, bind_assoc, host.run_store_bind hresult]; rfl
      | execute => rw [work, Workflow.execute, bind_assoc, host.run_store_bind hresult]; rfl
    · cases entrance with
      | preview => rw [work, Workflow.preview, bind_assoc, host.asked_store_bind hresult]; rfl
      | execute => rw [work, Workflow.execute, bind_assoc, host.asked_store_bind hresult]; rfl
  | some workflow =>
    obtain ⟨rfl, hinactive⟩ := hunfit workflow hfound
    have hresult : ((host.store s).answer (host.time s) (.getWorkflow id)).1 =
        .ok (some workflow) := by
      simp only [Store.answer, hfound]
    refine ⟨.failed (.invalidDefinition ("workflow '" ++ workflow.name ++ "' is inactive")), _, ?_,
      trivial, hkept, ?_⟩
    · rw [work, Workflow.execute, bind_assoc, host.run_store_bind hresult]
      simp only [Program.orFail, Program.pure_bind, hinactive]
      rfl
    · rw [work, Workflow.execute, bind_assoc, host.asked_store_bind hresult]
      simp only [Program.orFail, Program.pure_bind, hinactive]
      rfl

/-- A preview looks at the clock before it looks at its path. -/
theorem exists_run_bare (entrance : Entrance) (segment : String) (s : σ) :
    ∃ begun, host.store begun = host.store s ∧
      (entrance.bare options segment).run host.answer s =
        (Handled.reading (Request.pathId segment) (entrance.work options)).run host.answer begun ∧
      asked host.answer (entrance.bare options segment) s =
        asked host.answer
          (Handled.reading (Request.pathId segment) (entrance.work options)) begun := by
  cases entrance with
  | preview => exact ⟨(host.answer .stamp s).2, host.store_stamp s, rfl, rfl⟩
  | execute => exact ⟨s, rfl, rfl, rfl⟩

theorem refuses_bare_iff (entrance : Entrance) (segment : String) (s : σ) :
    Refuses host (Service.conclude (entrance.bare options segment)) s ↔
    ¬ entrance.Reaches (host.store s) segment := by
  obtain ⟨begun, hbegun, hrun, hasked⟩ := exists_run_bare host options entrance segment s
  rw [← hbegun]
  cases hid : Request.pathId segment with
  | error reason =>
    rw [hid] at hrun hasked
    refine ⟨?_, fun _ => refuses_conclude hrun trivial hbegun hasked⟩
    rintro - ⟨id, workflow, hpath, -⟩
    cases hid.symm.trans hpath
  | ok id =>
    rw [hid] at hrun hasked
    constructor
    · rintro hrefuses ⟨_, workflow, hpath, hfound, hactive⟩
      cases hid.symm.trans hpath
      obtain ⟨json, s', hwork⟩ := exists_run_work host options hfound hactive
      exact not_refuses_conclude (hrun.trans hwork) hrefuses
    · intro hunreached
      have hunfit : ∀ workflow, Store.find? Workflow.id id (host.store begun).workflows =
        some workflow →
          entrance = execute ∧ workflow.active = false := by
        intro workflow hfound
        by_contra hfit
        refine hunreached ⟨id, workflow, hid, hfound, fun hexecute => ?_⟩
        simpa [hexecute] using hfit
      obtain ⟨ended, s', hwork, hfault, hstore, hsilent⟩ :=
        exists_run_work_of_unfit host options hunfit
      exact refuses_conclude (hrun.trans hwork) hfault (hstore.trans hbegun) (hasked.trans hsilent)

end Entrance

/-- A request to preview or to start a workflow, with a body that does not fit, does what it would
do without a body. It is refused just if its path leads to no workflow that may run: whatever the
body is, any other workflow runs. -/
theorem respond_unreadable {σ : Type} (host : Host σ) (service : Service) (entrance : Entrance)
    {request : Request} {segment : String} (s : σ) (hmethod : request.method = "POST")
    (hroute : Route.ofPath? request.target.path = some (entrance.route segment))
    (hunreadable : entrance.Unreadable (host.answer .stamp s).1 request) :
    (service.respond request).run host.answer s =
      (service.respond request.withoutBody).run host.answer s ∧
      asked host.answer (service.respond request) s =
        asked host.answer (service.respond request.withoutBody) s ∧
      (Refuses host (service.respond request) s ↔ ¬ entrance.Reaches (host.store s) segment) := by
  obtain ⟨hrun, hasked⟩ := Service.respond_of_unreadable hmethod hroute hunreadable
  have hmethod' : request.withoutBody.method = "POST" := hmethod
  have hroute' : Route.ofPath? request.withoutBody.target.path = some (entrance.route segment) :=
    hroute
  obtain ⟨hrun', hasked'⟩ :=
    Service.respond_of_unreadable hmethod' hroute' (request.unreadable_withoutBody _ entrance)
  refine ⟨hrun.trans hrun'.symm, hasked.trans hasked'.symm, ?_⟩
  rw [← Entrance.refuses_bare_iff host service.options entrance segment s]
  unfold Refuses
  rw [hrun, hasked]

/-- A workflow that calls an integration. -/
def ping : Workflow where
  id := ⟨1⟩
  name := "ping"
  description := none
  trigger := .manual
  active := true
  priority := 0
  steps := [⟨⟨2⟩, .known .integration, "ping crm", 1,
    .obj [("action", .str "ping"), ("integration_id", .str "crm")]⟩]
  createdBy := none
  createdAt := .epoch
  updatedAt := none

/-- A request to start it on a lead whose identifier is misspelt. -/
def misspelt : Request where
  method := "POST"
  target := ⟨"/api/v1/workflows/00000000-0000-0000-0000-000000000001/execute", ""⟩
  contentType := some "application/json"
  body := "\x7b\"leadId\": \"no uuid\"\x7d"

theorem misspelt_unreadable (fresh : Fresh) : Entrance.execute.Unreadable fresh misspelt :=
  ⟨.misfit, by decide +kernel⟩

theorem route_misspelt :
    Route.ofPath? misspelt.target.path =
      some (Entrance.execute.route "00000000-0000-0000-0000-000000000001") := by
  decide +kernel

theorem respond_unreadable_misspelt :
    let host := Host.still
    let service : Service := { options := {} }
    let segment := "00000000-0000-0000-0000-000000000001"
    let store : Store := { workflows := [ping] }
    misspelt.method = "POST" ∧ Route.ofPath? misspelt.target.path =
      some (Entrance.execute.route segment) ∧
    Entrance.execute.Unreadable (host.answer .stamp store).1 misspelt ∧
    (service.respond misspelt).run host.answer store =
      (service.respond misspelt.withoutBody).run host.answer store ∧
    asked host.answer (service.respond misspelt) store =
      asked host.answer (service.respond misspelt.withoutBody) store ∧
    (Refuses host (service.respond misspelt) store ↔ ¬ Entrance.execute.Reaches store segment) := by
  intro host service segment store
  exact ⟨rfl, route_misspelt, misspelt_unreadable _,
    respond_unreadable host service .execute store rfl route_misspelt (misspelt_unreadable _)⟩

/-- The misspelt identifier is not refused: the workflow runs, the integration is called and an
execution is stored. -/
theorem not_refuses_misspelt :
    let host := Host.still
    let program := Service.respond { options := {} } misspelt
    let store : Store := { workflows := [ping] }
    misspelt.method = "POST" ∧
    Route.ofPath? misspelt.target.path =
      some (Entrance.execute.route "00000000-0000-0000-0000-000000000001") ∧
    misspelt.body ≠ "" ∧ misspelt.body ≠ "null" ∧
    Entrance.execute.Unreadable (host.answer .stamp store).1 misspelt ∧
    ¬ Refuses host program store ∧ asked host.answer program store =
      [.integrate ⟨"crm", "ping", .null⟩] ∧
    (program.run host.answer store).2.executions.map (·.status) = [.completed] := by
  intro host program store
  obtain ⟨hrun, hasked⟩ : program.run host.answer store = _ ∧ asked host.answer program store = _ :=
    Service.respond_of_unreadable rfl route_misspelt (misspelt_unreadable _)
  refine ⟨rfl, route_misspelt, by decide, by decide, misspelt_unreadable _, ?_, ?_, ?_⟩
  · rintro ⟨response, s', hends, ⟨hlow, -⟩, -⟩
    have hstatus : (match (program.run host.answer store).1 with
        | .returned response => response.status
        | _ => 0) = 200 := by
      rw [hrun]
      decide +kernel
    rw [hends] at hstatus
    dsimp only at hstatus
    omega
  · rw [hasked]
    decide +kernel
  · rw [hrun]
    decide +kernel

end LeadAutomation.Http
