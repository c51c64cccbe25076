import LeadAutomation.Proofs.FirstFault
import LeadAutomation.Proofs.Http.Definitions

/-!
# What clients are not told

A store that fails says why in words of its own, and these may give away hosts, tables and accounts.
They stay inside: however the failures of the store are worded, a client gets the same response, to
the letter, and the surroundings are left the same, so that no later request can bring the words to
light either: `Service.respond_untold`.

Every handler ends with the first failure of the store that it meets, `Service.handle_givesUp`. So
the wording can get no further than into the failure of the handler itself, and of that a client is
shown only that the store failed.
-/

namespace LeadAutomation

/-! ### Wording -/

/-- An error without the words of the store. -/
def AutomationError.untold : AutomationError → AutomationError
  | .repository _ => .repository ""
  | error => error

/-- A reply without the words of the store. -/
def Call.untold : (call : Call) → call.Reply → call.Reply
  | .store _, reply => reply.mapError AutomationError.untold
  | .effect _, reply => reply
  | .stamp, fresh => fresh

/-- How a program ended, without the words of the store. -/
def Outcome.untold {α : Type} : Outcome α → Outcome α
  | .failed error => .failed error.untold
  | .returned a => .returned a
  | .crashed text => .crashed text

/-- From states that are alike, two surroundings give the same replies, up to how their stores word
their failures, and are left alike. -/
structure DifferInWords {σ τ : Type} (answer : (call : Call) → σ → call.Reply × σ)
    (other : (call : Call) → τ → call.Reply × τ)
    (alike : σ → τ → Prop) : Prop where
  reply (call : Call) {s : σ} {t : τ} (h : alike s t) :
    call.untold (answer call s).1 = call.untold (other call t).1
  left (call : Call) {s : σ} {t : τ} (h : alike s t) : alike (answer call s).2 (other call t).2

theorem Host.differInWords_failing {σ : Type} (host : Host σ)
    {faults others : Nat → Option AutomationError}
    (hfaults : ∀ n, (faults n).map AutomationError.untold = (others n).map AutomationError.untold) :
    DifferInWords (host.failing faults).answer (host.failing others).answer (· = ·) := by
  have hanswer (call : Call) (s : σ × Nat) :
      call.untold ((host.failing faults).answer call s).1 =
        call.untold ((host.failing others).answer call s).1 ∧
        ((host.failing faults).answer call s).2 = ((host.failing others).answer call s).2 := by
    obtain ⟨s, n⟩ := s
    cases call with
    | store call =>
      have hn := hfaults n
      simp only [failing]
      cases hmine : faults n with
      | none =>
        rw [hmine, Option.map_none, eq_comm, Option.map_eq_none_iff] at hn
        rw [hn]
        exact ⟨rfl, rfl⟩
      | some error =>
        rw [hmine, Option.map_some, eq_comm, Option.map_eq_some_iff] at hn
        obtain ⟨error', htheirs, hwords⟩ := hn
        rw [htheirs]
        exact ⟨congrArg Except.error hwords.symm, rfl⟩
    | effect call => exact ⟨rfl, rfl⟩
    | stamp => exact ⟨rfl, rfl⟩
  exact ⟨fun call _ _ h => h ▸ (hanswer call _).1, fun call _ _ h => h ▸ (hanswer call _).2⟩

/-- A program that gives up at faults ends in the same way however these are worded. -/
theorem Program.GivesUp.run_untold {α σ τ : Type} {answer : (call : Call) → σ → call.Reply × σ}
    {other : (call : Call) → τ → call.Reply × τ} {alike : σ → τ → Prop}
    (hwords : DifferInWords answer other alike) {p : Program α} (hp : p.GivesUp) {s : σ} {t : τ}
    (h : alike s t) :
    (p.run answer s).1.untold = (p.run other t).1.untold ∧
    alike (p.run answer s).2 (p.run other t).2 := by
  induction p generalizing s t with
  | done outcome => exact ⟨rfl, h⟩
  | ask call next ih =>
    have hreply := hwords.reply call h
    have hleft := hwords.left call h
    change ((next (answer call s).1).run answer _).1.untold =
      ((next (other call t).1).run other _).1.untold ∧
      alike ((next (answer call s).1).run answer _).2 ((next (other call t).1).run other _).2
    -- only a reply of the store can differ, and then both sides end with it
    have hcases : (answer call s).1 = (other call t).1 ∧
      (⟨call, (answer call s).1⟩ : Exchange).fault? = none ∨
        ∃ error error', next (answer call s).1 = .done (.failed error) ∧ next (other call t).1 =
          .done (.failed error') ∧
          error.untold = error'.untold := by
      cases call with
      | store call =>
        generalize (answer (.store call) s).1 = mine at hreply ⊢
        generalize (other (.store call) t).1 = theirs at hreply ⊢
        obtain error | result := mine <;> obtain error' | result' := theirs
        · exact .inr ⟨error, error', (hp _).1 error rfl, (hp _).1 error' rfl,
            Except.error.inj hreply⟩
        · cases hreply
        · cases hreply
        · exact .inl ⟨congrArg Except.ok (Except.ok.inj hreply), rfl⟩
      | effect call => exact .inl ⟨hreply, rfl⟩
      | stamp => exact .inl ⟨hreply, rfl⟩
    obtain ⟨hsame, hspared⟩ | ⟨error, error', hmine, htheirs, herror⟩ := hcases
    · rw [← hsame]
      exact ih _ ((hp _).2 hspared) hleft
    · rw [hmine, htheirs]
      exact ⟨congrArg Outcome.failed herror, hleft⟩

/-! ### What runs for a request gives up -/

theorem rehearse_givesUp {α : Type} {p : Program α} (hp : p.CallsOnly Call.IsOffline) :
    p.rehearse.GivesUp :=
  .of_isOffline ((hp.rehearseFrom {}).mono fun _ hcall => hcall.1)

theorem Rule.test_givesUp (options : Options) (ruleId : Uuid) (lead : Lead) :
    (Rule.test options ruleId lead).GivesUp :=
  .bind (.store _) fun found => .bind (.orFail _ found) fun _ => .bind .stamp fun _ =>
    .bind (rehearse_givesUp
      (applyActions_callsOnly (fun _ => trivial) (fun _ => trivial) _ _ _ _ _)) fun _ => .pure _

namespace Workflow

theorem preview_givesUp (options : Options) (workflowId : Uuid) (lead : Option Lead)
    (triggerData : Json) :
    (preview options workflowId lead triggerData).GivesUp :=
  .bind (.store _) fun found => .bind (.orFail _ found) fun stored => .bind .stamp fun _ =>
    .bind (rehearse_givesUp (run_isOffline options stored _ lead)) fun _ => .pure _

theorem execute_givesUp (options : Options) (workflowId : Uuid) (leadId : Option Uuid)
    (triggerData : Json) :
    (execute options workflowId leadId triggerData).GivesUp := by
  refine .bind (.store _) fun found => .bind (.orFail _ found) fun workflow => ?_
  split
  · trivial
  · cases leadId with
    | some id =>
      exact .bind (.map _ (.bind (.store _) fun found => .orFail _ found)) fun lead =>
        workflow.launch_givesUp options lead _ _
    | none => exact workflow.launch_givesUp options none _ _

end Workflow

theorem Execution.get_givesUp (id : Uuid) : (get id).GivesUp :=
  .bind (.store _) fun found => .orFail _ found

theorem Execution.history_givesUp (workflowId : Uuid) (limit : Int) :
    (history workflowId limit).GivesUp :=
  .bind (.store _) fun found => .bind (.orFail _ found) fun _ => .store _

namespace Http

open Program (GivesUp)

namespace Handled

variable {α : Type} {next : α → Program Handled}

theorem reading_givesUp {part : Except Rejection α} (hnext : ∀ a, (next a).GivesUp) :
    (reading part next).GivesUp := by
  cases part with
  | ok a => exact hnext a
  | error reason => exact .pure _

theorem validating_givesUp {validated : Except (List Violation) (List String)}
    {next : List String → Program Handled} (hnext : ∀ warnings, (next warnings).GivesUp) :
    (validating validated next).GivesUp := by
  cases validated with
  | ok warnings => exact hnext warnings
  | error violations => exact .pure _

theorem finding_givesUp {resource : String} {record : Option α} (hnext : ∀ a, (next a).GivesUp) :
    (finding resource record next).GivesUp := by
  cases record with
  | some a => exact hnext a
  | none => exact .pure _

end Handled

namespace Service

theorem createRule_givesUp (request : Request) : (createRule request).GivesUp :=
  .bind .stamp fun _ => Handled.reading_givesUp fun _ => Handled.validating_givesUp fun _ =>
    .bind .stamp fun _ => .bind (.store _) fun _ => .pure _

theorem updateRule_givesUp (segment : String) (request : Request) :
    (updateRule segment request).GivesUp :=
  .bind .stamp fun _ => Handled.reading_givesUp fun _ => Handled.reading_givesUp fun _ =>
    .bind (.store _) fun _ =>
    Handled.finding_givesUp fun _ => Handled.validating_givesUp fun _ => .bind .stamp fun _ =>
      .bind (.store _) fun _ => .pure _

theorem deleteRule_givesUp (segment : String) : (deleteRule segment).GivesUp := by
  refine Handled.reading_givesUp fun id => .bind (.store _) fun removed => ?_
  split <;> exact .pure _

theorem createWorkflow_givesUp (request : Request) : (createWorkflow request).GivesUp :=
  .bind .stamp fun _ => Handled.reading_givesUp fun _ => Handled.validating_givesUp fun _ =>
    .bind .stamp fun _ => .bind (.store _) fun _ => .pure _

theorem handle_givesUp (service : Service) (request : Request) (method : String) (route : Route) :
    (service.handle request method route).GivesUp := by
  cases route with
  | root => exact .pure _
  | health => exact .pure _
  | rules => exact createRule_givesUp request
  | rule segment =>
    change (if method = "GET" then getRule segment
      else if method = "PUT" then updateRule segment request
      else deleteRule segment).GivesUp
    split
    · exact Handled.reading_givesUp fun id => .bind (.store _) fun found =>
        Handled.finding_givesUp fun rule => .pure _
    · split
      · exact updateRule_givesUp segment request
      · exact deleteRule_givesUp segment
  | ruleTest segment =>
    exact .bind .stamp fun fresh => Handled.reading_givesUp fun id =>
        Handled.reading_givesUp fun lead =>
      .bind (Rule.test_givesUp _ id lead) fun test => .pure _
  | workflows => exact createWorkflow_givesUp request
  | workflow segment =>
    exact Handled.reading_givesUp fun id => .bind (.store _) fun found =>
      Handled.finding_givesUp fun workflow => .pure _
  | workflowPreview segment =>
    refine .bind .stamp fun fresh => Handled.reading_givesUp fun id => ?_
    exact .bind (Workflow.preview_givesUp _ id _ _) fun preview => .pure _
  | workflowExecute segment =>
    refine Handled.reading_givesUp fun id => ?_
    exact .bind (Workflow.execute_givesUp _ id _ _) fun ended => .pure _
  | workflowExecutions segment =>
    exact Handled.reading_givesUp fun id => Handled.reading_givesUp fun asked =>
      .bind (Execution.history_givesUp id _) fun history => .pure _
  | execution segment =>
    exact Handled.reading_givesUp fun id =>
      .bind (Execution.get_givesUp id) fun execution => .pure _
  | events =>
    exact .bind .stamp fun fresh => Handled.reading_givesUp fun event =>
      .bind (event.dispatch_givesUp _) fun summaries => .pure _

end Service

/-! ### What clients are shown -/

/-- A client is shown an error without the words of the store. -/
theorem Response.ofError_untold (now : Timestamp) (error : AutomationError) :
    Response.ofError now (.ofAutomation error.untold) =
      Response.ofError now (.ofAutomation error) := by
  cases error <;> rfl

theorem conclusion_untold (ended : Outcome Handled) :
    conclusion ended.untold = conclusion ended := by
  cases ended with
  | returned handled => rfl
  | failed error =>
    refine congrArg (Program.stamp >>= ·) (funext fun fresh => ?_)
    rw [Response.ofError_untold]
  | crashed text => rfl

section

variable {σ τ : Type} {answer : (call : Call) → σ → call.Reply × σ}
  {other : (call : Call) → τ → call.Reply × τ}
  {alike : σ → τ → Prop} {s : σ} {t : τ}

theorem conclusion_givesUp (ended : Outcome Handled) : (conclusion ended).GivesUp :=
  .of_isOffline (conclusion_callsOnly trivial ended)

theorem untold_run_conclusion (answer : (call : Call) → σ → call.Reply × σ)
    {ended : Outcome Handled} :
    ((conclusion ended).run answer s).1.untold = ((conclusion ended).run answer s).1 := by
  obtain (response | reason | error) | error | text := ended <;> rfl

theorem Service.run_conclude_untold (hwords : DifferInWords answer other alike)
    {handler : Program Handled} (hhandler : handler.GivesUp) (h : alike s t) :
    ((conclude handler).run answer s).1 = ((conclude handler).run other t).1 ∧
      alike ((conclude handler).run answer s).2 ((conclude handler).run other t).2 := by
  obtain ⟨hended, hleft⟩ := hhandler.run_untold hwords h
  have hconclusion : conclusion (handler.run answer s).1 = conclusion (handler.run other t).1 := by
    rw [← conclusion_untold, hended, conclusion_untold]
  rw [run_conclude, run_conclude, hconclusion, ← untold_run_conclusion answer,
    ← untold_run_conclusion other]
  exact (conclusion_givesUp _).run_untold hwords hleft

/-- However the store words its failures, whichever calls they are and whenever they come, a request
is answered with the same status and the same body, and it leaves behind what it leaves
otherwise. -/
theorem Service.respond_untold (hwords : DifferInWords answer other alike) (service : Service)
    (request : Request) (h : alike s t) :
    ((service.respond request).run answer s).1 = ((service.respond request).run other t).1 ∧
      alike ((service.respond request).run answer s).2
        ((service.respond request).run other t).2 := by
  obtain ⟨response, hrespond⟩ | ⟨route, method, shown, -, -, -, -, hrespond⟩ :=
    service.respond_cases request
  · rw [hrespond]
    exact ⟨rfl, h⟩
  · obtain ⟨hended, hleft⟩ :=
      run_conclude_untold hwords (service.handle_givesUp request method route) h
    rw [hrespond, Program.run_bind_pure, Program.run_bind_pure]
    refine ⟨?_, hleft⟩
    rw [← map_eq_pure_bind, Program.run_map, Program.run_map, hended]

end

/-- A workflow has run, but that it has cannot be stored, for one reason or another. -/
theorem respond_untold_ping :
    let failing (words : String) :=
      (Host.still.failing fun n => if n = 2 then some (.repository words) else none).answer
    let program := Service.respond { options := {} } misspelt.withoutBody
    let store : Store := { workflows := [ping] }
    let refused := program.run (failing "connection to 10.0.0.7 refused") (store, 0)
    let denied := program.run (failing "password authentication failed for user crm") (store, 0)
    DifferInWords (failing "connection to 10.0.0.7 refused")
      (failing "password authentication failed for user crm") (· = ·) ∧
      (∃ response, refused.1 = .returned response ∧ response.status = 500) ∧ refused.1 = denied.1 ∧
      refused.2 = denied.2 := by
  intro failing program store refused denied
  have hwords :
    DifferInWords (failing "connection to 10.0.0.7 refused")
      (failing "password authentication failed for user crm")
      (· = ·) := by
    refine Host.still.differInWords_failing fun n => ?_
    split <;> rfl
  refine ⟨hwords, ?_, Service.respond_untold hwords _ _ rfl⟩
  have hstatus : (match refused.1 with | .returned response => response.status | _ => 0) = 500 := by
    decide +kernel
  cases hended : refused.1 with
  | returned response => exact ⟨response, rfl, by rwa [hended] at hstatus⟩
  | failed error => rw [hended] at hstatus; cases hstatus
  | crashed text => rw [hended] at hstatus; cases hstatus

end Http

end LeadAutomation
