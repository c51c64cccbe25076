import LeadAutomation.Proofs.Definitions
import LeadAutomation.Proofs.Http.Unreadable

/-!
# Definitions under requests

Rules and workflows are written by four kinds of requests, and each of their handlers does so at
most once, last of all and only where it then answers that it has. `Host.Edits` says this in one
place; from it follows what holds of the definitions under any sequence of requests: they are valid
at any time, no two rules have one identifier, a request that is refused has left them alone, and a
rule stays what it is and where it is for as long as it is stored, whatever is done to it and to
others: `Service.definitions_kept`.

The last of these relies on identifiers that are generated for new rules to be new. A rule that is
made under the identifier of a stored one would take its place.
-/

namespace LeadAutomation

open Program (moment)

/-- The definitions that a host has stored. -/
def Host.definitions {σ : Type} (host : Host σ) (s : σ) : List Rule × List Workflow :=
  (host.store s).definitions

/-- What is supplied at some moment is new: no rule is stored then under any of the identifiers. -/
def Host.SuppliesNew {σ : Type} (host : Host σ) : Exchange × σ → Prop
  | (⟨.stamp, fresh⟩, s) => ∀ rule ∈ (host.store s).rules, ∀ n, rule.id ≠ fresh.id n
  | (⟨.store _, _⟩, _) | (⟨.effect _, _⟩, _) => True

/-- `host.Edits good given p s` says that `p`, from `s` on, looks around and writes definitions at
most once, last of all and with a result that is `good`; `given` is what it has been supplied
with. -/
inductive Host.Edits {σ α : Type} (host : Host σ) (good : α → Prop) :
    List Fresh → Program α → σ → Prop
  | spares {given : List Fresh} {p : Program α} {s : σ}
    (spares : p.CallsOnly Call.SparesDefinitions) : Edits host good given p s
  | looks {given : List Fresh} {call : StoreCall} {next : (Call.store call).Reply →
    Program α} {s : σ}
      (kept : host.definitions (host.answer (.store call) s).2 = host.definitions s)
      (rest : Edits host good given (next (host.answer (.store call) s).1)
        (host.answer (.store call) s).2) :
      Edits host good given (.ask (.store call) next) s
  | stamps {given : List Fresh} {next : Fresh → Program α} {s : σ}
      (rest : Edits host good ((host.answer .stamp s).1 :: given) (next (host.answer .stamp s).1)
        (host.answer .stamp s).2) :
      Edits host good given (.ask .stamp next) s
  | writes {given : List Fresh} {call : StoreCall} {next : (Call.store call).Reply →
    Program α} {s : σ} {a : α}
      (edit : Store.Edit given (host.store s) call) (ends : next (host.answer (.store call) s).1 =
        pure a) (well : good a) :
      Edits host good given (.ask (.store call) next) s

namespace Host

variable {σ α β : Type} {host : Host σ} {good : α → Prop} {given : List Fresh} {s : σ}

theorem definitions_answer {call : Call} (h : call.SparesDefinitions) (s : σ) :
    host.definitions (host.answer call s).2 = host.definitions s := by
  unfold definitions
  cases call with
  | store call => rw [host.store_store, Store.definitions_answer h]
  | effect call => rw [host.store_effect]
  | stamp => rw [host.store_stamp]

theorem definitions_run {p : Program α} (h : p.CallsOnly Call.SparesDefinitions) (s : σ) :
    host.definitions (p.run host.answer s).2 = host.definitions s :=
  h.view_run (fun _ => definitions_answer) s

theorem definitions_of_mem_trace {p : Program α} (h : p.CallsOnly Call.SparesDefinitions)
    {step : Exchange × σ} (hmem : step ∈ p.trace host.answer s) :
    host.definitions step.2 = host.definitions s := by
  induction p generalizing s with
  | done outcome => cases hmem
  | ask call next ih =>
    rcases List.mem_cons.1 hmem with rfl | hlater
    · exact definitions_answer h.1 s
    · rw [ih _ (h.2 _) hlater, definitions_answer h.1]

namespace Edits

/-! ### How handlers edit -/

theorem stamp_bind {f : Fresh → Program α}
    (rest : host.Edits good ((host.answer .stamp s).1 :: given) (f (host.answer .stamp s).1)
      (host.answer .stamp s).2) :
    host.Edits good given (Program.stamp >>= f) s := .stamps rest

theorem looks_bind {call : StoreCall} {f : call.Result → Program α} {result : call.Result}
    (hspares : (Call.store call).SparesDefinitions)
    (hreply : (host.answer (.store call) s).1 = .ok result)
    (rest : host.Edits good given (f result) (host.answer (.store call) s).2) :
    host.Edits good given (Program.store call >>= f) s := by
  refine .looks (definitions_answer hspares s) ?_
  rw [hreply]
  exact rest

theorem writes_bind {call : StoreCall} {f : call.Result → Program α} {result : call.Result} {a : α}
    (hreply : (host.answer (.store call) s).1 = .ok result)
    (edit : Store.Edit given (host.store s) call) (ends : f result = pure a) (well : good a) :
    host.Edits good given (Program.store call >>= f) s := by
  refine .writes edit ?_ well
  rw [hreply]
  exact ends

theorem map {p : Program α} {g : α → β} {better : β → Prop} (h : host.Edits good given p s)
    (hg : ∀ a, good a → better (g a)) : host.Edits better given (p >>= fun a => pure (g a)) s := by
  induction h with
  | spares spares => exact .spares (spares.bind fun _ => .pure _)
  | looks kept rest ih => exact .looks kept ih
  | stamps rest ih => exact .stamps ih
  | writes edit ends well => exact .writes edit (by rw [ends]; rfl) (hg _ well)

/-! ### What follows from it -/

theorem isChain_append {new : Prop} {p : Program α} {rest : List Store}
    (h : host.Edits good given p s)
    (hgiven : new → ∀ fresh ∈ given, ∀ rule ∈ (host.store s).rules, ∀ n, rule.id ≠ fresh.id n)
    (hnew : new → ∀ step ∈ p.trace host.answer s, host.SuppliesNew step)
    (hrest : List.IsChain (Store.Follows new) (host.store (p.run host.answer s).2 :: rest)) :
    List.IsChain (Store.Follows new)
      (host.store s :: ((p.trace host.answer s).map fun step => host.store step.2) ++ rest) := by
  induction h with
  | @spares given p s spares =>
    clear hnew hgiven
    induction p generalizing s with
    | done outcome => exact hrest
    | ask call next ih =>
      exact .cons_cons (Store.follows_of_definitions_eq (definitions_answer spares.1 s))
        (ih _ (spares.2 _) hrest)
  | @looks given call next s kept _ ih =>
    have hrules : (host.store (host.answer (.store call) s).2).rules = (host.store s).rules :=
      congrArg Prod.fst kept
    refine .cons_cons (Store.follows_of_definitions_eq kept) (ih ?_ ?_ hrest)
    · rwa [hrules]
    · exact fun holds => (List.forall_mem_cons.1 (hnew holds)).2
  | @stamps given next s _ ih =>
    refine .cons_cons
      (Store.follows_of_definitions_eq
        (definitions_answer (show Call.stamp.SparesDefinitions from trivial) s)) (ih ?_ ?_ hrest)
    · intro holds
      have hsupplied : host.SuppliesNew (moment host.answer .stamp s) :=
        (List.forall_mem_cons.1 (hnew holds)).1
      refine List.forall_mem_cons.2 ⟨hsupplied, ?_⟩
      rw [host.store_stamp]
      exact hgiven holds
    · exact fun holds => (List.forall_mem_cons.1 (hnew holds)).2
  | @writes given call next s a edit ends _ =>
    have htrace : (Program.ask (.store call) next).trace host.answer s =
        [moment host.answer (.store call) s] := by
      rw [Program.trace, ends]
      rfl
    have hrun : ((Program.ask (.store call) next).run host.answer s).2 =
        (host.answer (.store call) s).2 := by
      change ((next (host.answer (.store call) s).1).run host.answer _).2 = _
      rw [ends]
      rfl
    rw [hrun] at hrest
    rw [htrace]
    refine .cons_cons ?_ hrest
    change (host.store s).Follows new (host.store (host.answer (.store call) s).2)
    rw [host.store_store]
    exact edit.follows hgiven

/-- What has not ended well has not written. -/
theorem definitions_run {p : Program α} {a : α} (h : host.Edits good given p s)
    (hended : (p.run host.answer s).1 = .returned a) (hill : ¬ good a) :
    host.definitions (p.run host.answer s).2 = host.definitions s := by
  induction h with
  | spares spares => exact Host.definitions_run spares _
  | looks kept rest ih => exact (ih hended).trans kept
  | stamps rest ih =>
    exact (ih hended).trans (definitions_answer (show Call.stamp.SparesDefinitions from trivial) _)
  | @writes given call next s b edit ends well =>
    change ((next (host.answer (.store call) s).1).run host.answer _).1 = _ at hended
    rw [ends] at hended
    cases hended
    exact absurd well hill

end Edits

/-! ### One program after another -/

variable (host) in
/-- The store at every point of some programs that run one after another: at the beginning and after
each call. -/
def points (programs : List (Program Unit)) (s : σ) : List Store :=
  host.store s :: (Program.traceAll host.answer programs s).map fun step => host.store step.2

theorem isChain_points {new : Prop} {programs : List (Program Unit)} {fine : Unit → Prop}
    (hedits : ∀ p ∈ programs, ∀ s, host.Edits fine [] p s)
    (hnew : new → ∀ step ∈ Program.traceAll host.answer programs s, host.SuppliesNew step) :
    List.IsChain (Store.Follows new) (host.points programs s) := by
  induction programs generalizing s with
  | nil => exact .singleton _
  | cons p rest ih =>
    obtain ⟨hp, hrest⟩ := List.forall_mem_cons.1 hedits
    have hlater := ih hrest fun holds => (List.forall_mem_append.1 (hnew holds)).2
    have hown :=
      (hp s).isChain_append (fun _ => List.forall_mem_nil _)
        (fun holds => (List.forall_mem_append.1 (hnew holds)).1)
      hlater
    rwa [points, Program.traceAll, List.map_append]

end Host

namespace Http

/-- A handler has come to a response that finds no fault with its request. -/
def Handled.IsWell : Handled → Prop
  | .response answer => answer.status < 400
  | .rejection _ | .error _ => False

section CallsOnly

variable {α : Type} {allowed : Call → Prop} {next : α → Program Handled}

theorem Handled.reading_callsOnly {part : Except Rejection α}
    (hnext : ∀ a, (next a).CallsOnly allowed) :
    (reading part next).CallsOnly allowed := by
  cases part with
  | ok a => exact hnext a
  | error reason => exact .pure _

theorem Handled.finding_callsOnly {resource : String} {record : Option α}
    (hnext : ∀ a, (next a).CallsOnly allowed) :
    (finding resource record next).CallsOnly allowed := by
  cases record with
  | some a => exact hnext a
  | none => exact .pure _

end CallsOnly

/-- Whether a method on a route is there to write definitions. -/
def Route.IsAuthoring (method : String) : Route → Prop
  | .rules | .workflows => method = "POST"
  | .rule _ => method = "PUT" ∨ method = "DELETE"
  | .root | .health | .ruleTest _ | .workflow _ | .workflowPreview _ | .workflowExecute
    _ | .workflowExecutions _ | .execution _
  | .events => False

/-- A request to make, to replace or to remove a rule, or to make a workflow. -/
def Request.IsAuthoring (request : Request) : Prop :=
  ∃ route, Route.ofPath? request.target.path = some route ∧ route.IsAuthoring request.method

namespace Service

variable {σ : Type} {host : Host σ} {given : List Fresh} {s : σ}

/-! ### Handlers that write definitions -/

theorem createRule_edits (request : Request) :
    host.Edits Handled.IsWell given (createRule request) s := by
  refine .stamp_bind ?_
  cases request.read (Rule.decode (host.answer .stamp s).1) with
  | error reason => exact .spares (.pure _)
  | ok rule =>
    change host.Edits _ _ (Handled.validating rule.validate _) _
    cases hvalid : rule.validate with
    | error violations => exact .spares (.pure _)
    | ok warnings =>
      refine .stamp_bind
        (.writes_bind (host.answer_store _ _)
          (.makes List.mem_cons_self rfl ⟨warnings, hvalid⟩) rfl ?_)
      exact (by decide : 201 < 400)

theorem updateRule_edits (segment : String) (request : Request) :
    host.Edits Handled.IsWell given (updateRule segment request) s := by
  refine .stamp_bind ?_
  cases Request.pathId segment with
  | error reason => exact .spares (.pure _)
  | ok id =>
    change host.Edits _ _ (Handled.reading (request.read _) _) _
    cases request.read (Rule.decode (host.answer .stamp s).1) with
    | error reason => exact .spares (.pure _)
    | ok rule =>
      refine .looks_bind trivial (host.answer_store _ _) ?_
      cases hstored : Store.find? Rule.id id (host.store (host.answer .stamp s).2).rules with
      | none => exact .spares (.pure _)
      | some existing =>
        change host.Edits _ _ (Handled.validating rule.validate _) _
        cases hvalid : rule.validate with
        | error violations => exact .spares (.pure _)
        | ok warnings =>
          -- The rule that was found is still there when the other one takes its place.
          let found := (host.answer (.store (.getRule id)) (host.answer .stamp s).2).2
          have hkept : Store.find? Rule.id id (host.store (host.answer .stamp found).2).rules =
              some existing := by
            rw [host.store_stamp, host.store_store]
            exact hstored
          have hsame : existing.identity = (id, existing.createdAt, existing.createdBy) := by
            rw [Rule.identity, Store.id_of_find? hstored]
          refine .stamp_bind
            (.writes_bind (host.answer_store _ _) (.replaces hkept hsame ⟨warnings, hvalid⟩) rfl ?_)
          exact (by decide : 200 < 400)

theorem deleteRule_edits (segment : String) :
    host.Edits Handled.IsWell given (deleteRule segment) s := by
  unfold deleteRule
  cases Request.pathId segment with
  | error reason => exact .spares (.pure _)
  | ok id =>
    by_cases hfound : ((host.store s).rules.filter fun rule => rule.id ≠ id).length =
      (host.store s).rules.length
    · -- There is no such rule, and nothing is removed.
      have hall : ((host.store s).rules.filter fun rule => rule.id ≠ id) = (host.store s).rules :=
        List.filter_sublist.eq_of_length hfound
      have hreply : (host.answer (.store (.deleteRule id)) s).1 = .ok false := by
        rw [host.answer_store]
        simp only [Store.answer, hall, ne_eq, not_true_eq_false, decide_false]
      refine .looks ?_ (.spares ?_)
      · rw [Host.definitions, host.store_store]
        exact congrArg (·, (host.store s).workflows) hall
      · rw [hreply]
        exact .pure _
    · have hreply : (host.answer (.store (.deleteRule id)) s).1 = .ok true := by
        rw [host.answer_store]
        exact congrArg Except.ok (decide_eq_true hfound)
      refine .writes_bind hreply (.removes id) rfl ?_
      exact (by decide : 204 < 400)

theorem createWorkflow_edits (request : Request) :
    host.Edits Handled.IsWell given (createWorkflow request) s := by
  refine .stamp_bind ?_
  cases request.read (Workflow.decode (host.answer .stamp s).1) with
  | error reason => exact .spares (.pure _)
  | ok workflow =>
    change host.Edits _ _ (Handled.validating workflow.validate _) _
    cases hvalid : workflow.validate with
    | error violations => exact .spares (.pure _)
    | ok warnings =>
      refine .stamp_bind (.writes_bind (host.answer_store _ _) (.drafts ⟨warnings, hvalid⟩) rfl ?_)
      exact (by decide : 201 < 400)

/-! ### All requests -/

theorem handle_sparesDefinitions (service : Service) (request : Request) {method : String}
    {route : Route} (hknown : method ∈ route.methods) (hnot : ¬ route.IsAuthoring method) :
    (service.handle request method route).CallsOnly Call.SparesDefinitions := by
  cases route with
  | root => exact .pure _
  | health => exact .pure _
  | rules => exact absurd (List.mem_singleton.1 hknown) hnot
  | rule segment =>
    obtain ⟨hput, hdelete⟩ := not_or.1 hnot
    have hget : method = "GET" := by simpa [Route.methods, hput, hdelete] using hknown
    rw [handle, if_pos hget]
    exact Handled.reading_callsOnly fun id => .bind (.store trivial) fun found =>
      Handled.finding_callsOnly fun rule => .pure _
  | ruleTest segment =>
    exact .bind (.stamp trivial) fun fresh => Handled.reading_callsOnly fun id =>
        Handled.reading_callsOnly fun lead =>
      .bind (Rule.test_sparesDefinitions _ id lead) fun test => .pure _
  | workflows => exact absurd (List.mem_singleton.1 hknown) hnot
  | workflow segment =>
    exact Handled.reading_callsOnly fun id => .bind (.store trivial) fun found =>
      Handled.finding_callsOnly fun workflow => .pure _
  | workflowPreview segment =>
    refine .bind (.stamp trivial) fun fresh => Handled.reading_callsOnly fun id => ?_
    exact .bind (Workflow.preview_sparesDefinitions _ id _ _) fun preview => .pure _
  | workflowExecute segment =>
    refine Handled.reading_callsOnly fun id => ?_
    exact .bind (Workflow.execute_sparesDefinitions _ id _ _) fun ended => .pure _
  | workflowExecutions segment =>
    exact Handled.reading_callsOnly fun id => Handled.reading_callsOnly fun asked =>
      .bind (Execution.history_sparesDefinitions id _) fun history => .pure _
  | execution segment =>
    exact Handled.reading_callsOnly fun id =>
      .bind (Execution.get_sparesDefinitions id) fun execution => .pure _
  | events =>
    exact .bind (.stamp trivial) fun fresh => Handled.reading_callsOnly fun event =>
      .bind (event.dispatch_sparesDefinitions _) fun summaries => .pure _

theorem handle_edits (service : Service) (request : Request) {method : String} {route : Route}
    (hknown : method ∈ route.methods) :
    host.Edits Handled.IsWell given (service.handle request method route) s := by
  by_cases hauthoring : route.IsAuthoring method
  · cases route with
    | rules => exact createRule_edits request
    | workflows => exact createWorkflow_edits request
    | rule segment =>
      obtain rfl | rfl := hauthoring
      · exact updateRule_edits segment request
      · exact deleteRule_edits segment
    | _ => exact hauthoring.elim
  · exact .spares (handle_sparesDefinitions service request hknown hauthoring)

theorem conclude_edits {handler : Program Handled} (h : host.Edits Handled.IsWell given handler s) :
    host.Edits (fun response => response.status < 400) given (conclude handler) s := by
  rw [conclude_eq]
  induction h with
  | spares spares => exact .spares (spares.attempt.bind (conclusion_callsOnly trivial))
  | looks kept rest ih => exact .looks kept ih
  | stamps rest ih => exact .stamps ih
  | @writes given call next s handled edit ends well =>
    cases handled with
    | response response =>
      refine .writes edit ?_ well
      change (next (host.answer (.store call) s).1).attempt >>= conclusion = _
      rw [ends]
      rfl
    | rejection reason => exact well.elim
    | error error => exact well.elim

/-- A request is answered at once or handled on its route; a response to `HEAD` loses its body
only. -/
theorem respond_cases (service : Service) (request : Request) :
    (∃ response, service.respond request = pure response) ∨
    ∃ (route : Route) (method : String) (answer : Response → Response),
      Route.ofPath? request.target.path = some route ∧ method ∈ route.methods ∧
      (method = request.method ∨ method = "GET") ∧
      (∀ response, (answer response).status = response.status) ∧
      service.respond request = conclude (service.handle request method route) >>= fun response =>
        pure (answer response) := by
  unfold respond
  dsimp only
  have hmethod : (if request.method = "HEAD" then "GET" else request.method) = request.method ∨
      (if request.method = "HEAD" then "GET" else request.method) = "GET" := by
    split
    · exact .inr rfl
    · exact .inl rfl
  generalize (if request.method = "HEAD" then "GET" else request.method) = method at hmethod ⊢
  by_cases hoptions : method = "OPTIONS"
  · exact .inl ⟨_, if_pos hoptions⟩
  · rw [if_neg hoptions]
    cases hroute : Route.ofPath? request.target.path with
    | none => exact .inl ⟨_, rfl⟩
    | some route =>
      by_cases hknown : route.methods.contains method = true
      · refine .inr ⟨route, method,
          fun response =>
            if request.method = "HEAD" then { response with body := .empty } else response,
          rfl, List.contains_iff_mem.1 hknown, hmethod, fun response => ?_, if_pos hknown⟩
        dsimp only
        split <;> rfl
      · exact .inl ⟨_, if_neg hknown⟩

theorem respond_edits (service : Service) (request : Request) (s : σ) :
    host.Edits (fun response => response.status < 400) [] (service.respond request) s := by
  obtain ⟨response, hrespond⟩ | ⟨route, method, answer, -, hknown, -, hstatus, hrespond⟩ :=
    service.respond_cases request
  · rw [hrespond]
    exact .spares (.pure _)
  · rw [hrespond]
    exact (conclude_edits (service.handle_edits request hknown)).map fun response hwell =>
      (hstatus response).symm ▸ hwell

theorem respond_sparesDefinitions (service : Service) {request : Request}
    (hnot : ¬ request.IsAuthoring) :
    (service.respond request).CallsOnly Call.SparesDefinitions := by
  obtain ⟨response, hrespond⟩ | ⟨route, method, answer, hroute, hknown, hmethod, -, hrespond⟩ :=
    service.respond_cases request
  · rw [hrespond]
    exact .pure _
  · have hreads : ¬ route.IsAuthoring method := by
      intro hauthoring
      obtain rfl | rfl := hmethod
      · exact hnot ⟨route, hroute, hauthoring⟩
      · cases route <;> simp [Route.IsAuthoring] at hauthoring
    rw [hrespond, conclude_eq]
    refine .bind (.bind (.attempt ?_) (conclusion_callsOnly trivial)) fun response => .pure _
    exact service.handle_sparesDefinitions request hknown hreads

/-- Serving a request, whatever becomes of it. -/
def serve (service : Service) (request : Request) : Program Unit :=
  discard (service.respond request)

theorem serve_edits (service : Service) (request : Request) (s : σ) :
    host.Edits (fun _ => True) [] (service.serve request) s :=
  (service.respond_edits request s).map fun _ _ => trivial

/-- However a service without definitions is used, at every point its definitions are sound. If
generated identifiers are new, rules that last through some span of time have the same identities
and the same order in all of it. A request that is answered with an error has left all definitions
as they were, and one that is not there to write them never changes them. -/
theorem definitions_kept (host : Host σ) (service : Service) (requests : List Request) (s : σ)
    (hrules : (host.store s).rules = []) (hworkflows : (host.store s).workflows = []) :
    let programs := requests.map service.serve
    (∀ store ∈ host.points programs s, store.IsSound) ∧
    ((∀ step ∈ Program.traceAll host.answer programs s, host.SuppliesNew step) →
      ∀ span, span <:+: host.points programs s → ∀ lasting : List Uuid,
        (∀ store ∈ span, ∀ id ∈ lasting, id ∈ store.rules.map Rule.id) →
        ∀ store ∈ span, ∀ other ∈ span, Rule.identities lasting store.rules =
          Rule.identities lasting other.rules) ∧
    (∀ request t response left, (service.respond request).run host.answer t =
      (.returned response, left) →
      400 ≤ response.status → host.definitions left = host.definitions t) ∧
    (∀ request t, ¬ request.IsAuthoring → ∀ step ∈ (service.respond request).trace host.answer t,
      host.definitions step.2 = host.definitions t) := by
  intro programs
  have hedits : ∀ p ∈ programs, ∀ s, host.Edits (fun _ => True) [] p s := by
    intro p hp s
    obtain ⟨request, -, rfl⟩ := List.mem_map.1 hp
    exact service.serve_edits request s
  have hfirst : (host.store s).IsSound := by
    refine ⟨?_, ?_, ?_⟩
    · rw [hrules]
      exact List.forall_mem_nil _
    · rw [hworkflows]
      exact List.forall_mem_nil _
    · rw [hrules]
      exact List.nodup_nil
  refine ⟨?_, ?_, ?_, ?_⟩
  · have hchain : List.IsChain (Store.Follows False) (host.points programs s) :=
      Host.isChain_points hedits False.elim
    exact hchain.induction _ _ (fun _ _ hfollows => hfollows.sound) fun _ => hfirst
  · intro hnew span hspan lasting hlasting
    have hpoints : List.IsChain (Store.Follows True) (host.points programs s) :=
      Host.isChain_points hedits fun _ => hnew
    have hfollow := List.IsChain.infix hpoints hspan
    have hchain := hfollow.imp fun _ _ hfollows => hfollows.keeps trivial
    cases span with
    | nil => exact List.forall_mem_nil _
    | cons first rest =>
      have heq : ∀ store ∈ first :: rest, Rule.identities lasting store.rules =
          Rule.identities lasting first.rules :=
        List.forall_mem_cons.2 ⟨rfl, Store.identities_eq_of_isChain hchain hlasting⟩
      intro store hstore other hother
      rw [heq store hstore, heq other hother]
  · intro request t response left hrun hstatus
    have hkept :=
      (service.respond_edits request t).definitions_run (congrArg Prod.fst hrun)
        (Nat.not_lt.2 hstatus)
    rwa [hrun] at hkept
  · intro request t hnot step hmem
    exact Host.definitions_of_mem_trace (service.respond_sparesDefinitions hnot) hmem

end Service

/-- A request to make a rule. -/
def posted : Request where
  method := "POST"
  target := ⟨"/api/v1/rules", ""⟩
  contentType := some "application/json"
  body := "\x7b\"name\": \"score visitors\", \"type\": \"scoring\"\x7d"

/-- A request to remove the rule that is made first. -/
def removal : Request where
  method := "DELETE"
  target := ⟨"/api/v1/rules/00000000-0000-0000-0000-000000000000", ""⟩
  contentType := none
  body := ""

theorem definitions_kept_posted :
    let service : Service := { options := {} }
    let programs := [posted, removal].map service.serve
    let points := Host.still.points programs {}
    (Host.still.store {}).rules = [] ∧ (Host.still.store {}).workflows = [] ∧
    points.map (fun store => store.rules.map Rule.id) = [[], [], [], [⟨0⟩], []] ∧
    (∀ store ∈ points, store.IsSound) ∧
    (∀ step ∈ Program.traceAll Host.still.answer programs {}, Host.still.SuppliesNew step) ∧
    (∀ span, span <:+: points → ∀ lasting : List Uuid,
      (∀ store ∈ span, ∀ id ∈ lasting, id ∈ store.rules.map Rule.id) →
      ∀ store ∈ span, ∀ other ∈ span, Rule.identities lasting store.rules =
        Rule.identities lasting other.rules) := by
  intro service programs points
  have hempty : ((Program.traceAll Host.still.answer programs {}).all fun step =>
      match step.1.call with
      | .stamp => step.2.rules.isEmpty
      | .store _ | .effect _ => true) = true := by decide +kernel
  have hnew : ∀ step ∈ Program.traceAll Host.still.answer programs {},
      Host.still.SuppliesNew step := by
    rintro ⟨⟨call | call | _, reply⟩, store⟩ hmem
    · trivial
    · trivial
    · have hnone : store.rules = [] := List.isEmpty_iff.1 (List.all_eq_true.1 hempty _ hmem)
      intro rule hrule
      change rule ∈ store.rules at hrule
      rw [hnone] at hrule
      cases hrule
  obtain ⟨hsound, hlasting, -⟩ :=
    Service.definitions_kept Host.still service [posted, removal] {} rfl rfl
  exact ⟨rfl, rfl, by decide +kernel, hsound, hnew, hlasting hnew⟩

end Http

end LeadAutomation
