import LeadAutomation.Proofs.Http.Definitions
import LeadAutomation.Proofs.Interleavings

/-!
# Removed rules

A request that removes a rule does so in one call, and is then answered with 204. A request that
replaces a rule looks for it in one call and stores it in another, and storing a rule also makes one
that is not there. So when requests are served at once, a removal between the two calls of a
replacement is undone: the rule is stored again after the client has been told that it is gone.

Nothing else undoes a removal. However many requests of whatever kinds are served at once, removed
rules stay away in just the interleavings without such an overtaken replacement:
`Service.removals_last_iff`.
-/

namespace LeadAutomation

/-- The rule with an identifier in the store of a host. -/
def Host.rule? {σ : Type} (host : Host σ) (id : Uuid) (s : σ) : Option Rule :=
  Store.find? Rule.id id (host.store s).rules

namespace Host

variable {σ : Type} {host : Host σ} {id : Uuid} {s : σ}

/-- A rule that is not there is there after a call only if the call stores it. -/
theorem rule?_answer_eq_none (habsent : host.rule? id s = none) {call : Call}
    (hother : ∀ rule, call = .store (.saveRule rule) → rule.id ≠ id) :
    host.rule? id (host.answer call s).2 = none := by
  by_cases hspares : call.SparesDefinitions
  · have hrules : (host.store (host.answer call s).2).rules = (host.store s).rules :=
      congrArg Prod.fst (definitions_answer hspares s)
    rwa [rule?, hrules]
  · obtain call | call | _ := call
    · rw [rule?, host.store_store]
      cases call with
      | saveRule rule =>
        change Store.find? Rule.id id (Store.upsert Rule.id rule _) = none
        rw [Store.find?_upsert, if_neg (hother rule rfl)]
        exact habsent
      | deleteRule other =>
        change Store.find? Rule.id id (List.filter _ _) = none
        rw [Store.find?_filter_ne]
        split
        · rfl
        · exact habsent
      | saveWorkflow workflow => exact habsent
      | _ => exact absurd trivial hspares
    · exact absurd trivial hspares
    · exact absurd trivial hspares

theorem rule?_deleteRule : host.rule? id (host.answer (.store (.deleteRule id)) s).2 = none := by
  rw [rule?, host.store_store]
  exact (Store.find?_filter_ne id).trans (if_pos rfl)

theorem rule?_saveRule {rule : Rule} :
    host.rule? rule.id (host.answer (.store (.saveRule rule)) s).2 = some rule := by
  rw [rule?, host.store_store]
  exact Store.find?_upsert.trans (if_pos rfl)

end Host

namespace Http

namespace Request

/-- A request to make a rule. -/
def MakesRule (request : Request) : Prop :=
  request.method = "POST" ∧ Route.ofPath? request.target.path = some .rules

/-- A request to remove the rule with an identifier. -/
def Removes (request : Request) (id : Uuid) : Prop :=
  request.method = "DELETE" ∧
    ∃ segment, Route.ofPath? request.target.path = some (.rule segment) ∧ pathId segment = .ok id

/-- What a request may do to rules after some exchanges: it stores a rule that it makes or has
found, and removes the one that it is there to remove. -/
def MayCall (request : Request) (had : List Exchange) : Call → Prop
  | .store (.saveRule rule) =>
    (request.MakesRule ∧ ∃ fresh, ⟨.stamp, fresh⟩ ∈ had ∧ rule.id = fresh.id 0) ∨
      ∃ existing, ⟨.store (.getRule rule.id), .ok (some existing)⟩ ∈ had
  | .store (.deleteRule id) => request.Removes id
  | .store _ | .effect _ | .stamp => True

theorem mayCall_of_sparesDefinitions {request : Request} {call : Call} (h : call.SparesDefinitions)
    (had : List Exchange) :
    request.MayCall had call := by
  obtain call | call | _ := call
  · cases call with
    | saveRule rule => exact h.elim
    | deleteRule id => exact h.elim
    | _ => trivial
  · trivial
  · trivial

end Request

namespace Handled

variable {α : Type} {allowed : List Exchange → Call → Prop} {had : List Exchange}
  {next : α → Program Handled}

theorem reading_callsAfter {part : Except Rejection α}
    (hnext : ∀ a, part = .ok a → (next a).CallsAfter allowed had) :
    (reading part next).CallsAfter allowed had := by
  cases part with
  | ok a => exact hnext a rfl
  | error reason => exact .pure _

theorem validating_callsAfter {validated : Except (List Violation) (List String)}
    {next : List String → Program Handled}
    (hnext : ∀ warnings, (next warnings).CallsAfter allowed had) :
    (validating validated next).CallsAfter allowed had := by
  cases validated with
  | ok warnings => exact hnext warnings
  | error violations => exact .pure _

theorem finding_callsAfter {resource : String} {record : Option α}
    (hnext : ∀ a, record = some a → (next a).CallsAfter allowed had) :
    (finding resource record next).CallsAfter allowed had := by
  cases record with
  | some a => exact hnext a rfl
  | none => exact .pure _

end Handled

namespace Service

/-! ### What requests do to rules -/

section CallsAfter

open Program (CallsAfter)

variable {request : Request}

theorem createRule_callsAfter (hmakes : request.MakesRule) :
    (createRule request).CallsAfter request.MayCall [] := by
  refine CallsAfter.stamp_bind trivial fun fresh => Handled.reading_callsAfter fun given _ =>
    Handled.validating_callsAfter fun warnings => CallsAfter.stamp_bind trivial fun made => ?_
  exact CallsAfter.store_bind (.inl ⟨hmakes, made, by simp, rfl⟩) fun _ => .pure _

theorem createWorkflow_callsAfter : (createWorkflow request).CallsAfter request.MayCall [] :=
  CallsAfter.stamp_bind trivial fun _ => Handled.reading_callsAfter fun _ _ =>
      Handled.validating_callsAfter fun _ =>
    CallsAfter.stamp_bind trivial fun _ => CallsAfter.store_bind trivial fun _ => .pure _

theorem updateRule_callsAfter (segment : String) :
    (updateRule segment request).CallsAfter request.MayCall [] := by
  refine CallsAfter.stamp_bind trivial fun fresh => Handled.reading_callsAfter fun id _ =>
      Handled.reading_callsAfter fun given _ =>
    CallsAfter.store_bind trivial fun found => Handled.finding_callsAfter fun existing hfound =>
      Handled.validating_callsAfter fun warnings => CallsAfter.stamp_bind trivial fun now => ?_
  exact CallsAfter.store_bind (.inr ⟨existing, by simp [hfound]⟩) fun _ => .pure _

theorem deleteRule_callsAfter {segment : String}
    (hremoves : ∀ id, Request.pathId segment = .ok id → request.Removes id) :
    (deleteRule segment).CallsAfter request.MayCall [] := by
  refine Handled.reading_callsAfter fun id hid =>
    CallsAfter.store_bind (hremoves id hid) fun found => ?_
  split <;> exact .pure _

theorem handle_callsAfter (service : Service) {method : String} {route : Route}
    (hroute : Route.ofPath? request.target.path = some route) (hknown : method ∈ route.methods)
    (hmethod : method = request.method ∨ method = "GET") :
    (service.handle request method route).CallsAfter request.MayCall [] := by
  by_cases hauthoring : route.IsAuthoring method
  · have hown : request.method = method := by
      obtain rfl | rfl := hmethod
      · rfl
      · cases route <;> simp [Route.IsAuthoring] at hauthoring
    cases route with
    | rules => exact createRule_callsAfter ⟨hown.trans hauthoring, hroute⟩
    | workflows => exact createWorkflow_callsAfter
    | rule segment =>
      obtain rfl | rfl := hauthoring
      · exact updateRule_callsAfter segment
      · exact deleteRule_callsAfter fun id hid => ⟨hown, segment, hroute, hid⟩
    | _ => exact hauthoring.elim
  · refine .of_callsOnly ((service.handle_sparesDefinitions request hknown hauthoring).mono ?_)
    exact fun _ => Request.mayCall_of_sparesDefinitions

theorem respond_callsAfter (service : Service) (request : Request) :
    (service.respond request).CallsAfter request.MayCall [] := by
  obtain ⟨response, hrespond⟩ | ⟨route, method, answer, hroute, hknown, hmethod, -, hrespond⟩ :=
    service.respond_cases request
  · rw [hrespond]
    exact .pure _
  · rw [hrespond, conclude_eq]
    refine .bind (.bind (.attempt (service.handle_callsAfter hroute hknown hmethod)) ?_)
      fun _ _ _ => .pure _
    exact fun _ ended _ => .of_callsOnly (conclusion_callsOnly (fun _ => trivial) ended)

end CallsAfter

/-- A removal is one call. It is answered with 204 if there was such a rule, and else with an error
and the time. -/
theorem respond_of_removes (service : Service) {request : Request} {id : Uuid}
    (hremoves : request.Removes id) :
    ∃ next : Except AutomationError Bool → Program Response,
      service.respond request = .ask (.store (.deleteRule id)) next ∧
      next (.ok true) = pure ⟨204, .empty⟩ ∧
      ∀ reply, reply = .ok true ∨
        ∃ error, next reply = Program.stamp >>= fun fresh =>
          pure (Response.ofError fresh.now error) := by
  obtain ⟨hmethod, segment, hroute, hid⟩ := hremoves
  have hrespond : service.respond request = conclude (deleteRule segment) := by
    unfold respond
    simp [hmethod, hroute, Route.methods, handle]
  rw [hrespond, conclude_eq, deleteRule, hid]
  refine ⟨_, rfl, rfl, ?_⟩
  rintro (error | _ | _)
  · exact .inr ⟨.ofAutomation error, rfl⟩
  · exact .inr ⟨.notFound ("Rule " ++ id.text), rfl⟩
  · exact .inl rfl

/-- What has been answered with 204 has removed the rule. -/
theorem mem_of_runs_removal {service : Service} {request : Request} {id : Uuid}
    (hremoves : request.Removes id) {exchanges : List Exchange} {response : Response}
    (hruns : (service.respond request).Runs exchanges (.returned response))
    (hstatus : response.status = 204) : ⟨.store (.deleteRule id), .ok true⟩ ∈ exchanges := by
  obtain ⟨next, hrespond, -, hnext⟩ := service.respond_of_removes hremoves
  rw [hrespond] at hruns
  obtain ⟨reply, rest, rfl, hrest⟩ := Program.runs_ask.1 hruns
  obtain rfl | ⟨error, hfails⟩ := hnext reply
  · exact List.mem_cons_self
  · rw [hfails] at hrest
    obtain ⟨fresh, others, -, hothers⟩ := Program.runs_stamp_bind.1 hrest
    obtain ⟨-, hended⟩ := Program.runs_pure.1 hothers
    cases hended
    have herror : ∀ error : ApiError, error.status ≠ 204 := by
      intro error
      cases error <;> simp [ApiError.status]
    exact absurd hstatus (herror error)

theorem done_of_removed {service : Service} {request : Request} {id : Uuid}
    (hremoves : request.Removes id) {exchanges : List Exchange}
    {next : Except AutomationError Bool → Program Response}
    (h : (service.respond request).ComesTo exchanges (.ask (.store (.deleteRule id)) next)) :
    next (.ok true) = pure ⟨204, .empty⟩ := by
  obtain ⟨first, hrespond, hdone, hfirst⟩ := service.respond_of_removes hremoves
  rw [hrespond] at h
  cases h with
  | start => exact hdone
  | ask reply rest =>
    obtain rfl | ⟨error, hfails⟩ := hfirst reply
    · rw [hdone] at rest
      cases rest
    · rw [hfails] at rest
      cases rest with
      | ask fresh rest => cases rest

/-! ### Requests served at once -/

section Serving

variable {ι σ : Type} [DecidableEq ι] {host : Host σ} {service : Service} {requests : ι → Request}
  {id : Uuid} {s : σ}

/-- Requests that are served at once. -/
def serving (service : Service) (requests : ι → Request) (s : σ) : Scene ι Response σ :=
  ⟨fun i => service.respond (requests i), s⟩

/-- Requests to make rules are not supplied with an identifier. -/
def SuppliesOthers (requests : ι → Request) (id : Uuid) (history : List (ι × Exchange)) : Prop :=
  ∀ i fresh, (requests i).MakesRule → (i, ⟨.stamp, fresh⟩) ∈ history → fresh.id 0 ≠ id

/-- Some request has found the rule with an identifier before it was removed and stored one after
that. -/
def HasOvertaken (id : Uuid) (history : List (ι × Exchange)) : Prop :=
  ∃ i j existing rule reply, rule.id = id ∧
    List.Sublist [(j, ⟨.store (.getRule id), .ok (some existing)⟩),
      (i, ⟨.store (.deleteRule id), .ok true⟩),
      (j, ⟨.store (.saveRule rule), reply⟩)] history

/-- Once a request to remove a rule has been answered with 204, the rule is not there at any later
moment of a schedule. -/
def RemovalsLast (host : Host σ) (service : Service) (requests : ι → Request) (id : Uuid) (s : σ)
    (schedule : List ι) : Prop :=
  ∀ earlier later i response, earlier ++ later <+: schedule → (requests i).Removes id →
    ((service.serving requests s).after host.answer earlier).left i = .done (.returned response) →
      response.status = 204 →
    host.rule? id ((service.serving requests s).after host.answer (earlier ++ later)).state = none

omit [DecidableEq ι] in
theorem SuppliesOthers.of_append {history later : List (ι × Exchange)}
    (h : SuppliesOthers requests id (history ++ later)) :
    SuppliesOthers requests id history :=
  fun i fresh hmakes hmem => h i fresh hmakes (List.mem_append_left _ hmem)

theorem exists_rule?_of_found {schedule : List ι} {j : ι} {existing : Rule}
    {scene : Scene ι Response σ}
    (hfound : (j, ⟨.store (.getRule id), .ok (some existing)⟩) ∈
      scene.history host.answer schedule) :
    ∃ earlier, earlier <+: schedule ∧ host.rule? id (scene.after host.answer earlier).state =
      some existing := by
  obtain ⟨before, after, hhistory⟩ := List.append_of_mem hfound
  obtain ⟨earlier, later, next, rfl, -, -, hreply, -⟩ := Scene.exists_turn hhistory
  rw [host.answer_store] at hreply
  exact ⟨earlier, List.prefix_append _ _, (Except.ok.inj hreply).symm⟩

/-- Who stores a rule has found one, if the identifier was not supplied. -/
theorem exists_found_of_stores {schedule : List ι} {j : ι} {rule : Rule}
    (hnew : SuppliesOthers requests rule.id
      ((service.serving requests s).history host.answer schedule))
    {next : Except AutomationError Unit → Program Response}
    (hasks : ((service.serving requests s).after host.answer schedule).left j =
      .ask (.store (.saveRule rule)) next) :
    ∃ existing, (j, ⟨.store (.getRule rule.id), .ok (some existing)⟩) ∈
      (service.serving requests s).history host.answer schedule := by
  obtain ⟨hmakes, fresh, hsupplied, hid⟩ | ⟨existing, hfound⟩ :=
    Scene.allowed_of_ask (service.respond_callsAfter (requests j)) hasks
  · exact absurd hid.symm (hnew j fresh hmakes (Scene.mem_own.1 hsupplied))
  · exact ⟨existing, Scene.mem_own.1 hfound⟩

/-- A rule that is not there stays away until someone stores it who found it before. -/
theorem rule?_after_eq_none {start tail : List ι}
    (habsent : host.rule? id ((service.serving requests s).after host.answer start).state = none)
    (hnew : SuppliesOthers requests id
      ((service.serving requests s).history host.answer (start ++ tail)))
    (hfree : ∀ j existing rule reply, rule.id = id →
      (j, ⟨.store (.getRule id), .ok (some existing)⟩) ∈
        (service.serving requests s).history host.answer start →
        (j, ⟨.store (.saveRule rule), reply⟩) ∉ ((service.serving requests s).after host.answer
          start).history host.answer tail) :
    ∀ middle, middle <+: tail →
      host.rule? id ((service.serving requests s).after host.answer (start ++ middle)).state =
        none := by
  induction tail using List.reverseRecOn with
  | nil =>
    intro middle hmiddle
    rw [List.prefix_nil.1 hmiddle, List.append_nil]
    exact habsent
  | append_singleton tail j ih =>
    rw [← List.append_assoc, Scene.history_append] at hnew
    rw [Scene.history_append] at hfree
    have hbefore := ih hnew.of_append fun j existing rule reply hid hfound hmem =>
      hfree j existing rule reply hid hfound (List.mem_append_left _ hmem)
    intro middle hmiddle
    obtain rfl | hmiddle := List.prefix_concat_iff.1 hmiddle
    · have hlast := hbefore tail (List.prefix_refl tail)
      rw [← List.append_assoc, Scene.after_append, Scene.after_cons, Scene.after_nil]
      cases hleft : ((service.serving requests s).after host.answer (start ++ tail)).left j with
      | done ended => rwa [Scene.turn_of_done hleft]
      | ask call next =>
        rw [Scene.state_turn hleft]
        refine Host.rule?_answer_eq_none hlast ?_
        rintro rule rfl rfl
        obtain ⟨existing, hfound⟩ := exists_found_of_stores hnew.of_append hleft
        rw [Scene.history_append] at hfound
        obtain hfound | hfound := List.mem_append.1 hfound
        · rw [Scene.after_append] at hleft
          exact absurd (List.mem_append_right _ (Scene.mem_history_of_ask hleft))
            (hfree j existing rule _ rfl hfound)
        · -- It cannot have been found since then: it was not there.
          obtain ⟨earlier, hearlier, hthere⟩ := exists_rule?_of_found hfound
          rw [← Scene.after_append, hbefore earlier hearlier] at hthere
          cases hthere
    · exact hbefore middle hmiddle

/-- A removal that is undone has overtaken a replacement. -/
theorem removalsLast_of_not_hasOvertaken {schedule : List ι}
    (hnew : SuppliesOthers requests id ((service.serving requests s).history host.answer schedule))
    (hfree : ¬ HasOvertaken id ((service.serving requests s).history host.answer schedule)) :
    RemovalsLast host service requests id s schedule := by
  rintro earlier later i response ⟨rest, rfl⟩ hremoves hdone hstatus
  -- The removal itself is a turn `i` between `first` and `second`.
  have hruns := (service.serving requests s).comesTo host.answer earlier i
  rw [hdone] at hruns
  have hremoved := Scene.mem_own.1 (mem_of_runs_removal hremoves hruns.runs hstatus)
  obtain ⟨before, after, hhistory⟩ := List.append_of_mem hremoved
  obtain ⟨first, second, next, rfl, -, hasks, hreply, -⟩ := Scene.exists_turn hhistory
  have hsplit : ∀ tail, first ++ i :: second ++ tail = first ++ [i] ++ (second ++ tail) := by simp
  have hturn : ((service.serving requests s).after host.answer first).history host.answer [i] =
      [(i, ⟨.store (.deleteRule id), .ok true⟩)] := by
    rw [Scene.history_of_ask hasks, ← hreply]
  rw [List.append_assoc, hsplit] at hnew hfree
  rw [hsplit]
  refine rule?_after_eq_none ?_ hnew ?_ _
    (List.prefix_append_right_inj second |>.2 (List.prefix_append later rest))
  · rw [Scene.after_append, Scene.after_cons, Scene.after_nil, Scene.state_turn hasks]
    exact Host.rule?_deleteRule
  · intro j existing rule reply hid hfound hstored
    rw [Scene.history_append, Scene.history_append, hturn] at hfree
    rw [Scene.history_append, hturn] at hfound
    obtain hfound | hfound := List.mem_append.1 hfound
    · refine hfree ⟨i, j, existing, rule, reply, hid, ?_⟩
      exact ((List.singleton_sublist.2 hfound).append (.refl [_])).append
        (List.singleton_sublist.2 hstored)
    · cases List.mem_singleton.1 hfound

theorem not_hasOvertaken_of_removalsLast {schedule : List ι}
    (h : RemovalsLast host service requests id s schedule) :
    ¬ HasOvertaken id ((service.serving requests s).history host.answer schedule) := by
  rintro ⟨i, j, existing, rule, reply, rfl, hsub⟩
  obtain ⟨found, others, hhistory, -, hothers⟩ := List.cons_sublist_iff.1 hsub
  obtain ⟨removed, stored, rfl, hremoved, hstored⟩ := List.cons_sublist_iff.1 hothers
  obtain ⟨before, after, rfl⟩ := List.append_of_mem hremoved
  rw [List.append_assoc, List.cons_append, ← List.append_assoc] at hhistory
  obtain ⟨first, second, next, rfl, -, hremoves, hreply, hsecond⟩ := Scene.exists_turn hhistory
  have hlater := List.mem_append_right after (List.singleton_sublist.1 hstored)
  rw [← hsecond] at hlater
  obtain ⟨before', after', hhistory'⟩ := List.append_of_mem hlater
  obtain ⟨third, fourth, next', rfl, -, hstores, -, -⟩ := Scene.exists_turn hhistory'
  have hrequest : (requests i).Removes rule.id :=
    Scene.allowed_of_ask (service.respond_callsAfter (requests i)) hremoves
  have hcomes := (service.serving requests s).comesTo host.answer first i
  rw [hremoves] at hcomes
  have hanswered : ((service.serving requests s).after host.answer (first ++ [i])).left i =
      .done (.returned ⟨204, .empty⟩) := by
    rw [Scene.after_append, Scene.after_cons, Scene.after_nil, Scene.left_turn hremoves, ← hreply]
    exact done_of_removed hrequest hcomes
  have hgone := h (first ++ [i]) (third ++ [j]) i _ ⟨fourth, by simp⟩ hrequest hanswered rfl
  rw [← List.append_assoc, Scene.after_append, Scene.after_append, Scene.after_cons,
    Scene.after_nil, Scene.state_turn hstores, Host.rule?_saveRule] at hgone
  cases hgone

/-- However requests of any kinds are served at once: if new rules get new identifiers, a removed
rule stays away at every moment after the removal has been answered just if the removal has not
overtaken a replacement. -/
theorem removals_last_iff (host : Host σ) (service : Service) (requests : ι → Request) (id : Uuid)
    (s : σ) (schedule : List ι)
    (hnew : SuppliesOthers requests id
      ((service.serving requests s).history host.answer schedule)) :
    RemovalsLast host service requests id s schedule ↔
      ¬ HasOvertaken id ((service.serving requests s).history host.answer schedule) :=
  ⟨not_hasOvertaken_of_removalsLast, removalsLast_of_not_hasOvertaken hnew⟩

end Serving

end Service

/-- A rule that anyone may replace. -/
def replaceable : Rule :=
  { Rule.blank Program.stillFresh "score visitors" .scoring 0 with id := ⟨7⟩ }

/-- A request to replace it. -/
def replacement : Request where
  method := "PUT"
  target := ⟨"/api/v1/rules/00000000-0000-0000-0000-000000000007", ""⟩
  contentType := some "application/json"
  body := "\x7b\"name\": \"score all visitors\", \"type\": \"scoring\"\x7d"

/-- A request to remove it. -/
def withdrawal : Request where
  method := "DELETE"
  target := ⟨"/api/v1/rules/00000000-0000-0000-0000-000000000007", ""⟩
  contentType := none
  body := ""

theorem removes_withdrawal : withdrawal.Removes ⟨7⟩ :=
  ⟨rfl, "00000000-0000-0000-0000-000000000007", by decide +kernel, by decide +kernel⟩

theorem suppliesOthers_still {ι : Type} [DecidableEq ι] {requests : ι → Request}
    {scene : Scene ι Response Store} {schedule : List ι} :
    Service.SuppliesOthers requests ⟨7⟩ (scene.history Host.still.answer schedule) := by
  intro i fresh _ hmem
  obtain ⟨before, after, hhistory⟩ := List.append_of_mem hmem
  obtain ⟨_, _, _, -, -, -, hreply, -⟩ := Scene.exists_turn hhistory
  have hstill : fresh = Program.stillFresh := hreply
  rw [hstill]
  decide

/-- A rule is made, replaced and removed, one after the other, and stays away. -/
theorem removals_last_iff_posted :
    let service : Service := { options := {} }
    let requests := [posted, replacement, withdrawal].get
    let schedule := [0, 0, 0, 1, 1, 1, 1, 2]
    let history := (service.serving requests { rules := [replaceable] }).history
      Host.still.answer schedule
    Service.SuppliesOthers requests ⟨7⟩ history ∧
    (Service.RemovalsLast Host.still service requests ⟨7⟩ { rules := [replaceable] } schedule ↔
      ¬ Service.HasOvertaken ⟨7⟩ history) ∧
    Service.RemovalsLast Host.still service requests ⟨7⟩ { rules := [replaceable] } schedule := by
  intro service requests schedule history
  have hnew : Service.SuppliesOthers requests ⟨7⟩ history := suppliesOthers_still
  refine ⟨hnew, service.removals_last_iff Host.still requests ⟨7⟩ _ schedule hnew, ?_⟩
  rintro earlier later i response hprefix hremoves hdone -
  have hmethod : ∀ i : Fin 3, (requests i).method = "DELETE" → i = 2 := by decide
  obtain rfl := hmethod i hremoves.1
  change earlier ++ later <+: [0, 0, 0, 1, 1, 1, 1] ++ [2] at hprefix
  obtain hwhole | hbefore := List.prefix_concat_iff.1 hprefix
  · rw [hwhole]
    exact Option.isNone_iff_eq_none.1 (by decide +kernel)
  · -- Before its only turn, the request to remove the rule has not been answered.
    have hearlier : (2 : Fin 3) ∉ earlier := fun hmem =>
      absurd (hbefore.subset (List.mem_append_left later hmem)) (by decide)
    obtain ⟨next, hrespond, -⟩ := service.respond_of_removes hremoves
    have hasks := hrespond.symm.trans ((Scene.left_after_of_notMem hearlier).symm.trans hdone)
    cases hasks

/-- A replacement and a removal of one rule. -/
def contenders : Bool → Request
  | false => replacement
  | true => withdrawal

/-- A removal between the two calls of a replacement is undone. -/
theorem not_removalsLast_contenders :
    let service : Service := { options := {} }
    let store : Store := { rules := [replaceable] }
    let scene := service.serving contenders store
    let schedule := [false, false, true, false, false]
    withdrawal.Removes ⟨7⟩ ∧
    Service.SuppliesOthers contenders ⟨7⟩ (scene.history Host.still.answer schedule) ∧
    (scene.after Host.still.answer [false, false, true]).left true =
      .done (.returned ⟨204, .empty⟩) ∧
    (Host.still.rule? ⟨7⟩ (scene.after Host.still.answer [false, false, true]).state).isNone ∧
    (Host.still.rule? ⟨7⟩ (scene.after Host.still.answer schedule).state).map Rule.name =
      some "score all visitors" ∧
    ¬ Service.RemovalsLast Host.still service contenders ⟨7⟩ store schedule := by
  intro service store scene schedule
  obtain ⟨next, hrespond, hdone, -⟩ := service.respond_of_removes removes_withdrawal
  have hasks : (scene.after Host.still.answer [false, false]).left true =
      .ask (.store (.deleteRule ⟨7⟩)) next := by
    rw [Scene.after_cons, Scene.after_cons, Scene.after_nil, Scene.left_turn_of_ne (by decide),
      Scene.left_turn_of_ne (by decide)]
    change service.respond (contenders true) = _
    exact hrespond
  have hreply :
      (Host.still.answer (.store (.deleteRule ⟨7⟩))
          (scene.after Host.still.answer [false, false]).state).1 = .ok true :=
    congrArg Except.ok (by decide +kernel)
  have hanswered : (scene.after Host.still.answer [false, false, true]).left true =
      .done (.returned ⟨204, .empty⟩) := by
    change (((scene.after Host.still.answer [false, false]).after Host.still.answer [true]).left
      true) = _
    rw [Scene.after_cons, Scene.after_nil, Scene.left_turn hasks, hreply]
    exact hdone
  have hback : (Host.still.rule? ⟨7⟩ (scene.after Host.still.answer schedule).state).map Rule.name =
      some "score all visitors" := by
    decide +kernel
  refine ⟨removes_withdrawal, suppliesOthers_still, hanswered, by decide +kernel, hback,
    fun hlasts => ?_⟩
  have hgone :=
    hlasts [false, false, true] [false, false] true _
      (List.prefix_refl _) removes_withdrawal hanswered rfl
  change Host.still.rule? ⟨7⟩ (scene.after Host.still.answer schedule).state = none at hgone
  rw [hgone] at hback
  cases hback

end Http

end LeadAutomation
