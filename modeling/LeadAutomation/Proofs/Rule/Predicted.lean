import LeadAutomation.Proofs.Action.Carried
import LeadAutomation.Proofs.Dispatch
import LeadAutomation.Proofs.Manners
import LeadAutomation.Trial

/-!
# Rules do what their test shows

A test of a rule and a dispatch to it are two programs. The test tries a copy of the rule that is
switched on, changes a lead in place, asks nothing of systems outside and stores nothing; the
dispatch reads the lead from the store, asks what there is to ask, and stores a merged patch. If
every system outside does what it is asked, the two agree: `dispatch_as_tested`.

Both carry out the same actions on the same lead, at different times. That the times cannot matter
is `CarriedOut.unique`.
-/

namespace LeadAutomation

/-- Where systems outside oblige, what a sequence of actions comes to depends on nothing but the
lead, and on that only up to the time of its last change. -/
theorem CarriedOut.unique {now later : Timestamp} {defaults : List String} {payload : Json}
    {actions : List Action} {lead other left final : Option Lead} {exchanges others : List Exchange}
    {applied done : AppliedActions}
    (h : CarriedOut now defaults payload actions lead exchanges applied left)
    (hother : CarriedOut later defaults payload actions other others done final)
    (hlead : lead.map Lead.untimed = other.map Lead.untimed)
    (hobliging : ∀ exchange ∈ exchanges, exchange.IsObliging)
    (hothers : ∀ exchange ∈ others, exchange.IsObliging) :
    exchanges = others ∧ applied = done ∧ left.map Lead.untimed = final.map Lead.untimed := by
  induction h generalizing other others done final with
  | done =>
    cases hother
    exact ⟨rfl, rfl, hlead⟩
  | @next action rest lead left own mine outcome later' carries goesOn ih =>
    cases hother with
    | @next _ _ _ _ own' theirs outcome' later'' carries' goesOn' =>
      have hplan : action.plan ⟨lead, payload⟩ defaults = action.plan ⟨other, payload⟩ defaults :=
        Action.plan_congr (congrArg (RecordView.mk · payload) hlead)
      obtain ⟨hown, hmine⟩ := List.forall_mem_append.1 hobliging
      obtain ⟨hown', htheirs⟩ := List.forall_mem_append.1 hothers
      have heffects :
          ((action.plan ⟨lead, payload⟩ defaults).carryOut action).CallsOnly Call.IsEffect :=
        ActionPlan.carryOut_callsOnly (fun _ => trivial) (fun _ => trivial) _ _
      rw [← hplan] at carries' goesOn' ⊢
      obtain ⟨rfl, houtcome⟩ :=
        carries.unique_of_explains heffects carries' (Manner.explains_of_isObliging [] hown)
          (Manner.explains_of_isObliging [] hown')
      obtain rfl : outcome = outcome' := Outcome.returned.inj houtcome
      have hnext :
        (lead.map ((action.plan ⟨lead, payload⟩ defaults).patch.applyTo now)).map Lead.untimed =
          (other.map ((action.plan ⟨lead, payload⟩ defaults).patch.applyTo later)).map
            Lead.untimed := by
        rw [LeadPatch.map_untimed_applyTo, LeadPatch.map_untimed_applyTo, hlead]
      obtain ⟨rfl, rfl, hfinal⟩ := ih goesOn' hnext hmine htheirs
      exact ⟨rfl, rfl, hfinal⟩

/-- Whether a call is one of those that actions make, which result in nothing. -/
def Call.IsRequest : Call → Prop
  | .effect (.notify _) | .effect (.enrich _) => True
  | .effect (.integrate _) | .store _ | .stamp => False

theorem CarriedOut.isRequest {now : Timestamp} {defaults : List String} {payload : Json}
    {actions : List Action} {lead final : Option Lead} {exchanges : List Exchange}
    {applied : AppliedActions}
    (h : CarriedOut now defaults payload actions lead exchanges applied final) :
    ∀ exchange ∈ exchanges, exchange.call.IsRequest := by
  induction h with
  | done => exact List.forall_mem_nil _
  | @next action _ given _ _ _ _ _ carries goesOn ih =>
    have hrequests :
        ((action.plan ⟨given, payload⟩ defaults).carryOut action).CallsOnly Call.IsRequest :=
      ActionPlan.carryOut_callsOnly (fun _ => trivial) (fun _ => trivial) _ _
    exact List.forall_mem_append.2 ⟨hrequests.of_mem carries, ih⟩

theorem Exchange.isObliging_of_isRequest {exchange : Exchange} (hrequest : exchange.call.IsRequest)
    (hwell : ∀ call reply, exchange = ⟨.effect call, reply⟩ → ∃ result, reply = .returned result) :
    exchange.IsObliging := by
  obtain ⟨call | (notification | call | request) | _, reply⟩ := exchange
  · exact hrequest.elim
  · obtain ⟨⟨⟩, rfl⟩ := hwell _ reply rfl
    rfl
  · exact hrequest.elim
  · obtain ⟨⟨⟩, rfl⟩ := hwell _ reply rfl
    rfl
  · exact hrequest.elim

namespace Event

variable {σ : Type} {host : Host σ} {options : Options} {event : Event} {rule : Rule}
  {lead : Lead} {s : σ}

/-! ### What a dispatch asks of systems outside -/

theorem workflows_callsOnly (event : Event) :
    event.workflows.CallsOnly fun call => ¬ call.IsEffect := by
  unfold workflows
  split
  · exact .map _ (.store id)
  · exact .pure _

theorem opening_callsOnly (event : Event) :
    event.opening.CallsOnly fun call => ¬ call.IsEffect := by
  refine .bind (.store id) fun found => .bind (.orFail _ found) fun lead => ?_
  exact .bind (.map _ (.store id)) fun rules =>
    .bind event.workflows_callsOnly fun workflows => .pure _

/-- What a rule brings about in its turn: its actions are carried out if it matches, and nothing
else is asked. -/
theorem exists_carriedOut_of_takesPart {summary : Summary} {patch : LeadPatch} {s' : σ}
    (h : host.TakesPart options event lead s (.rule rule) summary patch s') :
    let result := rule.tryOn (RecordView.lookup ⟨some lead, event.payload⟩) options.emptyRulePolicy
    ∃ now calls applied final,
      CarriedOut now options.defaultRecipients event.payload result.actions
        (some lead) calls applied final ∧
      (∀ exchange ∈ calls, ∃ state, exchange.reply = (host.answer exchange.call state).1) ∧
      summary = {
        participant := .rule rule
        matched := result.matched
        actions := applied.outcomes
        error := applied.firstError? } ∧
      patch = applied.patch ∧
      Program.asked host.answer (applyRule options event.payload rule lead) s =
        calls.filterMap Exchange.asked? := by
  cases h with
  | unmatched fails =>
    refine ⟨.epoch, [], .empty, some lead, ?_, List.forall_mem_nil _, ?_, rfl, ?_⟩
    · rw [Rule.tryOn, if_neg (by simpa [Rule.tryOn] using fails)]
      exact .done
    · rw [fails]
      rfl
    · unfold applyRule
      dsimp only
      rw [fails]
      rfl
  | @matched _ applied final left acted _ holds acts stores =>
    have hruns :=
      Program.runs_transcript host.answer
        (applyActions (host.answer .stamp s).1.now options.defaultRecipients
      event.payload
        (rule.tryOn (RecordView.lookup ⟨some lead, event.payload⟩) options.emptyRulePolicy).actions
        (some lead)) (host.answer .stamp s).2
    rw [acts] at hruns
    refine ⟨_, _, applied, final, carriedOut_of_runs hruns, ?_, by rw [holds], rfl, ?_⟩
    · intro exchange hmem
      exact Program.exists_of_mem_transcript hmem
    · unfold applyRule
      dsimp only
      rw [holds]
      change Program.asked host.answer (applyActions _ _ _ _ _ >>= fun _ => _)
        (host.answer .stamp s).2 = _
      rw [Program.asked_bind acts]
      dsimp only
      rw [Program.asked_eq_nil (.bind (storeWrites_callsOnly (fun _ => id) (fun _ _ => id) _ _)
        fun _ => .pure _), List.append_nil]
      rfl

theorem exists_run_dispatch_rule (hcalm : host.IsCalm) (options : Options)
    (hstored : Store.find? Lead.id event.leadId (host.store s).leads = some lead)
    (honly : (host.store s).participants event.kind = [.rule rule]) :
    let result := rule.tryOn (RecordView.lookup ⟨some lead, event.payload⟩) options.emptyRulePolicy
    ∃ now calls applied final written s',
      CarriedOut now options.defaultRecipients event.payload result.actions
        (some lead) calls applied final ∧
      (∀ exchange ∈ calls, ∃ state, exchange.reply = (host.answer exchange.call state).1) ∧
      (event.dispatch options).run host.answer s = (.returned [{
        participant := .rule rule
        matched := result.matched
        actions := applied.outcomes
        error := applied.firstError? }], s') ∧
      Program.asked host.answer (event.dispatch options) s = calls.filterMap Exchange.asked? ∧
      Store.find? Lead.id event.leadId (host.store s').leads =
        some (applied.patch.applyTo written lead) := by
  have hid : lead.id = event.leadId := Store.id_of_find? hstored
  have hschedule :
    Participant.schedule ((host.store s).rulesFor event.kind)
      ((host.store s).workflowsFor event.kind) =
      [.rule rule] := by
    change Rule.byPriority Participant.priority ((host.store s).participants event.kind) = _
    rw [honly]
    exact List.mergeSort_singleton _
  obtain ⟨begun, hopening, hbegun⟩ := exists_run_opening hstored
  rw [hschedule] at hopening
  have hheld : Store.find? Lead.id event.leadId (host.store begun).leads = some lead := by
    rw [hbegun, hstored]
  obtain ⟨_, _, written, s', hrule, htakesPart, hs'⟩ :=
    exists_run_applyRule hcalm options rule hid hheld
  obtain ⟨now, calls, applied, final, hcarried, hreplies, rfl, rfl, hasked⟩ :=
    exists_carriedOut_of_takesPart htakesPart
  refine ⟨now, calls, applied, final, written, s', hcarried, hreplies, ?_, ?_,
    by rw [hs', Store.find?_written hheld]⟩
  · rw [dispatch_eq, Program.run_bind, hopening]
    change (applyRule options event.payload rule lead >>= fun _ => _).run host.answer begun = _
    rw [Program.run_bind, hrule]
    rfl
  · rw [dispatch_eq, Program.asked_bind hopening, Program.asked_eq_nil event.opening_callsOnly,
      List.nil_append, ← hasked]
    change Program.asked host.answer
      (applyRule options event.payload rule lead >>= fun _ => _) begun = _
    rw [Program.asked_bind hrule]
    exact List.append_nil _

end Event

theorem Rule.with_active {rule : Rule} (hactive : rule.active = true) :
    { rule with active := true } = rule := by
  rw [← hactive]

theorem Rule.tryAll_singleton {rule : Rule} (hactive : rule.active = true)
    (lookup : String → Option FieldValue) (policy : EmptyRulePolicy) :
    tryAll [rule] lookup policy .single = [rule.tryOn lookup policy] := by
  have horder : inOrder [rule] = [rule] := by
    rw [inOrder, List.filter_cons_of_pos hactive]
    exact List.mergeSort_singleton _
  rw [tryAll, horder, List.map_singleton, upToMatch]
  split <;> rfl

theorem Rule.exists_run_test_of_reply {σ : Type} {answer : (call : Call) → σ → call.Reply × σ}
    {ruleId : Uuid} {stored : Rule} {t : σ} (options : Options) (lead : Lead)
    (hreply : (answer (.store (.getRule ruleId)) t).1 = .ok (some stored)) :
    let result := Rule.tryOn { stored with active := true }
      (RecordView.lookup ⟨some lead, .null⟩) options.emptyRulePolicy
    ∃ now calls applied final t',
      CarriedOut now options.defaultRecipients .null result.actions
        (some lead) calls applied final ∧
      (∀ exchange ∈ calls, exchange.IsObliging) ∧
      (Rule.test options ruleId lead).run answer t =
        (.returned ⟨result, applied.outcomes, final.getD lead,
          .of (calls.filterMap Exchange.asked?)⟩, t') := by
  let stamped := answer .stamp (answer (.store (.getRule ruleId)) t).2
  let result := Rule.tryOn { stored with active := true }
    (RecordView.lookup ⟨some lead, .null⟩) options.emptyRulePolicy
  let program :=
    applyActions stamped.1.now options.defaultRecipients .null result.actions (some lead)
  obtain ⟨calls, outcome, ended, hruns, hobliging, hrehearsed⟩ :=
    Program.exists_runs_of_rehearse answer program stamped.2
  obtain ⟨applied, final, rfl⟩ :=
    applyActions_returns hruns fun exchange hmem => (hobliging exchange hmem).not_isBreakdown
  refine ⟨_, calls, applied, final, ended, carriedOut_of_runs hruns, hobliging, ?_⟩
  unfold Rule.test
  rw [Program.run_store_bind_ok hreply]
  change (program.rehearse >>= fun _ => _).run answer stamped.2 = _
  rw [Program.run_bind, hrehearsed]
  rfl

/-- A test of an active rule carries out its actions, if it matches, in a rehearsal. -/
theorem Rule.exists_run_test {σ : Type} {host : Host σ} {rule : Rule} {t : σ} (options : Options)
    (lead : Lead) (hrule : Store.find? Rule.id rule.id (host.store t).rules = some rule)
    (hactive : rule.active = true) :
    let result := rule.tryOn (RecordView.lookup ⟨some lead, .null⟩) options.emptyRulePolicy
    ∃ now calls applied final t',
      CarriedOut now options.defaultRecipients .null result.actions
        (some lead) calls applied final ∧
      (∀ exchange ∈ calls, exchange.IsObliging) ∧
      (Rule.test options rule.id lead).run host.answer t =
        (.returned ⟨result, applied.outcomes, final.getD lead,
          .of (calls.filterMap Exchange.asked?)⟩, t') := by
  have hreply : (host.answer (.store (.getRule rule.id)) t).1 = .ok (some rule) := by
    rw [host.answer_store]
    simp only [Store.answer, hrule]
  have htest := exists_run_test_of_reply options lead hreply
  rwa [with_active hactive] at htest

namespace Event

/-- If systems outside do what they are asked, a dispatch in which one rule takes part, with nothing
else to go by than the lead, brings about what a test of the rule on the lead shows, whenever the
two happen. -/
theorem dispatch_as_tested {σ : Type} {host : Host σ}
    (hwell : ∀ call s, ∃ result, (host.answer (.effect call) s).1 = .returned result)
    (options : Options) {event : Event} {rule : Rule} {lead : Lead} {s t : σ}
    (hsame : host.store t = host.store s)
    (hlead : Store.find? Lead.id event.leadId (host.store s).leads = some lead)
    (hrule : Store.find? Rule.id rule.id (host.store s).rules = some rule)
    (honly : (host.store s).participants event.kind = [.rule rule])
    (hpayload : event.payload = .null) :
    ∃ summary s' test t' stored,
      (event.dispatch options).run host.answer s = (.returned [summary], s') ∧
      (Rule.test options rule.id lead).run host.answer t = (.returned test, t') ∧
      Rule.tryAll [{ rule with active := true }] (RecordView.lookup ⟨some lead, .null⟩)
        options.emptyRulePolicy .single =
        [test.result] ∧
      summary.participant = .rule rule ∧ summary.matched = test.result.matched ∧
        summary.actions = test.actions ∧
      Intents.of (Program.asked host.answer (event.dispatch options) s) = test.intents ∧
      Store.find? Lead.id event.leadId (host.store s').leads = some stored ∧
        stored.untimed = test.lead.untimed := by
  have hcalm : host.IsCalm := by
    intro call s text hcrash
    obtain ⟨result, hresult⟩ := hwell call s
    rw [hresult] at hcrash
    cases hcrash
  have hactive : rule.active = true := by
    have hmem : Participant.rule rule ∈ (host.store s).participants event.kind := by
      rw [honly]; exact List.mem_singleton_self _
    simp only [Store.participants, Store.rulesFor, List.mem_append, List.mem_map] at hmem
    obtain ⟨_, hfilter, ⟨⟩⟩ | ⟨_, _, ⟨⟩⟩ := hmem
    have hpasses := (List.mem_filter.1 hfilter).2
    rw [Bool.and_eq_true] at hpasses
    exact hpasses.1
  obtain ⟨now, calls, applied, final, written, s', hcarried, hreplies, hdispatch,
      hasked, hstored⟩ :=
    exists_run_dispatch_rule hcalm options hlead honly
  rw [hpayload] at hcarried hdispatch
  rw [← hsame] at hrule
  obtain ⟨later, calls', applied', final', t', htested, hobliging', htest⟩ :=
    Rule.exists_run_test options lead hrule hactive
  -- Requests are answered with no more than that they went well, so whoever does what it is asked
  -- obliges.
  have hobliging : ∀ exchange ∈ calls, exchange.IsObliging := by
    intro exchange hmem
    apply Exchange.isObliging_of_isRequest (hcarried.isRequest exchange hmem)
    rintro call reply rfl
    obtain ⟨state, hreply⟩ := hreplies _ hmem
    obtain ⟨result, hresult⟩ := hwell call state
    exact ⟨result, hreply.trans hresult⟩
  obtain ⟨rfl, rfl, hfinal⟩ := hcarried.unique htested rfl hobliging hobliging'
  refine ⟨_, s', _, t', _, hdispatch, htest, ?_, rfl, rfl, rfl, by rw [hasked], hstored, ?_⟩
  · rw [Rule.with_active hactive]
    exact Rule.tryAll_singleton hactive _ _
  · have hleft := htested.map_untimed_final
    cases final' with
    | none => cases hleft
    | some left => rw [LeadPatch.untimed_applyTo, Option.getD_some, ← Option.some.inj hleft]

/-- A rule that scores raw leads, tells sales the score, and asks for more data. -/
def announce : Rule :=
  { Rule.blank Program.stillFresh "Announce" .scoring 50 with
    conditions := [.statusIs .raw]
    actions := [
      .setScore (.ofNat false 70),
      .notify "scored \x7b\x7bscore\x7d\x7d" ["sales"],
      .enrich "clearbit"] }

/-- A lead beside the rule. -/
def announceStore : Store := { leads := [Lead.blank Program.stillFresh], rules := [announce] }

/-- The event that sets off the rule. -/
def announceEvent : Event := ⟨.leadCreated, (Lead.blank Program.stillFresh).id, .null, .epoch⟩

/-- What the rule asks for. -/
def announceIntents : Intents where
  notifications :=
    [⟨"Lead automation notification", "scored 70", ["sales"], some announceEvent.leadId⟩]
  enrichments := [⟨announceEvent.leadId, "clearbit", []⟩]

theorem dispatch_as_tested_announce :
    let lead := Lead.blank Program.stillFresh
    (∀ (call : EffectCall) (s : Store), ∃ result,
      (Host.still.answer (.effect call) s).1 = .returned result) ∧
    Store.find? Lead.id announceEvent.leadId announceStore.leads = some lead ∧
    Store.find? Rule.id announce.id announceStore.rules = some announce ∧
    announceStore.participants announceEvent.kind = [.rule announce] ∧
    announceEvent.payload = .null ∧
    ∃ summary s' test t' stored,
      (announceEvent.dispatch {}).run Host.still.answer announceStore =
        (.returned [summary], s') ∧
      (Rule.test {} announce.id lead).run Host.still.answer announceStore = (.returned test, t') ∧
      Rule.tryAll [{ announce with active := true }] (RecordView.lookup ⟨some lead, .null⟩)
        .matchAll .single = [test.result] ∧
      summary.participant = .rule announce ∧ summary.matched = test.result.matched ∧
      summary.actions = test.actions ∧
      Intents.of (Program.asked Host.still.answer (announceEvent.dispatch {}) announceStore) =
        test.intents ∧
      Store.find? Lead.id announceEvent.leadId s'.leads = some stored ∧
      stored.untimed = test.lead.untimed ∧
      test.intents = announceIntents ∧ stored.score = 70 := by
  have hwell : ∀ (call : EffectCall) (s : Store), ∃ result,
      (Host.still.answer (.effect call) s).1 = .returned result := fun call s => ⟨_, rfl⟩
  have hintents :
      Intents.of (Program.asked Host.still.answer (announceEvent.dispatch {}) announceStore) =
        announceIntents := by decide +kernel
  have hscore : (Store.find? Lead.id announceEvent.leadId
      ((announceEvent.dispatch {}).run Host.still.answer announceStore).2.leads).map Lead.score =
        some 70 := by decide +kernel
  obtain ⟨summary, s', test, t', stored, hdispatch, htest, htried, hparticipant, hmatched, hactions,
    hasked, hstored, hleft⟩ :=
    dispatch_as_tested (s := announceStore) (t := announceStore) hwell {} rfl
      (rfl : Store.find? Lead.id announceEvent.leadId announceStore.leads = some (.blank _))
      (rfl : Store.find? Rule.id announce.id announceStore.rules = some announce) rfl rfl
  rw [hdispatch] at hscore
  exact ⟨hwell, rfl, rfl, rfl, rfl, summary, s', test, t', stored, hdispatch, htest, htried,
    hparticipant, hmatched, hactions, hasked, hstored, hleft, hasked.symm.trans hintents,
    Option.some.inj ((congrArg (Option.map Lead.score) hstored).symm.trans hscore)⟩

end Event

end LeadAutomation
