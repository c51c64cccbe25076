import LeadAutomation.Proofs.LastWrites
import LeadAutomation.Proofs.Trials

/-!
# Two runs abreast

Two hosts may differ in their clocks, in what they have stored beside their leads and in the times
of these leads, and still take the same work to the same end. Their states are level while systems
outside were asked the same on both sides and each lead is stored on both, up to the time of its
last change. Runs that start level are abreast if they end alike and leave the hosts level, and
programs that come one after another are abreast if their parts are: `Abreast.bind`.

Systems outside reply on both sides in one manner. So a program that only talks to them does the
same on both, `abreast_of_isEffect`, and the turns of participants are abreast, call by call:
`abreast_applyAll`.
-/

namespace LeadAutomation

/-- A summary without what the clock gave the execution in it. -/
def Summary.untimed (summary : Summary) : Summary :=
  { summary with execution := summary.execution.map Execution.untimed }

/-- Two programs ended in one way; what they returned, if they did, is related. -/
inductive Outcome.Alike {α β : Type} (same : α → β → Prop) : Outcome α → Outcome β → Prop
  | returned {a : α} {b : β} (h : same a b) : Alike same (.returned a) (.returned b)
  | failed (error : AutomationError) : Alike same (.failed error) (.failed error)
  | crashed (text : Option String) : Alike same (.crashed text) (.crashed text)

theorem Outcome.Alike.refl {α : Type} (outcome : Outcome α) : outcome.Alike (· = ·) outcome := by
  cases outcome with
  | returned a => exact .returned rfl
  | failed error => exact .failed error
  | crashed text => exact .crashed text

theorem Outcome.Alike.map_eq {α β γ : Type} {f : α → γ} {g : β → γ} {ended : Outcome α}
    {other : Outcome β} (h : ended.Alike (fun a b => f a = g b) other) :
    ended.map f = other.map g := by
  cases h with
  | returned h => exact congrArg Outcome.returned h
  | failed error => rfl
  | crashed text => rfl

theorem Manner.Governs.told_run {α σ : Type} {manner : Manner} {told : σ → List EffectCall}
    {answer : (call : Call) → σ → call.Reply × σ} (h : manner.Governs told answer) (p : Program α)
    (s : σ) :
    told (p.run answer s).2 = told s ++ p.asked answer s := by
  induction p generalizing s with
  | done outcome => exact (List.append_nil _).symm
  | ask call next ih =>
    have hrest := ih (answer call s).1 (answer call s).2
    cases call with
    | store call => rwa [h.store] at hrest
    | effect call =>
      rw [h.effect, List.append_assoc] at hrest
      exact hrest
    | stamp => rwa [h.stamp] at hrest

/-- A host on which systems outside reply in a manner. -/
structure PoliteHost (manner : Manner) (σ : Type) extends Host σ where
  /-- What was asked of systems outside so far. -/
  told : σ → List EffectCall
  governs : manner.Governs told answer

/-- Two runs ended alike and left level states. -/
structure Abreast {α β σ τ : Type} (level : σ → τ → Prop) (same : α → β → Prop)
    (mine : Outcome α × σ)
    (theirs : Outcome β × τ) : Prop where
  ended : mine.1.Alike same theirs.1
  left : level mine.2 theirs.2

namespace Abreast

variable {α β γ δ σ τ : Type} {level : σ → τ → Prop} {same : α → β → Prop}
  {answer : (call : Call) → σ → call.Reply × σ}
  {answer' : (call : Call) → τ → call.Reply × τ} {s : σ} {t : τ}

theorem pure {a : α} {b : β} (hsame : same a b) (hlevel : level s t) :
    Abreast level same ((Pure.pure a : Program α).run answer s)
      ((Pure.pure b : Program β).run answer' t) :=
  ⟨.returned hsame, hlevel⟩

theorem bind_of_run {after : γ → δ → Prop} {p : Program α} {q : Program β} {f : α → Program γ}
    {g : β → Program δ} (h : Abreast level same (p.run answer s) (q.run answer' t))
    (hnext : ∀ a b s' t', p.run answer s = (.returned a, s') → q.run answer' t = (.returned b, t') →
      same a b → level s' t' → Abreast level after ((f a).run answer s') ((g b).run answer' t')) :
    Abreast level after ((p >>= f).run answer s) ((q >>= g).run answer' t) := by
  rw [Program.run_bind, Program.run_bind]
  obtain ⟨hended, hleft⟩ := h
  rcases hp : p.run answer s with ⟨ended, s'⟩
  rcases hq : q.run answer' t with ⟨other, t'⟩
  rw [hp, hq] at hended hleft
  cases hended with
  | returned hsame => exact hnext _ _ _ _ hp hq hsame hleft
  | failed error => exact ⟨.failed error, hleft⟩
  | crashed text => exact ⟨.crashed text, hleft⟩

theorem bind {after : γ → δ → Prop} {p : Program α} {q : Program β} {f : α → Program γ}
    {g : β → Program δ} (h : Abreast level same (p.run answer s) (q.run answer' t))
    (hnext : ∀ a b s' t', same a b → level s' t' →
      Abreast level after ((f a).run answer s') ((g b).run answer' t')) :
    Abreast level after ((p >>= f).run answer s) ((q >>= g).run answer' t) :=
  h.bind_of_run fun a b s' t' _ _ => hnext a b s' t'

end Abreast

section Level

variable {manner : Manner} {σ τ : Type}

/-- Systems outside were asked the same on both hosts, and both have the same leads, up to the times
of their last changes. -/
structure Level (host : PoliteHost manner σ) (other : PoliteHost manner τ) (s : σ)
    (t : τ) : Prop where
  told : host.told s = other.told t
  leads (id : Uuid) : (host.lead? id s).map Lead.untimed = (other.lead? id t).map Lead.untimed

variable {host : PoliteHost manner σ} {other : PoliteHost manner τ} {s : σ} {t : τ}

/-- Up to the time of its last change, a call makes of a lead what its patch makes of it, if it has
one. -/
theorem Host.untimed_lead?_answer (host : Host σ) (id : Uuid) {call : Call}
    (hsaves : ∀ lead, call ≠ .store (.saveLead lead)) (s : σ) :
    (host.lead? id (host.answer call s).2).map Lead.untimed =
      ((host.lead? id s).map Lead.untimed).map
        (LeadPatch.mergeAll
          ((Exchange.mk call (host.answer call s).1).patchOn? id).toList).overlay := by
  rw [host.lead?_answer id hsaves, Option.map_map, Option.map_map]
  refine congrArg (Option.map · _) (funext fun lead => ?_)
  rw [Function.comp_apply, Lead.untimed_patched, List.map_map]
  exact congrArg (fun patches => (LeadPatch.mergeAll patches).overlay lead.untimed) (List.map_id _)

/-- Calls that patch the same leave hosts level. -/
theorem Level.store (h : Level host other s t) (call call' : StoreCall)
    (hsaves : ∀ lead, call ≠ .saveLead lead) (hsaves' : ∀ lead, call' ≠ .saveLead lead)
    (hpatches : ∀ id reply reply', (Exchange.mk (.store call) reply).patchOn? id =
      (Exchange.mk (.store call') reply').patchOn? id) :
    Level host other (host.answer (.store call) s).2 (other.answer (.store call') t).2 where
  told := by rw [host.governs.store, other.governs.store, h.told]
  leads id := by
    rw [host.untimed_lead?_answer id fun lead heq => hsaves lead (Call.store.inj heq),
      other.untimed_lead?_answer id fun lead heq => hsaves' lead (Call.store.inj heq),
      h.leads, hpatches]

theorem Level.effect (h : Level host other s t) (call : EffectCall) :
    Level host other (host.answer (.effect call) s).2 (other.answer (.effect call) t).2 where
  told := by rw [host.governs.effect, other.governs.effect, h.told]
  leads id := by
    rw [Host.lead?, host.store_effect, Host.lead?, other.store_effect, ← Host.lead?,
      ← Host.lead?, h.leads]

theorem Level.stamp (h : Level host other s t) :
    Level host other (host.answer .stamp s).2 (other.answer .stamp t).2 where
  told := by rw [host.governs.stamp, other.governs.stamp, h.told]
  leads id := by
    rw [Host.lead?, host.store_stamp, Host.lead?, other.store_stamp, ← Host.lead?,
      ← Host.lead?, h.leads]

/-! ### Calls one at a time -/

theorem abreast_stamp (h : Level host other s t) :
    Abreast (Level host other) (fun _ _ => True) (Program.stamp.run host.answer s)
      (Program.stamp.run other.answer t) :=
  ⟨.returned trivial, h.stamp⟩

theorem abreast_getLead (h : Level host other s t) (id : Uuid) :
    Abreast (Level host other)
      (fun found found' => found.map Lead.untimed = found'.map Lead.untimed)
      ((Program.store (.getLead id)).run host.answer s)
      ((Program.store (.getLead id)).run other.answer t) := by
  rw [host.run_store_ok rfl, other.run_store_ok rfl]
  exact ⟨.returned (h.leads id),
    h.store (.getLead id) (.getLead id) (by rintro _ ⟨⟩) (by rintro _ ⟨⟩) fun _ _ _ => rfl⟩

theorem abreast_orFail {found found' : Option Lead}
    (hfound : found.map Lead.untimed = found'.map Lead.untimed) (h : Level host other s t)
    (error : AutomationError) :
    Abreast (Level host other) (fun lead lead' => lead.untimed = lead'.untimed)
      ((Program.orFail error found).run host.answer s)
      ((Program.orFail error found').run other.answer t) := by
  cases found with
  | none =>
    obtain rfl : found' = none := Option.map_eq_none_iff.1 hfound.symm
    exact ⟨.failed error, h⟩
  | some lead =>
    obtain ⟨lead', rfl, hlead⟩ := Option.map_eq_some_iff.1 hfound.symm
    exact .pure hlead.symm h

theorem Host.run_applyPatch (host : Host σ) (id : Uuid) (patch : LeadPatch) (s : σ) :
    (Program.store (.applyPatch id patch)).run host.answer s =
      ((host.lead? id s).elim (.failed (.leadNotFound id)) fun lead =>
        .returned (patch.applyTo (host.time s) lead),
        (host.answer (.store (.applyPatch id patch)) s).2) := by
  unfold Host.lead?
  cases hstored : Store.find? Lead.id id (host.store s).leads with
  | none =>
    rw [host.run_store_error (by simp only [Store.answer, hstored]; rfl)]
    rfl
  | some lead =>
    rw [host.run_store_ok (by simp only [Store.answer, hstored]; rfl)]
    rfl

theorem abreast_applyPatch (h : Level host other s t) (id : Uuid) (patch : LeadPatch) :
    Abreast (Level host other) (fun lead lead' => lead.untimed = lead'.untimed)
      ((Program.store (.applyPatch id patch)).run host.answer s)
      ((Program.store (.applyPatch id patch)).run other.answer t) := by
  rw [host.run_applyPatch, other.run_applyPatch]
  refine ⟨?_, h.store (.applyPatch id patch) (.applyPatch id patch) (by rintro _ ⟨⟩)
    (by rintro _ ⟨⟩) fun _ _ _ => rfl⟩
  have hleads := h.leads id
  cases hlead : host.lead? id s with
  | none =>
    rw [hlead, eq_comm, Option.map_none, Option.map_eq_none_iff] at hleads
    rw [hleads]
    exact .failed _
  | some lead =>
    rw [hlead, eq_comm, Option.map_some, Option.map_eq_some_iff] at hleads
    obtain ⟨lead', hlead', huntimed⟩ := hleads
    rw [hlead']
    exact .returned (by rw [LeadPatch.untimed_applyTo, LeadPatch.untimed_applyTo, huntimed])

theorem abreast_of_isEffect {α : Type} {p : Program α} (hp : p.CallsOnly Call.IsEffect)
    (h : Level host other s t) :
    Abreast (Level host other) (· = ·) (p.run host.answer s) (p.run other.answer t) := by
  induction p generalizing s t with
  | done outcome => exact ⟨.refl outcome, h⟩
  | ask call next ih =>
    cases call with
    | store call => exact hp.1.elim
    | stamp => exact hp.1.elim
    | effect call =>
      have hreply : (host.answer (.effect call) s).1 = (other.answer (.effect call) t).1 := by
        rw [host.governs.reply, other.governs.reply, h.told]
      change Abreast _ _ ((next (host.answer (.effect call) s).1).run host.answer _)
        ((next (other.answer (.effect call) t).1).run other.answer _)
      rw [hreply]
      exact ih _ (hp.2 _) (h.effect call)

/-! ### Rules -/

theorem id_eq_of_untimed {lead lead' : Lead} (h : lead.untimed = lead'.untimed) :
    lead.id = lead'.id :=
  (congrArg Lead.id h :)

/-- What became of participants, up to times and generated identifiers, with the leads that they
left. -/
def AlikeAfter (left right : Summary × Lead) : Prop :=
  left.1.untimed = right.1.untimed ∧ left.2.untimed = right.2.untimed

/-- Actions on leads that differ by the times of their last changes come to the same at any time. -/
theorem abreast_applyActions {lead lead' : Option Lead}
    (hlead : lead.map Lead.untimed = lead'.map Lead.untimed) (h : Level host other s t)
    (now later : Timestamp) (defaults : List String) (payload : Json) (actions : List Action) :
    Abreast (Level host other) (fun acted acted' => acted.1 = acted'.1)
      ((applyActions now defaults payload actions lead).run host.answer s)
      ((applyActions later defaults payload actions lead').run other.answer t) := by
  induction actions generalizing lead lead' s t with
  | nil => exact .pure rfl h
  | cons action rest ih =>
    have hplan : action.plan ⟨lead, payload⟩ defaults = action.plan ⟨lead', payload⟩ defaults :=
      Action.plan_congr (congrArg (RecordView.mk · payload) hlead)
    unfold applyActions
    dsimp only
    rw [hplan]
    refine .bind
      (abreast_of_isEffect
        (ActionPlan.carryOut_callsOnly (fun _ => trivial) (fun _ => trivial) _ _) h) ?_
    rintro outcome _ s t rfl h
    refine .bind (ih ?_ h) ?_
    · rw [LeadPatch.map_untimed_applyTo, LeadPatch.map_untimed_applyTo, hlead]
    · rintro ⟨applied, final⟩ ⟨_, final'⟩ s t rfl h
      exact .pure rfl h

theorem abreast_storeWrites (h : Level host other s t) (leadId : Uuid) (patch : LeadPatch) :
    Abreast (Level host other) (fun lead lead' => lead.untimed = lead'.untimed)
      ((Event.storeWrites leadId patch).run host.answer s)
      ((Event.storeWrites leadId patch).run other.answer t) := by
  unfold Event.storeWrites
  split
  · exact .bind (abreast_getLead h leadId) fun found found' s t hfound h =>
      abreast_orFail hfound h _
  · exact abreast_applyPatch h leadId patch

theorem abreast_applyRule (h : Level host other s t) (options : Options) (payload : Json)
    (rule : Rule) {lead lead' : Lead} (hlead : lead.untimed = lead'.untimed) :
    Abreast (Level host other) AlikeAfter
      ((Event.applyRule options payload rule lead).run host.answer s)
      ((Event.applyRule options payload rule lead').run other.answer t) := by
  have hsome : (some lead).map Lead.untimed = (some lead').map Lead.untimed := congrArg some hlead
  have hview : RecordView.untimed ⟨some lead, payload⟩ = RecordView.untimed ⟨some lead', payload⟩ :=
    congrArg (RecordView.mk · payload) hsome
  have hlookup :
      RecordView.lookup ⟨some lead, payload⟩ = RecordView.lookup ⟨some lead', payload⟩ := by
    rw [← RecordView.lookup_untimed, hview, RecordView.lookup_untimed]
  have hid : lead.id = lead'.id := id_eq_of_untimed hlead
  unfold Event.applyRule
  dsimp only
  rw [hlookup]
  split
  · refine .bind (abreast_stamp h) fun fresh fresh' s t _ h => ?_
    refine .bind (abreast_applyActions hsome h _ _ _ _ _) ?_
    rintro ⟨applied, final⟩ ⟨_, final'⟩ s t rfl h
    rw [hid]
    exact .bind (abreast_storeWrites h _ _) fun left left' s t hleft h => .pure ⟨rfl, hleft⟩ h
  · exact .pure ⟨rfl, hlead⟩ h

/-! ### Workflows -/

theorem abreast_run (h : Level host other s t) (options : Options) (workflow : Workflow)
    (leadId : Option Uuid) (event : EventKind) (payload : Json) {lead lead' : Option Lead}
    (hlead : lead.map Lead.untimed = lead'.map Lead.untimed) (fresh later : Fresh) :
    let record (fresh : Fresh) := Execution.start fresh workflow leadId (some event) payload []
    Abreast (Level host other) (fun ran ran' => ran.1.untimed = ran'.1.untimed ∧
      ran.2.patch = ran'.2.patch)
      ((workflow.run options (record fresh) lead).run host.answer s)
      ((workflow.run options (record later) lead').run other.answer t) := by
  intro record
  have hrunning (fresh : Fresh) : (record fresh).status = .running := rfl
  have hoffline (fresh : Fresh) (lead : Option Lead) :=
    Workflow.run_isOffline options workflow (record fresh) lead
  have hexplains := host.governs.explains_transcript (workflow.run options (record fresh) lead) s
  have hexplains' := other.governs.explains_transcript (workflow.run options (record later) lead') t
  have htold := host.governs.told_run (workflow.run options (record fresh) lead) s
  have htold' := other.governs.told_run (workflow.run options (record later) lead') t
  obtain ⟨turns, final, ending, hcourse, hcalls, hended⟩ :=
    Workflow.exists_course_of_runs_run (hrunning fresh)
    (Program.runs_transcript host.answer (workflow.run options (record fresh) lead) s)
  obtain ⟨others, left, ending', hcourse', hcalls', hended'⟩ :=
    Workflow.exists_course_of_runs_run (hrunning later)
    (Program.runs_transcript other.answer (workflow.run options (record later) lead') t)
  rw [hcalls, Manner.explains_append] at hexplains
  rw [hcalls', ← h.told, Manner.explains_append] at hexplains'
  obtain ⟨halike, -⟩ := hcourse.alike_of_explains hcourse' hlead hexplains.1 hexplains'.1
  have hrecords : (record fresh).TellsAs (record later) := ⟨rfl, rfl, rfl, rfl, rfl⟩
  have hpatches : turns.map Turn.patch = others.map Turn.patch :=
    Turn.map_congr (fun _ _ alike => alike.patch) halike
  refine ⟨?_, ?_, ?_⟩
  · rw [hended, hended']
    exact .returned ⟨(Turn.tellsAs_concluded halike hrecords _ _).untimed_eq rfl rfl rfl rfl,
      by rw [hpatches]⟩
  · rw [htold, htold', Program.asked, Program.asked, hcalls, hcalls', h.told, List.filterMap_append,
      List.filterMap_append, Turn.asked_congr halike]
    rfl
  · intro id
    rw [Host.lead?, host.store_run_of_isOffline (hoffline fresh lead), Host.lead?,
      other.store_run_of_isOffline (hoffline later lead'), ← Host.lead?, ← Host.lead?, h.leads]

theorem abreast_write (h : Level host other s t) (leadId : Uuid) (patch : LeadPatch) :
    Abreast (Level host other) (fun _ _ => True)
      ((Workflow.write (some leadId) patch).run host.answer s)
      ((Workflow.write (some leadId) patch).run other.answer t) := by
  unfold Workflow.write
  dsimp only
  split
  · exact .pure trivial h
  · exact .bind (abreast_applyPatch h leadId patch) fun _ _ s t _ h => .pure trivial h

theorem abreast_launch (h : Level host other s t) (options : Options) (workflow : Workflow)
    (event : EventKind) (payload : Json) {lead lead' : Lead}
    (hlead : lead.untimed = lead'.untimed) :
    Abreast (Level host other) (fun record record' => record.untimed = record'.untimed)
      ((workflow.launch options (some lead) event payload).run host.answer s)
      ((workflow.launch options (some lead') event payload).run other.answer t) := by
  have hsome : (some lead).map Lead.untimed = (some lead').map Lead.untimed := congrArg some hlead
  rw [Workflow.launch_eq, Workflow.launch_eq, Option.map_some, Option.map_some,
    id_eq_of_untimed hlead]
  refine .bind (abreast_stamp h) fun fresh fresh' s t _ h => ?_
  dsimp only
  let record (fresh : Fresh) :=
    Execution.start fresh workflow (some lead'.id) (some event) payload []
  have hbegun : Level host other (host.answer (.store (.createExecution (record fresh))) s).2
      (other.answer (.store (.createExecution (record fresh'))) t).2 :=
    h.store _ _ (by rintro _ ⟨⟩) (by rintro _ ⟨⟩) fun _ _ _ => rfl
  rw [host.run_store_bind rfl, other.run_store_bind rfl]
  refine (abreast_run hbegun options workflow (some lead'.id) event payload hsome fresh
    fresh').bind_of_run ?_
  rintro ⟨ended, report⟩ ⟨ended', report'⟩ s' t' hrun hrun' ⟨hended, hpatch⟩ h
  -- Both records are found again, so both are updated, and the patches that are written are the
  -- same.
  have hupdated : ((host.store s').answer (host.time s') (.updateExecution ended)).1 = .ok () := by
    simp only [Store.answer, Workflow.find?_executions_of_run host.toHost rfl hrun]
  have hupdated' :
      ((other.store t').answer (other.time t') (.updateExecution ended')).1 = .ok () := by
    simp only [Store.answer, Workflow.find?_executions_of_run other.toHost rfl hrun']
  have hlevel :=
    h.store (.updateExecution ended) (.updateExecution ended') (by rintro _ ⟨⟩) (by rintro _ ⟨⟩)
    fun _ _ _ => rfl
  unfold Workflow.keep
  dsimp only at hpatch ⊢
  rw [hpatch, host.run_store_bind hupdated, other.run_store_bind hupdated']
  exact .bind (abreast_write hlevel lead'.id report'.patch) fun _ _ s t _ h => .pure hended h

theorem abreast_applyWorkflow (h : Level host other s t) (options : Options) (event : Event)
    (workflow : Workflow) {lead lead' : Lead} (hlead : lead.untimed = lead'.untimed) :
    Abreast (Level host other) AlikeAfter
      ((event.applyWorkflow options workflow lead).run host.answer s)
      ((event.applyWorkflow options workflow lead').run other.answer t) := by
  unfold Event.applyWorkflow
  rw [id_eq_of_untimed hlead]
  refine .bind (abreast_launch h options workflow event.kind event.payload hlead)
    fun record record' s t hrecord h => ?_
  refine .bind (abreast_getLead h lead'.id) fun found found' s t hfound h => ?_
  refine .bind (abreast_orFail hfound h _) fun left left' s t hleft h => .pure ⟨?_, hleft⟩ h
  have herror : record.errorMessage = record'.errorMessage :=
    (congrArg Execution.errorMessage hrecord :)
  simp only [Summary.untimed, Option.map_some, hrecord, herror]

/-! ### Participants in turn -/

theorem abreast_apply (h : Level host other s t) (options : Options) (event : Event)
    (participant : Participant) {lead lead' : Lead} (hlead : lead.untimed = lead'.untimed) :
    Abreast (Level host other) AlikeAfter ((event.apply options lead participant).run host.answer s)
      ((event.apply options lead' participant).run other.answer t) := by
  cases participant with
  | rule rule => exact abreast_applyRule h options event.payload rule hlead
  | workflow workflow => exact abreast_applyWorkflow h options event workflow hlead

theorem abreast_applyAll (h : Level host other s t) (options : Options) (event : Event)
    (participants : List Participant) {lead lead' : Lead} (hlead : lead.untimed = lead'.untimed) :
    Abreast (Level host other) (fun summaries summaries' => summaries.map Summary.untimed =
      summaries'.map Summary.untimed)
      ((event.applyAll options participants lead).run host.answer s)
      ((event.applyAll options participants lead').run other.answer t) := by
  induction participants generalizing lead lead' s t with
  | nil => exact .pure rfl h
  | cons participant rest ih =>
    refine .bind (abreast_apply h options event participant hlead) ?_
    rintro ⟨summary, left⟩ ⟨summary', left'⟩ s t ⟨hsummary, hleft⟩ h
    refine .bind (ih h hleft) fun summaries summaries' s t hsummaries h => .pure ?_ h
    exact congrArg₂ List.cons hsummary hsummaries

end Level

end LeadAutomation
