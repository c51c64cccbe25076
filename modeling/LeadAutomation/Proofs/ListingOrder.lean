import LeadAutomation.Proofs.Lockstep

/-!
# The order of listing

Stores list rules and workflows in an order of their own, and a dispatch sorts what is listed. Where
no two rules that take part in an event share a priority, and no two workflows, the schedule is the
same in whichever order they were listed: `Participant.schedule_of_perm`. A rule may tie with a
workflow, since rules are put before workflows in any case.

From one schedule on two hosts are in lockstep, so a dispatch comes to the same on both, up to times
and generated identifiers: `Event.dispatch_reordered`.
-/

namespace LeadAutomation

/-- Two stores hold the same rules, workflows and leads; they may list them in different orders. -/
structure Store.Reorders (store other : Store) : Prop where
  rules : store.rules.Perm other.rules
  workflows : store.workflows.Perm other.workflows
  leads (id : Uuid) : find? Lead.id id store.leads = find? Lead.id id other.leads

/-- Only ties among rules, or among workflows, leave anything to the order of listing: a rule always
comes before a workflow of its priority. -/
theorem Participant.schedule_of_perm {rules rules' : List Rule}
    {workflows workflows' : List Workflow} (hrules : rules.Perm rules')
    (hworkflows : workflows.Perm workflows') (hruleTies : (rules.map Rule.priority).Nodup)
    (hworkflowTies : (workflows.map Workflow.priority).Nodup) :
    schedule rules workflows = schedule rules' workflows' := by
  refine Rule.byPriority_congr fun k => ?_
  rw [List.filter_append, List.filter_append, List.filter_map, List.filter_map, List.filter_map,
    List.filter_map]
  exact congrArg₂ (· ++ ·) (congrArg (List.map rule) (filter_key_of_perm hrules hruleTies k))
    (congrArg (List.map workflow) (filter_key_of_perm hworkflows hworkflowTies k))

section Reordered

variable {manner : Manner} {σ τ : Type} {host : PoliteHost manner σ} {other : PoliteHost manner τ}
  {event : Event} {s : σ} {t : τ}

namespace Event

theorem run_opening_none {host : Host σ} (hmissing : host.lead? event.leadId s = none) :
    event.opening.run host.answer s =
      (.failed (.leadNotFound event.leadId),
        (host.answer (.store (.getLead event.leadId)) s).2) := by
  have hread : ((host.store s).answer (host.time s) (.getLead event.leadId)).1 = .ok none := by
    rw [Host.lead?] at hmissing
    simp only [Store.answer, hmissing]
  unfold opening
  rw [host.run_store_bind hread]
  rfl

theorem told_run_opening (host : PoliteHost manner σ) (event : Event) (s : σ) :
    host.told (event.opening.run host.answer s).2 = host.told s := by
  rw [host.governs.told_run, Program.asked_eq_nil event.opening_callsOnly, List.append_nil]

/-- What is read at first is the same on both hosts, in whichever order rules and workflows are
listed. -/
theorem abreast_opening (h : Level host other s t)
    (hreorders : (host.store s).Reorders (other.store t))
    (hrules : (((host.store s).rulesFor event.kind).map Rule.priority).Nodup)
    (hworkflows : (((host.store s).workflowsFor event.kind).map Workflow.priority).Nodup) :
    Abreast (Level host other) (fun opened opened' => opened.1.untimed = opened'.1.untimed ∧
      opened.2 = opened'.2)
      (event.opening.run host.answer s) (event.opening.run other.answer t) := by
  have hsame : host.lead? event.leadId s = other.lead? event.leadId t :=
    hreorders.leads event.leadId
  cases hlead : host.lead? event.leadId s with
  | none =>
    rw [run_opening_none hlead, run_opening_none (hsame.symm.trans hlead)]
    exact ⟨.failed _, h.store _ _ (by rintro _ ⟨⟩) (by rintro _ ⟨⟩) fun _ _ _ => rfl⟩
  | some lead =>
    have htold := told_run_opening host event s
    have htold' := told_run_opening other event t
    obtain ⟨begun, hrun, hbegun⟩ := exists_run_opening hlead
    obtain ⟨begun', hrun', hbegun'⟩ := exists_run_opening (hsame.symm.trans hlead)
    rw [hrun] at htold ⊢
    rw [hrun'] at htold' ⊢
    refine ⟨.returned ⟨rfl, ?_⟩, ?_, fun id => ?_⟩
    · exact Participant.schedule_of_perm (hreorders.rules.filter _)
        (hreorders.workflows.filter _) hrules hworkflows
    · rw [htold, htold', h.told]
    · rw [Host.lead?, hbegun, Host.lead?, hbegun', ← Host.lead?, ← Host.lead?, h.leads]

/-- A dispatch does not depend on the order in which a store lists its rules and workflows, if no
two rules that take part share a priority and no two workflows do: two hosts that hold the same, and
on which systems outside reply in one manner, give the same summaries, ask systems outside for the
same and leave each lead the same, up to times and generated identifiers. -/
theorem dispatch_reordered (host : PoliteHost manner σ) (other : PoliteHost manner τ)
    (options : Options) (event : Event) (htold : host.told s = other.told t)
    (hreorders : (host.store s).Reorders (other.store t))
    (hrules : (((host.store s).rulesFor event.kind).map Rule.priority).Nodup)
    (hworkflows : (((host.store s).workflowsFor event.kind).map Workflow.priority).Nodup) :
    let mine := (event.dispatch options).run host.answer s
    let theirs := (event.dispatch options).run other.answer t
    mine.1.map (List.map Summary.untimed) = theirs.1.map (List.map Summary.untimed) ∧
    (event.dispatch options).asked host.answer s = (event.dispatch options).asked other.answer t ∧
    ∀ id, (host.lead? id mine.2).map Lead.untimed = (other.lead? id theirs.2).map Lead.untimed := by
  intro mine theirs
  have hlevel : Level host other s t :=
    ⟨htold, fun id => congrArg (Option.map Lead.untimed) (hreorders.leads id)⟩
  have habreast : Abreast (Level host other)
      (fun summaries summaries' => summaries.map Summary.untimed = summaries'.map Summary.untimed)
        mine theirs := by
    unfold mine theirs
    rw [dispatch_eq]
    refine (abreast_opening hlevel hreorders hrules hworkflows).bind ?_
    rintro ⟨lead, participants⟩ ⟨lead', _⟩ s t ⟨hlead, rfl⟩ h
    exact abreast_applyAll h options event participants hlead
  refine ⟨habreast.ended.map_eq, ?_, habreast.left.leads⟩
  have hasked := habreast.left.told
  rw [host.governs.told_run, other.governs.told_run, htold] at hasked
  exact List.append_cancel_left hasked

end Event

end Reordered

/-- A store in memory beside systems outside that reply in a manner, where the time stands still. -/
def PoliteHost.still (manner : Manner) (fresh : Fresh) :
    PoliteHost manner (Store × List EffectCall) where
  answer
    | .store call, (store, asked) =>
      let (result, store) := store.answer fresh.now call
      (result, (store, asked))
    | .effect call, (store, asked) => (manner asked call, (store, asked ++ [call]))
    | .stamp, state => (fresh, state)
  store := Prod.fst
  time _ := fresh.now
  answer_store _ _ := rfl
  store_store _ _ := rfl
  store_effect _ _ := rfl
  store_stamp _ := rfl
  told := Prod.snd
  governs := ⟨fun _ _ => rfl, fun _ _ => rfl, fun _ _ => rfl, fun _ => rfl⟩

/-- Systems outside that break down after they have replied once. -/
def Manner.once : Manner
  | [], call => .returned call.rehearsedReply
  | _ :: _, _ => .crashed none

namespace Event

/-- A lead with two rules and two workflows, the first of which ties with a rule. -/
def crowded : Store :=
  { hotLead with
    workflows := [{ Workflow.followUp with trigger := .leadCreated, priority := 80 },
      { Workflow.followUp with id := ⟨6⟩, trigger := .leadCreated }] }

/-- The event that sets all of them off. -/
def crowdedEvent : Event := .leadCreated .epoch (Lead.blank Program.stillFresh).id

/-- What takes part, in the order of the priorities. -/
theorem schedule_crowded : Participant.schedule crowded.rules crowded.workflows =
    crowded.rules.reverse.map .rule ++ crowded.workflows.map .workflow := by
  rw [Participant.schedule_of_perm (List.reverse_perm crowded.rules).symm (.refl _) (by decide)
    (by decide)]
  exact List.mergeSort_of_pairwise (by decide)

theorem applyAll_crowded :
    let host := PoliteHost.still .once Program.stillFresh
    let lead := Lead.blank Program.stillFresh
    let program := crowdedEvent.applyAll {}
      (Participant.schedule crowded.rules crowded.workflows) lead
    (Intents.of (program.asked host.answer (crowded, []))).notifications =
      [Workflow.followUpNotice] ∧
    (host.lead? lead.id (program.run host.answer (crowded, [])).2).map Lead.score = some 70 := by
  have hsteps : Workflow.followUp.steps.mergeSort (fun a b => decide (a.position ≤ b.position)) =
      Workflow.followUp.steps := Workflow.stepsInOrder_followUp
  rw [schedule_crowded]
  simp only [crowded, hotLead, List.reverse_cons, List.reverse_nil, List.nil_append,
    List.cons_append, List.map_cons, List.map_nil, applyAll, apply, applyWorkflow, Workflow.launch,
    Workflow.run, Workflow.stepsInOrder, hsteps]
  constructor <;> decide +kernel

theorem dispatch_reordered_crowded :
    let host := PoliteHost.still .once Program.stillFresh
    let other := PoliteHost.still .once
      ⟨⟨60, 0, by decide, by decide⟩, fun n => ⟨BitVec.ofNat 128 (n + 7)⟩⟩
    let s := (crowded, [])
    let t := ({ crowded with
      rules := crowded.rules.reverse, workflows := crowded.workflows.reverse }, [])
    let mine := (crowdedEvent.dispatch {}).run host.answer s
    let theirs := (crowdedEvent.dispatch {}).run other.answer t
    host.told s = other.told t ∧ (host.store s).Reorders (other.store t) ∧
    (((host.store s).rulesFor crowdedEvent.kind).map Rule.priority).Nodup ∧
    (((host.store s).workflowsFor crowdedEvent.kind).map Workflow.priority).Nodup ∧
    mine.1.map (List.map Summary.untimed) = theirs.1.map (List.map Summary.untimed) ∧
    (crowdedEvent.dispatch {}).asked host.answer s =
      (crowdedEvent.dispatch {}).asked other.answer t ∧
    (∀ id, (host.lead? id mine.2).map Lead.untimed = (other.lead? id theirs.2).map Lead.untimed) ∧
    (Intents.of ((crowdedEvent.dispatch {}).asked host.answer s)).notifications =
      [Workflow.followUpNotice] ∧
    (host.lead? crowdedEvent.leadId mine.2).map Lead.score = some 70 := by
  intro host other s t mine theirs
  have hreorders : (host.store s).Reorders (other.store t) :=
    ⟨(List.reverse_perm _).symm, (List.reverse_perm _).symm, fun _ => rfl⟩
  have hrules : (((host.store s).rulesFor crowdedEvent.kind).map Rule.priority).Nodup := by decide
  have hworkflows :
      (((host.store s).workflowsFor crowdedEvent.kind).map Workflow.priority).Nodup := by
    decide
  obtain ⟨hsummaries, hasked, hleads⟩ :=
    dispatch_reordered (s := s) (t := t) host other {} crowdedEvent rfl hreorders hrules hworkflows
  exact ⟨rfl, hreorders, hrules, hworkflows, hsummaries, hasked, hleads, applyAll_crowded⟩

end Event

end LeadAutomation
