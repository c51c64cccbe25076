import LeadAutomation.Proofs.Dispatch
import LeadAutomation.Proofs.Rehearsals
import LeadAutomation.Trial
import LeadAutomation.Validation
import Mathlib.Data.List.Chain

/-!
# Stored definitions

The rules and workflows of a store are its definitions. Three kinds of calls change them, and
running rules and workflows, for real or on trial, makes none of these. What writes definitions does
so in one of the ways of `Edit`: it makes a rule under an identifier that it was supplied with, puts
a rule in the place of one that has the same identity, takes a rule away or stores a workflow.
`Follows` is what all these ways have in common.
-/

namespace LeadAutomation

/-- Whether a call leaves rules and workflows as they are, whatever is stored. -/
def Call.SparesDefinitions : Call → Prop
  | .store (.saveRule _) | .store (.deleteRule _) | .store (.saveWorkflow _) => False
  | .store _ | .effect _ | .stamp => True

theorem Call.IsOffline.sparesDefinitions {call : Call} (h : call.IsOffline) :
    call.SparesDefinitions := by
  cases call with
  | store call => exact h.elim
  | effect call => trivial
  | stamp => trivial

/-! ### What runs spares definitions -/

section CallsOnly

variable {α : Type} (options : Options)

theorem rehearse_sparesDefinitions {p : Program α} (hp : p.CallsOnly Call.IsOffline) :
    p.rehearse.CallsOnly Call.SparesDefinitions :=
  (hp.rehearseFrom {}).mono fun _ hcall => hcall.1.sparesDefinitions

theorem Rule.test_sparesDefinitions (ruleId : Uuid) (lead : Lead) :
    (Rule.test options ruleId lead).CallsOnly Call.SparesDefinitions :=
  .bind (.store trivial) fun found => .bind (.orFail _ found) fun _ =>
      .bind (.stamp trivial) fun _ =>
    .bind (rehearse_sparesDefinitions
      (applyActions_callsOnly (fun _ => trivial) (fun _ => trivial) _ _ _ _ _)) fun _ => .pure _

namespace Workflow

theorem preview_sparesDefinitions (workflowId : Uuid) (lead : Option Lead) (triggerData : Json) :
    (preview options workflowId lead triggerData).CallsOnly Call.SparesDefinitions :=
  .bind (.store trivial) fun found => .bind (.orFail _ found) fun stored =>
      .bind (.stamp trivial) fun _ =>
    .bind (rehearse_sparesDefinitions (run_isOffline options stored _ lead)) fun _ => .pure _

theorem launch_sparesDefinitions (workflow : Workflow) (lead : Option Lead) (event : EventKind)
    (triggerData : Json) :
    (workflow.launch options lead event triggerData).CallsOnly Call.SparesDefinitions := by
  rw [launch_eq]
  refine .bind (.stamp trivial) fun fresh => .bind (.store trivial) fun _ => .bind ?_ ?_
  · exact (run_isOffline options workflow _ lead).mono fun _ => Call.IsOffline.sparesDefinitions
  · rintro ⟨ended, report⟩
    exact keep_callsOnly trivial (fun _ _ => trivial) _ _

theorem execute_sparesDefinitions (workflowId : Uuid) (leadId : Option Uuid) (triggerData : Json) :
    (execute options workflowId leadId triggerData).CallsOnly Call.SparesDefinitions := by
  refine .bind (.store trivial) fun found => .bind (.orFail _ found) fun workflow => ?_
  split
  · trivial
  · cases leadId with
    | some id =>
      exact .bind (.map _ (.bind (.store trivial) fun found => .orFail _ found)) fun lead =>
        launch_sparesDefinitions options workflow lead _ _
    | none => exact launch_sparesDefinitions options workflow none _ _

end Workflow

namespace Event

variable (event : Event)

theorem applyAll_sparesDefinitions (participants : List Participant) (lead : Lead) :
    (event.applyAll options participants lead).CallsOnly Call.SparesDefinitions := by
  induction participants generalizing lead with
  | nil => exact .pure _
  | cons participant rest ih =>
    refine .bind ?_ ?_
    · cases participant with
      | rule r =>
        exact applyRule_callsOnly trivial (fun _ => trivial) (fun _ => trivial)
          (fun _ _ => trivial) _ _ _ _
      | workflow w =>
        exact .bind (w.launch_sparesDefinitions options _ _ _) fun ended =>
          .bind (.store trivial) fun found => .bind (.orFail _ found) fun left => .pure _
    · rintro ⟨summary, left⟩
      exact .bind (ih left) fun summaries => .pure _

theorem dispatch_sparesDefinitions : (event.dispatch options).CallsOnly Call.SparesDefinitions := by
  refine .bind (.store trivial) fun found => .bind (.orFail _ found) fun lead =>
      .bind (.map _ (.store trivial)) fun rules =>
    .bind ?_ fun workflows => event.applyAll_sparesDefinitions options _ lead
  unfold workflows
  split
  · exact .map _ (.store trivial)
  · exact .pure _

end Event

theorem Execution.history_sparesDefinitions (workflowId : Uuid) (limit : Int) :
    (history workflowId limit).CallsOnly Call.SparesDefinitions :=
  .bind (.store trivial) fun found => .bind (.orFail _ found) fun _ => .store trivial

theorem Execution.get_sparesDefinitions (id : Uuid) : (get id).CallsOnly Call.SparesDefinitions :=
  .bind (.store trivial) fun found => .orFail _ found

end CallsOnly

/-! ### What is kept of definitions -/

/-- What stays of a rule for as long as it is stored. -/
def Rule.identity (rule : Rule) : Uuid × Timestamp × Option Uuid :=
  (rule.id, rule.createdAt, rule.createdBy)

/-- What stays of the rules with some identifiers, in the order in which they are stored. -/
def Rule.identities (lasting : List Uuid) (rules : List Rule) :
    List (Uuid × Timestamp × Option Uuid) :=
  (rules.map Rule.identity).filter fun identity => identity.1 ∈ lasting

namespace Store

variable {store next : Store} {now : Timestamp}

def definitions (store : Store) : List Rule × List Workflow := (store.rules, store.workflows)

/-- All definitions are valid, and no two rules have one identifier. -/
structure IsSound (store : Store) : Prop where
  rules : ∀ rule ∈ store.rules, ∃ warnings, rule.validate = .ok warnings
  workflows : ∀ workflow ∈ store.workflows, ∃ warnings, workflow.validate = .ok warnings
  distinct : (store.rules.map Rule.id).Nodup

/-- Rules that are stored in both keep their identities and their order. -/
def Keeps (store next : Store) : Prop :=
  ∀ lasting : List Uuid, (∀ id ∈ lasting, id ∈ store.rules.map Rule.id) →
    (∀ id ∈ lasting, id ∈ next.rules.map Rule.id) →
    Rule.identities lasting store.rules = Rule.identities lasting next.rules

/-- A store comes after another: its definitions are as sound and, if identifiers that are supplied
are `new`, it keeps the rules that it still has. -/
structure Follows (new : Prop) (store next : Store) : Prop where
  sound : store.IsSound → next.IsSound
  keeps : new → store.Keeps next

theorem definitions_answer {call : StoreCall} (h : (Call.store call).SparesDefinitions) :
    (store.answer now call).2.definitions = store.definitions := by
  cases call with
  | saveRule rule => exact h.elim
  | deleteRule id => exact h.elim
  | saveWorkflow workflow => exact h.elim
  | applyPatch id patch =>
    unfold answer
    dsimp only
    split <;> rfl
  | updateExecution execution =>
    unfold answer
    dsimp only
    split <;> rfl
  | _ => rfl

theorem IsSound.congr (hsame : next.definitions = store.definitions) (h : store.IsSound) :
    next.IsSound := by
  obtain ⟨hrules, hworkflows⟩ := Prod.mk.inj hsame
  exact ⟨hrules ▸ h.rules, hworkflows ▸ h.workflows, hrules ▸ h.distinct⟩

theorem follows_of_definitions_eq {new : Prop} (hsame : next.definitions = store.definitions) :
    store.Follows new next where
  sound := .congr hsame
  keeps _ lasting _ _ := by rw [show next.rules = store.rules from congrArg Prod.fst hsame]

/-- A write of definitions; `given` is what the writer has been supplied with. -/
inductive Edit (given : List Fresh) (store : Store) : StoreCall → Prop
  | makes {rule : Rule} {fresh : Fresh} (supplied : fresh ∈ given) (id : rule.id = fresh.id 0)
      (valid : ∃ warnings, rule.validate = .ok warnings) : Edit given store (.saveRule rule)
  | replaces {rule existing : Rule} (stored : find? Rule.id rule.id store.rules = some existing)
      (same : existing.identity = rule.identity) (valid : ∃ warnings,
        rule.validate = .ok warnings) :
      Edit given store (.saveRule rule)
  | removes (id : Uuid) : Edit given store (.deleteRule id)
  | drafts {workflow : Workflow} (valid : ∃ warnings, workflow.validate = .ok warnings) :
    Edit given store (.saveWorkflow workflow)

theorem IsSound.saveRule {rule : Rule} (valid : ∃ warnings, rule.validate = .ok warnings)
    (h : store.IsSound) :
    (store.answer now (.saveRule rule)).2.IsSound where
  rules := by
    intro other hmem
    rcases mem_upsert hmem with rfl | hstored
    · exact valid
    · exact h.rules other hstored
  workflows := h.workflows
  distinct := nodup_upsert h.distinct

theorem keeps_makes {rule : Rule} (hnew : ∀ other ∈ store.rules, other.id ≠ rule.id) :
    store.Keeps (store.answer now (.saveRule rule)).2 := by
  intro lasting hbefore _
  have hrules : (store.answer now (.saveRule rule)).2.rules = store.rules ++ [rule] :=
    upsert_of_find?_eq_none (find?_eq_none_iff.2 hnew)
  have hnot : rule.id ∉ lasting := by
    intro hmem
    obtain ⟨other, hstored, hid⟩ := List.mem_map.1 (hbefore _ hmem)
    exact hnew other hstored hid
  rw [hrules, Rule.identities, Rule.identities, List.map_append, List.filter_append]
  simp [Rule.identity, hnot]

theorem keeps_replaces {rule existing : Rule}
    (hstored : find? Rule.id rule.id store.rules = some existing)
    (hsame : existing.identity = rule.identity) :
    store.Keeps (store.answer now (.saveRule rule)).2 := by
  intro lasting _ _
  have hrules : (store.answer now (.saveRule rule)).2.rules.map Rule.identity =
      store.rules.map Rule.identity :=
    map_upsert hstored hsame
  rw [Rule.identities, Rule.identities, hrules]

theorem keeps_removes {id : Uuid} : store.Keeps (store.answer now (.deleteRule id)).2 := by
  intro lasting _ hafter
  have hrules : (store.answer now (.deleteRule id)).2.rules = store.rules.filter fun rule =>
    rule.id ≠ id := rfl
  rw [hrules] at hafter ⊢
  have hnot : id ∉ lasting := by
    intro hmem
    obtain ⟨rule, hrule, rfl⟩ := List.mem_map.1 (hafter id hmem)
    simp at hrule
  rw [Rule.identities, Rule.identities, List.filter_map, List.filter_map, List.filter_filter]
  congr 1
  apply List.filter_congr
  intro rule _
  by_cases hmem : rule.id ∈ lasting
  · have hne : rule.id ≠ id := fun heq => hnot (heq ▸ hmem)
    simp [Rule.identity, hmem, hne]
  · simp [Rule.identity, hmem]

theorem Edit.follows {new : Prop} {given : List Fresh} {call : StoreCall}
    (h : Edit given store call)
    (hgiven : new → ∀ fresh ∈ given, ∀ rule ∈ store.rules, ∀ n, rule.id ≠ fresh.id n) :
    store.Follows new (store.answer now call).2 := by
  cases h with
  | makes supplied id valid =>
    refine ⟨.saveRule valid, fun hnew => keeps_makes ?_⟩
    intro other hstored
    rw [id]
    exact hgiven hnew _ supplied other hstored 0
  | replaces stored same valid => exact ⟨.saveRule valid, fun _ => keeps_replaces stored same⟩
  | removes id =>
    refine ⟨fun hsound => ⟨?_, hsound.workflows, ?_⟩, fun _ => keeps_removes⟩
    · exact fun rule hmem => hsound.rules rule (List.mem_filter.1 hmem).1
    · exact hsound.distinct.sublist (List.filter_sublist.map _)
  | drafts valid =>
    refine ⟨fun hsound => ⟨hsound.rules, ?_, hsound.distinct⟩, fun _ _ _ _ => rfl⟩
    intro other hmem
    rcases mem_upsert hmem with rfl | hstored
    · exact valid
    · exact hsound.workflows other hstored

/-- Rules that last through a chain of stores that keep their rules have one identity and one order
in all of them. -/
theorem identities_eq_of_isChain {first : Store} {span : List Store} {lasting : List Uuid}
    (h : List.IsChain Keeps (first :: span))
    (hlasting : ∀ store ∈ first :: span, ∀ id ∈ lasting, id ∈ store.rules.map Rule.id) :
    ∀ store ∈ span, Rule.identities lasting store.rules = Rule.identities lasting first.rules := by
  induction span generalizing first with
  | nil => exact List.forall_mem_nil _
  | cons second rest ih =>
    obtain ⟨hkeeps, hrest⟩ := List.isChain_cons_cons.1 h
    obtain ⟨hfirst, hothers⟩ := List.forall_mem_cons.1 hlasting
    have hsecond := hkeeps lasting hfirst (hothers second List.mem_cons_self)
    refine List.forall_mem_cons.2 ⟨hsecond.symm, fun store hmem => ?_⟩
    rw [ih hrest hothers store hmem, hsecond]

end Store

end LeadAutomation
