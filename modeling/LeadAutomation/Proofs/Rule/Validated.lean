import LeadAutomation.Proofs.Action.Carried
import LeadAutomation.Proofs.Host
import LeadAutomation.Proofs.Messages
import LeadAutomation.Validation

/-!
# Rules that passed their checks

The checks of a rule promise that its actions can be carried out. They keep the promise for scores
and for statuses: what the check reads is what the action will read, blanks and all. They keep it
only half for assignments, where they look at who is to be assigned and not at the attribute that
the action targets. `validate_honoured` says exactly what comes of the actions of a rule that
passed, and an assignment with a target that names no assignee is the one exception.
-/

namespace LeadAutomation

open Validation

/-! ### What the checks see -/

theorem Action.valueText?_eq_some_iff {action : Action} {text : String} :
    action.valueText? = some text ↔ Text.trim (valueText action) = text ∧ text ≠ "" := by
  unfold valueText? valueText
  cases action.value with
  | none => simp [Text.trim, Text.trimChars, Text.trimFront, eq_comm]
  | some value => simp [Option.filter_eq_some_iff]

theorem LeadStatus.ofText?_trim (text : String) : ofText? (Text.trim text) = ofText? text := by
  rw [ofText?, Text.trim_trim, ← ofText?]

/-- What the check of an action makes sure of. -/
inductive Action.IsChecked (action : Action) : Prop
  | scoring (kind : action.kind = .known .scoring) {requested : Binary64}
      (number : action.value.bind FieldValue.number? = some requested)
  | statusChange (kind : action.kind = .known .statusChange) {status : LeadStatus}
      (status : LeadStatus.ofText? (valueText action) = some status)
  | assignment (kind : action.kind = .known .assignment) {assignee : Uuid}
      (assignee : Uuid.ofText? (Text.trim (valueText action)) = some assignee)
  | notification (kind : action.kind = .known .notification)
    (message : Text.isBlankText (valueText action) = false)
  | enrichment (kind : action.kind = .known .enrichment)

theorem violationIf_eq_nil_iff {condition : Bool} {field message : String} :
    violationIf condition field message = [] ↔ condition = false := by
  cases condition <;> simp [violationIf]

theorem checkAction_eq_nil_iff {index : Nat} {action : Action} :
    checkAction index action = [] ↔ action.IsChecked := by
  unfold checkAction
  constructor
  · intro h
    split at h
    · cases h
    · next hkind =>
      obtain ⟨status, hstatus⟩ :=
        Option.isSome_iff_exists.1 (Option.isNone_eq_false_iff.1 (violationIf_eq_nil_iff.1 h))
      exact .statusChange hkind hstatus
    · next hkind =>
      obtain ⟨requested, hrequested⟩ :=
        Option.isSome_iff_exists.1 (Option.isNone_eq_false_iff.1 (violationIf_eq_nil_iff.1 h))
      exact .scoring hkind hrequested
    · next hkind =>
      obtain ⟨assignee, hassignee⟩ :=
        Option.isSome_iff_exists.1 (Option.isNone_eq_false_iff.1 (violationIf_eq_nil_iff.1 h))
      exact .assignment hkind hassignee
    · next hkind => exact .notification hkind (violationIf_eq_nil_iff.1 h)
    · next hkind => exact .enrichment hkind
  · rintro (⟨hkind, hvalue⟩ | ⟨hkind, hvalue⟩ | ⟨hkind, hvalue⟩ | ⟨hkind, hvalue⟩ | hkind)
    · simp [hkind, hvalue, violationIf]
    · simp [hkind, hvalue, violationIf]
    · simp [hkind, hvalue, violationIf]
    · simp [hkind, hvalue, violationIf]
    · simp [hkind]

theorem checkItems_eq_nil_iff {α β : Type} {check : Nat → α → List β} {items : List α} :
    checkItems check items = [] ↔ ∀ index item, items[index]? = some item →
    check index item = [] := by
  simp only [checkItems, List.flatMap_eq_nil_iff, Prod.forall, List.mk_mem_zipIdx_iff_getElem?]
  exact forall_comm

theorem Rule.isChecked_of_validate {rule : Rule} {warnings : List String}
    (h : rule.validate = .ok warnings) :
    ∀ action ∈ rule.actions, action.IsChecked := by
  unfold validate at h
  split at h
  · next hempty =>
    have hactions : checkItems checkAction rule.actions = [] := by
      rw [List.isEmpty_iff] at hempty
      exact (List.append_eq_nil_iff.1 hempty).2
    intro action hmem
    obtain ⟨index, hindex⟩ := List.mem_iff_getElem?.1 hmem
    exact checkAction_eq_nil_iff.1 (checkItems_eq_nil_iff.1 hactions index action hindex)
  · cases h

/-! ### What comes of it -/

namespace Action

/-- The target of an assignment, apart from case and hyphens, is one under which a lead keeps an
assignee. -/
def NamesAssignee (action : Action) : Prop :=
  plainTarget action.target ∈ ["user", "assignedto", "owner", "team", "assignedteam"]

/-- An outcome that tells of the write of an action, which is not empty. -/
def Writes (action : Action) (outcome : ActionOutcome) : Prop :=
  ∃ write, action.write? = some write ∧ write.patch.isEmpty = false ∧
    outcome = .ofSuccess action write.value write.note

/-- What comes of an action that passed its check. -/
structure Honoured (action : Action) (outcome : ActionOutcome) : Prop where
  supported : ∀ kind, outcome.error ≠ some (ActionFault.unsupported kind).message
  scored : action.kind = .known .scoring → action.Writes outcome
  moved : action.kind = .known .statusChange → action.Writes outcome
  assigned : action.kind = .known .assignment → (action.Writes outcome ↔ action.NamesAssignee)
  misassigned : action.kind = .known .assignment → ¬ action.NamesAssignee →
    outcome = .ofFailure action ("unknown assignment target '" ++ plainTarget action.target ++ "'")

variable {action : Action} {assignee : Uuid}

theorem isSome_assignmentPatch?_iff {target : String} :
    (assignmentPatch? target assignee).isSome = true ↔
      plainTarget target ∈ ["user", "assignedto", "owner", "team", "assignedteam"] := by
  unfold assignmentPatch?
  split <;> simp_all

theorem isEmpty_assignmentPatch? {target : String} {patch : LeadPatch}
    (h : assignmentPatch? target assignee = some patch) : patch.isEmpty = false := by
  unfold assignmentPatch? at h
  split at h <;> cases h <;> rfl

theorem valueText?_of_ofText?_uuid
    (h : Uuid.ofText? (Text.trim (valueText action)) = some assignee) :
    action.valueText? = some (Text.trim (valueText action)) := by
  refine valueText?_eq_some_iff.2 ⟨rfl, ?_⟩
  intro hempty
  rw [hempty] at h
  cases h

theorem write?_of_assignment (hkind : action.kind = .known .assignment)
    (h : Uuid.ofText? (Text.trim (valueText action)) = some assignee) :
    action.write? = (assignmentPatch? action.target assignee).map fun patch =>
      ⟨patch, assignee.toJson, none⟩ := by
  simp only [write?, hkind, planAssignment, valueText?_of_ofText?_uuid h, h]
  cases assignmentPatch? action.target assignee <;> rfl

theorem write?_of_statusChange {status : LeadStatus} (hkind : action.kind = .known .statusChange)
    (h : LeadStatus.ofText? (valueText action) = some status) :
    action.write? = some ⟨{ status := some status }, .str status.name, none⟩ := by
  have htext : action.valueText? = some (Text.trim (valueText action)) := by
    refine valueText?_eq_some_iff.2 ⟨rfl, ?_⟩
    intro hempty
    rw [← LeadStatus.ofText?_trim, hempty] at h
    cases h
  simp only [write?, hkind, planStatusChange, htext, LeadStatus.ofText?_trim, h]
  rfl

theorem exists_write?_of_scoring {requested : Binary64} (hkind : action.kind = .known .scoring)
    (h : action.value.bind FieldValue.number? = some requested) :
    ∃ write, action.write? = some write ∧ write.patch.isEmpty = false := by
  simp only [write?, hkind, planScoring, h]
  exact ⟨_, rfl, rfl⟩

end Action

/-! ### Actions that passed -/

namespace Action

variable {action : Action} {view : RecordView} {defaults : List String} {lead : Lead}
  {exchanges : List Exchange}
  {outcome : ActionOutcome} {assignee : Uuid}

theorem writes_of_runs {write : PlannedWrite} (hlead : view.lead = some lead)
    (hruns : ((action.plan view defaults).carryOut action).Runs exchanges (.returned outcome))
    (hwrite : action.write? = some write) (hpatch : write.patch.isEmpty = false) :
    action.Writes outcome := by
  rw [(plan_eq_write_iff hlead).2 hwrite] at hruns
  obtain ⟨-, hended⟩ := Program.runs_pure.1 hruns
  cases hended
  exact ⟨write, hwrite, hpatch, rfl⟩

theorem Writes.error_ne (h : action.Writes outcome) (message : String) :
    outcome.error ≠ some message := by
  obtain ⟨write, -, -, rfl⟩ := h
  nofun

theorem error_ne_unsupported (hkind : ∀ text unknown, action.kind ≠ .other text unknown)
    (hruns : ((action.plan view defaults).carryOut action).Runs exchanges (.returned outcome))
    (kind : String) :
    outcome.error ≠ some (ActionFault.unsupported kind).message := by
  intro herror
  obtain ⟨write, -, rfl⟩ | ⟨fault, hplan, rfl⟩ | ⟨value, rfl⟩ | ⟨error, rfl⟩ :=
    ActionPlan.outcome_of_runs_carryOut hruns
  · cases herror
  · exact message_ne_unsupported_of_plan hplan hkind kind (Option.some.inj herror)
  · cases herror
  · exact message_ne_unsupported error kind (Option.some.inj herror)

theorem honoured_of_writes (hkind : action.kind ≠ .known .assignment)
    (hwrites : action.Writes outcome) :
    action.Honoured outcome where
  supported _ := hwrites.error_ne _
  scored _ := hwrites
  moved _ := hwrites
  assigned h := absurd h hkind
  misassigned h := absurd h hkind

theorem honoured_of_assignment (hkind : action.kind = .known .assignment)
    (hassignee : Uuid.ofText? (Text.trim (valueText action)) = some assignee)
    (hlead : view.lead = some lead)
    (hruns : ((action.plan view defaults).carryOut action).Runs exchanges (.returned outcome)) :
    action.Honoured outcome := by
  have hwrite := write?_of_assignment hkind hassignee
  have hnames : (assignmentPatch? action.target assignee).isSome = true ↔ action.NamesAssignee :=
    isSome_assignmentPatch?_iff
  cases hpatch : assignmentPatch? action.target assignee with
  | some patch =>
    rw [hpatch] at hwrite hnames
    have hwrites : action.Writes outcome :=
      writes_of_runs hlead hruns hwrite (isEmpty_assignmentPatch? hpatch)
    have hnamed : action.NamesAssignee := hnames.1 rfl
    exact ⟨fun _ => hwrites.error_ne _, fun _ => hwrites, fun _ => hwrites,
      fun _ => iff_of_true hwrites hnamed,
      fun _ hnot => absurd hnamed hnot⟩
  | none =>
    rw [hpatch] at hwrite hnames
    have hunnamed : ¬ action.NamesAssignee := fun hnamed => by cases hnames.2 hnamed
    have hplan :
        action.plan view defaults = .fault (.unknownTarget (plainTarget action.target)) := by
      simp only [plan, hkind, hlead, planAssignment, valueText?_of_ofText?_uuid hassignee,
        hassignee, hpatch]
      rfl
    have hsupported := error_ne_unsupported (by simp [hkind]) hruns
    rw [hplan] at hruns
    obtain ⟨-, hended⟩ := Program.runs_pure.1 hruns
    cases hended
    refine ⟨hsupported, by simp [hkind], by simp [hkind], fun _ => iff_of_false ?_ hunnamed,
      fun _ _ => rfl⟩
    rintro ⟨write, hsome, -⟩
    rw [hwrite] at hsome
    cases hsome

theorem honoured_of_runs (hchecked : action.IsChecked) (hlead : view.lead = some lead)
    (hruns : ((action.plan view defaults).carryOut action).Runs exchanges (.returned outcome)) :
    action.Honoured outcome := by
  cases hchecked with
  | scoring hkind hnumber =>
    obtain ⟨write, hwrite, hpatch⟩ := exists_write?_of_scoring hkind hnumber
    exact honoured_of_writes (by simp [hkind]) (writes_of_runs hlead hruns hwrite hpatch)
  | statusChange hkind hstatus =>
    exact honoured_of_writes (by simp [hkind])
      (writes_of_runs hlead hruns (write?_of_statusChange hkind hstatus) rfl)
  | assignment hkind hassignee => exact honoured_of_assignment hkind hassignee hlead hruns
  | notification hkind | enrichment hkind =>
    refine ⟨error_ne_unsupported ?_ hruns, ?_, ?_, ?_, ?_⟩
    all_goals simp [hkind]

end Action

namespace Rule

/-- Where nothing breaks down, the actions of a rule that passed its checks are all carried out on a
lead. Its scores and statuses are written, its assignments just if their target names an assignee,
and none of its actions is unsupported. -/
theorem validate_honoured {σ : Type} {answer : (call : Call) → σ → call.Reply × σ}
    (hcalm : ∀ call s text, (answer (.effect call) s).1 ≠ .crashed text) {rule : Rule}
    {warnings : List String} (hvalid : rule.validate = .ok warnings) (now : Timestamp)
    (defaults : List String) (payload : Json) (lead : Lead) (s : σ) :
    ∃ applied final s',
      (applyActions now defaults payload rule.actions (some lead)).run answer s =
        (.returned (applied, final), s') ∧
      List.Forall₂ Action.Honoured rule.actions applied.outcomes ∧
      applied.patch =
        LeadPatch.mergeAll ((rule.actions.filterMap Action.write?).map PlannedWrite.patch) := by
  have hruns :=
    Program.runs_transcript answer (applyActions now defaults payload rule.actions (some lead)) s
  obtain ⟨applied, final, hended⟩ :=
    applyActions_returns hruns fun _ => Program.not_isBreakdown_of_mem_transcript hcalm
  rw [hended] at hruns
  have hcarried := carriedOut_of_runs hruns
  refine ⟨applied, final, _, Prod.ext hended rfl, hcarried.forall₂ rfl ?_, hcarried.patch_eq rfl⟩
  intro action hmem view own outcome hsome hown
  obtain ⟨lead, hlead⟩ := Option.isSome_iff_exists.1 hsome
  exact Action.honoured_of_runs (isChecked_of_validate hvalid action hmem) hlead hown

/-- A rule that scores a lead, moves it on and gives it to an owner, all with blanks in the way. -/
def handOver : Rule :=
  { Rule.blank Program.stillFresh "Hand over" .scoring 10 with
    conditions := [.scoreAbove .zero]
    actions := [
      .of .scoring "score" (.text " 70 "),
      .of .statusChange "status" (.text " qualified "),
      .of .assignment "Assigned-To" (.text " 00000000-0000-0000-0000-0000000000aa ")] }

theorem validate_honoured_handOver :
    (∀ (call : EffectCall) (s : Store) (text : Option String),
      (Host.still.answer (.effect call) s).1 ≠ .crashed text) ∧
    handOver.validate = .ok [] ∧
    ∃ applied final s',
      (applyActions .epoch [] .null handOver.actions (some (.blank Program.stillFresh))).run
        Host.still.answer {} =
        (.returned (applied, final), s') ∧
      List.Forall₂ Action.Honoured handOver.actions applied.outcomes ∧
      applied.patch =
        LeadPatch.mergeAll ((handOver.actions.filterMap Action.write?).map PlannedWrite.patch) := by
  have hcalm : ∀ (call : EffectCall) (s : Store) (text : Option String),
      (Host.still.answer (.effect call) s).1 ≠ .crashed text := fun _ _ _ => nofun
  have hvalid : handOver.validate = .ok [] := by decide +kernel
  exact ⟨hcalm, hvalid, validate_honoured hcalm hvalid _ _ _ _ _⟩

/-- A rule that assigns under a name by which conditions know the assigned user, but assignments do
not. -/
def misdirected : Rule :=
  { Rule.blank Program.stillFresh "Route to owner" .assignment 50 with
    conditions := [.scoreAbove (.ofNat false 10)]
    actions := [.of .assignment "assigned_user" (.text "00000000-0000-0000-0000-0000000000aa")] }

/-- A rule can pass its checks and still have an assignment that always fails. -/
theorem not_writes_misdirected :
    misdirected.validate = .ok [] ∧ ∃ action ∈ misdirected.actions,
    action.kind = .known .assignment ∧
      ∃ final, (applyActions .epoch [] .null misdirected.actions
        (some (.blank Program.stillFresh))).run
          Host.still.answer {} =
        (.returned (⟨[.ofFailure action "unknown assignment target 'assigneduser'"], .empty⟩,
          final), {}) :=
  ⟨rfl, _, List.mem_singleton_self _, rfl, _, rfl⟩

end Rule

end LeadAutomation
