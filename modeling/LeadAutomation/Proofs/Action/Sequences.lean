import LeadAutomation.Proofs.Action.Carried
import LeadAutomation.Proofs.Manners

/-!
# Sequences of actions

Actions that are carried out one after another read what those before them wrote: a message may show
the score that was just set. What they write does not depend on it. An action that writes to a lead
does so, or fails to, whatever the lead holds, whatever has happened and whatever systems outside
reply, so the patch of a sequence is a matter of the list of actions alone.

Two laws follow. To carry out a sequence again is to write the same again, which leaves the lead as
it is. And sequences can be put together: carrying out two lists joined is carrying out the one and
then the other, `applyActions_append`.
-/

namespace LeadAutomation

open LeadPatch

/-! ### What an action that writes is reported as -/

namespace Action

/-- What an action that writes is to write, or why it cannot; other actions have no such plan. -/
def planned? (action : Action) : Option (Except ActionFault PlannedWrite) :=
  match action.kind with
  | .known .assignment => some action.planAssignment
  | .known .scoring => some action.planScoring
  | .known .statusChange => some action.planStatusChange
  | .known .notification | .known .enrichment | .other .. => none

/-- What is reported of an action that writes. -/
def reported (action : Action) : Except ActionFault PlannedWrite → ActionOutcome
  | .ok write => .ofSuccess action write.value write.note
  | .error fault => .ofFailure action fault.message

/-- What some actions write to a lead, as one patch. -/
def patchOf (actions : List Action) : LeadPatch :=
  mergeAll ((actions.filterMap write?).map PlannedWrite.patch)

/-- An outcome is that of an action, and if the action writes, the one that is due for what it is to
write. -/
structure Answered (action : Action) (outcome : ActionOutcome) : Prop where
  kind : outcome.kind = action.kind
  target : outcome.target = action.target
  decided : ∀ planned, action.planned? = some planned → outcome = action.reported planned

end Action

/-- Whether an outcome is that of an action that writes. -/
def ActionOutcome.isOfWrite (outcome : ActionOutcome) : Bool :=
  outcome.kind ∈ [.known .assignment, .known .scoring, .known .statusChange]

namespace AppliedActions

/-- The outcomes of the actions that write. -/
def writes (applied : AppliedActions) : List ActionOutcome := applied.outcomes.filter (·.isOfWrite)

/-- What some actions came to, followed by what others came to. -/
def append (applied later : AppliedActions) : AppliedActions :=
  ⟨applied.outcomes ++ later.outcomes, applied.patch.merge later.patch⟩

/-- `applied.Settled now actions lead final` says that `applied` and `final` are what `actions` come
to on `lead`: each action has its outcome in its place, those that write have the one that is due to
them, and `final` is `lead` with the patch made that the actions write, untouched if they write
nothing. -/
structure Settled (applied : AppliedActions) (now : Timestamp) (actions : List Action)
    (lead final : Lead) : Prop where
  labels : applied.outcomes.map (fun outcome => (outcome.kind, outcome.target)) =
    actions.map fun action => (action.kind, action.target)
  writes : applied.writes = actions.filterMap fun action => action.planned?.map action.reported
  patch : applied.patch = Action.patchOf actions
  left : final = applied.patch.applyTo now lead
  untouched : applied.patch.isEmpty → final = lead

end AppliedActions

namespace Action

variable {action : Action} {view : RecordView} {defaults : List String} {lead : Lead}
  {exchanges : List Exchange}
  {outcome : ActionOutcome}

theorem isOfWrite_iff (h : outcome.kind = action.kind) :
    outcome.isOfWrite = action.planned?.isSome := by
  unfold ActionOutcome.isOfWrite planned?
  rw [h]
  split <;> simp [*]

/-- On a lead, an action that writes asks nothing of systems outside, and its plan settles what is
reported of it. -/
theorem carryOut_of_planned? {planned : Except ActionFault PlannedWrite}
    (hlead : view.lead = some lead) (h : action.planned? = some planned) :
    (action.plan view defaults).carryOut action = pure (action.reported planned) := by
  have hwrite : ∀ deed, (planWrite (some lead) deed planned).carryOut action =
      pure (action.reported planned) := by
    intro deed
    cases planned <;> rfl
  unfold planned? at h
  unfold plan
  rw [hlead]
  generalize action.kind = kind at h ⊢
  split at h
  case h_1 | h_2 | h_3 =>
    obtain rfl := Option.some.inj h
    exact hwrite _
  all_goals cases h

theorem answered_of_runs (hlead : view.lead = some lead)
    (h : ((action.plan view defaults).carryOut action).Runs exchanges (.returned outcome)) :
    action.Answered outcome := by
  have hlabels : outcome.kind = action.kind ∧ outcome.target = action.target := by
    obtain ⟨write, -, rfl⟩ | ⟨fault, -, rfl⟩ | ⟨value, rfl⟩ | ⟨error, rfl⟩ :=
      ActionPlan.outcome_of_runs_carryOut h
    all_goals exact ⟨rfl, rfl⟩
  refine ⟨hlabels.1, hlabels.2, fun planned hplanned => ?_⟩
  rw [carryOut_of_planned? hlead hplanned] at h
  exact Outcome.returned.inj (Program.runs_pure.1 h).2

end Action

/-! ### What a sequence comes to -/

section Sequence

variable {now : Timestamp} {defaults : List String} {payload : Json} {actions : List Action}
  {lead final : Option Lead}
  {exchanges : List Exchange} {applied : AppliedActions}

/-- The lead that a sequence leaves is the one it was given with its patch made. -/
theorem CarriedOut.final_eq
    (h : CarriedOut now defaults payload actions lead exchanges applied final) :
    final = lead.map (applied.patch.applyTo now) := by
  induction h with
  | @done lead => cases lead <;> rfl
  | @next action rest given final own others outcome later carries goesOn ih =>
    rw [ih, Option.map_map]
    congr 1
    funext lead
    exact (applyTo_merge _ later.patch now lead).symm

theorem writes_of_forall₂ {outcomes : List ActionOutcome}
    (h : List.Forall₂ Action.Answered actions outcomes) :
    outcomes.filter (·.isOfWrite) = actions.filterMap fun action =>
      action.planned?.map action.reported := by
  induction h with
  | nil => rfl
  | @cons action outcome rest outcomes answered others ih =>
    have hwrites := Action.isOfWrite_iff answered.kind
    cases hplanned : action.planned? with
    | none =>
      rw [hplanned, Option.isSome_none] at hwrites
      rw [List.filter_cons_of_neg (by simp [hwrites]),
        List.filterMap_cons_none (by rw [hplanned]; rfl), ih]
    | some planned =>
      rw [hplanned, Option.isSome_some] at hwrites
      rw [List.filter_cons_of_pos hwrites, List.filterMap_cons_some (by rw [hplanned]; rfl), ih,
        answered.decided planned hplanned]

theorem labels_of_forall₂ {outcomes : List ActionOutcome}
    (h : List.Forall₂ Action.Answered actions outcomes) :
    outcomes.map (fun outcome => (outcome.kind, outcome.target)) = actions.map fun action =>
      (action.kind, action.target) := by
  induction h with
  | nil => rfl
  | cons answered others ih => rw [List.map_cons, List.map_cons, ih, answered.kind, answered.target]

theorem CarriedOut.answered {lead : Lead}
    (h : CarriedOut now defaults payload actions (some lead) exchanges applied final) :
    List.Forall₂ Action.Answered actions applied.outcomes := by
  refine h.forall₂ rfl fun action _ view own outcome hsome hruns => ?_
  obtain ⟨given, hgiven⟩ := Option.isSome_iff_exists.1 hsome
  exact Action.answered_of_runs hgiven hruns

theorem CarriedOut.settled {lead : Lead}
    (h : CarriedOut now defaults payload actions (some lead) exchanges applied final) :
    ∃ left, final = some left ∧ applied.Settled now actions lead left :=
  ⟨_, h.final_eq, labels_of_forall₂ h.answered, writes_of_forall₂ h.answered, h.patch_eq rfl, rfl,
    fun hempty => applyTo_of_isEmpty now lead hempty⟩

/-- Where nothing breaks down, actions on a lead come to what is settled for them. -/
theorem exists_run_applyActions {σ : Type} {answer : (call : Call) → σ → call.Reply × σ}
    (hcalm : ∀ call s text, (answer (.effect call) s).1 ≠ .crashed text) (now : Timestamp)
    (defaults : List String) (payload : Json) (actions : List Action) (lead : Lead) (s : σ) :
    ∃ applied final s',
      (applyActions now defaults payload actions (some lead)).run answer s =
        (.returned (applied, some final), s') ∧
      applied.Settled now actions lead final := by
  have hruns :=
    Program.runs_transcript answer (applyActions now defaults payload actions (some lead)) s
  obtain ⟨applied, left, hended⟩ :=
    applyActions_returns hruns fun _ => Program.not_isBreakdown_of_mem_transcript hcalm
  rw [hended] at hruns
  obtain ⟨final, rfl, hsettled⟩ := (carriedOut_of_runs hruns).settled
  exact ⟨applied, final, _, Prod.ext hended rfl, hsettled⟩

end Sequence

/-! ### Sequences put together -/

theorem AppliedActions.empty_append (applied : AppliedActions) :
    AppliedActions.empty.append applied = applied := by
  simp [append, empty]

theorem applyActions_append (now : Timestamp) (defaults : List String) (payload : Json)
    (actions following : List Action) (lead : Option Lead) :
    applyActions now defaults payload (actions ++ following) lead =
      applyActions now defaults payload actions lead >>= fun first =>
        applyActions now defaults payload following first.2 >>= fun second =>
          pure (first.1.append second.1, second.2) := by
  induction actions generalizing lead with
  | nil =>
    simp only [List.nil_append, applyActions, pure_bind, AppliedActions.empty_append]
    exact (Program.bind_pure _).symm
  | cons action rest ih =>
    simp only [List.cons_append, applyActions, ih, bind_assoc, pure_bind,
      AppliedActions.append, merge_assoc]

/-- Where no system outside breaks down, actions on a lead come to what is settled for them by the
list of actions. Carried out again on the lead that they left, at whatever time and with whatever
payload and replies, they write and fail to write the same, and the lead changes in nothing but the
time of its last change. More actions come to what they come to when they follow. -/
theorem applyActions_settled {σ : Type} {answer : (call : Call) → σ → call.Reply × σ}
    (hcalm : ∀ call s text, (answer (.effect call) s).1 ≠ .crashed text) (now later : Timestamp)
    (defaults others : List String) (payload event : Json) (actions following : List Action)
    (lead : Lead) (s : σ) :
    ∃ applied final s',
      (applyActions now defaults payload actions (some lead)).run answer s =
        (.returned (applied, some final), s') ∧
      applied.Settled now actions lead final ∧
      (∀ t, ∃ again left t',
        (applyActions later others event actions (some final)).run answer t =
          (.returned (again, some left), t') ∧
        again.writes = applied.writes ∧ again.patch = applied.patch ∧
        left = { final with
          updatedAt := if applied.patch.isEmpty then final.updatedAt else some later }) ∧
      ∃ second left t,
        (applyActions now defaults payload following (some final)).run answer s' =
          (.returned (second, some left), t) ∧
        (applyActions now defaults payload (actions ++ following) (some lead)).run answer s =
          (.returned (applied.append second, some left), t) := by
  obtain ⟨applied, final, s', hrun, hsettled⟩ :=
    exists_run_applyActions hcalm now defaults payload actions lead s
  refine ⟨applied, final, s', hrun, hsettled, fun t => ?_, ?_⟩
  · obtain ⟨again, left, t', hagain, hsettled'⟩ :=
      exists_run_applyActions hcalm later others event actions final t
    have hpatch : again.patch = applied.patch := hsettled'.patch.trans hsettled.patch.symm
    refine ⟨again, left, t', hagain, hsettled'.writes.trans hsettled.writes.symm, hpatch, ?_⟩
    rw [hsettled'.left, hpatch, hsettled.left, applyTo_applyTo_self]
    split
    · next hempty => rw [applyTo_of_isEmpty now lead hempty]
    · rfl
  · obtain ⟨second, left, t, hsecond, -⟩ :=
      exists_run_applyActions hcalm now defaults payload following final s'
    refine ⟨second, left, t, hsecond, ?_⟩
    rw [applyActions_append, Program.run_bind, hrun]
    change (applyActions now defaults payload following (some final) >>= fun second =>
      _).run answer s' = _
    rw [Program.run_bind, hsecond]
    rfl

/-- Systems outside that cannot be reached. -/
def Manner.unreachable : Manner := fun _ call =>
  match call with
  | .notify _ => .failed (.notification "connection lost")
  | .integrate call => .failed (.integration call.integration "connection lost")
  | .enrich _ => .failed (.enrichment "connection lost")

/-- A score above the range, a message that shows it, and a status that there is not. -/
def scoreAndTell : List Action := [
  .setScore (.ofNat false 150),
  .notify "scored \x7b\x7bscore\x7d\x7d" ["sales"],
  .of .statusChange "status" (.text "hot")]

theorem applyActions_settled_scoreAndTell :
    let answer := Manner.unreachable.surroundings fun _ => Program.stillFresh
    let lead := Lead.blank Program.stillFresh
    let team : Uuid := ⟨7⟩
    (∀ (call : EffectCall) (s : List EffectCall) (text : Option String),
      (answer (.effect call) s).1 ≠ .crashed text) ∧
    ∃ applied final s',
      (applyActions .epoch [] .null scoreAndTell (some lead)).run answer [] =
        (.returned (applied, some final), s') ∧
      applied.Settled .epoch scoreAndTell lead final ∧
      (∀ t, ∃ again left t',
        (applyActions .epoch ["ops"] .null scoreAndTell (some final)).run answer t =
          (.returned (again, some left), t') ∧
        again.writes = applied.writes ∧ again.patch = applied.patch ∧
        left = { final with
          updatedAt := if applied.patch.isEmpty then final.updatedAt else some .epoch }) ∧
      ∃ second left t,
        (applyActions .epoch [] .null [.assignTeam team] (some final)).run answer s' =
          (.returned (second, some left), t) ∧
        (applyActions .epoch [] .null (scoreAndTell ++ [.assignTeam team])
          (some lead)).run answer [] = (.returned (applied.append second, some left), t) := by
  intro answer lead team
  have hcalm : ∀ (call : EffectCall) (s : List EffectCall) (text : Option String),
      (answer (.effect call) s).1 ≠ .crashed text := by
    intro call s text
    cases call <;> nofun
  exact ⟨hcalm, applyActions_settled hcalm _ _ _ _ _ _ _ _ _ _⟩

end LeadAutomation
