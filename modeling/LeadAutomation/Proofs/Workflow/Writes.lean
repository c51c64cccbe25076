import LeadAutomation.Proofs.Lead.Writes
import LeadAutomation.Proofs.Workflow.Launches
import LeadAutomation.Scripted

/-!
# What a run writes

A run keeps two accounts of its writes: the lead that it changes as it goes, which later steps see,
and the patch that it merges beside it, which is stored at the end. They agree after every run, up
to the time of the last change: both hold what the actions wrote that the log calls a success, and
nothing else. So what is stored of a lead is what the last step left, even if the run failed or
something broke down in it.
-/

namespace LeadAutomation

open LeadPatch

theorem Action.patch_plan_of_no_lead (action : Action) (payload : Json) (defaults : List String) :
    (action.plan ⟨none, payload⟩ defaults).patch = .empty := by
  unfold plan
  split
  · rfl
  · rfl
  · rfl
  · split <;> rfl
  · rfl
  · rfl

variable {options : Options}

namespace Turn

/-- Whether the log tells of an action that went well. -/
def wrote (turn : Turn options) : Bool := turn.entry.stepKind = .known .action && turn.entry.success

theorem patch_of_no_lead {turn : Turn options} (hlead : turn.view.lead = none) :
    turn.patch = .empty := by
  have hview : turn.view = ⟨none, turn.view.payload⟩ := by rw [← hlead]
  rw [turn.patch_eq, writes, hview]
  split
  · split
    · exact Action.patch_plan_of_no_lead _ _ _
    · rfl
  · rfl

theorem patch_of_wrote {turn : Turn options} (hwrote : turn.wrote = true) :
    turn.patch = turn.writes := by
  rw [wrote, Bool.and_eq_true] at hwrote
  rw [turn.patch_eq, if_pos hwrote.2]

theorem patch_of_not_wrote {turn : Turn options} (hwrote : ¬ turn.wrote = true) :
    turn.patch = .empty := by
  rw [wrote, entry_stepKind, Bool.and_eq_true, decide_eq_true_eq] at hwrote
  rw [turn.patch_eq]
  split
  · next hsuccess => exact turn.writes_eq_empty fun hkind => hwrote ⟨hkind, hsuccess⟩
  · rfl

theorem mergeAll_patch (turns : List (Turn options)) :
    mergeAll (turns.map Turn.patch) = mergeAll ((turns.filter wrote).map writes) := by
  induction turns with
  | nil => rfl
  | cons turn turns ih =>
    by_cases hwrote : turn.wrote = true
    · rw [List.filter_cons_of_pos hwrote, List.map_cons, List.map_cons, mergeAll_cons,
        mergeAll_cons, ih, patch_of_wrote hwrote]
    · rw [List.filter_cons_of_neg hwrote, List.map_cons, mergeAll_cons, ih,
        patch_of_not_wrote hwrote, empty_merge]

end Turn

namespace Course

variable {payload : Json} {steps : List Step} {turns : List (Turn options)}

/-- A course makes the patches of its turns on its lead, each at the time of the turn. -/
theorem final_eq {lead : Lead} {given final : Option Lead}
    (h : Course options payload steps given turns final) (hgiven : given = some lead) :
    final = some (lead.patched (turns.map fun turn => (turn.patch, turn.fresh.now))) := by
  induction h generalizing lead with
  | finished => exact hgiven
  | ended view ends =>
    subst hgiven
    rw [Turn.leadAfter, view]
    rfl
  | next view goesOn later ih =>
    subst hgiven
    refine ih ?_
    rw [Turn.leadAfter, view]
    rfl

theorem exists_final {lead : Lead} {given final : Option Lead}
    (h : Course options payload steps given turns final) (hgiven : given = some lead) :
    ∃ left, final = some left ∧
    left.untimed = (mergeAll (turns.map Turn.patch)).overlay lead.untimed ∧
      ((mergeAll (turns.map Turn.patch)).isEmpty = true → left = lead) := by
  have hpatches : (turns.map fun turn => (turn.patch, turn.fresh.now)).map Prod.fst =
    turns.map Turn.patch := List.map_map
  refine ⟨_, h.final_eq hgiven, ?_, fun hempty => ?_⟩
  · rw [Lead.untimed_patched, hpatches]
  · exact lead.patched_of_isEmpty _ (hpatches ▸ isEmpty_mergeAll_iff.1 hempty)

theorem final_of_no_lead {given final : Option Lead}
    (h : Course options payload steps given turns final) (hgiven : given = none) :
    final = none ∧ mergeAll (turns.map Turn.patch) = .empty := by
  induction h with
  | finished => exact ⟨hgiven, rfl⟩
  | @ended turn rest given view ends =>
    subst hgiven
    have hpatch : turn.patch = .empty := Turn.patch_of_no_lead (by rw [view])
    exact ⟨by rw [Turn.leadAfter, view]; rfl,
      by rw [List.map_singleton, mergeAll_cons, hpatch]; rfl⟩
  | @next turn rest given final turns view goesOn later ih =>
    subst hgiven
    have hpatch : turn.patch = .empty := Turn.patch_of_no_lead (by rw [view])
    obtain ⟨hfinal, hmerged⟩ := ih (by rw [Turn.leadAfter, view]; rfl)
    exact ⟨hfinal, by rw [List.map_cons, mergeAll_cons, hpatch, hmerged]; rfl⟩

end Course

/-- What a run reports of its writes agrees with the lead that it was given and with its turns. -/
structure RunReport.Agrees (report : RunReport) (lead : Option Lead)
    (turns : List (Turn options)) : Prop where
  merged : report.patch = mergeAll ((turns.filter Turn.wrote).map Turn.writes)
  onLead : ∀ given, lead = some given → ∃ left, report.lead = some left ∧
    (∀ now, left.untimed = (report.patch.applyTo now given).untimed) ∧
      (report.patch.isEmpty = true → left = given)
  offLead : lead = none → report.lead = none ∧ report.patch = .empty

theorem Course.agrees {payload : Json} {steps : List Step} {turns : List (Turn options)}
    {lead final : Option Lead} (h : Course options payload steps lead turns final) :
    RunReport.Agrees ⟨mergeAll (turns.map Turn.patch), final⟩ lead turns where
  merged := Turn.mergeAll_patch turns
  onLead := by
    intro given hgiven
    obtain ⟨left, hleft, huntimed, hunchanged⟩ := h.exists_final hgiven
    exact ⟨left, hleft, fun now => by rw [huntimed, untimed_applyTo], hunchanged⟩
  offLead := h.final_of_no_lead

namespace Workflow

/-- What the steps of a run saw and what is stored of it agree, whatever the systems outside do. -/
theorem run_writes_agree {σ : Type} (options : Options) (workflow : Workflow) :
    (∀ (answer : (call : Call) → σ → call.Reply × σ) (world : σ) (execution : Execution)
        (lead : Option Lead),
      execution.status = .running →
      ∃ ended report turns,
        ((workflow.run options execution lead).run answer world).1 = .returned (ended, report) ∧
        ended.log = execution.log ++ turns.map Turn.entry ∧
        Course options execution.triggerData workflow.stepsInOrder lead turns report.lead ∧
        report.Agrees lead turns) ∧
    ∀ (host : Host σ) (s : σ) (lead : Lead) (event : EventKind) (payload : Json),
      Store.find? Lead.id lead.id (host.store s).leads = some lead →
      ∃ ended report ran s' left stored,
        (workflow.run options (workflow.startedRecord host lead event payload s) (some lead)).run
          host.answer
          (workflow.started host lead event payload s) = (.returned (ended, report), ran) ∧
        (workflow.launch options (some lead) event payload).run host.answer s =
          (.returned ended, s') ∧
        report.lead = some left ∧ Store.find? Lead.id lead.id (host.store s').leads = some stored ∧
        stored.untimed = left.untimed := by
  refine ⟨?_, ?_⟩
  · intro answer world execution lead hrunning
    obtain ⟨turns, final, fresh, hcourse, -, hended⟩ :=
      exists_course_of_runs_run hrunning (Program.runs_transcript answer _ world)
    exact ⟨_, _, turns, hended, rfl, hcourse, hcourse.agrees⟩
  · intro host s lead event payload hstored
    obtain ⟨ended, report, ran, s', now, hrun, hlaunch, hs'⟩ :=
      exists_run_launch host options workflow event payload hstored
    have hrunning : (workflow.startedRecord host lead event payload s).status = .running := rfl
    obtain ⟨turns, final, fresh, hcourse, -, hended⟩ := exists_course_of_runs_run hrunning
      (Program.runs_transcript host.answer (workflow.run options _ (some lead))
        (workflow.started host lead event payload s))
    rw [hrun] at hended
    cases hended
    obtain ⟨left, hleft, huntimed, -⟩ := hcourse.agrees.onLead lead rfl
    refine ⟨_, _, ran, s', left, _, hrun, hlaunch, hleft, ?_, (huntimed now).symm⟩
    rw [hs', Store.find?_written hstored]
    rfl

/-- A workflow that scores a lead and then tells sales. -/
def scoreAndTell : Workflow where
  id := ⟨1⟩
  name := "score and tell"
  description := none
  trigger := .manual
  active := true
  priority := 0
  steps := [
    ⟨⟨2⟩, .known .notification, "tell", 2,
      .obj [("message", .str "scored"), ("recipients", .arr [.str "sales"])]⟩,
    ⟨⟨3⟩, .known .action, "score", 1,
      .obj [("metadata", .obj []), ("target", .str "score"), ("type", .str "scoring"),
        ("value", .int 70)]⟩]
  createdBy := none
  createdAt := .epoch
  updatedAt := none

theorem run_writes_agree_scoreAndTell :
    let lead := Lead.blank Program.stillFresh
    let record := Execution.start Program.stillFresh scoreAndTell (some lead.id) none .null []
    let answer := Surroundings.answer fun _ => Program.stillFresh
    let store : Store := { leads := [lead] }
    (record.status = .running ∧
      ∃ ended report turns,
        ((scoreAndTell.run {} record (some lead)).run answer
          { script.notifier := [.crashed (some "no ink")] }).1 =
          .returned (ended, report) ∧
        ended.log = record.log ++ turns.map Turn.entry ∧
        Course {} .null scoreAndTell.stepsInOrder (some lead) turns report.lead ∧
          report.Agrees (some lead) turns) ∧
    Store.find? Lead.id lead.id store.leads = some lead ∧
      ∃ ended report ran s' left stored,
        (scoreAndTell.run {} (scoreAndTell.startedRecord .still lead .manual .null store)
          (some lead)).run Host.still.answer
          (scoreAndTell.started .still lead .manual .null store) =
            (.returned (ended, report), ran) ∧
        (scoreAndTell.launch {} (some lead) .manual .null).run Host.still.answer store =
          (.returned ended, s') ∧
        report.lead = some left ∧ Store.find? Lead.id lead.id s'.leads = some stored ∧
          stored.untimed = left.untimed :=
  ⟨⟨rfl, (run_writes_agree {} scoreAndTell).1 _ _ _ _ rfl⟩, rfl,
    (run_writes_agree {} scoreAndTell).2 .still _ _ _ _ rfl⟩

end Workflow

end LeadAutomation
