import LeadAutomation.Proofs.Lead.Patches
import LeadAutomation.Workflow.Run

/-!
# What is seen of a lead

Conditions, templates and actions see the attributes of a lead, and the time of its last change is
none of them. So what a step does, and what an action is planned to do, is the same for two leads
that differ in that time alone. Of all steps only a delay looks at the clock.
-/

namespace LeadAutomation

theorem LeadPatch.map_untimed_applyTo (patch : LeadPatch) (now : Timestamp) (lead : Option Lead) :
    (lead.map (patch.applyTo now)).map Lead.untimed =
      (lead.map Lead.untimed).map patch.overlay := by
  cases lead with
  | none => rfl
  | some lead => exact congrArg some (patch.untimed_applyTo now lead)

/-- A view of a lead without the time of its last change. -/
def RecordView.untimed (view : RecordView) : RecordView :=
  { view with lead := view.lead.map Lead.untimed }

namespace RecordView

variable (view : RecordView) (name : String)

theorem attribute?_untimed : view.untimed.attribute? name = view.attribute? name := by
  obtain ⟨lead, payload⟩ := view
  cases lead <;> rfl

theorem lookup_untimed : view.untimed.lookup = view.lookup := by
  funext name
  rw [lookup, attribute?_untimed]
  rfl

theorem text?_untimed : view.untimed.text? = view.text? := by
  funext name
  rw [text?, attribute?_untimed]
  rfl

theorem map_id_untimed : view.untimed.lead.map (·.id) = view.lead.map (·.id) := by
  rw [untimed, Option.map_map]
  rfl

end RecordView

variable {now : Timestamp} {options : Options} {defaults : List String} {view : RecordView}

theorem Notification.compose_untimed {message : String} {subject : Option String}
    {named : List String} :
    compose message subject named defaults view.untimed =
      compose message subject named defaults view := by
  unfold compose
  rw [RecordView.text?_untimed, RecordView.map_id_untimed]

theorem Action.planWrite_untimed (lead : Option Lead) (deed : String)
    (planned : Except ActionFault PlannedWrite) :
    planWrite (lead.map Lead.untimed) deed planned = planWrite lead deed planned := by
  cases lead <;> cases planned <;> rfl

theorem Action.plan_untimed {action : Action} :
    action.plan view.untimed defaults = action.plan view defaults := by
  have hwrite := planWrite_untimed view.lead
  unfold plan planNotification
  rw [Notification.compose_untimed]
  split
  · exact hwrite _ _
  · exact hwrite _ _
  · exact hwrite _ _
  · rfl
  · rw [RecordView.untimed]
    cases view.lead <;> rfl
  · rfl

theorem Action.plan_congr {action : Action} {other : RecordView}
    (h : view.untimed = other.untimed) :
    action.plan view defaults = action.plan other defaults := by
  rw [← plan_untimed, h, plan_untimed]

namespace Step

variable {step : Step}

theorem perform_untimed :
    step.perform now options view.untimed = step.perform now options view := by
  unfold perform performAction
  simp only [Action.plan_untimed, RecordView.lookup_untimed, RecordView.text?_untimed,
    Notification.compose_untimed]

theorem perform_congr {other : RecordView} (h : view.untimed = other.untimed) :
    step.perform now options view = step.perform now options other := by
  rw [← perform_untimed, h, perform_untimed]

theorem perform_of_not_delay (hdelay : ∀ minutes, step.settings ≠ .ok (.delay minutes))
    (now later : Timestamp) :
    step.perform now options view = step.perform later options view := by
  unfold perform
  split
  · rfl
  · rfl
  · rfl
  · next minutes hsettings => exact absurd hsettings (hdelay minutes)
  · rfl
  · rfl

end Step

end LeadAutomation
