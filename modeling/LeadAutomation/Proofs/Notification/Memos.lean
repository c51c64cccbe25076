import LeadAutomation.Proofs.Notification.Recipients
import LeadAutomation.Proofs.Workflow.Settings

/-!
# Memos

What an action or a step means to tell someone is a memo: a message and a subject as templates, and
the recipients that it names. Both come to memos in their own way, from metadata and from a
configuration, and each recipient that is named, in whatever form of JSON, can be written to:
`Notification.IsAddress`.

A memo is sent just if it says something and someone is there to receive it, `Memo.Qualifies`, which
is how `Memo.compose_toOption` tells what is composed.
-/

namespace LeadAutomation

open Notification (IsAddress)

/-! ### Recipients of steps -/

theorem StepSettings.isAddress_of_mem_recipients {config : Json} {recipient : String}
    (h : recipient ∈ recipients config) :
    IsAddress recipient := by
  unfold recipients at h
  cases hmembers : config.members? with
  | none =>
    rw [hmembers] at h
    cases h
  | some members =>
    rw [hmembers] at h
    exact Notification.isAddress_of_mem_recipientsOf h

theorem Step.recipients_of_settings {step : Step} {message : String} {subject : Option String}
    {named : List String} (h : step.settings = .ok (.notification message subject named)) :
    named = StepSettings.recipients step.config := by
  have hkind := kind_of_settings h
  unfold settings at h
  rw [hkind] at h
  change
    (((fun asked : String × Option String => StepSettings.notification asked.1 asked.2 _) <$>
      StepSettings.notificationFields.decode "NotificationStepConfig" step.config).mapError _) = _
    at h
  cases hread : StepSettings.notificationFields.decode "NotificationStepConfig" step.config with
  | error error =>
    rw [hread] at h
    cases h
  | ok asked =>
    rw [hread] at h
    cases h
    rfl

/-! ### Memos -/

/-- What someone is to be told. -/
structure Memo where
  /-- The message as a template. -/
  message : String
  /-- The subject as a template, if there is one. -/
  subject : Option String
  /-- Who is named to receive it. -/
  named : List String
  addresses : ∀ recipient ∈ named, IsAddress recipient

namespace Memo

variable (memo : Memo) (defaults : List String) (view : RecordView)

/-- Who receives a memo: those whom it names, or else the default recipients. -/
def recipients : List String := if memo.named = [] then defaults else memo.named

/-- The message as it reads for a record. -/
def text : String := Template.render view.text? memo.message

/-- A memo says something, and there is someone to receive it. -/
def Qualifies : Prop := Text.isBlankText (memo.text view) = false ∧ memo.recipients defaults ≠ []

instance : Decidable (memo.Qualifies defaults view) := inferInstanceAs (Decidable (_ ∧ _))

/-- The notification by which a memo is sent. -/
def notification : Notification where
  subject := Template.render view.text? (memo.subject.getD Notification.defaultSubject)
  message := memo.text view
  recipients := memo.recipients defaults
  leadId := view.lead.map (·.id)

variable {defaults} in
theorem isAddress_of_mem_recipients (hdefaults : ∀ recipient ∈ defaults, IsAddress recipient) :
    ∀ recipient ∈ memo.recipients defaults, IsAddress recipient := by
  unfold recipients
  split
  · exact hdefaults
  · exact memo.addresses

theorem compose_toOption :
    (Notification.compose memo.message memo.subject memo.named defaults view).toOption =
    if memo.Qualifies defaults view then some (memo.notification defaults view) else none := by
  have hrecipients : (if memo.named.isEmpty then defaults else memo.named) =
      memo.recipients defaults := by
    simp only [recipients, List.isEmpty_iff]
  unfold Notification.compose
  dsimp only
  rw [hrecipients, ← text]
  by_cases hblank : Text.isBlankText (memo.text view) = true
  · rw [if_pos hblank, if_neg fun hqualifies => Bool.false_ne_true (hqualifies.1.symm.trans hblank)]
    rfl
  · rw [if_neg hblank]
    by_cases hnone : (memo.recipients defaults).isEmpty = true
    · rw [if_pos hnone, if_neg fun hqualifies => hqualifies.2 (List.isEmpty_iff.1 hnone)]
      rfl
    · rw [if_neg hnone, if_pos ⟨Bool.eq_false_iff.2 hblank, mt List.isEmpty_iff.2 hnone⟩]
      rfl

end Memo

/-- What a notification action means to say; no other action says anything. -/
def Action.memo? (action : Action) : Option Memo :=
  if action.kind = .known .notification then
    some ⟨action.valueText?.getD "", (action.metadata.lookup "subject").bind Json.text?,
      Notification.recipientsOf action.metadata,
      fun _ => Notification.isAddress_of_mem_recipientsOf⟩
  else none

/-- What a step means to say, if it is a notification or carries out a notification action. -/
def Step.memo? (step : Step) : Option Memo :=
  match step.settings with
  | .ok (.notification message subject _) =>
    some ⟨message, subject, StepSettings.recipients step.config,
      fun _ => StepSettings.isAddress_of_mem_recipients⟩
  | .ok (.action action) => action.memo?
  | .ok (.condition _) | .ok (.delay _) | .ok (.integration ..) | .error _ => none

end LeadAutomation
