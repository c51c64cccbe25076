import LeadAutomation.Action.Plan
import LeadAutomation.Error
import LeadAutomation.Workflow.Settings

/-!
# Messages

What has gone wrong is told in words, and most of them are put together from fixed phrases and texts
that come from elsewhere. So that two kinds of failure cannot be taken for each other is a matter of
the letters in fixed places: a message keeps the letters of the phrase that it begins with,
`Text.getElem?_append`.
-/

namespace LeadAutomation

namespace Text

theorem getElem?_append {s rest : String} {index : Nat} {c : Char} (h : s.toList[index]? = some c) :
    (s ++ rest).toList[index]? = some c := by
  rw [String.toList_append, List.getElem?_append_left (List.getElem?_eq_some_iff.1 h).1, h]

theorem ne_of_getElem? {s t : String} {index : Nat} {c d : Char} (hs : s.toList[index]? = some c)
    (ht : t.toList[index]? = some d) (hne : c ≠ d) : s ≠ t := by
  rintro rfl
  rw [hs] at ht
  exact hne (Option.some.inj ht)

end Text

open Text (getElem?_append ne_of_getElem?)

/-! ### First letters -/

theorem ExecutionStateError.exists_initial_message (error : ExecutionStateError) :
    ∃ c, error.message.toList[0]? = some c ∧ c ≠ 'u' ∧ c ≠ 'i' := by
  cases error with
  | alreadyFinalized id status =>
    exact ⟨'e', getElem?_append (getElem?_append (getElem?_append rfl)), by decide⟩
  | notRunning id status =>
    exact ⟨'e', getElem?_append (getElem?_append (getElem?_append (getElem?_append rfl))),
      by decide⟩
  | notTerminal status =>
    cases status with
    | pending => exact ⟨'p', rfl, by decide⟩
    | running => exact ⟨'r', rfl, by decide⟩
    | completed => exact ⟨'c', rfl, by decide⟩
    | failed => exact ⟨'f', rfl, by decide⟩
    | cancelled => exact ⟨'c', rfl, by decide⟩

/-- No failure of a system outside reads like a complaint about the action itself. -/
theorem AutomationError.exists_initial_message (error : AutomationError) :
    ∃ c, error.message.toList[0]? = some c ∧ c ≠ 'u' ∧ c ≠ 'i' := by
  cases error with
  | repository detail => exact ⟨'R', getElem?_append rfl, by decide⟩
  | ruleNotFound id => exact ⟨'R', getElem?_append (getElem?_append rfl), by decide⟩
  | workflowNotFound id => exact ⟨'W', getElem?_append (getElem?_append rfl), by decide⟩
  | leadNotFound id => exact ⟨'L', getElem?_append (getElem?_append rfl), by decide⟩
  | executionNotFound id => exact ⟨'E', getElem?_append (getElem?_append rfl), by decide⟩
  | invalidDefinition detail => exact ⟨'I', getElem?_append rfl, by decide⟩
  | executionState error => exact error.exists_initial_message
  | notification detail => exact ⟨'N', getElem?_append rfl, by decide⟩
  | integration system detail =>
    exact ⟨'I', getElem?_append (getElem?_append (getElem?_append rfl)), by decide⟩
  | enrichment detail => exact ⟨'E', getElem?_append rfl, by decide⟩

theorem message_ne_unsupported (error : AutomationError) (kind : String) :
    error.message ≠ (ActionFault.unsupported kind).message := by
  obtain ⟨c, hc, hne⟩ := error.exists_initial_message
  exact ne_of_getElem? hc (getElem?_append (getElem?_append rfl)) hne.1

theorem message_unknownTarget_ne_unsupported (given kind : String) :
    (ActionFault.unknownTarget given).message ≠ (ActionFault.unsupported kind).message := by
  have hgiven : (ActionFault.unknownTarget given).message.toList[2]? = some 'k' :=
    getElem?_append (getElem?_append rfl)
  have hkind : (ActionFault.unsupported kind).message.toList[2]? = some 's' :=
    getElem?_append (getElem?_append rfl)
  exact ne_of_getElem? hgiven hkind (by decide)

theorem Notification.Unsendable.initial_message (reason : Notification.Unsendable) :
    reason.message.toList[0]? = some 'n' := by
  cases reason <;> rfl

/-! ### Actions that cannot be planned -/

/-- The complaint about an action begins with a letter of its own. -/
def ActionFault.IsApart (fault : ActionFault) : Prop :=
  ∃ c, fault.message.toList[0]? = some c ∧ c ≠ 'u' ∧ c ≠ 'i'

namespace Action

variable {action : Action} {fault : ActionFault}

theorem isApart_of_planAssignment (h : action.planAssignment = .error fault) :
    fault.IsApart ∨ ∃ given, fault = .unknownTarget given := by
  unfold planAssignment at h
  split at h
  · cases h
    exact .inl ⟨'a', getElem?_append rfl, by decide⟩
  split at h
  · cases h
    exact .inl ⟨_, getElem?_append (getElem?_append rfl), by decide⟩
  split at h
  · cases h
    exact .inr ⟨_, rfl⟩
  · cases h

theorem isApart_of_planScoring (h : action.planScoring = .error fault) : fault.IsApart := by
  unfold planScoring at h
  split at h
  · cases h
    exact ⟨'s', getElem?_append (getElem?_append rfl), by decide⟩
  · cases h

theorem isApart_of_planStatusChange (h : action.planStatusChange = .error fault) :
    fault.IsApart := by
  unfold planStatusChange at h
  split at h
  · cases h
    exact ⟨'s', getElem?_append rfl, by decide⟩
  split at h
  · cases h
    exact ⟨_, getElem?_append (getElem?_append rfl), by decide⟩
  · cases h

theorem fault_of_planWrite {lead : Option Lead} {deed : String}
    {planned : Except ActionFault PlannedWrite} (h : planWrite lead deed planned = .fault fault) :
    fault = .needsLead deed ∨ planned = .error fault := by
  unfold planWrite at h
  split at h
  · cases h
    exact .inl rfl
  · cases h
  · cases h
    exact .inr rfl

/-- What a complaint about an action is about can be told from its first letters. -/
theorem fault_of_plan {view : RecordView} {defaults : List String}
    (h : action.plan view defaults = .fault fault) :
    fault.IsApart ∨ (∃ given, fault = .unknownTarget given) ∨
      ∃ kind unknown, action.kind = .other kind unknown ∧ fault = .unsupported kind := by
  have hneedsLead {deed : String} {c : Char} (hdeed : deed.toList[0]? = some c)
    (hne : c ≠ 'u' ∧ c ≠ 'i') :
      (ActionFault.needsLead deed).IsApart := ⟨c, getElem?_append hdeed, hne⟩
  unfold plan at h
  split at h
  · obtain rfl | hplanned := fault_of_planWrite h
    · exact .inl (hneedsLead (c := 'a') rfl (by decide))
    · exact (isApart_of_planAssignment hplanned).imp_right .inl
  · obtain rfl | hplanned := fault_of_planWrite h
    · exact .inl (hneedsLead (c := 's') rfl (by decide))
    · exact .inl (isApart_of_planScoring hplanned)
  · obtain rfl | hplanned := fault_of_planWrite h
    · exact .inl (hneedsLead (c := 's') rfl (by decide))
    · exact .inl (isApart_of_planStatusChange hplanned)
  · split at h
    · cases h
    · cases h
      exact .inl ⟨'n', Notification.Unsendable.initial_message _, by decide⟩
  · split at h
    · cases h
    · cases h
      exact .inl (hneedsLead (c := 'e') rfl (by decide))
  · next kind unknown hkind =>
    cases h
    exact .inr (.inr ⟨kind, unknown, hkind, rfl⟩)

theorem message_ne_unsupported_of_plan {view : RecordView} {defaults : List String}
    (h : action.plan view defaults = .fault fault)
    (hkind : ∀ text unknown, action.kind ≠ .other text unknown) (kind : String) :
    fault.message ≠ (ActionFault.unsupported kind).message := by
  obtain ⟨c, hc, hne⟩ | ⟨given, rfl⟩ | ⟨text, unknown, hother, -⟩ := fault_of_plan h
  · exact ne_of_getElem? hc (getElem?_append (getElem?_append rfl)) hne.1
  · exact message_unknownTarget_ne_unsupported given kind
  · exact absurd hother (hkind text unknown)

end Action

/-! ### Steps that cannot be read -/

namespace StepFault

/-- A text differs in fixed places from all that is said of steps that cannot be read. -/
def Unlike (text : String) : Prop :=
  ∃ c, text.toList[0]? = some c ∧ c ≠ 'i' ∧ (c = 'u' → ∃ d, text.toList[12]? = some d ∧ d ≠ 's')

namespace Unlike

variable {text : String} {c : Char}

theorem message_ne (h : Unlike text) (fault : StepFault) : text ≠ fault.message := by
  obtain ⟨c, hc, hi, hu⟩ := h
  cases fault with
  | unsupported kind =>
    by_cases hcu : c = 'u'
    · obtain ⟨d, hd, hs⟩ := hu hcu
      exact ne_of_getElem? hd (getElem?_append (getElem?_append rfl)) hs
    · exact ne_of_getElem? hc (getElem?_append (getElem?_append rfl)) hcu
  | invalidConfig kind error =>
    exact ne_of_getElem? hc (getElem?_append (getElem?_append (getElem?_append rfl))) hi

theorem of_initial (h : text.toList[0]? = some c) (hne : c ≠ 'u' ∧ c ≠ 'i') : Unlike text :=
  ⟨c, h, hne.2, fun hu => absurd hu hne.1⟩

theorem message (error : AutomationError) : Unlike error.message := by
  obtain ⟨c, hc, hne⟩ := error.exists_initial_message
  exact .of_initial hc hne

theorem unsendable (reason : Notification.Unsendable) : Unlike reason.message :=
  .of_initial reason.initial_message (by decide)

end Unlike

end StepFault

theorem Action.unlike_of_plan {action : Action} {fault : ActionFault} {view : RecordView}
    {defaults : List String} (h : action.plan view defaults = .fault fault) :
    StepFault.Unlike fault.message := by
  obtain ⟨c, hc, hne⟩ | ⟨given, rfl⟩ | ⟨kind, unknown, -, rfl⟩ := fault_of_plan h
  · exact .of_initial hc hne
  · -- This one begins as if it were about a step of an unsupported type.
    refine ⟨'u', getElem?_append (getElem?_append rfl), by decide, fun _ => ?_⟩
    exact ⟨'g', getElem?_append (getElem?_append rfl), by decide⟩
  · -- So does this one.
    refine ⟨'u', getElem?_append (getElem?_append rfl), by decide, fun _ => ?_⟩
    exact ⟨'a', getElem?_append (getElem?_append rfl), by decide⟩

end LeadAutomation
