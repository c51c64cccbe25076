import LeadAutomation.Lead.Patch

/-!
# Patches and leads

A patch changes the few attributes that it sets and the time of the last change, and nothing else.
Patches made one after another come to the same lead as their merge, up to that time, which is the
only thing about a lead that depends on when a patch was made.
-/

namespace LeadAutomation

/-- A lead without the time of its last change. -/
def Lead.untimed (lead : Lead) : Lead := { lead with updatedAt := none }

namespace LeadPatch

/-- Some patches made one after another, as one. -/
def mergeAll (patches : List LeadPatch) : LeadPatch := patches.foldl merge empty

/-- A lead with the attributes of a patch set, at no time. -/
def overlay (patch : LeadPatch) (lead : Lead) : Lead :=
  { lead with
    score := patch.score.getD lead.score
    status := patch.status.getD lead.status
    assignedTo := patch.assignedTo.or lead.assignedTo
    assignedTeam := patch.assignedTeam.or lead.assignedTeam }

variable (patch later : LeadPatch) (now : Timestamp) (lead : Lead)

theorem isEmpty_iff : patch.isEmpty ↔ patch = empty := by
  obtain ⟨score, status, user, team⟩ := patch
  cases score <;> cases status <;> cases user <;> cases team <;> simp [isEmpty, empty]

theorem applyTo_of_isEmpty {patch : LeadPatch} (hempty : patch.isEmpty) :
    patch.applyTo now lead = lead := by
  rw [applyTo, if_pos hempty]

/-- A patch that sets anything marks the lead with the time, so that nothing is left of when it was
changed before. -/
theorem applyTo_of_not_isEmpty {patch : LeadPatch} (hsets : ¬ patch.isEmpty) :
    patch.applyTo now lead = { patch.overlay lead.untimed with updatedAt := some now } := by
  rw [applyTo, if_neg hsets]
  rfl

@[simp]
theorem id_applyTo : (patch.applyTo now lead).id = lead.id := by
  unfold applyTo
  split <;> rfl

theorem untimed_applyTo : (patch.applyTo now lead).untimed = patch.overlay lead.untimed := by
  by_cases hempty : patch.isEmpty
  · rw [applyTo_of_isEmpty now lead hempty, (isEmpty_iff patch).1 hempty]
    rfl
  · rw [applyTo_of_not_isEmpty now lead hempty]
    rfl

@[simp]
theorem empty_merge : empty.merge patch = patch := by
  simp [merge, empty]

@[simp]
theorem merge_empty : patch.merge empty = patch := by
  simp [merge, empty]

theorem merge_assoc (first : LeadPatch) :
    (first.merge patch).merge later = first.merge (patch.merge later) := by
  simp [merge, Option.or_assoc]

theorem foldl_merge (patches : List LeadPatch) :
    patches.foldl merge patch = patch.merge (mergeAll patches) := by
  induction patches generalizing patch with
  | nil => rfl
  | cons first rest ih =>
    change rest.foldl merge (patch.merge first) = patch.merge (rest.foldl merge (empty.merge first))
    rw [ih, ih (empty.merge first), empty_merge, merge_assoc]

theorem mergeAll_cons (patches : List LeadPatch) :
    mergeAll (patch :: patches) = patch.merge (mergeAll patches) := by
  rw [mergeAll, List.foldl_cons, empty_merge, foldl_merge]

theorem overlay_merge : (patch.merge later).overlay lead = later.overlay (patch.overlay lead) := by
  simp only [overlay, merge, Option.or_assoc, Lead.mk.injEq, true_and, and_true]
  cases later.score <;> cases later.status <;> exact ⟨rfl, rfl⟩

theorem isEmpty_merge : (patch.merge later).isEmpty = (patch.isEmpty && later.isEmpty) := by
  obtain ⟨score, status, user, team⟩ := later
  cases score <;> cases status <;> cases user <;> cases team <;> simp [merge, isEmpty]

/-- Patches that are made at one time come to the same lead as their merge. -/
theorem applyTo_merge :
    (patch.merge later).applyTo now lead = later.applyTo now (patch.applyTo now lead) := by
  by_cases hlater : later.isEmpty
  · rw [applyTo_of_isEmpty now _ hlater, (isEmpty_iff later).1 hlater, merge_empty]
  · have hmerged : ¬ (patch.merge later).isEmpty := by simp [isEmpty_merge, hlater]
    rw [applyTo_of_not_isEmpty now lead hmerged, applyTo_of_not_isEmpty now _ hlater,
      untimed_applyTo, overlay_merge]

theorem applyTo_applyTo_self (again : Timestamp) : patch.applyTo again (patch.applyTo now lead) =
    { patch.applyTo now lead with
      updatedAt := if patch.isEmpty then lead.updatedAt else some again } := by
  by_cases hempty : patch.isEmpty
  · rw [applyTo_of_isEmpty again _ hempty, applyTo_of_isEmpty now _ hempty, if_pos hempty]
  · rw [applyTo_of_not_isEmpty again _ hempty, applyTo_of_not_isEmpty now _ hempty, if_neg hempty]
    unfold overlay
    cases patch.score <;> cases patch.status <;> cases patch.assignedTo <;>
      cases patch.assignedTeam <;> rfl

end LeadPatch

end LeadAutomation
