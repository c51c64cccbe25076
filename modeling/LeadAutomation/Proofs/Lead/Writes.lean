import LeadAutomation.Proofs.Lead.Patches
import Mathlib.Data.List.Basic
import Mathlib.Data.List.Induction

/-!
# Patches one after another

The actions of a rule and the steps of a workflow write patches, and so do dispatches that follow
each other. Whether they are made one by one or merged first and made at once, the lead comes out
the same but for the time of its last change, and that is the time of the last patch that sets
anything: `Lead.patched_asOne`. So it does not matter for a lead where patches are merged and where
they are made.
-/

namespace LeadAutomation

open LeadPatch

/-! ### What is left of several patches -/

/-- Of several patches, what is set last counts. -/
theorem LeadPatch.mergeAll_eq (patches : List LeadPatch) : mergeAll patches = {
    score := patches.reverse.findSome? score
    status := patches.reverse.findSome? status
    assignedTo := patches.reverse.findSome? assignedTo
    assignedTeam := patches.reverse.findSome? assignedTeam } := by
  have hlast {α : Type} (part : LeadPatch → Option α) (patch : LeadPatch)
    (earlier : List LeadPatch) :
      (earlier ++ [patch]).reverse.findSome? part =
        (part patch).or (earlier.reverse.findSome? part) := by
    rw [List.reverse_concat, List.findSome?_cons]
    cases part patch <;> rfl
  induction patches using List.reverseRecOn with
  | nil => rfl
  | append_singleton earlier patch ih =>
    rw [mergeAll, List.foldl_concat, ← mergeAll, ih]
    simp only [hlast, merge]

namespace LeadPatch

theorem isEmpty_mergeAll_iff {patches : List LeadPatch} :
    (mergeAll patches).isEmpty ↔ ∀ patch ∈ patches, patch.isEmpty := by
  induction patches with
  | nil => simp [mergeAll, isEmpty, empty]
  | cons first rest ih =>
    rw [mergeAll_cons, isEmpty_merge, Bool.and_eq_true, ih, List.forall_mem_cons]

/-- When the last patch was made that sets anything. -/
def lastChange? (writes : List (LeadPatch × Timestamp)) : Option Timestamp :=
  (writes.filter fun write => !write.1.isEmpty).getLast?.map Prod.snd

theorem lastChange?_concat (earlier : List (LeadPatch × Timestamp)) (patch : LeadPatch)
    (time : Timestamp) :
    lastChange? (earlier ++ [(patch, time)]) = if patch.isEmpty then lastChange? earlier
    else some time := by
  rw [lastChange?, List.filter_append]
  split
  · next hempty => simp [hempty, lastChange?]
  · next hsets => simp [hsets]

theorem lastChange?_eq_none_iff {writes : List (LeadPatch × Timestamp)} :
    lastChange? writes = none ↔ (mergeAll (writes.map Prod.fst)).isEmpty := by
  rw [isEmpty_mergeAll_iff, lastChange?]
  simp

end LeadPatch

/-! ### What patches leave of a lead -/

/-- A lead shows what it was when it was saved and what some patches have made of it since. -/
structure Lead.Shows (lead saved : Lead) (patches : List LeadPatch) : Prop where
  score : lead.score = (patches.reverse.findSome? LeadPatch.score).getD saved.score
  status : lead.status = (patches.reverse.findSome? LeadPatch.status).getD saved.status
  assignedTo :
    lead.assignedTo = (patches.reverse.findSome? LeadPatch.assignedTo).or saved.assignedTo
  assignedTeam :
    lead.assignedTeam = (patches.reverse.findSome? LeadPatch.assignedTeam).or saved.assignedTeam
  others : { lead with
    score := saved.score
    status := saved.status
    assignedTo := saved.assignedTo
    assignedTeam := saved.assignedTeam
    updatedAt := saved.updatedAt } = saved
  updatedAt : (∀ patch ∈ patches, patch.isEmpty) → lead.updatedAt = saved.updatedAt

/-- A lead after some patches, each made at its time. -/
def Lead.patched (lead : Lead) (writes : List (LeadPatch × Timestamp)) : Lead :=
  writes.foldl (fun lead write => write.1.applyTo write.2 lead) lead

namespace Lead

variable (lead : Lead) (writes : List (LeadPatch × Timestamp))

theorem untimed_patched :
    (lead.patched writes).untimed = (mergeAll (writes.map Prod.fst)).overlay lead.untimed := by
  induction writes generalizing lead with
  | nil => rfl
  | cons write rest ih =>
    rw [patched, List.foldl_cons, ← patched, ih, untimed_applyTo, List.map_cons,
      mergeAll_cons, overlay_merge]

theorem patched_append (later : List (LeadPatch × Timestamp)) :
    lead.patched (writes ++ later) = (lead.patched writes).patched later :=
  List.foldl_append

theorem patched_of_isEmpty (hempty : ∀ patch ∈ writes.map Prod.fst, patch.isEmpty) :
    lead.patched writes = lead := by
  induction writes with
  | nil => rfl
  | cons write rest ih =>
    obtain ⟨hfirst, hrest⟩ := List.forall_mem_cons.1 hempty
    rw [patched, List.foldl_cons, ← patched, applyTo_of_isEmpty _ _ hfirst, ih hrest]

theorem shows_patched : (lead.patched writes).Shows lead (writes.map Prod.fst) := by
  have huntimed := lead.untimed_patched writes
  rw [mergeAll_eq] at huntimed
  refine ⟨?_, ?_, ?_, ?_, ?_, ?_⟩
  · exact congrArg Lead.score huntimed
  · exact congrArg Lead.status huntimed
  · exact congrArg Lead.assignedTo huntimed
  · exact congrArg Lead.assignedTeam huntimed
  · exact congrArg (fun left => { left with
      score := lead.score
      status := lead.status
      assignedTo := lead.assignedTo
      assignedTeam := lead.assignedTeam
      updatedAt := lead.updatedAt }) huntimed
  · intro hempty
    rw [lead.patched_of_isEmpty writes hempty]

/-- Patches that are made one after another come to their merge, made when the last of them set
anything. -/
theorem patched_eq_applyTo (now : Timestamp) :
    lead.patched writes =
      (mergeAll (writes.map Prod.fst)).applyTo ((lastChange? writes).getD now) lead := by
  induction writes using List.reverseRecOn with
  | nil => exact (applyTo_of_isEmpty _ _ rfl).symm
  | append_singleton earlier write ih =>
    obtain ⟨patch, time⟩ := write
    have hmerged : mergeAll ((earlier ++ [(patch, time)]).map Prod.fst) =
        (mergeAll (earlier.map Prod.fst)).merge patch := by
      rw [List.map_append]
      exact List.foldl_concat _ _ _ _
    rw [patched_append, hmerged, lastChange?_concat]
    change patch.applyTo time (lead.patched earlier) = _
    by_cases hempty : patch.isEmpty
    · rw [applyTo_of_isEmpty _ _ hempty, ih, if_pos hempty,
        (isEmpty_iff patch).1 hempty, merge_empty]
    · -- What was changed before, and when, is seen no more than that of the merge, made at the
      -- same time.
      rw [if_neg hempty, Option.getD_some, applyTo_merge, applyTo_of_not_isEmpty _ _ hempty,
        applyTo_of_not_isEmpty _ _ hempty, untimed_patched, untimed_applyTo]

theorem updatedAt_patched :
    (lead.patched writes).updatedAt = (lastChange? writes).or lead.updatedAt := by
  cases hlast : lastChange? writes with
  | none =>
    rw [lead.patched_of_isEmpty writes (isEmpty_mergeAll_iff.1 (lastChange?_eq_none_iff.1 hlast)),
      Option.none_or]
  | some time =>
    have hsets : ¬ (mergeAll (writes.map Prod.fst)).isEmpty := fun hempty => by
      rw [lastChange?_eq_none_iff.2 hempty] at hlast
      cases hlast
    rw [lead.patched_eq_applyTo writes time, hlast, Option.getD_some,
      applyTo_of_not_isEmpty _ _ hsets, Option.some_or]

/-- A change leaves the time of the last change to a lead as it is, whatever it is. -/
def SparesTime (change : Lead → Lead) : Prop :=
  ∀ time, (change { lead with updatedAt := time }).updatedAt = time

theorem sparesTime_applyTo_iff (patch : LeadPatch) (now : Timestamp) :
    lead.SparesTime (patch.applyTo now) ↔ patch.isEmpty := by
  constructor
  · intro hspares
    by_contra hsets
    have hnever := hspares none
    rw [applyTo_of_not_isEmpty _ _ hsets] at hnever
    cases hnever
  · intro hempty time
    rw [applyTo_of_isEmpty _ _ hempty]

/-- Patches that are made one after another, each at some time, leave the same lead as their merge,
but for the time of the last change. That is the time of the last patch that sets anything, and with
it the lead is the same altogether: each attribute is what it was last set to. The time is left
alone just if the merge sets nothing, which is if no patch does. Patches can be merged in groups, in
any way that keeps their order, and the empty patch adds nothing on either side. -/
theorem patched_asOne (now : Timestamp) :
    let patches := writes.map Prod.fst
    let merged := mergeAll patches
    ((lead.patched writes).untimed = (merged.applyTo now lead).untimed ∧
      lead.patched writes = merged.applyTo ((lastChange? writes).getD now) lead ∧
      (lead.patched writes).Shows lead patches) ∧
    ((lead.patched writes).updatedAt = (lastChange? writes).or lead.updatedAt ∧
      (lastChange? writes = none ↔ merged.isEmpty)) ∧
    ((lead.SparesTime (·.patched writes) ↔ merged.isEmpty) ∧
      (lead.SparesTime (merged.applyTo now) ↔ merged.isEmpty) ∧
      (merged.isEmpty ↔ ∀ patch ∈ patches, patch.isEmpty)) ∧
    (∀ first second third : LeadPatch, (first.merge second).merge third =
      first.merge (second.merge third)) ∧
    (∀ patch : LeadPatch, empty.merge patch = patch ∧ patch.merge empty = patch) := by
  intro patches merged
  have hspares : lead.SparesTime (·.patched writes) ↔ merged.isEmpty := by
    simp only [SparesTime, patched_eq_applyTo _ writes now]
    exact lead.sparesTime_applyTo_iff merged _
  refine ⟨⟨?_, lead.patched_eq_applyTo writes now, lead.shows_patched writes⟩,
    ⟨lead.updatedAt_patched writes, lastChange?_eq_none_iff⟩,
    ⟨hspares, lead.sparesTime_applyTo_iff merged now, isEmpty_mergeAll_iff⟩, ?_, ?_⟩
  · rw [untimed_patched, untimed_applyTo]
  · exact fun first second third => merge_assoc second third first
  · exact fun patch => ⟨empty_merge patch, merge_empty patch⟩

end Lead

end LeadAutomation
