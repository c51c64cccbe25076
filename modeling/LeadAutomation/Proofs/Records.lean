import LeadAutomation.Store
import Mathlib.Data.List.Nodup

/-!
# Records by identifier

The store finds, replaces and changes records by their identifiers. The theorems here say what each
of these does to a search, which is all that the store is asked, and that the last record put in
place of another is the one that counts.
-/

namespace LeadAutomation.Store

variable {α : Type} {id : α → Uuid} {wanted : Uuid} {item : α} {items : List α}

theorem id_of_find? (h : find? id wanted items = some item) : id item = wanted := by
  simpa using List.find?_some h

theorem find?_cons (first : α) :
    find? id wanted (first :: items) = if id first = wanted then some first
    else find? id wanted items := by
  by_cases h : id first = wanted <;> simp [find?, h]

theorem find?_map {change : α → α} (hid : ∀ item, id (change item) = id item) :
    find? id wanted (items.map change) = (find? id wanted items).map change := by
  simp only [find?, List.find?_map, Function.comp_def, hid]

theorem find?_upsert :
    find? id wanted (upsert id item items) = if id item = wanted then some item
    else find? id wanted items := by
  induction items with
  | nil => exact find?_cons item
  | cons first rest ih =>
    unfold upsert
    split
    · next heq =>
      rw [find?_cons, find?_cons, heq]
      split <;> rfl
    · next hne =>
      rw [find?_cons, find?_cons, ih]
      split
      · next hfirst => rw [if_neg (by rw [← hfirst]; exact fun h => hne h.symm)]
      · rfl

theorem mem_upsert {record : α} (h : record ∈ upsert id item items) :
    record = item ∨ record ∈ items := by
  induction items with
  | nil => exact .inl (List.mem_singleton.1 h)
  | cons first rest ih =>
    unfold upsert at h
    split at h
    · rcases List.mem_cons.1 h with rfl | hrest
      · exact .inl rfl
      · exact .inr (List.mem_cons_of_mem _ hrest)
    · rcases List.mem_cons.1 h with rfl | hrest
      · exact .inr List.mem_cons_self
      · exact (ih hrest).imp_right (List.mem_cons_of_mem _)

theorem upsert_upsert {other : α} (hid : id other = id item) :
    upsert id item (upsert id other items) = upsert id item items := by
  induction items with
  | nil => simp [upsert, hid]
  | cons first rest ih =>
    by_cases h : id first = id item
    · simp [upsert, h, hid]
    · simp [upsert, h, hid, ih]

theorem find?_modify {change : α → α} (hid : ∀ item, id (change item) = id item) :
    find? id wanted (modify id wanted change items) = (find? id wanted items).map change := by
  have hkeep : ∀ item, id (if id item = wanted then change item else item) = id item := by
    intro item
    split
    · exact hid item
    · rfl
  rw [modify, find?_map hkeep]
  cases hfind : find? id wanted items with
  | none => rfl
  | some item => simp [id_of_find? hfind]

theorem find?_modify_of_ne {change : α → α} (hid : ∀ item, id (change item) = id item)
    {other : Uuid} (hne : other ≠ wanted) :
    find? id wanted (modify id other change items) = find? id wanted items := by
  have hkeep : ∀ item, id (if id item = other then change item else item) = id item := by
    intro item
    split
    · exact hid item
    · rfl
  rw [modify, find?_map hkeep]
  cases hfind : find? id wanted items with
  | none => rfl
  | some item =>
    have hother : id item ≠ other := fun heq => hne (heq.symm.trans (id_of_find? hfind))
    rw [Option.map_some, if_neg hother]

theorem modify_eq_self {change : α → α} (hchange : ∀ item, change item = item) :
    modify id wanted change items = items := by
  simp [modify, hchange]

theorem find?_filter_ne (other : Uuid) :
    find? id wanted (items.filter fun item => id item ≠ other) = if other = wanted then none
    else find? id wanted items := by
  rw [find?, List.find?_filter, find?]
  split
  · next heq => simp [heq]
  · next hne =>
    congr 1
    funext item
    by_cases hid : id item = wanted
    · simp [hid, Ne.symm hne]
    · simp [hid]

/-! ### Records in their places -/

theorem upsert_of_find?_eq_none (h : find? id (id item) items = none) :
    upsert id item items = items ++ [item] := by
  induction items with
  | nil => rfl
  | cons first rest ih =>
    rw [find?_cons] at h
    split at h
    · cases h
    · next hne => rw [upsert, if_neg hne, ih h, List.cons_append]

/-- What a record has in common with the one that it replaces stays in its place. -/
theorem map_upsert {β : Type} {f : α → β} {existing : α}
    (h : find? id (id item) items = some existing) (hf : f existing = f item) :
    (upsert id item items).map f = items.map f := by
  induction items with
  | nil => cases h
  | cons first rest ih =>
    rw [find?_cons] at h
    split at h
    · next heq =>
      obtain rfl : first = existing := Option.some.inj h
      rw [upsert, if_pos heq, List.map_cons, List.map_cons, hf]
    · next hne => rw [upsert, if_neg hne, List.map_cons, List.map_cons, ih h]

theorem find?_eq_none_iff : find? id wanted items = none ↔
    ∀ record ∈ items, id record ≠ wanted := by
  simp [find?, List.find?_eq_none]

theorem find?_id_eq_some_iff (h : (items.map id).Nodup) :
    find? id (id item) items = some item ↔ item ∈ items := by
  constructor
  · exact List.mem_of_find?_eq_some
  · intro hmem
    cases hfound : find? id (id item) items with
    | none => exact absurd rfl (find?_eq_none_iff.1 hfound item hmem)
    | some found =>
      rw [List.inj_on_of_nodup_map h (List.mem_of_find?_eq_some hfound) hmem (id_of_find? hfound)]

theorem modify_of_find?_eq_none {change : α → α} (h : find? id wanted items = none) :
    modify id wanted change items = items := by
  rw [modify, List.map_congr_left fun item hmem => if_neg (find?_eq_none_iff.1 h item hmem),
    List.map_id']

theorem nodup_upsert (h : (items.map id).Nodup) : ((upsert id item items).map id).Nodup := by
  cases hfound : find? id (id item) items with
  | some existing => rwa [map_upsert hfound (id_of_find? hfound)]
  | none =>
    rw [upsert_of_find?_eq_none hfound, List.map_append, List.nodup_append]
    refine ⟨h, by simp, ?_⟩
    intro given hgiven other hother heq
    obtain ⟨record, hrecord, rfl⟩ := List.mem_map.1 hgiven
    obtain rfl : other = id item := List.mem_singleton.1 hother
    exact find?_eq_none_iff.1 hfound record hrecord heq

end LeadAutomation.Store
