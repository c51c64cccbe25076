import LeadAutomation.Dispatch

/-!
# Order

Rules and workflows take their turns by descending priority and steps by ascending position, and
where two of them tie the one listed first comes first. `StablySorted` says both: the keys stand in
order, and items of one key stand as they stood.
-/

namespace LeadAutomation

/-- `sorted` is `items` in the order of their keys, where those that tie keep their order. -/
structure StablySorted {α κ : Type} [DecidableEq κ] (before : κ → κ → Prop) (key : α → κ)
    (items sorted : List α) :
    Prop where
  ordered : sorted.Pairwise fun a b => before (key a) (key b)
  ties (k : κ) : sorted.filter (fun a => key a = k) = items.filter fun a => key a = k

/-- A stable sort does not change the order of items that tie with one another. -/
theorem mergeSort_filter {α : Type} {le : α → α → Bool} (trans : ∀ a b c, le a b → le b c → le a c)
    (total : ∀ a b, le a b || le b a) {tied : α → Bool} (htied : ∀ a b, tied a → tied b → le a b)
    (items : List α) :
    (items.mergeSort le).filter tied = items.filter tied := by
  have hpairwise : (items.filter tied).Pairwise fun a b => le a b :=
    List.pairwise_of_forall_mem_list fun a ha b hb =>
      htied a b (List.mem_filter.1 ha).2 (List.mem_filter.1 hb).2
  have hsublist : (items.filter tied).Sublist (items.mergeSort le) :=
    List.sublist_mergeSort trans total hpairwise List.filter_sublist
  have hfiltered : (items.filter tied).Sublist ((items.mergeSort le).filter tied) := by
    simpa only [List.filter_filter, Bool.and_self] using hsublist.filter tied
  have hlength : (items.filter tied).length = ((items.mergeSort le).filter tied).length :=
    ((List.mergeSort_perm items le).filter tied).length_eq.symm
  exact (hfiltered.eq_of_length hlength).symm

/-- Two lists in the order of their keys are the same if those that tie stand in both alike. -/
theorem eq_of_ordered_of_ties {α κ : Type} [DecidableEq κ] {before : κ → κ → Prop}
    (antisymm : ∀ p q, before p q → before q p → p = q) {key : α → κ} {items others : List α}
    (hitems : items.Pairwise fun a b => before (key a) (key b))
    (hothers : others.Pairwise fun a b => before (key a) (key b))
    (hties : ∀ k, (items.filter fun a => key a = k) = others.filter fun a => key a = k) :
    items = others := by
  have hmem {mine theirs : List α}
      (h : ∀ k, (mine.filter fun a => key a = k) = theirs.filter fun a => key a = k) (a : α) :
      a ∈ mine ↔ a ∈ theirs := by
    simpa [List.mem_filter] using congrArg (a ∈ ·) (h (key a))
  induction items generalizing others with
  | nil =>
    exact (List.eq_nil_iff_forall_not_mem.2 fun a ha => List.not_mem_nil ((hmem hties a).2 ha)).symm
  | cons first rest ih =>
    cases others with
    | nil => exact absurd ((hmem hties first).1 List.mem_cons_self) List.not_mem_nil
    | cons second later =>
      obtain ⟨hfirst, hrest⟩ := List.pairwise_cons.1 hitems
      obtain ⟨hsecond, hlater⟩ := List.pairwise_cons.1 hothers
      -- The heads tie, since neither key can stand strictly before the other.
      have hkey : key first = key second := by
        rcases List.mem_cons.1 ((hmem hties first).1 List.mem_cons_self) with heq | hfirstLater
        · rw [heq]
        rcases List.mem_cons.1 ((hmem hties second).2 List.mem_cons_self) with heq | hsecondRest
        · rw [heq]
        exact antisymm _ _ (hfirst second hsecondRest) (hsecond first hfirstLater)
      have hheads := hties (key first)
      rw [List.filter_cons_of_pos (by simp), List.filter_cons_of_pos (by simp [hkey])] at hheads
      obtain ⟨rfl, -⟩ := List.cons.inj hheads
      congr 1
      refine ih hrest hlater fun k => ?_
      by_cases hk : key first = k
      · simpa [List.filter_cons_of_pos, hk] using hties k
      · simpa [List.filter_cons_of_neg, hk] using hties k

theorem StablySorted.unique {α κ : Type} [DecidableEq κ] {before : κ → κ → Prop}
    (antisymm : ∀ p q, before p q → before q p → p = q) {key : α → κ}
    {items others sorted arranged : List α} (h : StablySorted before key items sorted)
    (hother : StablySorted before key others arranged)
    (hties : ∀ k, (items.filter fun a => key a = k) = others.filter fun a => key a = k) :
    sorted = arranged :=
  eq_of_ordered_of_ties antisymm h.ordered hother.ordered fun k => by
    rw [h.ties, hties, hother.ties]

theorem StablySorted.mem_iff {α κ : Type} [DecidableEq κ] {before : κ → κ → Prop} {key : α → κ}
    {items sorted : List α} (h : StablySorted before key items sorted) (a : α) :
    a ∈ sorted ↔ a ∈ items := by
  simpa [List.mem_filter] using congrArg (a ∈ ·) (h.ties (key a))

theorem StablySorted.map {α β κ : Type} [DecidableEq κ] {before : κ → κ → Prop} {key : β → κ}
    {items sorted : List α} (f : α → β)
    (h : StablySorted before (fun a => key (f a)) items sorted) :
    StablySorted before key (items.map f) (sorted.map f) := by
  refine ⟨List.pairwise_map.2 h.ordered, fun k => ?_⟩
  rw [List.filter_map, List.filter_map]
  exact congrArg (List.map f) (h.ties k)

/-- What is found first in the order of the keys was listed before all that passes the test and ties
with it, and nothing that passes the test has a key strictly before its own. -/
theorem StablySorted.earliest_of_find? {α κ : Type} [DecidableEq κ] {before : κ → κ → Prop}
    {key : α → κ} {items sorted : List α} {admitted test : α → Bool}
    (h : StablySorted before key (items.filter admitted) sorted) (refl : ∀ k, before k k)
    (hadmits : ∀ b, test b = true → admitted b = true) {a : α}
    (hfound : sorted.find? test = some a) :
    (∀ b ∈ items, test b = true → before (key a) (key b)) ∧
    ∃ earlier later, items = earlier ++ a :: later ∧ ∀ b ∈ earlier, test b = true →
    key b ≠ key a := by
  obtain ⟨-, front, back, rfl, hfront⟩ := List.find?_eq_some_iff_append.1 hfound
  have hpasses : ∀ b ∈ front, test b ≠ true := fun b hb => by simpa using hfront b hb
  constructor
  · intro b hb hbtest
    have hmem := (h.mem_iff b).2 (List.mem_filter.2 ⟨hb, hadmits b hbtest⟩)
    rcases List.mem_append.1 hmem with hbfront | hbback
    · exact absurd hbtest (hpasses b hbfront)
    · rcases List.mem_cons.1 hbback with rfl | hblater
      · exact refl _
      · exact List.rel_of_pairwise_cons (List.pairwise_append.1 h.ordered).2.1 hblater
  · -- Those that tie with it stand in the items as they stand when sorted.
    have hties := h.ties (key a)
    rw [List.filter_append, List.filter_cons_of_pos (by simp), List.filter_filter] at hties
    obtain ⟨listed, rest, rfl, hlisted, hrest⟩ := List.filter_eq_append_iff.1 hties.symm
    obtain ⟨skipped, later, rfl, hskipped, -⟩ := List.filter_eq_cons_iff.1 hrest
    refine ⟨listed ++ skipped, later, (List.append_assoc ..).symm, fun b hb hbtest hkey => ?_⟩
    have htied : (decide (key b = key a) && admitted b) = true := by simp [hkey, hadmits b hbtest]
    rcases List.mem_append.1 hb with hblisted | hbskipped
    · have hbfront : b ∈ front.filter fun a' => key a' = key a :=
        hlisted ▸ List.mem_filter.2 ⟨hblisted, htied⟩
      exact hpasses b (List.mem_filter.1 hbfront).1 hbtest
    · exact hskipped b hbskipped htied

theorem filter_key_of_perm {α κ : Type} [DecidableEq κ] {key : α → κ} {items others : List α}
    (h : items.Perm others) (hkeys : (items.map key).Nodup) (k : κ) :
    (items.filter fun a => key a = k) = others.filter fun a => key a = k := by
  have hperm := h.filter fun a => decide (key a = k)
  cases hfiltered : items.filter fun a => key a = k with
  | nil => rwa [hfiltered, List.nil_perm, eq_comm] at hperm
  | cons a rest =>
    have hnodup : ((a :: rest).map key).Nodup :=
      (hfiltered ▸ List.filter_sublist.map key).nodup hkeys
    have hkey : ∀ b ∈ a :: rest, key b = k := by
      rw [← hfiltered]
      exact fun b hb => of_decide_eq_true (List.mem_filter.1 hb).2
    cases rest with
    | nil =>
      rw [hfiltered] at hperm
      exact (List.perm_singleton.1 hperm.symm).symm
    | cons b later =>
      have htied : key a = key b := (hkey a (by simp)).trans (hkey b (by simp)).symm
      simp [htied] at hnodup

theorem mergeSort_stablySorted {α κ : Type} [DecidableEq κ] (before : κ → κ → Prop)
    [DecidableRel before] (trans : ∀ a b c, before a b → before b c → before a c)
    (total : ∀ a b, before a b ∨ before b a) (key : α → κ) (items : List α) :
    StablySorted before key items (items.mergeSort fun a b => decide (before (key a) (key b))) := by
  have htrans : ∀ a b c, decide (before (key a) (key b)) → decide (before (key b) (key c)) →
      decide (before (key a) (key c)) := by
    intro a b c hab hbc
    rw [decide_eq_true_eq] at hab hbc ⊢
    exact trans _ _ _ hab hbc
  have htotal : ∀ a b, decide (before (key a) (key b)) || decide (before (key b) (key a)) := by
    intro a b
    simpa only [Bool.or_eq_true, decide_eq_true_eq] using total (key a) (key b)
  constructor
  · simpa only [decide_eq_true_eq] using List.pairwise_mergeSort htrans htotal items
  · intro k
    apply mergeSort_filter htrans htotal
    intro a b ha hb
    rw [decide_eq_true_eq] at ha hb ⊢
    rw [ha, hb]
    exact (total k k).elim id id

theorem Rule.byPriority_stablySorted {α : Type} (priority : α → Int32) (items : List α) :
    StablySorted (fun p q => q ≤ p) priority items (Rule.byPriority priority items) :=
  mergeSort_stablySorted (fun p q => q ≤ p) (fun _ _ _ hab hbc => Int32.le_trans hbc hab)
    (fun p q => Int32.le_total q p) priority items

theorem Rule.byPriority_congr {α : Type} {priority : α → Int32} {items others : List α}
    (hties : ∀ k, (items.filter fun a => priority a = k) = others.filter fun a => priority a = k) :
    Rule.byPriority priority items = Rule.byPriority priority others :=
  (Rule.byPriority_stablySorted priority items).unique
    (fun _ _ hqp hpq => Int32.le_antisymm hpq hqp)
    (Rule.byPriority_stablySorted priority others) hties

theorem Workflow.stepsInOrder_stablySorted (workflow : Workflow) :
    StablySorted (· ≤ ·) Step.position workflow.steps workflow.stepsInOrder :=
  mergeSort_stablySorted (· ≤ ·) (fun _ _ _ => Int32.le_trans) Int32.le_total
    Step.position workflow.steps

end LeadAutomation
