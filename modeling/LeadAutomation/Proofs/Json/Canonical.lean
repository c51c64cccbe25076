import LeadAutomation.Json.Basic

/-!
# Canonical values

Decoding brings free-form data into canonical form. What is canonical already stays as it is, so
data that has been decoded once can be written and decoded again any number of times without a
change: `Json.canonical_canonical`.
-/

namespace LeadAutomation.Json

/-- Members in the order of their keys, each key once. -/
def Members.Sorted (members : Members) : Prop := members.Pairwise fun a b => a.1 < b.1

/-- A value that its canonical form is equal to. -/
def IsCanonical (json : Json) : Prop := json.canonical = json

/-- The same of the members of an object. -/
def Members.IsCanonical (members : Members) : Prop :=
  sortMembers (canonicalMembers members) = members

variable {key : String} {value : Json} {members sorted : Members} {member : String × Json}

/-! ### Sorting members -/

theorem mem_of_mem_insertMember (h : member ∈ insertMember key value members) :
    member = (key, value) ∨ member ∈ members := by
  induction members with
  | nil => exact .inl (List.mem_singleton.1 h)
  | cons first rest ih =>
    unfold insertMember at h
    split at h
    · exact List.mem_cons.1 h
    · split at h
      · exact (List.mem_cons.1 h).imp_right (List.mem_cons_of_mem _)
      · rcases List.mem_cons.1 h with rfl | h
        · exact .inr List.mem_cons_self
        · exact (ih h).imp_right (List.mem_cons_of_mem _)

theorem lookup_insertMember (key : String) (value : Json) (members : Members) :
    (insertMember key value members).lookup key = some value := by
  induction members with
  | nil => exact List.lookup_cons_self
  | cons first rest ih =>
    unfold insertMember
    split
    · exact List.lookup_cons_self
    · split
      · exact List.lookup_cons_self
      · next hne => rw [List.lookup_cons, beq_false_of_ne hne, ih]

theorem sorted_insertMember (h : members.Sorted) : (insertMember key value members).Sorted := by
  induction members with
  | nil => exact List.pairwise_singleton _ _
  | cons first rest ih =>
    obtain ⟨hfirst, hrest⟩ := List.pairwise_cons.1 h
    unfold insertMember
    split
    · rename_i hlt
      refine List.pairwise_cons.2 ⟨fun other hmem => ?_, h⟩
      rcases List.mem_cons.1 hmem with rfl | hmem
      · exact hlt
      · exact String.lt_trans hlt (hfirst other hmem)
    · split
      · rename_i heq
        exact List.pairwise_cons.2 ⟨fun other hmem => heq ▸ hfirst other hmem, hrest⟩
      · rename_i hlt hne
        have hgt : first.1 < key := by
          refine String.not_le.1 fun hle => hne (String.le_antisymm hle (String.not_lt.1 hlt))
        refine List.pairwise_cons.2 ⟨fun other hmem => ?_, ih hrest⟩
        rcases mem_of_mem_insertMember hmem with rfl | hmem
        · exact hgt
        · exact hfirst other hmem

theorem insertMember_eq_append (h : ∀ member ∈ members, member.1 < key) :
    insertMember key value members = members ++ [(key, value)] := by
  induction members with
  | nil => rfl
  | cons first rest ih =>
    obtain ⟨hfirst, hrest⟩ := List.forall_mem_cons.1 h
    have hne : key ≠ first.1 := fun heq => String.lt_irrefl key (heq ▸ hfirst)
    rw [insertMember, if_neg (String.lt_asymm hfirst), if_neg hne, ih hrest, List.cons_append]

theorem sorted_sortMembers (members : Members) : (sortMembers members).Sorted := by
  have hfold : ∀ members sorted : Members, sorted.Sorted →
      (members.foldl (fun sorted member => insertMember member.1 member.2 sorted)
        sorted).Sorted := by
    intro members
    induction members with
    | nil => exact fun _ h => h
    | cons first rest ih => exact fun _ h => ih _ (sorted_insertMember h)
  exact hfold members [] .nil

theorem mem_of_mem_sortMembers (h : member ∈ sortMembers members) : member ∈ members := by
  have hfold : ∀ members sorted : Members,
      member ∈ members.foldl (fun sorted member => insertMember member.1 member.2 sorted) sorted →
        member ∈ sorted ∨ member ∈ members := by
    intro members
    induction members with
    | nil => exact fun _ h => .inl h
    | cons first rest ih =>
      intro sorted h
      rcases ih _ h with h | h
      · rcases mem_of_mem_insertMember h with rfl | h
        · exact .inr List.mem_cons_self
        · exact .inl h
      · exact .inr (List.mem_cons_of_mem _ h)
  exact (hfold members [] h).resolve_left List.not_mem_nil

theorem perm_insertMember (h : key ∉ members.map Prod.fst) :
    (insertMember key value members).Perm ((key, value) :: members) := by
  induction members with
  | nil => exact .refl _
  | cons first rest ih =>
    rw [List.map_cons, List.mem_cons, not_or] at h
    unfold insertMember
    split
    · exact .refl _
    · rw [if_neg h.1]
      exact ((ih h.2).cons first).trans (.swap _ _ _)

theorem perm_sortMembers (h : (members.map Prod.fst).Nodup) :
    (sortMembers members).Perm members := by
  have hfold : ∀ members sorted : Members, (members.map Prod.fst ++ sorted.map Prod.fst).Nodup →
      (members.foldl (fun sorted member => insertMember member.1 member.2 sorted) sorted).Perm
        (members ++ sorted) := by
    intro members
    induction members with
    | nil => exact fun sorted _ => .refl sorted
    | cons first rest ih =>
      intro sorted h
      have hinserted : (insertMember first.1 first.2 sorted).Perm (first :: sorted) :=
        perm_insertMember fun hmem => (List.nodup_cons.1 h).1 (List.mem_append_right _ hmem)
      have hkeys :
          (rest.map Prod.fst ++ (insertMember first.1 first.2 sorted).map Prod.fst).Nodup :=
        (((hinserted.map Prod.fst).append_left _).trans List.perm_middle).nodup_iff.2 h
      exact (ih _ hkeys).trans ((hinserted.append_left rest).trans List.perm_middle)
  exact (hfold members [] (by simpa using h)).trans (.of_eq (List.append_nil members))

theorem sortMembers_of_sorted (h : members.Sorted) : sortMembers members = members := by
  have hfold : ∀ members sorted : Members, (sorted ++ members).Sorted →
      members.foldl (fun sorted member => insertMember member.1 member.2 sorted) sorted =
        sorted ++ members := by
    intro members
    induction members with
    | nil => exact fun sorted _ => (List.append_nil sorted).symm
    | cons first rest ih =>
      intro sorted h
      have hlast : ∀ member ∈ sorted, member.1 < first.1 := fun member hmem =>
        (List.pairwise_append.1 h).2.2 member hmem first List.mem_cons_self
      change rest.foldl _ (insertMember first.1 first.2 sorted) = _
      rw [insertMember_eq_append hlast, ih _ (by rwa [List.append_assoc]), List.append_assoc]
      rfl
  exact hfold members [] h

/-! ### Canonical forms -/

theorem canonicalItems_eq_map (items : List Json) : canonicalItems items = items.map canonical := by
  induction items with
  | nil => rfl
  | cons item rest ih => rw [canonicalItems, ih, List.map_cons]

theorem canonicalMembers_eq_map (members : Members) :
    canonicalMembers members = members.map fun member => (member.1, member.2.canonical) := by
  induction members with
  | nil => rfl
  | cons first rest ih => rw [canonicalMembers, ih, List.map_cons]

theorem Members.isCanonical_of_sorted (hsorted : members.Sorted)
    (hvalues : ∀ member ∈ members, member.2.IsCanonical) :
    members.IsCanonical := by
  have hmap : canonicalMembers members = members := by
    rw [canonicalMembers_eq_map]
    refine (List.map_congr_left fun member hmem => ?_).trans (List.map_id members)
    exact congrArg (Prod.mk member.1) (hvalues member hmem)
  rw [Members.IsCanonical, hmap, sortMembers_of_sorted hsorted]

theorem isCanonical_obj_iff : (obj members).IsCanonical ↔ members.IsCanonical := by
  rw [IsCanonical, canonical, obj.injEq]
  rfl

@[simp] theorem isCanonical_null : null.IsCanonical := rfl

@[simp] theorem isCanonical_bool (b : Bool) : (bool b).IsCanonical := rfl

@[simp] theorem isCanonical_num (n : Number) : (num n).IsCanonical := rfl

@[simp] theorem isCanonical_str (s : String) : (str s).IsCanonical := rfl

@[simp] theorem isCanonical_texts (items : List String) : (texts items).IsCanonical := by
  rw [texts, IsCanonical, canonical, canonicalItems_eq_map, List.map_map]
  rfl

/-- An object is canonical that has some of `keys`, in their order. -/
theorem isCanonical_obj_of_keys (keys : List String) (hkeys : (members.map Prod.fst).Sublist keys)
    (hsorted : keys.Pairwise (· < ·)) (hvalues : ∀ member ∈ members, member.2.IsCanonical) :
    (obj members).IsCanonical := by
  have hmembers : members.Sorted := List.pairwise_map.1 (hsorted.sublist hkeys)
  exact isCanonical_obj_iff.2 (Members.isCanonical_of_sorted hmembers hvalues)

section Optional

variable {α : Type} (key : String) (encode : α → Json)

theorem keys_optional (value : Option α) :
    ((optional key encode value).map Prod.fst).Sublist [key] := by
  cases value with
  | none => exact List.nil_sublist _
  | some a => exact .refl _

theorem isCanonical_optional {value : Option α} (h : ∀ a ∈ value, (encode a).IsCanonical) :
    ∀ member ∈ optional key encode value, member.2.IsCanonical := by
  cases value with
  | none => simp [optional]
  | some a => simpa [optional] using h

end Optional

mutual

theorem canonical_canonical : (json : Json) → json.canonical.IsCanonical
  | .null | .bool _ | .num _ | .str _ => rfl
  | .arr items => by
    rw [canonical, IsCanonical, canonical, canonicalItems_canonicalItems items]
  | .obj members => by
    rw [canonical, isCanonical_obj_iff]
    exact Members.isCanonical_of_sorted (sorted_sortMembers _) fun member hmem =>
      isCanonical_of_mem_canonicalMembers members member (mem_of_mem_sortMembers hmem)

theorem canonicalItems_canonicalItems :
    (items : List Json) → canonicalItems (canonicalItems items) = canonicalItems items
  | [] => rfl
  | item :: rest => by
    rw [canonicalItems, canonicalItems, canonical_canonical item,
      canonicalItems_canonicalItems rest]

theorem isCanonical_of_mem_canonicalMembers :
    (members : Members) → ∀ member ∈ canonicalMembers members, member.2.IsCanonical
  | [], _, h => nomatch h
  | (key, value) :: rest, member, h => by
    rcases List.mem_cons.1 h with rfl | h
    · exact canonical_canonical value
    · exact isCanonical_of_mem_canonicalMembers rest member h

end

theorem Members.isCanonical_sortMembers (members : Members) :
    (sortMembers (canonicalMembers members)).IsCanonical :=
  isCanonical_obj_iff.1 (canonical_canonical (obj members))

end LeadAutomation.Json
