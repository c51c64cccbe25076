import LeadAutomation.Proofs.Json.Canonical
import Mathlib.Data.List.Basic

/-!
# Places in a value

Whatever stands in a value is reached from it along branches: into an object by a key, into an array
by a number. A place is the list of the branches that lead to it, and `Json.at?` says what stands
there.

A canonical object is known by its keys and what stands under them: `Members.eq_of_lookup_eq`.
-/

namespace LeadAutomation.Json

/-- A way from an object or an array to a value in it. -/
inductive Branch where
  | member (key : String)
  | item (index : Nat)
deriving DecidableEq

/-- What a branch leads to. -/
def child? : Json → Branch → Option Json
  | .obj members, .member key => members.lookup key
  | .arr items, .item index => items[index]?
  | _, _ => none

/-- What stands at a place. -/
def at? (json : Json) : List Branch → Option Json
  | [] => some json
  | branch :: place => (json.child? branch).bind fun child => child.at? place

variable {json : Json} {members others : Members}

@[simp]
theorem at?_nil : json.at? [] = some json := rfl

theorem at?_cons (branch : Branch) (place : List Branch) :
    json.at? (branch :: place) = (json.child? branch).bind fun child => child.at? place := rfl

/-! ### Induction on what stands in a value -/

/-- What holds of a value if it holds of the items or of the values of the members in it, holds of
all values. -/
@[elab_as_elim]
theorem inside_induction {P : Json → Prop} (null : P .null) (bool : ∀ b, P (.bool b))
    (num : ∀ n, P (.num n)) (str : ∀ s, P (.str s))
    (arr : ∀ items : List Json, (∀ item ∈ items, P item) → P (.arr items))
    (obj : ∀ members : Members, (∀ member ∈ members, P member.2) → P (.obj members)) (json : Json) :
    P json :=
  @Json.rec P (fun items => ∀ item ∈ items, P item) (fun members => ∀ member ∈ members, P member.2)
    (fun member => P member.2)
    null bool num str arr obj
    (List.forall_mem_nil P) (fun _ _ hfirst hrest => List.forall_mem_cons.2 ⟨hfirst, hrest⟩)
    (List.forall_mem_nil _) (fun _ _ hfirst hrest => List.forall_mem_cons.2 ⟨hfirst, hrest⟩)
    (fun _ _ hvalue => hvalue) json

/-! ### Members by their keys -/

theorem lookup_map_value {α β : Type} (f : α → β) (members : List (String × α)) (key : String) :
    (members.map fun member => (member.1, f member.2)).lookup key = (members.lookup key).map f := by
  induction members with
  | nil => rfl
  | cons first rest ih =>
    rw [List.map_cons, List.lookup_cons, List.lookup_cons, ih]
    cases key == first.1 <;> rfl

theorem mem_of_lookup_eq_some {key : String} {value : Json} (h : members.lookup key = some value) :
    (key, value) ∈ members := by
  obtain ⟨before, after, rfl, -⟩ := List.lookup_eq_some_iff.1 h
  simp

theorem lookup_eq_some_of_mem (hkeys : (members.map Prod.fst).Nodup) {key : String} {value : Json}
    (h : (key, value) ∈ members) :
    members.lookup key = some value := by
  obtain ⟨before, after, rfl⟩ := List.append_of_mem h
  refine List.lookup_eq_some_iff.2 ⟨before, after, rfl, fun member hmem => ?_⟩
  rw [List.map_append, List.nodup_append] at hkeys
  have hne : member.1 ≠ key := hkeys.2.2 _ (List.mem_map_of_mem hmem) _ (by simp)
  simpa using hne.symm

/-- Members with the same different keys are the same if they have the same values under them. -/
theorem Members.eq_of_lookup_eq (hdistinct : (members.map Prod.fst).Nodup)
    (hkeys : others.map Prod.fst = members.map Prod.fst)
    (hvalues : ∀ key, others.lookup key = members.lookup key) : others = members := by
  have hlisted {members : Members} (h : (members.map Prod.fst).Nodup) :
      members.map (Prod.map id some) = (members.map Prod.fst).map fun key =>
        (key, members.lookup key) := by
    rw [List.map_map]
    exact List.map_congr_left fun member hmem => Prod.ext rfl (lookup_eq_some_of_mem h hmem).symm
  have hinjective :
      Function.Injective (Prod.map (id : String → String) (some : Json → Option Json)) :=
          fun a b h => by
    simpa [Prod.ext_iff] using h
  apply List.map_injective_iff.2 hinjective
  rw [hlisted hdistinct, hlisted (hkeys ▸ hdistinct), hkeys]
  simp only [hvalues]

/-! ### Canonical values in canonical values -/

theorem Members.Sorted.nodup (h : members.Sorted) : (members.map Prod.fst).Nodup := by
  refine (List.pairwise_map.2 h).imp fun hlt heq => ?_
  exact String.lt_irrefl _ (heq ▸ hlt)

theorem Members.IsCanonical.sorted (h : members.IsCanonical) : members.Sorted :=
  h ▸ sorted_sortMembers (canonicalMembers members)

theorem Members.IsCanonical.value (h : members.IsCanonical) {member : String × Json}
    (hmem : member ∈ members) :
    member.2.IsCanonical := by
  rw [← h] at hmem
  exact isCanonical_of_mem_canonicalMembers members member (mem_of_mem_sortMembers hmem)

theorem isCanonical_arr_iff {items : List Json} :
    (arr items).IsCanonical ↔ ∀ item ∈ items, item.IsCanonical := by
  rw [IsCanonical, canonical, canonicalItems_eq_map, arr.injEq]
  refine ⟨fun h item hmem => ?_, fun h => (List.map_congr_left h).trans (List.map_id items)⟩
  exact List.map_inj_left.1 (h.trans (List.map_id items).symm) item hmem

end LeadAutomation.Json
