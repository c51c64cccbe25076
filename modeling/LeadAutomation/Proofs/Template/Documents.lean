import LeadAutomation.Proofs.Json.Places
import LeadAutomation.RecordView
import LeadAutomation.Template

/-!
# Documents as templates

The data that goes out to other systems is a document in which each text is a template. Rendering it
changes texts and nothing else: the same places are taken, objects have the keys that they had and
arrays as many items, and no text is rendered twice or left out. `renderJson_keepsShape` says so and
that this leaves nothing open: a document that keeps the shape of another, with its texts rendered,
is the rendered one.
-/

namespace LeadAutomation

namespace Json

/-- What stands at a place, and what stands there when the texts of the document have been
changed. -/
inductive Becomes (f : String → String) : Json → Json → Prop
  | text (s : String) : Becomes f (.str s) (.str (f s))
  | object {members others : Members} (keys : others.map Prod.fst = members.map Prod.fst) :
    Becomes f (.obj members) (.obj others)
  | array {items others : List Json} (length : others.length = items.length) :
    Becomes f (.arr items) (.arr others)
  | null : Becomes f .null .null
  | bool (b : Bool) : Becomes f (.bool b) (.bool b)
  | num (n : Number) : Becomes f (.num n) (.num n)

/-- A document and another one in which the same places are taken, by the same but for texts that
have been changed. -/
def KeepsShape (f : String → String) (json out : Json) : Prop :=
  ∀ place, Option.Rel (Becomes f) (json.at? place) (out.at? place)

variable {f : String → String} {json out : Json}

theorem mapTextItems_eq_map (f : String → String) (items : List Json) :
    mapTextItems f items = items.map (mapText f) := by
  induction items with
  | nil => rfl
  | cons item rest ih => rw [mapTextItems, ih, List.map_cons]

theorem mapTextMembers_eq_map (f : String → String) (members : Members) :
    mapTextMembers f members = members.map fun member => (member.1, member.2.mapText f) := by
  induction members with
  | nil => rfl
  | cons first rest ih => rw [mapTextMembers, ih, List.map_cons]

/-! ### What changing texts keeps -/

theorem child?_mapText (f : String → String) (json : Json) (branch : Branch) :
    (json.mapText f).child? branch = (json.child? branch).map (mapText f) := by
  cases json with
  | obj members =>
    cases branch with
    | member key => simp only [mapText, child?, mapTextMembers_eq_map, lookup_map_value]
    | item index => rfl
  | arr items =>
    cases branch with
    | member key => rfl
    | item index => simp only [mapText, child?, mapTextItems_eq_map, List.getElem?_map]
  | null | bool _ | num _ | str _ => rfl

theorem at?_mapText (f : String → String) (json : Json) (place : List Branch) :
    (json.mapText f).at? place = (json.at? place).map (mapText f) := by
  induction place generalizing json with
  | nil => rfl
  | cons branch place ih =>
    rw [at?_cons, at?_cons, child?_mapText]
    cases json.child? branch with
    | none => rfl
    | some child => exact ih child

theorem becomes_mapText (f : String → String) (json : Json) : json.Becomes f (json.mapText f) := by
  cases json with
  | obj members => exact .object (by rw [mapTextMembers_eq_map, List.map_map]; rfl)
  | arr items => exact .array (by rw [mapTextItems_eq_map, List.length_map])
  | str s => exact .text s
  | null => exact .null
  | bool b => exact .bool b
  | num n => exact .num n

theorem keepsShape_mapText (f : String → String) (json : Json) :
    json.KeepsShape f (json.mapText f) := by
  intro place
  rw [at?_mapText]
  cases json.at? place with
  | none => exact .none
  | some part => exact .some (becomes_mapText f part)

/-! ### What keeps the shape -/

theorem KeepsShape.becomes (h : json.KeepsShape f out) : json.Becomes f out :=
  Option.rel_some_some.1 (h [])

theorem KeepsShape.child (h : json.KeepsShape f out) (branch : Branch) :
    Option.Rel (KeepsShape f) (json.child? branch) (out.child? branch) := by
  have hplaces (place : List Branch) := h (branch :: place)
  simp only [at?_cons] at hplaces
  cases hchild : json.child? branch with
  | none =>
    cases hother : out.child? branch with
    | none => exact .none
    | some other => simpa [hchild, hother] using hplaces []
  | some child =>
    cases hother : out.child? branch with
    | none => simpa [hchild, hother] using hplaces []
    | some other => exact .some fun place => by simpa [hchild, hother] using hplaces place

theorem eq_map_of_rel {α β : Type} {r : α → β → Prop} {g : α → β} {a : Option α} {b : Option β}
    (h : Option.Rel r a b) (hunique : ∀ x, a = some x → ∀ y, r x y → y = g x) : b = a.map g := by
  cases h with
  | none => rfl
  | some hrel => exact congrArg some (hunique _ rfl _ hrel)

theorem KeepsShape.eq_of_object {members : Members} (hkeys : (members.map Prod.fst).Nodup)
    (hvalues : ∀ member ∈ members, ∀ other, member.2.KeepsShape f other →
      other = member.2.mapText f)
    (h : (obj members).KeepsShape f out) : out = (obj members).mapText f := by
  cases h.becomes with
  | object hsame =>
    have hchild (key : String) := eq_map_of_rel (h.child (.member key)) fun value hvalue =>
      hvalues (key, value) (mem_of_lookup_eq_some hvalue)
    rw [mapText, mapTextMembers_eq_map]
    refine congrArg obj (Members.eq_of_lookup_eq ?_ ?_ fun key => ?_)
    · simpa [Function.comp_def] using hkeys
    · simpa [Function.comp_def] using hsame
    · rw [lookup_map_value]
      exact hchild key

theorem KeepsShape.eq_of_array {items : List Json}
    (hitems : ∀ item ∈ items, ∀ other, item.KeepsShape f other → other = item.mapText f)
    (h : (arr items).KeepsShape f out) : out = (arr items).mapText f := by
  cases h.becomes with
  | array =>
    have hchild (index : Nat) := eq_map_of_rel (h.child (.item index)) fun item hitem =>
      hitems item (List.mem_of_getElem? hitem)
    rw [mapText, mapTextItems_eq_map]
    refine congrArg arr (List.ext_getElem? fun index => ?_)
    rw [List.getElem?_map]
    exact hchild index

/-- Nothing but the document with its texts changed keeps the shape of a canonical document. -/
theorem KeepsShape.eq_mapText (hcanonical : json.IsCanonical) (h : json.KeepsShape f out) :
    out = json.mapText f := by
  induction json using inside_induction generalizing out with
  | null | bool b | num n | str s =>
    cases h.becomes
    rfl
  | arr items ih =>
    exact h.eq_of_array fun item hmem other =>
      ih item hmem (isCanonical_arr_iff.1 hcanonical item hmem)
  | obj members ih =>
    have hmembers := isCanonical_obj_iff.1 hcanonical
    exact h.eq_of_object hmembers.sorted.nodup fun member hmem other =>
      ih member hmem (hmembers.value hmem)

end Json

/-- A rendered document has the shape of the document: a value stands at the same places, under the
same keys and in arrays of the same length, a text is rendered where one stood, and everything else
stays. No other document has all that. -/
theorem Template.renderJson_keepsShape (json : Json) (lead : Option Lead) (payload : Json) :
    let text? := RecordView.text? ⟨lead, payload⟩
    json.KeepsShape (render text?) (renderJson text? json) ∧
    (json.IsCanonical → ∀ out, json.KeepsShape (render text?) out ↔
      out = renderJson text? json) := by
  intro text?
  have hkeeps : json.KeepsShape (render text?) (renderJson text? json) :=
    Json.keepsShape_mapText _ json
  refine ⟨hkeeps, fun hcanonical out => ⟨Json.KeepsShape.eq_mapText hcanonical, ?_⟩⟩
  rintro rfl
  exact hkeeps

/-- A document with a key that looks like a placeholder, a name without a value, and texts in arrays
and objects in one another. -/
def Template.announcement : Json := .obj [
  ("contact", .obj [("\x7b\x7bemail\x7d\x7d", .str "\x7b\x7bemail\x7d\x7d")]),
  ("retries", .int 3),
  ("tags", .arr [.str "\x7b\x7bplan\x7d\x7d for \x7b\x7bscore\x7d\x7d", .null,
    .arr [.obj [("more", .str "\x7b\x7b id \x7d\x7d")]], .arr []])]

theorem Template.renderJson_keepsShape_announcement :
    let lead : Lead := { Lead.blank ⟨.epoch, fun _ => ⟨7⟩⟩ with email := "\x7b\x7bscore\x7d\x7d" }
    let text? := RecordView.text? ⟨some lead, .null⟩
    announcement.IsCanonical ∧
    announcement.KeepsShape (render text?) (renderJson text? announcement) ∧
    ∀ out, announcement.KeepsShape (render text?) out ↔ out = renderJson text? announcement := by
  intro lead text?
  have hcanonical : announcement.IsCanonical := by
    unfold Json.IsCanonical
    decide +kernel
  obtain ⟨hkeeps, hunique⟩ := renderJson_keepsShape announcement (some lead) .null
  exact ⟨hcanonical, hkeeps, hunique hcanonical⟩

end LeadAutomation
