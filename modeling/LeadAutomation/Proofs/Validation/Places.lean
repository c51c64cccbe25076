import LeadAutomation.Proofs.Json.Canonical
import LeadAutomation.Validation
import Mathlib.Data.List.Nodup

/-!
# Places in definitions

A violation is reported under a text that says where in the definition it is: a field of the whole,
or a field of an item of a list with the index of the item. A `Place` is what such a text stands
for, and from the text it can be told, `Place.eq_of_key_eq`, so that violations of different items
are never reported as one.

Checks look at each place once. `reports_of_places` draws from this what it means to report
violations: whatever is wrong with a definition is told under its place, and nothing else is.
-/

namespace LeadAutomation

/-! ### Parts of texts -/

/-- Where the characters of a first part can be told from the one behind it, a text has one such
first part only. -/
theorem Text.append_cons_inj {p : Char → Bool} {cs ds rest others : List Char} {c d : Char}
    (hcs : ∀ a ∈ cs, p a = true) (hds : ∀ a ∈ ds, p a = true) (hc : ¬ p c = true)
    (hd : ¬ p d = true) (h : cs ++ c :: rest = ds ++ d :: others) :
    cs = ds ∧ rest = others := by
  have hfirst := congrArg (List.takeWhile p) h
  rw [List.takeWhile_append_of_pos hcs, List.takeWhile_append_of_pos hds,
    List.takeWhile_cons_of_neg hc, List.takeWhile_cons_of_neg hd, List.append_nil,
    List.append_nil] at hfirst
  rw [hfirst] at h
  exact ⟨hfirst, (List.cons.inj (List.append_cancel_left h)).2⟩

/-- Decimal digits tell a number from what stands behind it, if that does not begin with a digit. -/
theorem Text.toDigits_append_inj {m n : Nat} {c d : Char} {rest others : List Char}
    (hc : ¬ c.isDigit = true) (hd : ¬ d.isDigit = true)
    (h : Nat.toDigits 10 m ++ c :: rest = Nat.toDigits 10 n ++ d :: others) :
    m = n ∧ rest = others := by
  have hdigits (n : Nat) (a : Char) (ha : a ∈ Nat.toDigits 10 n) : a.isDigit = true :=
    Nat.isDigit_of_mem_toDigits (by decide) (by decide) ha
  obtain ⟨hsame, hrest⟩ := Text.append_cons_inj (hdigits m) (hdigits n) hc hd h
  have hnumber := congrArg (Nat.ofDigitChars 10 · 0) hsame
  simp only [Nat.ofDigitChars_ten_toDigits] at hnumber
  exact ⟨hnumber, hrest⟩

/-! ### Places -/

/-- Where in a definition something can be wrong. -/
inductive Place where
  | whole (field : String)
  | item (list : String) (index : Nat) (field : String)
deriving DecidableEq

namespace Place

/-- The text under which a violation is reported. -/
def key : Place → String
  | whole field => field
  | item list index field => Validation.itemField list index field

/-- A place whose first name has no opening bracket in it. -/
def IsPlain : Place → Prop
  | whole name | item name _ _ => '[' ∉ name.toList

theorem toList_key_item (list : String) (index : Nat) (field : String) :
    (item list index field).key.toList =
      list.toList ++ '[' :: (Nat.toDigits 10 index ++ ']' :: '.' :: field.toList) := by
  rw [key, Validation.itemField, show toString index =
    String.ofList (Nat.toDigits 10 index) from Nat.repr_eq_ofList_toDigits]
  simp

theorem eq_of_key_eq {place other : Place} (hplace : place.IsPlain) (hother : other.IsPlain)
    (h : place.key = other.key) :
    place = other := by
  have hchars := congrArg String.toList h
  cases place with
  | whole field =>
    cases other with
    | whole field' => exact congrArg whole h
    | item list index field' =>
      rw [toList_key_item] at hchars
      exact absurd (hchars ▸ List.mem_append_right _ List.mem_cons_self) hplace
  | item list index field =>
    rw [toList_key_item] at hchars
    cases other with
    | whole field' => exact absurd (hchars ▸ List.mem_append_right _ List.mem_cons_self) hother
    | item list' index' field' =>
      rw [toList_key_item] at hchars
      have hbracket {list : String} (hlist : '[' ∉ list.toList) :
          ∀ c ∈ list.toList, (c != '[') = true := fun c hc =>
        bne_iff_ne.2 fun heq => hlist (heq ▸ hc)
      obtain ⟨hlist, hbehind⟩ :=
        Text.append_cons_inj (hbracket hplace) (hbracket hother) (by decide) (by decide) hchars
      obtain ⟨rfl, hfield⟩ := Text.toDigits_append_inj (by decide) (by decide) hbehind
      rw [String.toList_inj.1 hlist, String.toList_inj.1 (List.cons.inj hfield).2]

/-- The places at which the checks of the items of a list look. -/
def ofItems (list : String) (count : Nat) (fields : List String) : List Place :=
  (List.range count).flatMap fun index => fields.map (item list index)

theorem mem_ofItems_iff {list : String} {count : Nat} {fields : List String} {place : Place} :
    place ∈ ofItems list count fields ↔
    ∃ index < count, ∃ field ∈ fields, place = item list index field := by
  simp [ofItems, eq_comm]

theorem nodup_ofItems {list : String} {count : Nat} {fields : List String} (h : fields.Nodup) :
    (ofItems list count fields).Nodup := by
  refine List.nodup_flatMap.2 ⟨fun index _ => h.map fun _ _ heq => (item.inj heq).2.2, ?_⟩
  refine List.nodup_range.imp fun hne place hplace hother => ?_
  obtain ⟨field, -, rfl⟩ := List.mem_map.1 hplace
  obtain ⟨field', -, heq⟩ := List.mem_map.1 hother
  exact hne (item.inj heq).2.1.symm

theorem disjoint_ofItems {list other : String} {count total : Nat} {fields others : List String}
    (h : list ≠ other) :
    (ofItems list count fields).Disjoint (ofItems other total others) := by
  intro place hplace hother
  obtain ⟨index, -, field, -, rfl⟩ := mem_ofItems_iff.1 hplace
  obtain ⟨index', -, field', -, heq⟩ := mem_ofItems_iff.1 hother
  exact h (item.inj heq).1

theorem disjoint_wholes_ofItems {wholes : List String} {list : String} {count : Nat}
    {fields : List String} :
    (wholes.map whole).Disjoint (ofItems list count fields) := by
  intro place hplace hother
  obtain ⟨field, -, rfl⟩ := List.mem_map.1 hplace
  obtain ⟨index, -, field', -, heq⟩ := mem_ofItems_iff.1 hother
  cases heq

theorem nodup_wholes {wholes : List String} (h : wholes.Nodup) : (wholes.map whole).Nodup :=
  h.map fun _ _ => whole.inj

theorem isPlain_of_mem_ofItems {list : String} {count : Nat} {fields : List String}
    (h : '[' ∉ list.toList) :
    ∀ place ∈ ofItems list count fields, place.IsPlain := by
  intro place hmem
  obtain ⟨index, -, field, -, rfl⟩ := mem_ofItems_iff.1 hmem
  exact h

theorem isPlain_of_mem_wholes {wholes : List String} (h : ∀ field ∈ wholes, '[' ∉ field.toList) :
    ∀ place ∈ wholes.map whole, place.IsPlain := List.forall_mem_map.2 h

theorem nodup_map_key {places : List Place} (hplain : ∀ place ∈ places, place.IsPlain)
    (h : places.Nodup) :
    (places.map key).Nodup :=
  List.Nodup.map_on (fun place hplace other hother heq =>
    eq_of_key_eq (hplain place hplace) (hplain other hother) heq) h

end Place

/-! ### Checks at places -/

namespace Validation

variable {α : Type} {fields : List String}

theorem mem_violationIf_iff {condition : Bool} {field message : String} {violation : Violation} :
    violation ∈ violationIf condition field message ↔
    condition = true ∧ violation = ⟨field, message⟩ := by
  cases condition <;> simp [violationIf]

theorem map_field_violationIf_sublist (condition : Bool) (field message : String) :
    ((violationIf condition field message).map (·.field)).Sublist [field] := by
  cases condition
  · exact List.nil_sublist _
  · exact List.Sublist.refl _

theorem mem_checkItems_iff {β : Type} {check : Nat → α → List β} {items : List α} {found : β} :
    found ∈ checkItems check items ↔
    ∃ index item, items[index]? = some item ∧ found ∈ check index item := by
  simp only [checkItems, List.mem_flatMap, Prod.exists, List.mk_mem_zipIdx_iff_getElem?]
  exact exists_comm

theorem map_field_checkItems_sublist {check : Nat → α → List Violation} {list : String}
    (h : ∀ index item,
      ((check index item).map (·.field)).Sublist (fields.map (itemField list index)))
    (items : List α) :
    ((checkItems check items).map (·.field)).Sublist
      ((Place.ofItems list items.length fields).map Place.key) := by
  have hfrom : ∀ start,
    (((items.zipIdx start).flatMap fun entry => check entry.2 entry.1).map (·.field)).Sublist
      (((List.range' start items.length).flatMap fun index =>
        fields.map (Place.item list index)).map Place.key) := by
    induction items with
    | nil => exact fun _ => List.nil_sublist _
    | cons item items ih =>
      intro start
      rw [List.zipIdx_cons, List.length_cons, List.range'_succ, List.flatMap_cons,
        List.flatMap_cons, List.map_append, List.map_append, List.map_map]
      exact (h start item).append (ih (start + 1))
  rw [Place.ofItems, List.range_eq_range']
  exact hfrom 0

end Validation

/-! ### Reports -/

namespace Violation

variable {violations : List Violation} {violation : Violation}

theorem messagesFor_eq (h : (violations.map (·.field)).Nodup) (hmem : violation ∈ violations) :
    messagesFor violation.field violations = [violation.message] := by
  obtain ⟨front, back, rfl⟩ := List.append_of_mem hmem
  rw [List.map_append, List.map_cons, List.nodup_middle, List.nodup_cons,
    List.mem_append, not_or] at h
  have hnone {others : List Violation} (hothers : violation.field ∉ others.map (·.field)) :
      others.filter (fun other => other.field = violation.field) = [] :=
    List.filter_eq_nil_iff.2 fun other hother heq =>
      hothers (List.mem_map.2 ⟨other, hother, of_decide_eq_true heq⟩)
  rw [messagesFor, List.filter_append, List.filter_cons_of_pos (by simp), hnone h.1.1, hnone h.1.2]
  rfl

theorem mem_details_iff (h : (violations.map (·.field)).Nodup) {member : String × Json} :
    member ∈ details violations ↔
    ∃ violation ∈ violations, member = (violation.field, .texts [violation.message]) := by
  have hkeys :
    ((violations.map fun violation =>
      (violation.field, Json.texts (messagesFor violation.field violations))).map
      Prod.fst).Nodup := by
    rwa [List.map_map]
  rw [details, (Json.perm_sortMembers hkeys).mem_iff, List.mem_map]
  refine exists_congr fun violation => and_congr_right fun hmem => ?_
  rw [messagesFor_eq h hmem, eq_comm]

end Violation

/-- What is told of a definition is what is wrong with it: `flaw` says what that is, and where. -/
structure Reports (checked : Except (List Violation) (List String))
    (flaw : Place → String → Prop) : Prop where
  rejects : (∃ violations, checked = .error violations) ↔ ∃ place message, flaw place message
  /-- Each flaw is told under its place, in one message, and nothing else is. -/
  tells : ∀ violations, checked = .error violations → ∀ member : String × Json,
    member ∈ Violation.details violations ↔
      ∃ place message, flaw place message ∧ member = (place.key, .texts [message])
  /-- There is one flaw at a place at most. -/
  once : ∀ place message other, flaw place message → flaw place other → message = other
  /-- Flaws at different places are told under different names. -/
  apart : ∀ place message other text, flaw place message → flaw other text →
    place.key = other.key → place = other

theorem reports_of_places {violations : List Violation} {warnings : List String}
    {flaw : Place → String → Prop} (places : List Place) (hkeys : (places.map Place.key).Nodup)
    (hlooks : (violations.map (·.field)).Sublist (places.map Place.key))
    (hplaces : ∀ place message, flaw place message → place ∈ places)
    (hmem : ∀ violation, violation ∈ violations ↔
      ∃ place message, flaw place message ∧ violation = ⟨place.key, message⟩) :
    Reports (if violations.isEmpty then .ok warnings else .error violations) flaw := by
  have hnodup : (violations.map (·.field)).Nodup := hlooks.nodup hkeys
  have hfound {place : Place} {message : String} (hflaw : flaw place message) :
      ⟨place.key, message⟩ ∈ violations :=
    (hmem _).2 ⟨place, message, hflaw, rfl⟩
  constructor
  · constructor
    · rintro ⟨reported, hreported⟩
      split at hreported
      · cases hreported
      · next hnonempty =>
        obtain ⟨violation, hviolation⟩ :=
          List.exists_mem_of_ne_nil _ (mt List.isEmpty_iff.2 hnonempty)
        obtain ⟨place, message, hflaw, -⟩ := (hmem violation).1 hviolation
        exact ⟨place, message, hflaw⟩
    · rintro ⟨place, message, hflaw⟩
      have hnonempty : ¬ violations.isEmpty = true := fun hempty =>
        List.ne_nil_of_mem (hfound hflaw) (List.isEmpty_iff.1 hempty)
      exact ⟨violations, if_neg hnonempty⟩
  · intro reported hreported member
    split at hreported
    · cases hreported
    · cases hreported
      rw [Violation.mem_details_iff hnodup]
      constructor
      · rintro ⟨violation, hviolation, rfl⟩
        obtain ⟨place, message, hflaw, rfl⟩ := (hmem violation).1 hviolation
        exact ⟨place, message, hflaw, rfl⟩
      · rintro ⟨place, message, hflaw, rfl⟩
        exact ⟨_, hfound hflaw, rfl⟩
  · intro place message other hmessage hother
    exact congrArg Violation.message
      (List.inj_on_of_nodup_map hnodup (hfound hmessage) (hfound hother) rfl)
  · intro place message other text hplace hother heq
    exact List.inj_on_of_nodup_map hkeys (hplaces place message hplace)
      (hplaces other text hother) heq

end LeadAutomation
