import LeadAutomation.Proofs.Json.Places
import LeadAutomation.Proofs.RoundTrips

/-!
# Loose values read and written

The values of conditions are read strictly, and those of attributes and payloads leniently.
`FieldValue.decoders_agree` says how the two readers differ and that they do not differ in anything
else: the strict one refuses `null` and objects in arrays, the lenient one takes the arrays without
them. So equal data makes equal values, whichever way it came.

A loose value is written as what it holds. `FieldValue.serialize` says what that is in any format,
and the JSON value that the library makes of it is the same.
-/

namespace LeadAutomation

/-! ### Values without `null` and objects -/

namespace Json

/-- Neither the value nor anything that stands in it, in arrays within arrays, is `null` or an
object. -/
def IsLoose (json : Json) : Prop :=
  ∀ (numbers : List Nat) (part : Json), json.at? (numbers.map .item) = some part →
    part ≠ .null ∧ ∀ members, part ≠ .obj members

mutual

/-- A value without the `null`s and objects in its arrays, and in the arrays in these. -/
def pruned : Json → Json
  | .arr items => .arr (prunedItems items)
  | .null => .null
  | .bool b => .bool b
  | .num n => .num n
  | .str s => .str s
  | .obj members => .obj members

def prunedItems : List Json → List Json
  | [] => []
  | .null :: rest | .obj _ :: rest => prunedItems rest
  | item :: rest => pruned item :: prunedItems rest

end

theorem isLoose_arr_iff {items : List Json} :
    (arr items).IsLoose ↔ ∀ item ∈ items, item.IsLoose := by
  constructor
  · intro h item hmem numbers part hpart
    obtain ⟨number, hnumber⟩ := List.getElem?_of_mem hmem
    apply h (number :: numbers) part
    rw [List.map_cons, at?_cons, child?, hnumber]
    exact hpart
  · rintro h (_ | ⟨number, numbers⟩) part hpart
    · cases hpart
      simp
    · rw [List.map_cons, at?_cons, child?, Option.bind_eq_some_iff] at hpart
      obtain ⟨item, hitem, hpart⟩ := hpart
      exact h item (List.mem_of_getElem? hitem) numbers part hpart

theorem isLoose_iff_of_not_arr {json : Json} (h : ∀ items, json ≠ .arr items) :
    json.IsLoose ↔ json ≠ .null ∧ ∀ members, json ≠ .obj members := by
  refine ⟨fun hloose => hloose [] json rfl, ?_⟩
  rintro hself (_ | ⟨number, numbers⟩) part hpart
  · cases hpart
    exact hself
  · rw [List.map_cons, at?_cons] at hpart
    cases json with
    | arr items => exact absurd rfl (h items)
    | _ => cases hpart

theorem prunedItems_of_isLoose {items : List Json} (hloose : ∀ item ∈ items, item.IsLoose)
    (hpruned : ∀ item ∈ items, item.pruned = item) : prunedItems items = items := by
  induction items with
  | nil => rfl
  | cons first rest ih =>
    obtain ⟨hfirst, hrest⟩ := List.forall_mem_cons.1 hloose
    obtain ⟨hsame, hothers⟩ := List.forall_mem_cons.1 hpruned
    obtain ⟨hnull, hobject⟩ := hfirst [] first rfl
    rw [prunedItems, hsame, ih hrest hothers]
    · exact hnull
    · exact hobject

theorem pruned_of_isLoose {json : Json} (h : json.IsLoose) : json.pruned = json := by
  induction json using inside_induction with
  | null | bool b | num n | str s | obj members => rfl
  | arr items ih =>
    have hitems := isLoose_arr_iff.1 h
    exact congrArg arr
      (prunedItems_of_isLoose hitems fun item hmem => ih item hmem (hitems item hmem))

end Json

namespace FieldValue

open Json (inside_induction)
open Json.Draft (ofJson)

/-! ### Reading -/

theorem decode_ofJson_eq_ok_iff {json : Json} {v : FieldValue} :
    decode (ofJson json) = .ok v ↔ strict? json = some v := by
  rw [decode, Decoder.whole, Json.Draft.value?_ofJson]
  dsimp only
  cases strict? json <;> simp

theorem exists_strictItems?_iff {items : List Json} :
    (∃ vs, strictItems? items = some vs) ↔ ∀ item ∈ items, ∃ v, strict? item = some v := by
  induction items with
  | nil => simp [strictItems?]
  | cons first rest ih =>
    rw [List.forall_mem_cons, ← ih, strictItems?]
    cases strict? first <;> cases strictItems? rest <;> simp

/-- The strict reader accepts the values without `null` and objects. -/
theorem exists_strict?_iff (json : Json) : (∃ v, strict? json = some v) ↔ json.IsLoose := by
  induction json using inside_induction with
  | null | bool b | num n | str s | obj members => simp [strict?, Json.isLoose_iff_of_not_arr]
  | arr items ih =>
    rw [Json.isLoose_arr_iff, ← forall₂_congr ih, ← exists_strictItems?_iff, strict?]
    simp

theorem strictItems?_prunedItems {items : List Json}
    (h : ∀ item ∈ items, strict? item.pruned = ofJson? item) :
    strictItems? (Json.prunedItems items) = some (ofJsonItems items) := by
  induction items with
  | nil => rfl
  | cons first rest ih =>
    obtain ⟨hfirst, hrest⟩ := List.forall_mem_cons.1 h
    have hlater := ih hrest
    cases first with
    | null | obj members => exact hlater
    | bool b | num n | str s | arr items =>
      simp only [Json.prunedItems, strictItems?, hfirst, hlater, ofJsonItems, ofJson?]

/-- The lenient reader reads what the strict one would read without the `null`s and objects in
arrays. -/
theorem strict?_pruned (json : Json) : strict? json.pruned = ofJson? json := by
  induction json using inside_induction with
  | null | bool b | num n | str s | obj members => rfl
  | arr items ih => rw [Json.pruned, strict?, strictItems?_prunedItems ih, Option.map_some, ofJson?]

theorem ofJson?_of_strict? {json : Json} {v : FieldValue} (h : strict? json = some v) :
    ofJson? json = some v := by
  rw [← strict?_pruned, Json.pruned_of_isLoose ((exists_strict?_iff json).1 ⟨v, h⟩), h]

/-! ### Writing -/

end FieldValue

/-- What a format does with truth values, numbers, texts and sequences of what is written
already. -/
structure Serializer (ω : Type) where
  bool : Bool → ω
  number : Binary64 → ω
  text : String → ω
  sequence : List ω → ω

/-- JSON values as a format. -/
def Json.serializer : Serializer Json where
  bool := .bool
  number := .float
  text := .str
  sequence := .arr

/-- Compact JSON text as a format. -/
def Json.textSerializer : Serializer String where
  bool b := if b then "true" else "false"
  number x := x.text jsonNumber
  text := Json.quoted
  sequence items := "[" ++ Text.join "," items ++ "]"

namespace FieldValue

open Json.Draft (ofJson)

section

variable {ω : Type} (format : Serializer ω)

mutual

/-- A loose value in a format: what it holds, with nothing around it that tells its kind. -/
def serialize : FieldValue → ω
  | .bool b => format.bool b
  | .number x => format.number x
  | .text s => format.text s
  | .list items => format.sequence (serializeItems items)

def serializeItems : List FieldValue → List ω
  | [] => []
  | item :: rest => serialize item :: serializeItems rest

end

end

theorem itemsText_eq_join (items : List Json) :
    Json.itemsText items = Text.join "," (items.map Json.text) := by
  induction items with
  | nil => rfl
  | cons first rest ih =>
    cases rest with
    | nil => rfl
    | cons second rest => simp only [Json.itemsText, ih, List.map_cons, Text.join]

mutual

theorem serialize_serializer : (v : FieldValue) → v.serialize Json.serializer = v.toJson
  | .bool _ | .number _ | .text _ => rfl
  | .list items => congrArg Json.arr (serializeItems_serializer items)

theorem serializeItems_serializer :
    (items : List FieldValue) → serializeItems Json.serializer items = toJsonItems items
  | [] => rfl
  | item :: rest => congrArg₂ List.cons (serialize_serializer item) (serializeItems_serializer rest)

end

mutual

theorem serialize_textSerializer :
    (v : FieldValue) → v.serialize Json.textSerializer = v.toJson.text
  | .bool _ | .number _ | .text _ => rfl
  | .list items => by
    rw [toJson, Json.text, itemsText_eq_join, serialize, serializeItems_textSerializer items]
    rfl

theorem serializeItems_textSerializer : (items : List FieldValue) →
    serializeItems Json.textSerializer items = (toJsonItems items).map Json.text
  | [] => rfl
  | item :: rest =>
    congrArg₂ List.cons (serialize_textSerializer item) (serializeItems_textSerializer rest)

end

/-- The strict reader accepts what holds neither `null` nor an object outside objects, and then the
lenient reader reads the same. An array has a value for the lenient reader in any case, which is
what the strict reader makes of it without the `null`s and objects in it and in the arrays in it.
What is written for a loose value, as a JSON value or as text, is what the library's own conversion
gives, and both readers read it back. -/
theorem decoders_agree (json : Json) (v : FieldValue) :
    ((∃ read, decode (ofJson json) = .ok read) ↔
      ∀ (numbers : List Nat) (part : Json), json.at? (numbers.map .item) = some part →
        part ≠ .null ∧ ∀ members, part ≠ .obj members) ∧
    (∀ read, decode (ofJson json) = .ok read → ofJson? json = some read) ∧
    (∀ items, json = .arr items →
      ∃ values, ofJson? json = some (.list values) ∧ decode (ofJson json.pruned) =
        .ok (.list values)) ∧
    v.serialize Json.serializer = v.toJson ∧ v.serialize Json.textSerializer = v.toJson.text ∧
    decode (ofJson v.toJson) = .ok v ∧ ofJson? v.toJson = some v := by
  simp only [decode_ofJson_eq_ok_iff]
  refine ⟨exists_strict?_iff json, fun read => ofJson?_of_strict?, ?_, serialize_serializer v,
    serialize_textSerializer v,
    strict?_toJson v, ofJson?_of_strict? (strict?_toJson v)⟩
  rintro items rfl
  exact ⟨ofJsonItems items, rfl, strict?_pruned (.arr items)⟩

/-- A list that both readers take, and one with `null` and an object in it, of which only the
lenient reader takes the rest. -/
theorem decoders_agree_mixed :
    let clean : Json := .arr [.bool true, .int 70, .arr [.str "a", .arr []]]
    let mixed : Json :=
      .arr [.null, .int 70, .obj [("a", .int 1)], .arr [.str "a", .null, .arr [.obj []]]]
    (decode (ofJson clean) =
      .ok (.list [.bool true, .number (.ofInt 70), .list [.text "a", .list []]]) ∧
      ofJson? clean = some (.list [.bool true, .number (.ofInt 70), .list [.text "a", .list []]])) ∧
    ((¬ ∃ read, decode (ofJson mixed) = .ok read) ∧
      ∃ values, ofJson? mixed = some (.list values) ∧ decode (ofJson mixed.pruned) =
        .ok (.list values)) := by
  intro clean mixed
  have hclean : decode (ofJson clean) =
    .ok (.list [.bool true, .number (.ofInt 70), .list [.text "a", .list []]]) := rfl
  refine ⟨⟨hclean, ?_⟩, fun haccepted => ?_, ?_⟩
  · exact (decoders_agree clean (.text "")).2.1 _ hclean
  · exact ((decoders_agree mixed (.text "")).1.1 haccepted [0] .null rfl).1 rfl
  · exact (decoders_agree mixed (.text "")).2.2.1 _ rfl

end FieldValue

end LeadAutomation
