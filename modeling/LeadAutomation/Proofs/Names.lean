import LeadAutomation.Proofs.Json.Places
import LeadAutomation.RecordView

/-!
# What names stand for

Conditions compare what a name stands for, and templates print it. Both look it up on their own, in
the attributes of a lead and then in a payload. `Json.Holds` says what a name stands for in a value,
and both ways to look it up come to that, in the free attributes of a lead as in a payload:
`RecordView.attributes_asPayload`. So conditions and templates see a name alike, up to how a value
of its kind is printed: `RecordView.resolves_alike`.
-/

namespace LeadAutomation

/-! ### Names in a value -/

namespace Json

/-- The place that a name with dots leads to. -/
def placeOf (name : String) : List Branch := (Text.split '.' name).map .member

/-- What a name stands for in a value: the member of that name or, where there is none, what stands
behind the keys between its dots. -/
inductive Holds (json : Json) (name : String) (part : Json) : Prop
  | whole (member : json.at? [.member name] = some part)
  | dotted (noMember : json.at? [.member name] = none)
    (behind : json.at? (placeOf name) = some part)

variable {json part : Json} {name : String}

theorem get?_eq_child? (key : String) (json : Json) :
    json.get? key = json.child? (.member key) := by
  cases json <;> rfl

theorem at?_member (key : String) (json : Json) : json.at? [.member key] = json.get? key := by
  rw [get?_eq_child?, at?_cons]
  exact Option.bind_fun_some _

theorem walk?_eq_at? (json : Json) (keys : List String) :
    json.walk? keys = json.at? (keys.map .member) := by
  induction keys generalizing json with
  | nil => rfl
  | cons key rest ih =>
    rw [walk?, List.foldlM_cons, get?_eq_child?, List.map_cons, at?_cons]
    exact congrArg _ (funext ih)

theorem path?_eq_some_iff : json.path? name = some part ↔ json.Holds name part := by
  rw [path?, walk?_eq_at?, ← at?_member]
  constructor
  · intro h
    split at h
    · next value hvalue => exact .whole (hvalue.trans h)
    · next hnone => exact .dotted hnone h
  · rintro (hmember | ⟨hnone, hbehind⟩)
    · rw [hmember]
    · rw [hnone]
      exact hbehind

theorem holds_iff_of_noMember (h : json.at? [.member name] = none) :
    json.Holds name part ↔ json.at? (placeOf name) = some part := by
  refine ⟨?_, .dotted h⟩
  rintro (hmember | ⟨-, hbehind⟩)
  · rw [h] at hmember
    cases hmember
  · exact hbehind

theorem Holds.unique {other : Json} (h : json.Holds name part) (hother : json.Holds name other) :
    part = other :=
  Option.some.inj ((path?_eq_some_iff.2 h).symm.trans (path?_eq_some_iff.2 hother))

end Json

/-! ### Names in a lead -/

namespace Lead

/-- The spellings of the fixed attributes, without what does not count in them. -/
def fixedNames : List String :=
  ["id", "leadid", "email", "firstname", "lastname", "company", "companyname", "domain",
    "companydomain",
  "industry", "score", "status", "assignedto", "assigneduser", "assignedteam", "team",
    "campaignid", "campaign"]

theorem attribute?_of_not_mem (lead : Lead) {name : String} (hfree : plainName name ∉ fixedNames) :
    lead.attribute? name = lead.freeAttribute? name := by
  unfold attribute?
  split
  all_goals first | rfl | simp_all [fixedNames]

theorem descend?_eq_at? (json : Json) (keys : List String) :
    descend? json keys = json.at? (keys.map .member) := by
  induction keys generalizing json with
  | nil => rfl
  | cons key rest ih =>
    rw [descend?, Json.get?_eq_child?, List.map_cons, Json.at?_cons]
    cases json.child? (.member key) with
    | none => rfl
    | some child => exact ih child

theorem splitName_ne_nil (name : String) : Text.split '.' name ≠ [] := by
  simp [Text.split, Text.splitChars_ne_nil]

/-- Where no free attribute has the name, the keys between its dots are followed. -/
theorem freeAttribute?_of_noMember {lead : Lead} {name : String}
    (h : lead.attributes.lookup name = none) :
    lead.freeAttribute? name =
      ((Json.obj lead.attributes).at? (Json.placeOf name)).bind FieldValue.ofJson? := by
  simp only [freeAttribute?, h, Json.placeOf]
  cases hkeys : Text.split '.' name with
  | nil => exact absurd hkeys (splitName_ne_nil name)
  | cons key rest =>
    simp only [List.map_cons, Json.at?_cons, Json.child?, ← descend?_eq_at?]
    cases lead.attributes.lookup key <;> rfl

/-- A free attribute is the value of what its name stands for in the object of all of them. -/
theorem freeAttribute?_eq_some_iff {lead : Lead} {name : String} {v : FieldValue} :
    lead.freeAttribute? name = some v ↔
      ∃ part, (Json.obj lead.attributes).Holds name part ∧ FieldValue.ofJson? part = some v := by
  have hmember : (Json.obj lead.attributes).at? [.member name] = lead.attributes.lookup name :=
    Json.at?_member name _
  cases hwhole : lead.attributes.lookup name with
  | some part =>
    rw [hwhole] at hmember
    rw [freeAttribute?, hwhole]
    refine ⟨fun h => ⟨part, .whole hmember, h⟩, ?_⟩
    rintro ⟨other, hholds, hv⟩
    rwa [Json.Holds.unique (.whole hmember) hholds]
  | none =>
    rw [freeAttribute?_of_noMember hwhole, Option.bind_eq_some_iff]
    simp only [Json.holds_iff_of_noMember (hmember.trans hwhole)]

theorem attribute?_eq_none_of_holds_null (lead : Lead) {name : String}
    (hfixed : plainName name ∈ fixedNames → lead.attribute? name = none)
    (hnull : (Json.obj lead.attributes).Holds name .null) : lead.attribute? name = none := by
  by_cases hname : plainName name ∈ fixedNames
  · exact hfixed hname
  rw [lead.attribute?_of_not_mem hname, Option.eq_none_iff_forall_ne_some]
  intro v hv
  obtain ⟨part, hholds, hvalue⟩ := freeAttribute?_eq_some_iff.1 hv
  rw [← hnull.unique hholds] at hvalue
  cases hvalue

end Lead

/-! ### Names in a payload -/

namespace RecordView

variable {payload part : Json} {name : String} {v : FieldValue}

theorem payloadValue?_eq_some_iff :
    payloadValue? payload name = some v ↔
    ∃ part, payload.Holds name part ∧ FieldValue.ofJson? part = some v := by
  rw [payloadValue?, Option.bind_eq_some_iff]
  simp only [Json.path?_eq_some_iff]

theorem exists_ofJson?_iff : (∃ v, FieldValue.ofJson? part = some v) ↔
    part ≠ .null ∧ ∀ members, part ≠ .obj members := by
  cases part <;> simp [FieldValue.ofJson?]

/-- The free attributes of a lead are looked up as if they were a payload. Both ways of looking come
to what the name stands for in the object of all of them, a member of that name before what stands
behind its dots, and to nothing where that is `null` or an object. -/
theorem attributes_asPayload (lead : Lead) (name : String) :
    lead.freeAttribute? name = payloadValue? (.obj lead.attributes) name ∧
    (∀ v, lead.freeAttribute? name = some v ↔
      ∃ part, (Json.obj lead.attributes).Holds name part ∧ FieldValue.ofJson? part = some v) ∧
    ((∃ v, lead.freeAttribute? name = some v) ↔
      ∃ part, (Json.obj lead.attributes).Holds name part ∧ part ≠ .null ∧ ∀ members,
      part ≠ .obj members) := by
  refine ⟨?_, fun v => Lead.freeAttribute?_eq_some_iff, ?_⟩
  · apply Option.ext
    intro v
    rw [Lead.freeAttribute?_eq_some_iff, payloadValue?_eq_some_iff]
  · simp only [Lead.freeAttribute?_eq_some_iff, ← exists_ofJson?_iff]
    constructor
    · rintro ⟨v, part, hholds, hv⟩
      exact ⟨part, hholds, v, hv⟩
    · rintro ⟨part, hholds, v, hv⟩
      exact ⟨v, part, hholds, hv⟩

/-- A `null` under the whole name hides what stands behind its dots, and a key with dots is not
found behind another key. -/
example :
    let members : Json.Members :=
      [("a", .obj [("b", .bool true), ("c.d", .bool true)]), ("a.b", .null)]
    payloadValue? (.obj members) "a.b" = none ∧ payloadValue? (.obj members) "a.c.d" = none := by
  decide +kernel

theorem exists_jsonText?_iff : (∃ text, jsonText? part = some text) ↔ part ≠ .null := by
  cases part <;> simp [jsonText?]

theorem jsonText?_of_plain (hv : FieldValue.ofJson? part = some v)
    (hplain : (∃ s, v = .text s) ∨ ∃ b, v = .bool b) :
    jsonText? part = some v.display := by
  cases part with
  | null | obj members => cases hv
  | bool b =>
    cases hv
    rfl
  | str s =>
    cases hv
    rfl
  | num n =>
    cases hv
    simp at hplain
  | arr items =>
    cases hv
    simp at hplain

theorem lookup_of_attribute? {view : RecordView} (h : view.attribute? name = some v) :
    view.lookup name = some v := by
  rw [lookup, h, Option.some_or]

theorem text?_of_attribute? {view : RecordView} (h : view.attribute? name = some v) :
    view.text? name = some v.display := by
  rw [text?, h, Option.map_some, Option.some_or]

theorem lookup_of_no_attribute {view : RecordView} (h : view.attribute? name = none) :
    view.lookup name = payloadValue? view.payload name := by
  rw [lookup, h, Option.none_or]

theorem text?_of_no_attribute {view : RecordView} (h : view.attribute? name = none) :
    view.text? name = (view.payload.path? name).bind jsonText? := by
  rw [text?, h, Option.map_none, Option.none_or]

/-- What a template prints of a payload is there just if a condition sees a value or there is an
object. -/
theorem exists_bind_jsonText?_iff : (∃ text, (payload.path? name).bind jsonText? = some text) ↔
    (∃ v, payloadValue? payload name = some v) ∨ ∃ members, payload.Holds name (.obj members) := by
  simp only [payloadValue?, ← Json.path?_eq_some_iff]
  cases payload.path? name with
  | none => simp
  | some part =>
    simp only [Option.bind_some, exists_jsonText?_iff, exists_ofJson?_iff, Option.some.injEq]
    cases part <;> simp

/-- Conditions and templates resolve names alike. What the lead carries under a name counts for
both, whatever the payload is. If it carries nothing, both look at what the name stands for in the
payload, and see it or not together, but that only a template shows an object. Where a condition
sees a text or a truth value, a template prints that. And where `null` stands among the free
attributes of the lead, and no fixed attribute has the name and a value, it is for both as if there
were no lead. -/
theorem resolves_alike (lead : Option Lead) (payload : Json) (name : String) :
    let view : RecordView := ⟨lead, payload⟩
    (∀ v, view.attribute? name = some v → ∀ other : Json,
      lookup ⟨lead, other⟩ name = some v ∧ text? ⟨lead, other⟩ name = some v.display) ∧
    (view.attribute? name = none →
      (∀ v, view.lookup name = some v ↔
        ∃ part, payload.Holds name part ∧ FieldValue.ofJson? part = some v) ∧
      ((∃ text, view.text? name = some text) ↔
        (∃ v, view.lookup name = some v) ∨ ∃ members, payload.Holds name (.obj members))) ∧
    (∀ v, view.lookup name = some v → ((∃ s, v = .text s) ∨ ∃ b, v = .bool b) →
      view.text? name = some v.display) ∧
    (∀ own, lead = some own → (Lead.plainName name ∈ Lead.fixedNames → own.attribute? name = none) →
      (Json.obj own.attributes).Holds name .null →
      view.lookup name = lookup ⟨none, payload⟩ name ∧
      view.text? name = text? ⟨none, payload⟩ name) := by
  intro view
  refine ⟨fun v hcarried other => ?_, fun hmissing => ⟨fun v => ?_, ?_⟩,
    fun v hseen hplain => ?_, ?_⟩
  · exact ⟨lookup_of_attribute? hcarried, text?_of_attribute? hcarried⟩
  · rw [lookup_of_no_attribute hmissing]
    exact payloadValue?_eq_some_iff
  · rw [lookup_of_no_attribute hmissing, text?_of_no_attribute hmissing]
    exact exists_bind_jsonText?_iff
  · cases hcarried : view.attribute? name with
    | some own =>
      rw [lookup_of_attribute? hcarried] at hseen
      rw [text?_of_attribute? hcarried, Option.some.inj hseen]
    | none =>
      rw [lookup_of_no_attribute hcarried] at hseen
      obtain ⟨part, hholds, hvalue⟩ := payloadValue?_eq_some_iff.1 hseen
      rw [text?_of_no_attribute hcarried, Json.path?_eq_some_iff.2 hholds, Option.bind_some,
        jsonText?_of_plain hvalue hplain]
  · rintro own rfl hfixed hnull
    have hmissing : view.attribute? name = none := own.attribute?_eq_none_of_holds_null hfixed hnull
    have hleadless : attribute? ⟨none, payload⟩ name = none := rfl
    rw [lookup_of_no_attribute hmissing, text?_of_no_attribute hmissing]
    exact ⟨(lookup_of_no_attribute hleadless).symm, (text?_of_no_attribute hleadless).symm⟩

/-- A lead with no attributes but `null` for a plan. -/
def planless : Lead := { Lead.blank ⟨.epoch, fun _ => ⟨7⟩⟩ with
    score := 40, attributes := [("plan", .null)] }

/-- What happened at a webinar. -/
def webinar : Json := .obj [
  ("Sc-ore", .int 10),
  ("plan", .arr [.str "basic", .null]),
  ("source", .obj [("channel", .str "webinar"), ("room", .obj [])])]

/-- A spelling of a fixed attribute, an object and a text in the payload, and `null` in the lead. -/
theorem resolves_alike_webinar :
    let view : RecordView := ⟨some planless, webinar⟩
    (view.attribute? "Sc-ore" = some (.number (.ofInt 40)) ∧
      ∀ other : Json, lookup ⟨some planless, other⟩ "Sc-ore" = some (.number (.ofInt 40)) ∧
        text? ⟨some planless, other⟩ "Sc-ore" = some (FieldValue.number (.ofInt 40)).display) ∧
    (view.attribute? "source.room" = none ∧
      ((∃ text, view.text? "source.room" = some text) ↔
        (∃ v, view.lookup "source.room" = some v) ∨ ∃ members,
        webinar.Holds "source.room" (.obj members))) ∧
    (view.lookup "source.channel" = some (.text "webinar") ∧ view.text? "source.channel" =
      some "webinar") ∧
    ((Lead.plainName "plan" ∈ Lead.fixedNames → planless.attribute? "plan" = none) ∧
      (Json.obj planless.attributes).Holds "plan" .null ∧
      view.lookup "plan" = lookup ⟨none, webinar⟩ "plan" ∧
      view.text? "plan" = text? ⟨none, webinar⟩ "plan") := by
  intro view
  have hscore : view.attribute? "Sc-ore" = some (.number (.ofInt 40)) := by rfl
  have hroom : view.attribute? "source.room" = none := by rfl
  have hchannel : view.lookup "source.channel" = some (.text "webinar") := by rfl
  have hplan : Lead.plainName "plan" ∈ Lead.fixedNames → planless.attribute? "plan" = none := by
    decide +kernel
  have hnull : (Json.obj planless.attributes).Holds "plan" .null := .whole rfl
  refine ⟨⟨hscore, ?_⟩, ⟨hroom, ?_⟩, ⟨hchannel, ?_⟩, hplan, hnull, ?_⟩
  · exact (resolves_alike (some planless) webinar "Sc-ore").1 _ hscore
  · exact ((resolves_alike (some planless) webinar "source.room").2.1 hroom).2
  · exact (resolves_alike (some planless) webinar "source.channel").2.2.1 _ hchannel (.inl ⟨_, rfl⟩)
  · exact (resolves_alike (some planless) webinar "plan").2.2.2 planless rfl hplan hnull

end RecordView

end LeadAutomation
