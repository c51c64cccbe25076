import LeadAutomation.Lead.Basic
import LeadAutomation.Proofs.Json.Fields
import LeadAutomation.Proofs.Runs
import LeadAutomation.Rule.Basic
import LeadAutomation.Workflow.Basic

/-!
# Records written and read again

Definitions, leads and events are stored as JSON and read back from there. Each kind of record is
read back from what is written for it, given that its free-form data is in canonical form, and
whatever has been read has its data in that form; so what has been read once is read again without a
change: `Json.Draft.readAgain`.
-/

namespace LeadAutomation

open Json.Draft (ofJson)

namespace FieldValue

mutual

theorem strict?_toJson : (v : FieldValue) → strict? v.toJson = some v
  | .bool _ | .number _ | .text _ => rfl
  | .list items => by rw [toJson, strict?, strictItems?_toJsonItems items, Option.map_some]

theorem strictItems?_toJsonItems :
    (items : List FieldValue) → strictItems? (toJsonItems items) = some items
  | [] => rfl
  | item :: rest =>
    by rw [toJsonItems, strictItems?, strict?_toJson item, strictItems?_toJsonItems rest]

end

theorem decode_toJson (v : FieldValue) : decode (ofJson v.toJson) = .ok v := by
  rw [decode, Decoder.whole, Json.Draft.value?_ofJson]
  simp only [strict?_toJson]

theorem toJson_ne_null (v : FieldValue) :
    v.toJson ≠ .null := by cases v <;> simp [toJson, Json.float]

end FieldValue

theorem Condition.decode_toJson (condition : Condition) :
    Condition.decode (ofJson condition.toJson) = .ok condition := by
  obtain ⟨field, operator, value, connective⟩ := condition
  -- One goal for each field, in the order in which the decoder reads them.
  refine Fields.Gives.decode_obj ?_ _
  refine .seq (.seq (.seq (.map ?_ _) ?_) ?_) ?_
  · exact .required rfl rfl
  · exact .required rfl (Decoder.word_text operator)
  · exact .spare rfl fun v _ => ⟨v.toJson_ne_null, v.decode_toJson⟩
  · exact .defaulted rfl (congrArg Except.ok (Connective.ofText_text connective))

namespace Action

theorem decode_toJson {action : Action} (h : action.metadata.IsCanonical) :
    decode (ofJson action.toJson) = .ok action := by
  obtain ⟨kind, target, value, metadata⟩ := action
  refine Fields.Gives.decode_obj ?_ _
  refine .seq (.seq (.seq (.map ?_ _) ?_) ?_) ?_
  · exact .required rfl (Decoder.word_text kind)
  · exact .defaulted rfl rfl
  · exact .spare rfl fun v _ => ⟨v.toJson_ne_null, v.decode_toJson⟩
  · exact .defaulted rfl (Decoder.members_obj h)

theorem isCanonical_of_decode {draft : Json.Draft} {action : Action}
    (h : decode draft = .ok action) :
    action.metadata.IsCanonical := by
  refine Fields.Yields.of_decode (Q := fun action => action.metadata.IsCanonical) ?_ h
  -- One step for each field, from the last to the first.
  refine .keep "metadata" (.defaulted (fun _ _ => Decoder.isCanonical_of_members) rfl) ?_
  refine .skip "value" ?_
  refine .skip "target" ?_
  refine .start "type" ?_
  grind

end Action

namespace Step

/-- A step is read back, whatever identifier it would fall back on. -/
theorem decode_toJson {step : Step} (h : step.config.IsCanonical) (id : Uuid) :
    decode id (ofJson step.toJson) = .ok step := by
  obtain ⟨own, kind, name, position, config⟩ := step
  refine Fields.Gives.decode_obj ?_ _
  refine .seq (.seq (.seq (.seq (.map ?_ _) ?_) ?_) ?_) ?_
  · exact .defaulted rfl (Decoder.uuid_toJson own)
  · exact .required rfl (Decoder.word_text kind)
  · exact .required rfl rfl
  · exact .required rfl (Decoder.int32_toInt position)
  · exact .defaulted rfl (Decoder.value_ofJson h)

theorem isCanonical_of_decode {id : Uuid} {draft : Json.Draft} {step : Step}
    (h : decode id draft = .ok step) :
    step.config.IsCanonical := by
  refine Fields.Yields.of_decode (Q := fun step => step.config.IsCanonical) ?_ h
  refine .keep "config" (.defaulted (fun _ _ => Decoder.isCanonical_of_value) rfl) ?_
  refine .skip "order" ?_
  refine .skip "name" ?_
  refine .skip "type" ?_
  refine .start "id" ?_
  grind

theorem decodeList_toJson {steps : List Step} (h : ∀ step ∈ steps, step.config.IsCanonical)
    (fresh : Fresh) :
    decodeList fresh (ofJson (.arr (steps.map toJson))) = .ok steps := by
  have hfrom : ∀ start, ((Json.Draft.ofItems (steps.map toJson)).zipIdx start).mapM
      (fun item => decode (fresh.id item.2) item.1) = .ok steps := by
    induction steps with
    | nil => intro start; rfl
    | cons step rest ih =>
      intro start
      obtain ⟨hstep, hrest⟩ := List.forall_mem_cons.1 h
      rw [List.map_cons, Json.Draft.ofItems, List.zipIdx_cons, List.mapM_cons, ih hrest]
      change (decode (fresh.id start) (ofJson step.toJson) >>= _) = _
      rw [decode_toJson hstep]
      rfl
  exact hfrom 1

theorem isCanonical_of_decodeList {fresh : Fresh} {draft : Json.Draft} {steps : List Step}
    (h : decodeList fresh draft = .ok steps) :
    ∀ step ∈ steps, step.config.IsCanonical := by
  unfold decodeList at h
  split at h
  · intro step hmem
    obtain ⟨⟨item, index⟩, -, hitem⟩ := Decoder.exists_of_mem_mapM h hmem
    exact isCanonical_of_decode hitem
  · exact absurd h Decoder.mismatch_ne_ok

end Step

theorem Decoder.text_str (s : String) :
    Json.str s ≠ .null ∧ text (ofJson (.str s)) = .ok s := by simp [text, ofJson]

theorem Uuid.toJson_ne_null (id : Uuid) : id.toJson ≠ .null := (Decoder.text_str _).1

theorem Timestamp.toJson_ne_null (t : Timestamp) : t.toJson ≠ .null := (Decoder.text_str _).1

namespace Rule

theorem decode_toJson {rule : Rule} (h : ∀ action ∈ rule.actions, action.metadata.IsCanonical)
    (fresh : Fresh) :
    decode fresh (ofJson rule.toJson) = .ok rule := by
  obtain ⟨id, name, description, kind, active, priority, conditions, actions, scope, createdBy,
    createdAt, updatedAt⟩ := rule
  refine Fields.Gives.decode_obj ?_ _
  refine .seq (.seq
    (.seq (.seq (.seq (.seq (.seq (.seq (.seq (.seq (.seq (.map ?_ _) ?_) ?_) ?_) ?_) ?_) ?_) ?_)
      ?_) ?_) ?_) ?_
  · exact .defaulted rfl (Decoder.uuid_toJson id)
  · exact .required rfl rfl
  · exact .spare rfl fun text _ => Decoder.text_str text
  · exact .required rfl (Decoder.named_name kind)
  · exact .defaulted rfl rfl
  · exact .defaulted rfl (Decoder.int32_toInt priority)
  · exact .defaulted rfl
      (Decoder.list_encoded conditions fun condition _ => condition.decode_toJson)
  · exact .defaulted rfl
      (Decoder.list_encoded actions fun action hmem => Action.decode_toJson (h action hmem))
  · exact .defaulted rfl (Decoder.named_texts scope)
  · exact .spare rfl fun user _ => ⟨user.toJson_ne_null, Decoder.uuid_toJson user⟩
  · exact .defaulted rfl (Decoder.timestamp_toJson createdAt)
  · exact .spare rfl fun t _ => ⟨t.toJson_ne_null, Decoder.timestamp_toJson t⟩

theorem isCanonical_of_decode {fresh : Fresh} {draft : Json.Draft} {rule : Rule}
    (h : decode fresh draft = .ok rule) :
    ∀ action ∈ rule.actions, action.metadata.IsCanonical := by
  refine Fields.Yields.of_decode (Q := fun rule => ∀ action ∈ rule.actions,
    action.metadata.IsCanonical) ?_ h
  have hactions : ∀ draft actions, Decoder.list Action.decode draft = .ok actions →
      ∀ action ∈ actions, action.metadata.IsCanonical := by
    intro draft actions h action hmem
    obtain ⟨item, hitem⟩ := Decoder.exists_of_mem_list h hmem
    exact Action.isCanonical_of_decode hitem
  refine .skip "updated_at" ?_
  refine .skip "created_at" ?_
  refine .skip "created_by_id" ?_
  refine .skip "triggers" ?_
  refine .keep "actions" (.defaulted hactions (by simp)) ?_
  refine .skip "conditions" ?_
  refine .skip "priority" ?_
  refine .skip "is_active" ?_
  refine .skip "type" ?_
  refine .skip "description" ?_
  refine .skip "name" ?_
  refine .start "id" ?_
  grind

end Rule

namespace Workflow

theorem decode_toJson {workflow : Workflow} (h : ∀ step ∈ workflow.steps, step.config.IsCanonical)
    (fresh : Fresh) :
    decode fresh (ofJson workflow.toJson) = .ok workflow := by
  obtain ⟨id, name, description, trigger, active, priority, steps, createdBy, createdAt,
    updatedAt⟩ := workflow
  refine Fields.Gives.decode_obj ?_ _
  refine .seq (.seq
    (.seq (.seq (.seq (.seq (.seq (.seq (.seq (.map ?_ _) ?_) ?_) ?_) ?_) ?_) ?_) ?_) ?_) ?_
  · exact .defaulted rfl (Decoder.uuid_toJson id)
  · exact .required rfl rfl
  · exact .spare rfl fun text _ => Decoder.text_str text
  · exact .required rfl (Decoder.named_name trigger)
  · exact .defaulted rfl rfl
  · exact .defaulted rfl (Decoder.int32_toInt priority)
  · exact .defaulted rfl (Step.decodeList_toJson h fresh)
  · exact .spare rfl fun user _ => ⟨user.toJson_ne_null, Decoder.uuid_toJson user⟩
  · exact .defaulted rfl (Decoder.timestamp_toJson createdAt)
  · exact .spare rfl fun t _ => ⟨t.toJson_ne_null, Decoder.timestamp_toJson t⟩

theorem isCanonical_of_decode {fresh : Fresh} {draft : Json.Draft} {workflow : Workflow}
    (h : decode fresh draft = .ok workflow) :
    ∀ step ∈ workflow.steps, step.config.IsCanonical := by
  refine Fields.Yields.of_decode (Q := fun workflow => ∀ step ∈ workflow.steps,
    step.config.IsCanonical) ?_ h
  refine .skip "updated_at" ?_
  refine .skip "created_at" ?_
  refine .skip "created_by_id" ?_
  refine .keep "steps" (.defaulted (fun _ _ => Step.isCanonical_of_decodeList) (by simp)) ?_
  refine .skip "priority" ?_
  refine .skip "is_active" ?_
  refine .skip "trigger" ?_
  refine .skip "description" ?_
  refine .skip "name" ?_
  refine .start "id" ?_
  grind

end Workflow

namespace Lead

theorem decode_toJson {lead : Lead} (h : lead.attributes.IsCanonical) (fresh : Fresh) :
    decode fresh (ofJson lead.toJson) = .ok lead := by
  obtain ⟨id, email, firstName, lastName, companyName, domain, industry, score, status, assignedTo,
    assignedTeam, campaignId,
    attributes, createdAt, updatedAt⟩ := lead
  have htext : ∀ text : Option String, ∀ s ∈ text, Json.str s ≠ .null ∧
      Decoder.text (ofJson (.str s)) = .ok s :=
    fun _ s _ => Decoder.text_str s
  have hid : ∀ id : Option Uuid, ∀ own ∈ id, own.toJson ≠ .null ∧
      Decoder.uuid (ofJson own.toJson) = .ok own :=
    fun _ own _ => ⟨own.toJson_ne_null, Decoder.uuid_toJson own⟩
  refine Fields.Gives.decode_obj ?_ _
  refine .seq (.seq
    (.seq (.seq (.seq
      (.seq (.seq (.seq (.seq (.seq (.seq (.seq (.seq (.seq (.map ?_ _) ?_) ?_) ?_) ?_) ?_) ?_) ?_)
    ?_) ?_) ?_) ?_) ?_) ?_) ?_
  · exact .defaulted rfl (Decoder.uuid_toJson id)
  · exact .defaulted rfl rfl
  · exact .spare rfl (htext firstName)
  · exact .spare rfl (htext lastName)
  · exact .spare rfl (htext companyName)
  · exact .spare rfl (htext domain)
  · exact .spare rfl (htext industry)
  · exact .defaulted rfl (Decoder.int32_toInt score)
  · exact .defaulted rfl (Decoder.named_name status)
  · exact .spare rfl (hid assignedTo)
  · exact .spare rfl (hid assignedTeam)
  · exact .spare rfl (hid campaignId)
  · exact .defaulted rfl (Decoder.members_obj h)
  · exact .defaulted rfl (Decoder.timestamp_toJson createdAt)
  · exact .spare rfl fun t _ => ⟨t.toJson_ne_null, Decoder.timestamp_toJson t⟩

theorem isCanonical_of_decode {fresh : Fresh} {draft : Json.Draft} {lead : Lead}
    (h : decode fresh draft = .ok lead) :
    lead.attributes.IsCanonical := by
  refine Fields.Yields.of_decode (Q := fun lead => lead.attributes.IsCanonical) ?_ h
  refine .skip "updated_at" ?_
  refine .skip "created_at" ?_
  refine .keep "attributes" (.defaulted (fun _ _ => Decoder.isCanonical_of_members) rfl) ?_
  refine .skip "campaign_id" ?_
  refine .skip "assigned_team" ?_
  refine .skip "assigned_to" ?_
  refine .skip "status" ?_
  refine .skip "score" ?_
  refine .skip "industry" ?_
  refine .skip "domain" ?_
  refine .skip "company_name" ?_
  refine .skip "last_name" ?_
  refine .skip "first_name" ?_
  refine .skip "email" ?_
  refine .start "id" ?_
  grind

end Lead

namespace Event

theorem decode_toJson {event : Event} (h : event.payload.IsCanonical) (now : Timestamp) :
    decode now (ofJson event.toJson) = .ok event := by
  obtain ⟨kind, leadId, payload, occurredAt⟩ := event
  refine Fields.Gives.decode_obj ?_ _
  refine .seq (.seq (.seq (.map ?_ _) ?_) ?_) ?_
  · exact .required rfl (Decoder.named_name kind)
  · exact .required rfl (Decoder.uuid_toJson leadId)
  · exact .defaulted rfl (Decoder.value_ofJson h)
  · exact .defaulted rfl (Decoder.timestamp_toJson occurredAt)

theorem isCanonical_of_decode {now : Timestamp} {draft : Json.Draft} {event : Event}
    (h : decode now draft = .ok event) :
    event.payload.IsCanonical := by
  refine Fields.Yields.of_decode (Q := fun event => event.payload.IsCanonical) ?_ h
  refine .skip "occurred_at" ?_
  refine .keep "payload" (.defaulted (fun _ _ => Decoder.isCanonical_of_value) rfl) ?_
  refine .skip "lead_id" ?_
  refine .start "event" ?_
  grind

end Event

/-- Whatever is read from a draft, and so from a value, is read again from what is written for it,
whatever identifiers and time there would be to fall back on this time. -/
theorem Json.Draft.readAgain (draft : Json.Draft) (id again : Uuid) (now later : Timestamp)
    (fresh refreshed : Fresh) :
    (∀ v, FieldValue.decode draft = .ok v → FieldValue.decode (ofJson v.toJson) = .ok v) ∧
    (∀ condition, Condition.decode draft = .ok condition →
      Condition.decode (ofJson condition.toJson) = .ok condition) ∧
    (∀ action, Action.decode draft = .ok action →
      Action.decode (ofJson action.toJson) = .ok action) ∧
    (∀ step, Step.decode id draft = .ok step → Step.decode again (ofJson step.toJson) = .ok step) ∧
    (∀ rule, Rule.decode fresh draft = .ok rule →
      Rule.decode refreshed (ofJson rule.toJson) = .ok rule) ∧
    (∀ workflow, Workflow.decode fresh draft = .ok workflow →
      Workflow.decode refreshed (ofJson workflow.toJson) = .ok workflow) ∧
    (∀ lead, Lead.decode fresh draft = .ok lead →
      Lead.decode refreshed (ofJson lead.toJson) = .ok lead) ∧
    (∀ event, Event.decode now draft = .ok event →
      Event.decode later (ofJson event.toJson) = .ok event) :=
  ⟨fun v _ => v.decode_toJson,
    fun condition _ => condition.decode_toJson,
    fun _ h => Action.decode_toJson (Action.isCanonical_of_decode h),
    fun _ h => Step.decode_toJson (Step.isCanonical_of_decode h) again,
    fun _ h => Rule.decode_toJson (Rule.isCanonical_of_decode h) refreshed,
    fun _ h => Workflow.decode_toJson (Workflow.isCanonical_of_decode h) refreshed,
    fun _ h => Lead.decode_toJson (Lead.isCanonical_of_decode h) refreshed,
    fun _ h => Event.decode_toJson (Event.isCanonical_of_decode h) later⟩

/-- An object that can be read as a record of any kind: words in any case and between blanks, names
as members, other names of fields, keys out of order and given again, an identifier in capitals and
a time in another zone. -/
def looseRecord : Json := .obj [
  ("action_type", .str "Carrier_Pigeon"),
  ("config", .obj [("url", .str "/b"), ("retries", .int 2), ("url", .str "/a")]),
  ("createdAt", .str "2024-2-29 23:59:60 -01:30"),
  ("event", .obj [("manual", .null)]),
  ("field", .str "score"),
  ("id", .str "0F0E0D0C0B0A09080706050403020100"),
  ("leadId", .str "urn:uuid:0F0E0D0C-0B0A-0908-0706-050403020100"),
  ("logicalOperator", .str " oR "),
  ("metadata", .obj [("b", .int 1), ("a", .int 2), ("b", .int 3)]),
  ("name", .str "Anything"),
  ("operator", .str " Greater_Than "),
  ("order", .int (-3)),
  ("rule_type", .obj [("scoring", .null)]),
  ("step_type", .str "Telepathy"),
  ("trigger", .str "manual"),
  ("value", .arr [.int 41, .str "41"])]

theorem exists_ok_and {α β : Type} {result : Except DecodeError α} {f : α → β} {b : β}
    {P : α → Prop} (hread : result.toOption.map f = some b) (h : ∀ a, result = .ok a → P a) :
    ∃ a, result = .ok a ∧ f a = b ∧ P a := by
  cases result with
  | ok a => exact ⟨a, rfl, Option.some.inj hread, h a rfl⟩
  | error error => cases hread

/-- The object is a record of each kind, and its only list a loose value; all are read again. -/
theorem Json.Draft.readAgain_looseRecord :
    (∃ v, FieldValue.decode (.arr [.num (.int 41), .str "41"]) = .ok v ∧
      v.toJson = .arr [.float (.ofInt 41), .str "41"] ∧
      FieldValue.decode (ofJson v.toJson) = .ok v) ∧
    (∃ condition, Condition.decode (ofJson looseRecord) = .ok condition ∧
      (condition.operator.text, condition.connective) = ("greater_than", .or) ∧
      Condition.decode (ofJson condition.toJson) = .ok condition) ∧
    (∃ action, Action.decode (ofJson looseRecord) = .ok action ∧
      (action.kind.text, action.metadata) =
        ("Carrier_Pigeon", [("a", .int 2), ("b", .int 3)]) ∧
      Action.decode (ofJson action.toJson) = .ok action) ∧
    (∃ step, Step.decode default (ofJson looseRecord) = .ok step ∧
      (step.kind.text, step.position) = ("Telepathy", -3) ∧
      Step.decode default (ofJson step.toJson) = .ok step) ∧
    (∃ rule, Rule.decode Program.stillFresh (ofJson looseRecord) = .ok rule ∧
      (rule.kind, rule.createdAt.text) = (.scoring, "2024-03-01T01:29:60Z") ∧
      Rule.decode Program.stillFresh (ofJson rule.toJson) = .ok rule) ∧
    (∃ workflow, Workflow.decode Program.stillFresh (ofJson looseRecord) = .ok workflow ∧
      (workflow.trigger, workflow.name) = (.manual, "Anything") ∧
      Workflow.decode Program.stillFresh (ofJson workflow.toJson) = .ok workflow) ∧
    (∃ lead, Lead.decode Program.stillFresh (ofJson looseRecord) = .ok lead ∧
      lead.id.text = "0f0e0d0c-0b0a-0908-0706-050403020100" ∧
      Lead.decode Program.stillFresh (ofJson lead.toJson) = .ok lead) ∧
    (∃ event, Event.decode .epoch (ofJson looseRecord) = .ok event ∧
      (event.kind, event.leadId.text) = (.manual, "0f0e0d0c-0b0a-0908-0706-050403020100") ∧
      Event.decode .epoch (ofJson event.toJson) = .ok event) := by
  obtain ⟨-, hconditions, hactions, hsteps, hrules, hworkflows, hleads, hevents⟩ :=
    readAgain (ofJson looseRecord) default default .epoch .epoch Program.stillFresh
      Program.stillFresh
  have hvalues := (readAgain (.arr [.num (.int 41), .str "41"]) default default .epoch .epoch
    Program.stillFresh Program.stillFresh).1
  exact ⟨exists_ok_and (by decide +kernel) hvalues,
    exists_ok_and (by decide +kernel) hconditions,
    exists_ok_and (by decide +kernel) hactions,
    exists_ok_and (by decide +kernel) hsteps,
    exists_ok_and (by decide +kernel) hrules,
    exists_ok_and (by decide +kernel) hworkflows,
    exists_ok_and (by decide +kernel) hleads,
    exists_ok_and (by decide +kernel) hevents⟩

end LeadAutomation
