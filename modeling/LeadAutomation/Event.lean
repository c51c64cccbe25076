import LeadAutomation.Json.Decode
import LeadAutomation.Lead.Status

/-!
# Events

What happens to a lead and can start rules and workflows. Rules may be scoped to any kinds of event;
a workflow is bound to one trigger, and there is no trigger for mere updates.
-/

namespace LeadAutomation

inductive EventKind where
  | leadCreated
  | leadUpdated
  | leadScored
  | leadStatusChanged
  | manual
deriving DecidableEq, Repr

namespace EventKind

instance : PlainNamed EventKind where
  all := [.leadCreated, .leadUpdated, .leadScored, .leadStatusChanged, .manual]
  name
    | .leadCreated => "lead_created"
    | .leadUpdated => "lead_updated"
    | .leadScored => "lead_scored"
    | .leadStatusChanged => "lead_status_changed"
    | .manual => "manual"
  find_name a := by cases a <;> rfl
  plain a := by cases a <;> decide +kernel

/-- The kind of event that a text names, in any case and with any blanks around it. -/
def ofText? (text : String) : Option EventKind := Named.spoken? text

def unknownMessage (text : String) : String := "unknown event '" ++ text ++ "'"

end EventKind

/-- What a workflow is bound to. -/
inductive Trigger where
  | leadCreated
  | leadScored
  | leadStatusChanged
  | manual
deriving DecidableEq, Repr

namespace Trigger

/-- The kind of event that fires a trigger. -/
def event : Trigger → EventKind
  | .leadCreated => .leadCreated
  | .leadScored => .leadScored
  | .leadStatusChanged => .leadStatusChanged
  | .manual => .manual

/-- The trigger that a kind of event fires, if there is one. -/
def ofEvent? : EventKind → Option Trigger
  | .leadCreated => some .leadCreated
  | .leadScored => some .leadScored
  | .leadStatusChanged => some .leadStatusChanged
  | .manual => some .manual
  | .leadUpdated => none

instance : Named Trigger where
  all := [.leadCreated, .leadScored, .leadStatusChanged, .manual]
  name trigger := Named.name trigger.event
  find_name a := by cases a <;> rfl

theorem ofEvent?_eq_some_iff {event : EventKind} {trigger : Trigger} :
    ofEvent? event = some trigger ↔ event = trigger.event := by
  cases event <;> cases trigger <;> simp [ofEvent?, Trigger.event]

end Trigger

structure Event where
  kind : EventKind
  leadId : Uuid
  payload : Json
  occurredAt : Timestamp
deriving DecidableEq

namespace Event

/-- The fields of an event; `now` is when it happened unless it says so itself. -/
def fields (now : Timestamp) : Fields Event :=
  Event.mk <$> .required "event" Decoder.named ["kind"]
    <*> .required "lead_id" Decoder.uuid ["leadId"]
    <*> .defaulted "payload" Decoder.value .null
    <*> .defaulted "occurred_at" Decoder.timestamp now ["occurredAt"]

def decode (now : Timestamp) : Decoder Event := (fields now).decode "DomainEvent"

def toJson (event : Event) : Json := .obj [
  ("event", .str (Named.name event.kind)),
  ("lead_id", event.leadId.toJson),
  ("occurred_at", event.occurredAt.toJson),
  ("payload", event.payload)]

def leadCreated (now : Timestamp) (lead : Uuid) : Event := ⟨.leadCreated, lead, .obj [], now⟩

def leadUpdated (now : Timestamp) (lead : Uuid) (changes : Json) : Event :=
  ⟨.leadUpdated, lead, .obj [("changes", changes)], now⟩

def leadScored (now : Timestamp) (lead : Uuid) (previous current : Int32) : Event :=
  ⟨.leadScored, lead, .obj [("previousScore", .int previous.toInt), ("score", .int current.toInt)],
    now⟩

def leadStatusChanged (now : Timestamp) (lead : Uuid) (previous current : LeadStatus) : Event :=
  ⟨.leadStatusChanged, lead,
    .obj [("previousStatus", .str previous.name), ("status", .str current.name)], now⟩

def manual (now : Timestamp) (lead : Uuid) (payload : Json) : Event := ⟨.manual, lead, payload, now⟩

end Event

end LeadAutomation
