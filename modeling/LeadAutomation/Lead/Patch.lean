import LeadAutomation.Lead.Basic

/-!
# Patches

Automation does not write leads directly: it asks for a patch, which names the few attributes to be
set. Patches are merged in order, with later values over earlier ones, so that a list of writes can
be stored as one.
-/

namespace LeadAutomation

/-- The attributes of a lead to be set; `none` leaves an attribute alone. -/
structure LeadPatch where
  score : Option Int32 := none
  status : Option LeadStatus := none
  assignedTo : Option Uuid := none
  assignedTeam : Option Uuid := none
deriving DecidableEq

namespace LeadPatch

def empty : LeadPatch := {}

def isEmpty (patch : LeadPatch) : Bool :=
  patch.score.isNone && patch.status.isNone && patch.assignedTo.isNone && patch.assignedTeam.isNone

/-- One patch followed by another. -/
def merge (patch later : LeadPatch) : LeadPatch where
  score := later.score.or patch.score
  status := later.status.or patch.status
  assignedTo := later.assignedTo.or patch.assignedTo
  assignedTeam := later.assignedTeam.or patch.assignedTeam

/-- A lead with the attributes of a patch set at some time; the empty patch does not touch it. -/
def applyTo (patch : LeadPatch) (now : Timestamp) (lead : Lead) : Lead :=
  if patch.isEmpty then lead
  else { lead with
    score := patch.score.getD lead.score
    status := patch.status.getD lead.status
    assignedTo := patch.assignedTo.or lead.assignedTo
    assignedTeam := patch.assignedTeam.or lead.assignedTeam
    updatedAt := some now }

def fields : Fields LeadPatch :=
  LeadPatch.mk <$> .optional "score" Decoder.int32
    <*> .optional "status" Decoder.named
    <*> .optional "assigned_to" Decoder.uuid
    <*> .optional "assigned_team" Decoder.uuid

def decode : Decoder LeadPatch := fields.decode "LeadPatch"

/-- The JSON value of a patch: what it sets. -/
def toJson (patch : LeadPatch) : Json := .obj
  (Json.optional "assigned_team" Uuid.toJson patch.assignedTeam ++
    Json.optional "assigned_to" Uuid.toJson patch.assignedTo ++
    Json.optional "score" (fun score => .int score.toInt) patch.score ++
    Json.optional "status" (fun status => .str status.name) patch.status)

end LeadPatch

end LeadAutomation
