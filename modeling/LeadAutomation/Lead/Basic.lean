import LeadAutomation.FieldValue
import LeadAutomation.Lead.Status

/-!
# Leads

A lead is the record that rules and workflows read and write. Besides its fixed attributes it
carries free ones, as the members of a JSON object.

`attribute?` finds an attribute by name. Fixed attributes are found under any spelling of their
name: capitals, underscores, dots, hyphens and spaces do not count, so that `assignedTo`,
`assigned_to` and `assigned.to` are one name. Any other name is looked up among the free attributes,
first as it is and then as a path of keys with dots between. An attribute without a value is not
found.
-/

namespace LeadAutomation

/-- A potential customer and what is known about them. -/
structure Lead where
  id : Uuid
  email : String
  firstName : Option String
  lastName : Option String
  companyName : Option String
  domain : Option String
  industry : Option String
  score : Int32
  status : LeadStatus
  assignedTo : Option Uuid
  assignedTeam : Option Uuid
  campaignId : Option Uuid
  /-- Free attributes, sorted by name. -/
  attributes : Json.Members
  createdAt : Timestamp
  updatedAt : Option Timestamp
deriving DecidableEq

namespace Lead

/-- A lead about which nothing is known yet. -/
def blank (fresh : Fresh) : Lead where
  id := fresh.id 0
  email := ""
  firstName := none
  lastName := none
  companyName := none
  domain := none
  industry := none
  score := 0
  status := .raw
  assignedTo := none
  assignedTeam := none
  campaignId := none
  attributes := []
  createdAt := fresh.now
  updatedAt := none

/-! ### Attributes by name -/

/-- A name without what does not count in it. Only ASCII capitals are made small: the one capital
beyond them whose small form is an ASCII letter stands for `k`, which no fixed name has. -/
def plainName (name : String) : String :=
  String.ofList
    ((name.toList.filter fun c => !(c = '_' || c = '.' || c = '-' || c = ' ')).map Char.toLower)

/-- Follows keys from one attribute value to the next. -/
def descend? : Json → List String → Option Json
  | value, [] => some value
  | value, key :: rest =>
    match value.get? key with
    | some next => descend? next rest
    | none => none

/-- A free attribute: by its whole name, or else by a path. -/
def freeAttribute? (lead : Lead) (name : String) : Option FieldValue :=
  match lead.attributes.lookup name with
  | some value => FieldValue.ofJson? value
  | none =>
    match Text.split '.' name with
    | [] => none
    | key :: rest =>
      match lead.attributes.lookup key with
      | some value => (descend? value rest).bind FieldValue.ofJson?
      | none => none

/-- The value of an attribute, found by name. -/
def attribute? (lead : Lead) (name : String) : Option FieldValue :=
  match plainName name with
  | "id" | "leadid" => some (.text lead.id.text)
  | "email" => some (.text lead.email)
  | "firstname" => lead.firstName.map .text
  | "lastname" => lead.lastName.map .text
  | "company" | "companyname" => lead.companyName.map .text
  | "domain" | "companydomain" => lead.domain.map .text
  | "industry" => lead.industry.map .text
  | "score" => some (.number (.ofInt lead.score.toInt))
  | "status" => some (.text lead.status.name)
  | "assignedto" | "assigneduser" => lead.assignedTo.map (.text ·.text)
  | "assignedteam" | "team" => lead.assignedTeam.map (.text ·.text)
  | "campaignid" | "campaign" => lead.campaignId.map (.text ·.text)
  | _ => lead.freeAttribute? name

/-! ### As JSON -/

/-- The fields of a lead. All may be missing; `fresh` supplies an identifier and the time of
making. -/
def fields (fresh : Fresh) : Fields Lead :=
  Lead.mk <$> .defaulted "id" Decoder.uuid (fresh.id 0)
    <*> .defaulted "email" Decoder.text ""
    <*> .spare "first_name" Decoder.text ["firstName"]
    <*> .spare "last_name" Decoder.text ["lastName"]
    <*> .spare "company_name" Decoder.text ["companyName"]
    <*> .spare "domain" Decoder.text
    <*> .spare "industry" Decoder.text
    <*> .defaulted "score" Decoder.int32 0
    <*> .defaulted "status" Decoder.named .raw
    <*> .spare "assigned_to" Decoder.uuid ["assignedTo"]
    <*> .spare "assigned_team" Decoder.uuid ["assignedTeam"]
    <*> .spare "campaign_id" Decoder.uuid ["campaignId"]
    <*> .defaulted "attributes" Decoder.members []
    <*> .defaulted "created_at" Decoder.timestamp fresh.now ["createdAt"]
    <*> .spare "updated_at" Decoder.timestamp ["updatedAt"]

def decode (fresh : Fresh) : Decoder Lead := (fields fresh).decode "LeadRecord"

def toJson (lead : Lead) : Json := .obj [
  ("assigned_team", .orNull Uuid.toJson lead.assignedTeam),
  ("assigned_to", .orNull Uuid.toJson lead.assignedTo),
  ("attributes", .obj lead.attributes),
  ("campaign_id", .orNull Uuid.toJson lead.campaignId),
  ("company_name", .orNull .str lead.companyName),
  ("created_at", lead.createdAt.toJson),
  ("domain", .orNull .str lead.domain),
  ("email", .str lead.email),
  ("first_name", .orNull .str lead.firstName),
  ("id", lead.id.toJson),
  ("industry", .orNull .str lead.industry),
  ("last_name", .orNull .str lead.lastName),
  ("score", .int lead.score.toInt),
  ("status", .str lead.status.name),
  ("updated_at", .orNull Timestamp.toJson lead.updatedAt)]

end Lead

end LeadAutomation
