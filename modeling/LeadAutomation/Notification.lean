import LeadAutomation.RecordView
import LeadAutomation.Template

/-!
# Notifications

A notification has a subject, a message and recipients. Recipients are named in the metadata of an
action or the configuration of a step, as a list or as one text with commas; where none are named, a
configured list takes their place. Subject and message are templates.

`compose` gives the notification or says why there is none to send.
-/

namespace LeadAutomation

structure Notification where
  subject : String
  message : String
  recipients : List String
  leadId : Option Uuid
deriving DecidableEq

namespace Notification

/-! ### Recipients -/

/-- The recipients in a text, between commas and without blanks around them. -/
def recipientsOfText (text : String) : List String :=
  ((Text.split ',' text).map Text.trim).filter fun recipient => recipient ≠ ""

/-- The recipients that a JSON value names: a text, or the texts in a list. -/
def recipientsOfJson : Json → List String
  | .str s => recipientsOfText s
  | .arr items => (items.filterMap Json.text?).flatMap recipientsOfText
  | _ => []

/-- The recipients that metadata names. -/
def recipientsOf (metadata : Json.Members) : List String :=
  match metadata.lookup "recipients" with
  | some json => recipientsOfJson json
  | none => []

/-! ### Composing -/

inductive Unsendable where
  | noMessage
  | noRecipients
deriving DecidableEq, Repr

def Unsendable.message : Unsendable → String
  | .noMessage => "notification has no message"
  | .noRecipients => "notification has no recipients and no default is configured"

def defaultSubject : String := "Lead automation notification"

/-- The notification of some templates; the default recipients receive it where no others are
named. -/
def compose (message : String) (subject : Option String) (named defaults : List String)
    (view : RecordView) :
    Except Unsendable Notification :=
  let message := Template.render view.text? message
  let recipients := if named.isEmpty then defaults else named
  if Text.isBlankText message then .error .noMessage
  else if recipients.isEmpty then .error .noRecipients
  else .ok {
    subject := Template.render view.text? (subject.getD defaultSubject)
    message
    recipients
    leadId := view.lead.map (·.id) }

/-! ### As JSON -/

def fields : Fields Notification :=
  Notification.mk <$> .required "subject" Decoder.text
    <*> .required "message" Decoder.text
    <*> .required "recipients" (Decoder.list Decoder.text)
    <*> .optional "lead_id" Decoder.uuid

def decode : Decoder Notification := fields.decode "Notification"

def toJson (notification : Notification) : Json := .obj [
  ("lead_id", .orNull Uuid.toJson notification.leadId),
  ("message", .str notification.message),
  ("recipients", .texts notification.recipients),
  ("subject", .str notification.subject)]

/-- What is reported of a notification that was sent. -/
def receipt (notification : Notification) : Json := .obj [
  ("message", .str notification.message),
  ("recipients", .texts notification.recipients)]

end Notification

end LeadAutomation
