import LeadAutomation.Error
import LeadAutomation.Notification

/-!
# Notifications by mail

A notification is sent as a plain text mail from a configured address to its recipients. Addresses
are checked before anything is sent: an address has a name and a domain around an at sign, and may
stand in angle brackets after the name of its owner.
-/

namespace LeadAutomation

/-- The account that mail is sent from. -/
structure MailAccount where
  host : String
  port : UInt16
  username : String
  password : String
  fromEmail : String
  fromName : String
deriving DecidableEq

namespace MailAccount

/-- Whether there is enough to log in with. -/
def isConfigured (account : MailAccount) : Bool :=
  account.host ≠ "" && account.username ≠ "" && account.password ≠ ""

def fields : Fields MailAccount :=
  MailAccount.mk <$> .required "host" Decoder.text
    <*> .required "port" Decoder.uint16
    <*> .required "username" Decoder.text
    <*> .required "password" Decoder.text
    <*> .required "from_email" Decoder.text
    <*> .required "from_name" Decoder.text

def decode : Decoder MailAccount := fields.decode "SmtpConfig"

def toJson (account : MailAccount) : Json := .obj [
  ("from_email", .str account.fromEmail),
  ("from_name", .str account.fromName),
  ("host", .str account.host),
  ("password", .str account.password),
  ("port", .int account.port.toNat),
  ("username", .str account.username)]

end MailAccount

/-- An owner, if one is named, and an address. -/
structure Mailbox where
  owner : Option String
  address : String
deriving DecidableEq, Repr

namespace Mailbox

def isAddressPart (cs : List Char) : Bool :=
  !cs.isEmpty && cs.all fun c => !(Text.isBlank c || c = '@' || c = '<' || c = '>' || c = ',')

def isAddress (cs : List Char) : Bool :=
  match Text.splitChars '@' cs with
  | [name, domain] => isAddressPart name && isAddressPart domain
  | _ => false

/-- The mailbox that a text stands for. -/
def ofText? (text : String) : Option Mailbox :=
  let cs := Text.trimChars text.toList
  match cs.reverse with
  | '>' :: inside =>
    let address := (inside.takeWhile (· ≠ '<')).reverse
    let owner := Text.trimChars (inside.drop (address.length + 1)).reverse
    if address.length < inside.length && isAddress address then
      some ⟨if owner.isEmpty then none else some (String.ofList owner), String.ofList address⟩
    else none
  | _ => if isAddress cs then some ⟨none, String.ofList cs⟩ else none

end Mailbox

structure Mail where
  sender : Mailbox
  recipients : List Mailbox
  subject : String
  body : String
deriving DecidableEq, Repr

namespace Mail

/-- What is said of a text that is no mailbox. -/
def invalidMailbox : AutomationError := .notification "Invalid input"

/-- The mailbox of a text. -/
def mailbox (text : String) : Except AutomationError Mailbox :=
  match Mailbox.ofText? text with
  | some mailbox => .ok mailbox
  | none => .error invalidMailbox

/-- The mail by which a notification is sent. -/
def compose (account : MailAccount) (notification : Notification) : Except AutomationError Mail :=
  do
  let sender ← mailbox (account.fromName ++ " <" ++ account.fromEmail ++ ">")
  let recipients ← notification.recipients.mapM mailbox
  if recipients.isEmpty then .error (.notification "missing destination address")
  else .ok ⟨sender, recipients, notification.subject, notification.message⟩

/-- Sends a notification, where `deliver` hands over a mail or tells why it could not. -/
def send {m : Type → Type} [Monad m] (account : MailAccount)
    (deliver : Mail → m (Except String Unit)) (notification : Notification) :
    m (Except AutomationError Unit) :=
  match compose account notification with
  | .ok mail => (Except.mapError AutomationError.notification) <$> deliver mail
  | .error error => pure (.error error)

end Mail

end LeadAutomation
