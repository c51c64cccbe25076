import LeadAutomation.FieldValue
import LeadAutomation.Lead.Status

/-!
# Actions

What a rule does when it matches, and what an action step of a workflow does: assign a lead, score
it, change its status, notify someone or ask for more data.
-/

namespace LeadAutomation

inductive ActionKind where
  | assignment
  | scoring
  | notification
  | statusChange
  | enrichment
deriving DecidableEq, Repr

namespace ActionKind

instance : PlainNamed ActionKind where
  all := [.assignment, .scoring, .notification, .statusChange, .enrichment]
  name
    | .assignment => "assignment"
    | .scoring => "scoring"
    | .notification => "notification"
    | .statusChange => "status_change"
    | .enrichment => "enrichment"
  find_name a := by cases a <;> rfl
  plain a := by cases a <;> decide +kernel

end ActionKind

/-- Something to be done to or about a lead. -/
structure Action where
  kind : Word ActionKind
  /-- Which attribute, channel or provider the action is about. -/
  target : String
  value : Option FieldValue
  /-- Further data, such as the recipients of a notification. -/
  metadata : Json.Members

namespace Action

/-- The text of an action's value without blanks around it, if anything is left. -/
def valueText? (action : Action) : Option String :=
  (action.value.map fun value => Text.trim value.display).filter (· ≠ "")

/-! ### As JSON -/

def fields : Fields Action :=
  Action.mk <$> .required "type" Decoder.word ["action_type"]
    <*> .defaulted "target" Decoder.text ""
    <*> .spare "value" FieldValue.decode
    <*> .defaulted "metadata" Decoder.members []

def decode : Decoder Action := fields.decode "Action"

def toJson (action : Action) : Json := .obj [
  ("metadata", .obj action.metadata),
  ("target", .str action.target),
  ("type", .str action.kind.text),
  ("value", .orNull FieldValue.toJson action.value)]

/-! ### Common actions -/

def of (kind : ActionKind) (target : String) (value : FieldValue) : Action :=
  ⟨.known kind, target, some value, []⟩

def assignUser (user : Uuid) : Action := of .assignment "user" (.text user.text)

def assignTeam (team : Uuid) : Action := of .assignment "team" (.text team.text)

def setScore (score : Binary64) : Action := of .scoring "score" (.number score)

def changeStatus (status : LeadStatus) : Action := of .statusChange "status" (.text status.name)

def notify (message : String) (recipients : List String) : Action :=
  { of .notification "email" (.text message) with metadata := [("recipients", .texts recipients)] }

def enrich (provider : String) : Action := of .enrichment provider (.text provider)

/-- Marks a lead as qualified and tells sales. -/
def qualify (salesInbox : String) : List Action := [
  changeStatus .qualified,
  notify ("\x7b\x7bfirstName\x7d\x7d \x7b\x7blastName\x7d\x7d at \x7b\x7bcompanyName\x7d\x7d " ++
    "qualified with score \x7b\x7bscore\x7d\x7d") [salesInbox]]

def routeToTeam (team : Uuid) : List Action := [enrich "clearbit", assignTeam team]

/-- Marks a lead as disqualified and takes its score away. -/
def disqualify : List Action := [changeStatus .disqualified, setScore .zero]

end Action

end LeadAutomation
