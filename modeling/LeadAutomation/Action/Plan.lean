import LeadAutomation.Action.Basic
import LeadAutomation.Enrichment.Request
import LeadAutomation.Lead.Patch
import LeadAutomation.Notification

/-!
# What an action comes to

`Action.plan` settles what an action means for a record before anything is touched: a patch, a
notification, an enrichment request, or a reason why it cannot be done. Scores are rounded to whole
numbers and kept between 0 and 100, and the plan carries a note where that changed a score.
-/

namespace LeadAutomation

inductive ActionFault where
  | unsupported (kind : String)
  /-- There is no lead to do it to. -/
  | needsLead (deed : String)
  | noValue (deed : String)
  | invalidAssignee (given : String)
  | unknownTarget (given : String)
  | notNumeric (given : String)
  | invalidStatus (given : String)
  | unsendable (reason : Notification.Unsendable)
deriving DecidableEq, Repr

def ActionFault.message : ActionFault → String
  | .unsupported kind => "unsupported action type '" ++ kind ++ "'"
  | .needsLead deed => deed ++ " needs a lead record"
  | .noValue deed => deed ++ " has no value"
  | .invalidAssignee given => "'" ++ given ++ "' is not a valid assignee id"
  | .unknownTarget given => "unknown assignment target '" ++ given ++ "'"
  | .notNumeric given => "score value '" ++ given ++ "' is not numeric"
  | .invalidStatus given => LeadStatus.invalidMessage given
  | .unsendable reason => reason.message

/-- A patch to be made, the value to be reported for it, and a note on how that differs from what
was asked for. -/
structure PlannedWrite where
  patch : LeadPatch
  value : Json
  note : Option String := none
deriving DecidableEq

inductive ActionPlan where
  | write (write : PlannedWrite)
  | notify (notification : Notification)
  | enrich (request : EnrichmentRequest)
  | fault (fault : ActionFault)
deriving DecidableEq

namespace Action

/-- The name of an assignment target without case, underscores and hyphens. -/
def plainTarget (target : String) : String :=
  String.ofList ((Text.lowerAscii target).toList.filter fun c => !(c = '_' || c = '-'))

def assignmentPatch? (target : String) (assignee : Uuid) : Option LeadPatch :=
  match plainTarget target with
  | "user" | "assignedto" | "owner" => some { assignedTo := some assignee }
  | "team" | "assignedteam" => some { assignedTeam := some assignee }
  | _ => none

def planAssignment (action : Action) : Except ActionFault PlannedWrite :=
  match action.valueText? with
  | none => .error (.noValue "assignment")
  | some given =>
    match Uuid.ofText? given with
    | none => .error (.invalidAssignee given)
    | some assignee =>
      match assignmentPatch? action.target assignee with
      | none => .error (.unknownTarget (plainTarget action.target))
      | some patch => .ok ⟨patch, assignee.toJson, none⟩

/-- A whole number brought between 0 and 100. -/
def clampScore (score : Int) : Int := if score < 0 then 0 else if 100 < score then 100 else score

def planScoring (action : Action) : Except ActionFault PlannedWrite :=
  match action.value.bind FieldValue.number? with
  | none => .error (.notNumeric ((action.value.map FieldValue.display).getD ""))
  | some requested =>
    let score := clampScore requested.round
    let note := if score = requested.round then none
      else some ("score " ++ requested.text plainNumber ++ " clamped to " ++ toString score)
    .ok ⟨{ score := some (.ofInt score) }, .int score, note⟩

def planStatusChange (action : Action) : Except ActionFault PlannedWrite :=
  match action.valueText? with
  | none => .error (.noValue "status change")
  | some given =>
    match LeadStatus.ofText? given with
    | none => .error (.invalidStatus given)
    | some status => .ok ⟨{ status := some status }, .str status.name, none⟩

def planNotification (action : Action) (view : RecordView) (defaults : List String) :
    Except Notification.Unsendable Notification :=
  Notification.compose (action.valueText?.getD "")
    ((action.metadata.lookup "subject").bind Json.text?)
    (Notification.recipientsOf action.metadata) defaults view

/-- The provider that an enrichment is asked of: the target, else the value, else the default
one. -/
def provider (action : Action) : String :=
  let target := Text.trim action.target
  if target ≠ "" then target else action.valueText?.getD "default"

/-- The plan of a write, which only a lead can receive. -/
def planWrite (lead : Option Lead) (deed : String) (planned : Except ActionFault PlannedWrite) :
    ActionPlan :=
  match lead, planned with
  | none, _ => .fault (.needsLead deed)
  | some _, .ok write => .write write
  | some _, .error fault => .fault fault

/-- What an action comes to for a record, where `defaults` receive notifications that name no
one. -/
def plan (action : Action) (view : RecordView) (defaults : List String) : ActionPlan :=
  match action.kind with
  | .known .assignment => planWrite view.lead "assignment" action.planAssignment
  | .known .scoring => planWrite view.lead "scoring" action.planScoring
  | .known .statusChange => planWrite view.lead "status change" action.planStatusChange
  | .known .notification =>
    match action.planNotification view defaults with
    | .ok notification => .notify notification
    | .error reason => .fault (.unsendable reason)
  | .known .enrichment =>
    match view.lead with
    | some lead => .enrich ⟨lead.id, action.provider, action.metadata⟩
    | none => .fault (.needsLead "enrichment")
  | .other kind _ => .fault (.unsupported kind)

end Action

end LeadAutomation
