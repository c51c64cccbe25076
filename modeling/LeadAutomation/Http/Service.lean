import LeadAutomation.Dispatch
import LeadAutomation.Http.Response
import LeadAutomation.Http.Route
import LeadAutomation.Trial
import LeadAutomation.Validation

/-!
# The HTTP interface

`Service.respond` is the whole interface: it finds the route of a request, reads what the route
needs from the path, the query and the body, in this order, and answers with what came of it.
Definitions are validated before they are stored, and their identifiers and times of making are
given by the service.

Where a body is optional, one that cannot be read counts as none.
-/

namespace LeadAutomation.Http

/-- Where the service keeps its records, as far as its health is concerned. -/
inductive Storage where
  | memory
  | database (alive : Bool)
deriving DecidableEq, Repr

structure Service where
  options : Options
  storage : Storage := .memory

/-- What a handler comes to: a response, a rejection of the request or an error. -/
inductive Handled where
  | response (response : Response)
  | rejection (rejection : Rejection)
  | error (error : ApiError)

namespace Handled

/-- What comes of reading a part of a request and going on with it. -/
def reading {α : Type} (part : Except Rejection α) (next : α → Program Handled) : Program Handled :=
  match part with
  | .ok a => next a
  | .error reason => pure (.rejection reason)

/-- What comes of a validation. -/
def validating (validated : Except (List Violation) (List String))
    (next : List String → Program Handled) :
    Program Handled :=
  match validated with
  | .ok warnings => next warnings
  | .error violations => pure (.error (.invalid violations))

/-- What comes of looking for a record. -/
def finding {α : Type} (resource : String) (record : Option α) (next : α → Program Handled) :
    Program Handled :=
  match record with
  | some a => next a
  | none => pure (.error (.notFound resource))

def ok (value : Json) : Handled := .response (.ok value)

end Handled

def withWarnings (members : Json.Members) (warnings : List String) : Json :=
  .obj (members ++ if warnings.isEmpty then [] else [("warnings", .texts warnings)])

/-! ### Bodies of requests -/

/-- The lead of a rule test. -/
def testFields (fresh : Fresh) : Fields Lead := .required "lead" (Lead.decode fresh) ["record"]

/-- The lead and the payload of a preview. -/
def previewFields (fresh : Fresh) : Fields (Option Lead × Json) :=
  Prod.mk <$> .spare "lead" (Lead.decode fresh) ["record"]
    <*> .defaulted "trigger_data" Decoder.value .null ["triggerData"]

/-- The lead and the payload of a manual start. -/
def executeFields : Fields (Option Uuid × Json) :=
  Prod.mk <$> .spare "lead_id" Decoder.uuid ["leadId"]
    <*> .defaulted "trigger_data" Decoder.value .null ["triggerData"]

/-- How much history is given where no limit is asked for. -/
def defaultHistoryLimit : Int := 50

/-- A limit of history, brought between 1 and 200. -/
def historyLimit (asked : Option Int) : Int := max 1 (min 200 (asked.getD defaultHistoryLimit))

namespace Service

/-! ### Rules -/

def createRule (request : Request) : Program Handled := do
  let fresh ← .stamp
  Handled.reading (request.read (Rule.decode fresh)) fun given =>
    Handled.validating given.validate fun warnings => do
      let made ← Program.stamp
      let rule := { given with id := made.id 0, createdAt := made.now, updatedAt := none }
      .store (.saveRule rule)
      pure (.response (.created (withWarnings rule.members warnings)))

def getRule (segment : String) : Program Handled :=
  Handled.reading (Request.pathId segment) fun id => do
    Handled.finding ("Rule " ++ id.text) (← .store (.getRule id)) fun rule => pure (.ok rule.toJson)

/-- Puts a rule in the place of a stored one. -/
def updateRule (segment : String) (request : Request) : Program Handled := do
  let fresh ← .stamp
  Handled.reading (Request.pathId segment) fun id =>
    Handled.reading (request.read (Rule.decode fresh)) fun given => do
      Handled.finding ("Rule " ++ id.text) (← .store (.getRule id)) fun existing =>
        Handled.validating given.validate fun warnings => do
          let now := (← Program.stamp).now
          let rule := { given with
            id
            createdAt := existing.createdAt
            createdBy := existing.createdBy
            updatedAt := some now }
          .store (.saveRule rule)
          pure (.ok (withWarnings rule.members warnings))

def deleteRule (segment : String) : Program Handled :=
  Handled.reading (Request.pathId segment) fun id => do
    if ← .store (.deleteRule id) then pure (.response ⟨204, .empty⟩)
    else pure (.error (.notFound ("Rule " ++ id.text)))

def testRule (options : Options) (segment : String) (request : Request) : Program Handled := do
  let fresh ← .stamp
  Handled.reading (Request.pathId segment) fun id =>
    Handled.reading (request.read ((testFields fresh).decode "TestRuleRequest")) fun lead => do
      pure (.ok (← Rule.test options id lead).toJson)

/-! ### Workflows -/

def createWorkflow (request : Request) : Program Handled := do
  let fresh ← .stamp
  Handled.reading (request.read (Workflow.decode fresh)) fun given =>
    Handled.validating given.validate fun warnings => do
      let made ← Program.stamp
      let workflow := { given with id := made.id 0, createdAt := made.now, updatedAt := none }
      .store (.saveWorkflow workflow)
      pure (.response (.created (withWarnings workflow.members warnings)))

def getWorkflow (segment : String) : Program Handled :=
  Handled.reading (Request.pathId segment) fun id => do
    Handled.finding ("Workflow " ++ id.text) (← .store (.getWorkflow id)) fun workflow =>
      pure (.ok workflow.toJson)

def previewWorkflow (options : Options) (segment : String) (request : Request) : Program Handled :=
  do
  let fresh ← .stamp
  Handled.reading (Request.pathId segment) fun id => do
    let (lead, triggerData) :=
      match request.read ((previewFields fresh).decode "PreviewRequest") with
      | .ok asked => asked
      | .error _ => (none, .null)
    pure (.ok (← Workflow.preview options id lead triggerData).toJson)

def executeWorkflow (options : Options) (segment : String) (request : Request) : Program Handled :=
  Handled.reading (Request.pathId segment) fun id => do
    let (leadId, triggerData) :=
      match request.read (executeFields.decode "ExecuteRequest") with
      | .ok asked => asked
      | .error _ => (none, .null)
    pure (.ok (← Workflow.execute options id leadId triggerData).toJson)

/-- Gives the latest executions of a stored workflow. -/
def listExecutions (segment : String) (request : Request) : Program Handled :=
  Handled.reading (Request.pathId segment) fun id =>
    Handled.reading (request.queryInteger? "limit") fun asked => do
      pure (.ok (.arr ((← Execution.history id (historyLimit asked)).map Execution.toJson)))

def getExecution (segment : String) : Program Handled :=
  Handled.reading (Request.pathId segment) fun id => do
    pure (.ok (← Execution.get id).toJson)

/-! ### Events -/

def dispatchEvent (options : Options) (request : Request) : Program Handled := do
  let fresh ← .stamp
  Handled.reading (request.read (Event.decode fresh.now)) fun event => do
    let summaries ← event.dispatch options
    pure (.ok (.obj [("event", event.toJson), ("results", .arr (summaries.map Summary.toJson))]))

/-! ### The service itself -/

def health (storage : Storage) : Response :=
  let report (status name : String) : Json := .obj [
    ("service", .str "leadgen-automation"), ("status", .str status), ("storage", .str name)]
  match storage with
  | .memory => .ok (report "healthy" "memory")
  | .database true => .ok (report "healthy" "postgres")
  | .database false => ⟨503, .json (report "unhealthy" "postgres")⟩

/-- What comes of a request to a route that knows its method. -/
def handle (service : Service) (request : Request) (method : String) : Route → Program Handled
  | .root => pure (.response ⟨200, .text "Lead Automation API v1.0.0"⟩)
  | .health => pure (.response (health service.storage))
  | .rules => createRule request
  | .rule id =>
    if method = "GET" then getRule id else if method = "PUT" then updateRule id request
    else deleteRule id
  | .ruleTest id => testRule service.options id request
  | .workflows => createWorkflow request
  | .workflow id => getWorkflow id
  | .workflowPreview id => previewWorkflow service.options id request
  | .workflowExecute id => executeWorkflow service.options id request
  | .workflowExecutions id => listExecutions id request
  | .execution id => getExecution id
  | .events => dispatchEvent service.options request

/-- The response of a handler. -/
def conclude (handler : Program Handled) : Program Response := do
  match ← handler.caught with
  | .ok (.response response) => pure response
  | .ok (.rejection reason) => pure (.ofRejection reason)
  | .ok (.error error) => pure (.ofError (← Program.stamp).now error)
  | .error error => pure (.ofError (← Program.stamp).now (.ofAutomation error))

/-- The response to a request. A `HEAD` is a `GET` without the body of its response, and an
`OPTIONS`, by which browsers ask beforehand, is allowed everywhere. -/
def respond (service : Service) (request : Request) : Program Response := do
  let isHead := request.method = "HEAD"
  let method := if isHead then "GET" else request.method
  if method = "OPTIONS" then pure ⟨200, .empty⟩
  else match Route.ofPath? request.target.path with
    | none => pure ⟨404, .empty⟩
    | some route =>
      if route.methods.contains method then do
        let response ← conclude (service.handle request method route)
        pure (if isHead then { response with body := .empty } else response)
      else pure ⟨405, .empty⟩

end Service

end LeadAutomation.Http
