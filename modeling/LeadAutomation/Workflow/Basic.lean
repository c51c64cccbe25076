import LeadAutomation.Event

/-!
# Workflows

A workflow is a sequence of steps that is started by one trigger. The steps run in the order of
their positions, wherever they stand in the list; what a step does is given by its kind and its
configuration.
-/

namespace LeadAutomation

inductive StepKind where
  | action
  | condition
  | delay
  | notification
  | integration
deriving DecidableEq, Repr

namespace StepKind

instance : PlainNamed StepKind where
  all := [.action, .condition, .delay, .notification, .integration]
  name
    | .action => "action"
    | .condition => "condition"
    | .delay => "delay"
    | .notification => "notification"
    | .integration => "integration"
  find_name a := by cases a <;> rfl
  plain a := by cases a <;> decide +kernel

end StepKind

structure Step where
  id : Uuid
  kind : Word StepKind
  name : String
  /-- The position in the sequence, counted from one. -/
  position : Int32
  config : Json
deriving DecidableEq

namespace Step

/-- The fields of a step, with an identifier for a step that brings none. -/
def fields (id : Uuid) : Fields Step :=
  Step.mk <$> .defaulted "id" Decoder.uuid id
    <*> .required "type" Decoder.word ["step_type"]
    <*> .required "name" Decoder.text
    <*> .required "order" Decoder.int32
    <*> .defaulted "config" Decoder.value .null

def decode (id : Uuid) : Decoder Step := (fields id).decode "WorkflowStep"

/-- Reads steps, each with an identifier of its own to fall back on. -/
def decodeList (fresh : Fresh) : Decoder (List Step)
  | .arr items => (items.zipIdx 1).mapM fun (item, index) => decode (fresh.id index) item
  | draft => Decoder.mismatch draft "a sequence"

def toJson (step : Step) : Json := .obj [
  ("config", step.config),
  ("id", step.id.toJson),
  ("name", .str step.name),
  ("order", .int step.position.toInt),
  ("type", .str step.kind.text)]

end Step

/-- A sequence of steps and what starts it. -/
structure Workflow where
  id : Uuid
  name : String
  description : Option String
  trigger : Trigger
  active : Bool
  priority : Int32
  steps : List Step
  createdBy : Option Uuid
  createdAt : Timestamp
  updatedAt : Option Timestamp
deriving DecidableEq

namespace Workflow

/-- The steps in the order in which they run; steps at one position keep their order. -/
def stepsInOrder (workflow : Workflow) : List Step :=
  workflow.steps.mergeSort fun a b => decide (a.position ≤ b.position)

/-- Whether a workflow is started by an event. -/
def appliesTo (workflow : Workflow) (event : EventKind) : Bool :=
  workflow.active && Trigger.ofEvent? event = some workflow.trigger

/-! ### As JSON -/

/-- The fields of a workflow; `fresh` supplies identifiers and the time of making. -/
def fields (fresh : Fresh) : Fields Workflow :=
  Workflow.mk <$> .defaulted "id" Decoder.uuid (fresh.id 0)
    <*> .required "name" Decoder.text
    <*> .spare "description" Decoder.text
    <*> .required "trigger" Decoder.named
    <*> .defaulted "is_active" Decoder.bool true ["isActive"]
    <*> .defaulted "priority" Decoder.int32 0
    <*> .defaulted "steps" (Step.decodeList fresh) []
    <*> .spare "created_by_id" Decoder.uuid ["createdById"]
    <*> .defaulted "created_at" Decoder.timestamp fresh.now ["createdAt"]
    <*> .spare "updated_at" Decoder.timestamp ["updatedAt"]

def decode (fresh : Fresh) : Decoder Workflow := (fields fresh).decode "Workflow"

def members (workflow : Workflow) : Json.Members := [
  ("created_at", workflow.createdAt.toJson),
  ("created_by_id", .orNull Uuid.toJson workflow.createdBy),
  ("description", .orNull .str workflow.description),
  ("id", workflow.id.toJson),
  ("is_active", .bool workflow.active),
  ("name", .str workflow.name),
  ("priority", .int workflow.priority.toInt),
  ("steps", .arr (workflow.steps.map Step.toJson)),
  ("trigger", .str (Named.name workflow.trigger)),
  ("updated_at", .orNull Timestamp.toJson workflow.updatedAt)]

def toJson (workflow : Workflow) : Json := .obj workflow.members

end Workflow

end LeadAutomation
