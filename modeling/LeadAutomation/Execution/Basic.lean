import LeadAutomation.Error
import LeadAutomation.Workflow.Basic

/-!
# Executions

An execution is the record of one run of a workflow. It starts out running, collects one log entry
for each step that is carried out, and is finalized once. `record` and `finalize` refuse what does
not fit the status and leave the record alone then.
-/

namespace LeadAutomation

structure LogEntry where
  stepName : String
  stepKind : Word StepKind
  position : Int32
  success : Bool
  result : Option Json
  error : Option String
  executedAt : Timestamp
  durationMs : Int64
deriving DecidableEq

namespace LogEntry

def fields : Fields LogEntry :=
  LogEntry.mk <$> .required "step_name" Decoder.text
    <*> .required "step_type" Decoder.word
    <*> .required "order" Decoder.int32
    <*> .required "success" Decoder.bool
    <*> .optional "result" Decoder.value
    <*> .optional "error" Decoder.text
    <*> .required "executed_at" Decoder.timestamp
    <*> .required "duration_ms" Decoder.int64

def decode : Decoder LogEntry := fields.decode "StepResult"

def toJson (entry : LogEntry) : Json := .obj
  ([("duration_ms", .int entry.durationMs.toInt)] ++
    Json.optional "error" .str entry.error ++
    [("executed_at", entry.executedAt.toJson), ("order", .int entry.position.toInt)] ++
    Json.optional "result" id entry.result ++
    [("step_name", .str entry.stepName), ("step_type", .str entry.stepKind.text),
      ("success", .bool entry.success)])

end LogEntry

structure ExecutionContext where
  workflowName : String
  trigger : Trigger
  event : Option EventKind
  timestamp : Timestamp
  extra : Json.Members
deriving DecidableEq

namespace ExecutionContext

def fields : Fields ExecutionContext :=
  ExecutionContext.mk <$> .required "workflow_name" Decoder.text
    <*> .required "trigger" Decoder.named
    <*> .spare "event" Decoder.named
    <*> .required "timestamp" Decoder.timestamp
    <*> .defaulted "extra" Decoder.members []

def decode : Decoder ExecutionContext := fields.decode "ExecutionContextSnapshot"

def toJson (context : ExecutionContext) : Json := .obj [
  ("event", .orNull (fun event => .str (Named.name event)) context.event),
  ("extra", .obj context.extra),
  ("timestamp", context.timestamp.toJson),
  ("trigger", .str (Named.name context.trigger)),
  ("workflow_name", .str context.workflowName)]

end ExecutionContext

structure Execution where
  id : Uuid
  workflowId : Uuid
  leadId : Option Uuid
  status : ExecutionStatus
  startedAt : Timestamp
  completedAt : Option Timestamp
  errorMessage : Option String
  /-- The payload that the workflow was started with. -/
  triggerData : Json
  context : ExecutionContext
  log : List LogEntry
  /-- Whether a condition that was not met ended the run. -/
  gateStopped : Bool
deriving DecidableEq

namespace Execution

/-- The record of a run that begins now. -/
def start (fresh : Fresh) (workflow : Workflow) (leadId : Option Uuid) (event : Option EventKind)
    (triggerData : Json) (extra : Json.Members) : Execution where
  id := fresh.id 0
  workflowId := workflow.id
  leadId
  status := .running
  startedAt := fresh.now
  completedAt := none
  errorMessage := none
  triggerData
  context := ⟨workflow.name, workflow.trigger, event, fresh.now, extra⟩
  log := []
  gateStopped := false

/-- Adds an entry to the log of a running execution. -/
def record (entry : LogEntry) (execution : Execution) : Except ExecutionStateError Execution :=
  if execution.status ≠ .running then .error (.notRunning execution.id execution.status)
  else .ok { execution with log := execution.log ++ [entry] }

/-- Ends an execution that has not ended yet; a message is kept for a failure only. -/
def finalize (now : Timestamp) (status : ExecutionStatus) (message : Option String)
    (execution : Execution) :
    Except ExecutionStateError Execution :=
  if !status.isTerminal then .error (.notTerminal status)
  else if execution.status.isTerminal then .error (.alreadyFinalized execution.id execution.status)
  else .ok { execution with
    status
    errorMessage := if status = .failed then message else none
    completedAt := some now }

/-- What became of an execution. -/
def outcome (execution : Execution) : ExecutionOutcome :=
  match execution.status with
  | .pending | .running => .inProgress
  | .completed => if execution.gateStopped then .gateStopped else .succeeded
  | .failed => .failed
  | .cancelled => .cancelled

/-! ### As JSON -/

def fields : Fields Execution :=
  Execution.mk <$> .required "id" Decoder.uuid
    <*> .required "workflow_id" Decoder.uuid
    <*> .optional "lead_id" Decoder.uuid
    <*> .required "status" Decoder.named
    <*> .required "started_at" Decoder.timestamp
    <*> .optional "completed_at" Decoder.timestamp
    <*> .optional "error_message" Decoder.text
    <*> .required "trigger_data" Decoder.value
    <*> .required "execution_context" ExecutionContext.decode
    <*> .required "step_results" (Decoder.list LogEntry.decode)
    <*> .defaulted "gate_stopped" Decoder.bool false

def decode : Decoder Execution := fields.decode "WorkflowExecution"

def toJson (execution : Execution) : Json := .obj [
  ("completed_at", .orNull Timestamp.toJson execution.completedAt),
  ("error_message", .orNull .str execution.errorMessage),
  ("execution_context", execution.context.toJson),
  ("gate_stopped", .bool execution.gateStopped),
  ("id", execution.id.toJson),
  ("lead_id", .orNull Uuid.toJson execution.leadId),
  ("started_at", execution.startedAt.toJson),
  ("status", .str execution.status.name),
  ("step_results", .arr (execution.log.map LogEntry.toJson)),
  ("trigger_data", execution.triggerData),
  ("workflow_id", execution.workflowId.toJson)]

end Execution

end LeadAutomation
