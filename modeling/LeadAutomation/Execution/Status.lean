import LeadAutomation.Vocabulary

/-!
# The status of an execution

An execution is pending or running until it ends, in one of three ways, for good.
-/

namespace LeadAutomation

inductive ExecutionStatus where
  | pending
  | running
  | completed
  | failed
  | cancelled
deriving DecidableEq, Repr

namespace ExecutionStatus

instance : Named ExecutionStatus where
  all := [.pending, .running, .completed, .failed, .cancelled]
  name
    | .pending => "pending"
    | .running => "running"
    | .completed => "completed"
    | .failed => "failed"
    | .cancelled => "cancelled"
  find_name a := by cases a <;> rfl

def name (status : ExecutionStatus) : String := Named.name status

/-- Whether an execution of this status has ended. -/
def isTerminal : ExecutionStatus → Bool
  | .completed | .failed | .cancelled => true
  | .pending | .running => false

def unknownMessage (text : String) : String := "unknown execution status '" ++ text ++ "'"

end ExecutionStatus

/-- What became of an execution, as seen from outside. -/
inductive ExecutionOutcome where
  | inProgress
  | succeeded
  /-- A condition was not met, which ends an execution early but well. -/
  | gateStopped
  | failed
  | cancelled
deriving DecidableEq, Repr

namespace ExecutionOutcome

instance : Named ExecutionOutcome where
  all := [.inProgress, .succeeded, .gateStopped, .failed, .cancelled]
  name
    | .inProgress => "in_progress"
    | .succeeded => "succeeded"
    | .gateStopped => "gate_stopped"
    | .failed => "failed"
    | .cancelled => "cancelled"
  find_name a := by cases a <;> rfl

end ExecutionOutcome

end LeadAutomation
