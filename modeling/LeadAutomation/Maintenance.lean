import LeadAutomation.Program

/-!
# Maintenance

Executions that were abandoned while they ran, by a crash for instance, are found by their age and
ended as failed. The sweep that does so runs once at startup and then on a plan.

The age must be positive. The point in time that far back has to exist, too: an age that leads out
of the range of time breaks the sweep down.
-/

namespace LeadAutomation.Maintenance

/-- Why maintenance could not be done. -/
inductive JobError where
  | execution (detail : String)
  | config (detail : String)
deriving DecidableEq, Repr

def JobError.message : JobError → String
  | .execution detail => "Job execution error: " ++ detail
  | .config detail => "Configuration error: " ++ detail

/-- How often to sweep, and after how long an execution counts as abandoned. -/
structure Plan where
  intervalMinutes : UInt32 := 5
  staleMinutes : Int64 := 60
deriving DecidableEq

namespace Plan

def fields : Fields Plan :=
  Plan.mk <$> .required "stale_check_interval_minutes" Decoder.uint32
    <*> .required "stale_execution_minutes" Decoder.int64

def decode : Decoder Plan := fields.decode "JobConfig"

def toJson (plan : Plan) : Json := .obj [
  ("stale_check_interval_minutes", .int plan.intervalMinutes.toNat),
  ("stale_execution_minutes", .int plan.staleMinutes.toInt)]

/-- The cron expression of a plan: every so many minutes, and every hour if that is an hour or
more. -/
def cron (plan : Plan) : Except JobError String :=
  if plan.intervalMinutes = 0
    then .error (.config "stale check interval must be at least one minute")
  else if 60 ≤ plan.intervalMinutes then .ok "0 0 * * * *"
  else .ok ("0 */" ++ toString plan.intervalMinutes.toNat ++ " * * * *")

end Plan

def abandonedMessage : String := "execution abandoned before reaching a terminal state"

/-- The point in time some minutes back, if it exists; the minutes must fit a duration in 64-bit
milliseconds. -/
def cutoff? (now : Timestamp) (minutes : Int) : Option Timestamp :=
  if Int64.maxValue.toInt / 1000 < minutes * 60 then none else now.addSeconds? (-(minutes * 60))

/-- Ends executions that have run for more than some minutes; gives their number. -/
def sweep (minutes : Int64) : Program (Except JobError Nat) := do
  if minutes ≤ 0 then
    pure (.error
      (.config ("stale execution age must be positive, got " ++
        toString minutes.toInt ++ " minutes")))
  else
    match cutoff? (← .stamp).now minutes.toInt with
    | none => .done (.crashed none)
    | some cutoff =>
      match ← (Program.store (.failStaleExecutions cutoff abandonedMessage)).caught with
      | .ok count => pure (.ok count)
      | .error error => pure (.error (.execution error.message))

structure SweepLog where
  result : Except JobError Nat

namespace SweepLog

def jobName : String := "Stale Execution Sweep"

def toJson (log : SweepLog) : Json :=
  match log.result with
  | .ok count => .obj [("error", .null), ("items_processed", .int count),
      ("job_name", .str jobName), ("status", .str "completed")]
  | .error error => .obj [("error", .str error.message), ("items_processed", .int 0),
      ("job_name", .str jobName), ("status", .str "failed")]

end SweepLog

/-- Starts maintenance: sweeps once and then sets up the plan. Gives the notes so far and what came
of the plan. -/
def start (plan : Plan) : Program (List SweepLog × Except JobError Unit) := do
  let result ← sweep plan.staleMinutes
  pure ([⟨result⟩], plan.cron.map fun _ => ())

end LeadAutomation.Maintenance
