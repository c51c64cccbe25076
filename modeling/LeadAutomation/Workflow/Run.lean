import LeadAutomation.Action.Apply
import LeadAutomation.Options
import LeadAutomation.Workflow.Settings

/-!
# Running workflows

A run carries out the steps of a workflow in order and keeps the log of an execution. It ends early
where a condition does not hold, which is no failure, and where a step fails in a way that halts the
run. A notification that cannot be sent neither halts a run nor counts as a failure of it; an action
that fails counts, and halts unless the options say otherwise; all other failures halt, breakdowns
of outside systems among them.

At the end the execution is finalized: as failed if a failure counted, with the first such failure
as its message, and as completed otherwise.
-/

namespace LeadAutomation

inductive StepOutcome where
  | passed (result : Json)
  /-- A condition does not hold, and the run ends here. -/
  | stopped (result : Json)
  | failed (error : String) (halts : Bool)
deriving DecidableEq

/-- What a run gives back besides its execution. -/
structure RunReport where
  /-- The merged writes of all steps. -/
  patch : LeadPatch
  /-- The lead as the last step left it. -/
  lead : Option Lead
deriving DecidableEq

namespace Step

/-- When a delay of some minutes is over; `none` past the range of time. -/
def resumeAt? (now : Timestamp) (minutes : Binary64) : Option Timestamp := do
  let seconds ← minutes.mul (.ofNat false 60)
  let whole := seconds.truncate
  if Int64.maxValue.toInt / 1000 < whole then none else now.addSeconds? whole

/-- What came of a delay. -/
def delayOutcome (now : Timestamp) (minutes : Binary64) : StepOutcome :=
  if minutes.less .zero
    then .failed ("delay duration " ++ minutes.text plainNumber ++ " is negative") true
  else .passed (.obj [
    ("delayMinutes", .float minutes),
    ("resumeAt", .orNull Timestamp.toJson (resumeAt? now minutes))])

/-- Carries out an action, which halts the run if it fails and `halts` says so. -/
def performAction (halts : Bool) (defaults : List String) (view : RecordView) (action : Action) :
    Program (StepOutcome × LeadPatch) := do
  let plan := action.plan view defaults
  let outcome ← plan.carryOut action
  match outcome.error with
  | none => pure (.passed outcome.toJson, plan.patch)
  | some error => pure (.failed error halts, plan.patch)

/-- Sends a notification, if there is one to send. -/
def performNotification (composed : Except Notification.Unsendable Notification) :
    Program StepOutcome := do
  match composed with
  | .error reason => pure (.failed reason.message false)
  | .ok notification =>
    match ← (Program.effect (.notify notification)).caught with
    | .ok () => pure (.passed notification.receipt)
    | .error error => pure (.failed error.message false)

def performIntegration (call : IntegrationCall) : Program StepOutcome := do
  match ← (Program.effect (.integrate call)).caught with
  | .ok reply => pure (.passed reply)
  | .error error => pure (.failed error.message true)

/-- Carries out a step; gives what came of it and what it writes. -/
def perform (now : Timestamp) (options : Options) (view : RecordView) (step : Step) :
    Program (StepOutcome × LeadPatch) :=
  match step.settings with
  | .error fault => pure (.failed fault.message true, .empty)
  | .ok (.action action) =>
    performAction (!options.continueOnStepFailure) options.defaultRecipients view action
  | .ok (.condition conditions) =>
    if Condition.chainHolds view.lookup conditions
      then pure (.passed (.obj [("passed", .bool true)]), .empty)
    else pure (.stopped (.obj [("passed", .bool false)]), .empty)
  | .ok (.delay minutes) => pure (delayOutcome now minutes, .empty)
  | .ok (.notification message subject recipients) => do
    let composed := Notification.compose message subject recipients options.defaultRecipients view
    pure (← performNotification composed, .empty)
  | .ok (.integration integration action data) => do
    pure (← performIntegration ⟨integration, action, Template.renderJson view.text? data⟩, .empty)

/-- What came of a step and what it wrote, where it may have broken down. -/
def settled : Outcome (StepOutcome × LeadPatch) → StepOutcome × LeadPatch
  | .returned result => result
  | .failed error => (.failed error.message true, .empty)
  | .crashed text => (.failed (text.getD "step panicked") true, .empty)

def entry (step : Step) (now : Timestamp) : StepOutcome → LogEntry
  | .passed result | .stopped result => logged true (some result) none
  | .failed error _ => logged false none (some error)
where
  /-- The entry with its varying fields. -/
  logged (success : Bool) (result : Option Json) (error : Option String) : LogEntry :=
    { stepName := step.name, stepKind := step.kind, position := step.position
      success, result, error, executedAt := now, durationMs := 0 }

/-- Whether a failure of a step counts as a failure of the run. -/
def counts (step : Step) (halts : Bool) : Bool := halts || step.kind ≠ .known .notification

/-- The failure of a step as a failure of the run. -/
def failureMessage (step : Step) (error : String) : String :=
  "step '" ++ step.name ++ "': " ++ error

end Step

/-- Where a run stands between two steps. -/
structure RunState where
  execution : Execution
  lead : Option Lead
  patch : LeadPatch
  /-- The first failure that counts. -/
  failure : Option String

namespace RunState

/-- The state after a step, and whether the run ends with it. -/
def after (state : RunState) (step : Step) (now : Timestamp) (outcome : StepOutcome)
    (patch : LeadPatch) :
    Except ExecutionStateError (RunState × Bool) := do
  let gateStopped := match outcome with
    | .stopped _ => true
    | .passed _ | .failed .. => state.execution.gateStopped
  let failure := match outcome with
    | .failed error halts =>
      if step.counts halts then state.failure.or (some (step.failureMessage error))
        else state.failure
    | .passed _ | .stopped _ => state.failure
  let ends := match outcome with
    | .passed _ => false
    | .stopped _ => true
    | .failed _ halts => halts
  let execution ← { state.execution with gateStopped }.record (step.entry now outcome)
  pure (⟨execution, state.lead.map (patch.applyTo now), state.patch.merge patch, failure⟩, ends)

end RunState

namespace Workflow

/-- The result, or a failure of the execution's state. -/
def guardState {α : Type} (result : Except ExecutionStateError α) : Program α :=
  .ofExcept (result.mapError AutomationError.executionState)

/-- Carries out steps until the run ends. -/
def runSteps (options : Options) : List Step → RunState → Program RunState
  | [], state => pure state
  | step :: rest, state => do
    let now := (← Program.stamp).now
    let view : RecordView := ⟨state.lead, state.execution.triggerData⟩
    let (outcome, patch) := Step.settled (← (step.perform now options view).attempt)
    let (state, ends) ← guardState (state.after step now outcome patch)
    if ends then pure state else runSteps options rest state

/-- Runs a workflow on a lead, if there is one; gives the finalized execution and a report. -/
def run (options : Options) (workflow : Workflow) (execution : Execution) (lead : Option Lead) :
    Program (Execution × RunReport) := do
  if execution.status ≠ .running then
    .fail (.executionState (.notRunning execution.id execution.status))
  else
    let state ← runSteps options workflow.stepsInOrder ⟨execution, lead, .empty, none⟩
    let now := (← Program.stamp).now
    let status : ExecutionStatus := if state.failure.isSome then .failed else .completed
    let execution ← guardState (state.execution.finalize now status state.failure)
    pure (execution, ⟨state.patch, state.lead⟩)

end Workflow

end LeadAutomation
