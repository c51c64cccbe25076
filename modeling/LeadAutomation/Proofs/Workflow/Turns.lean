import LeadAutomation.Proofs.Workflow.Steps

/-!
# Turns

A run gives one turn to each step that it carries out. A turn holds what the step was given, what it
called and what came of it, and can only be built from a way in which the step really can be carried
out.

What a turn means for its run is said here twice: in the words of the rules (a condition that is not
met, a notification that goes unsent, a failure that is tolerated), which look at the settings of
the step and at the replies to its calls, and by the outcome that a run looks at. The theorems of
this module say that the two agree.
-/

namespace LeadAutomation

/-- A step carried out in a run. -/
structure Turn (options : Options) where
  step : Step
  fresh : Fresh
  /-- What the step sees. -/
  view : RecordView
  exchanges : List Exchange
  outcome : StepOutcome
  patch : LeadPatch
  performed : ∃ ended, (step.perform fresh.now options view).Runs exchanges ended ∧
    Step.settled ended = (outcome, patch)

namespace Turn

variable {options : Options} (turn : Turn options)

def entry : LogEntry := turn.step.entry turn.fresh.now turn.outcome

/-- All calls of a turn, of which the first asks for the time. -/
def calls : List Exchange := ⟨.stamp, turn.fresh⟩ :: turn.exchanges

def leadAfter : Option Lead := turn.view.lead.map (turn.patch.applyTo turn.fresh.now)

/-- What the action of a step is to write, if the step is one; no other step writes. -/
def writes : LeadPatch :=
  match turn.step.settings with
  | .ok (.action action) => (action.plan turn.view options.defaultRecipients).patch
  | _ => .empty

/-! ### In the words of the rules -/

/-- The step is a condition, and what it sees does not meet it. -/
def IsUnmet : Prop :=
  ∃ conditions, turn.step.settings = .ok (.condition conditions) ∧
    Condition.chainHolds turn.view.lookup conditions = false

/-- The step is a notification that cannot be composed or that the sender refuses. -/
def IsUnsent : Prop :=
  ∃ message subject recipients, turn.step.settings =
    .ok (.notification message subject recipients) ∧
    ((∃ reason, Notification.compose message subject recipients options.defaultRecipients
      turn.view = .error reason) ∨
      ∃ notification error, ⟨.effect (.notify notification), .failed error⟩ ∈ turn.exchanges)

/-- The step is an action in which nothing breaks down, and the options let a run go on after it. -/
def IsTolerated : Prop :=
  options.continueOnStepFailure = true ∧ (∃ action, turn.step.settings = .ok (.action action)) ∧
    ∀ exchange ∈ turn.exchanges, ¬ exchange.IsBreakdown

def Failed : Prop := turn.entry.success = false

/-- A failure that makes the run a failed one. -/
def Counts : Prop := turn.Failed ∧ ¬ turn.IsUnsent

/-- A failure that ends the run. -/
def Halts : Prop := turn.Counts ∧ ¬ turn.IsTolerated

/-- The run ends with this turn, whatever steps are left. -/
def Ends : Prop := turn.IsUnmet ∨ turn.Halts

/-! ### By the outcome -/

def ends : Bool :=
  match turn.outcome with
  | .passed _ => false
  | .stopped _ => true
  | .failed _ halts => halts

def stopped : Bool :=
  match turn.outcome with
  | .stopped _ => true
  | .passed _ | .failed .. => false

/-- The failure of the run that the outcome makes for, if any. -/
def failure? : Option String :=
  match turn.outcome with
  | .failed error halts =>
    if turn.step.counts halts then some (turn.step.failureMessage error) else none
  | .passed _ | .stopped _ => none

/-! ### The two agree -/

theorem happens :
    turn.step.Happens turn.fresh.now options turn.view turn.exchanges turn.outcome turn.patch := by
  obtain ⟨ended, hruns, hsettled⟩ := turn.performed
  exact Step.happens_of_runs hruns hsettled

/-- A failure counts unless it is that of an unsent notification, and halts if it counts and is not
tolerated. -/
theorem verdict :
    (∃ result, turn.outcome = .passed result ∧ ¬ turn.IsUnmet) ∨
    (∃ result, turn.outcome = .stopped result ∧ turn.IsUnmet) ∨
    ∃ error halts, turn.outcome = .failed error halts ∧ ¬ turn.IsUnmet ∧
      (turn.step.counts halts = true ↔ ¬ turn.IsUnsent) ∧
      (halts = true ↔ ¬ turn.IsUnsent ∧ ¬ turn.IsTolerated) := by
  have hhappens := turn.happens
  obtain ⟨step, fresh, view, exchanges, outcome, patch, performed⟩ := turn
  dsimp only at hhappens
  simp only [IsUnmet, IsUnsent, IsTolerated, Step.counts]
  cases hhappens with
  | acted settings => exact .inl ⟨_, rfl, by simp [settings]⟩
  | met settings holds => exact .inl ⟨_, rfl, by simp [settings, holds]⟩
  | delayed settings => exact .inl ⟨_, rfl, by simp [settings]⟩
  | sent settings => exact .inl ⟨_, rfl, by simp [settings]⟩
  | integrated settings => exact .inl ⟨_, rfl, by simp [settings]⟩
  | unmet settings fails => exact .inr (.inl ⟨_, rfl, _, settings, fails⟩)
  | unreadable settings => exact .inr (.inr ⟨_, _, rfl, by simp [settings]⟩)
  | misacted settings runs =>
    have hkind := Step.kind_of_settings settings
    have hcalm : ∀ exchange ∈ exchanges, ¬ exchange.IsBreakdown := by
      cases ActionPlan.ends_of_runs_carryOut runs with
      | outcome _ calm => exact calm
    refine .inr (.inr ⟨_, _, rfl, by simp [settings],
      by simp [settings, hkind, StepSettings.kind], ?_⟩)
    cases options.continueOnStepFailure with
    | true => simpa [settings] using hcalm
    | false => simp [settings]
  | undelayed settings => exact .inr (.inr ⟨_, _, rfl, by simp [settings]⟩)
  | uncomposed settings composed =>
    have hkind := Step.kind_of_settings settings
    exact .inr (.inr ⟨_, _, rfl, by simp [settings, hkind, composed, StepSettings.kind]⟩)
  | refused settings composed =>
    have hkind := Step.kind_of_settings settings
    exact .inr (.inr ⟨_, _, rfl, by simp [settings, hkind, StepSettings.kind]⟩)
  | rejected settings => exact .inr (.inr ⟨_, _, rfl, by simp [settings]⟩)
  | brokeActing settings =>
    refine .inr (.inr ⟨_, _, rfl, by simp [settings], by simp [settings], ?_⟩)
    simp [settings, Exchange.IsBreakdown]
  | brokeSending settings composed => exact .inr (.inr ⟨_, _, rfl, by simp [settings, composed]⟩)
  | brokeIntegrating settings => exact .inr (.inr ⟨_, _, rfl, by simp [settings]⟩)

theorem stopped_iff : turn.stopped = true ↔ turn.IsUnmet := by
  unfold stopped
  obtain ⟨_, houtcome, hunmet⟩ | ⟨_, houtcome, hunmet⟩ | ⟨_, _, houtcome, hunmet, -⟩ := turn.verdict
  · simpa [houtcome] using hunmet
  · simpa [houtcome] using hunmet
  · simpa [houtcome] using hunmet

theorem failure?_eq_some_iff {message : String} :
    turn.failure? = some message ↔
      turn.Counts ∧ ∃ error, turn.entry.error = some error ∧
      message = turn.step.failureMessage error := by
  unfold failure? Counts Failed entry
  obtain ⟨_, houtcome, -⟩ | ⟨_, houtcome, -⟩ | ⟨error, halts, houtcome, -, hcounts, -⟩ :=
    turn.verdict
  · simp [houtcome, Step.entry, Step.entry.logged]
  · simp [houtcome, Step.entry, Step.entry.logged]
  · simp [houtcome, Step.entry, Step.entry.logged, hcounts, eq_comm]

theorem failure?_eq_none_iff : turn.failure? = none ↔ ¬ turn.Counts := by
  unfold failure? Counts Failed entry
  obtain ⟨_, houtcome, -⟩ | ⟨_, houtcome, -⟩ | ⟨error, halts, houtcome, -, hcounts, -⟩ :=
    turn.verdict
  · simp [houtcome, Step.entry, Step.entry.logged]
  · simp [houtcome, Step.entry, Step.entry.logged]
  · simp [houtcome, Step.entry, Step.entry.logged, hcounts]

theorem ends_iff : turn.ends = true ↔ turn.Ends := by
  unfold ends Ends Halts Counts Failed entry
  obtain ⟨_, houtcome, hunmet⟩ | ⟨_, houtcome, hunmet⟩ | ⟨_, _, houtcome, hunmet, -, hhalts⟩ :=
    turn.verdict
  · simp [houtcome, hunmet, Step.entry, Step.entry.logged]
  · simp [houtcome, hunmet]
  · simp [houtcome, hunmet, hhalts, Step.entry, Step.entry.logged]

theorem entry_stepKind : turn.entry.stepKind = turn.step.kind := by
  unfold entry Step.entry
  split <;> rfl

theorem entry_position : turn.entry.position = turn.step.position := by
  unfold entry Step.entry
  split <;> rfl

/-- What a turn writes is what its action is to write, and nothing if the log says that the step
failed. -/
theorem patch_eq : turn.patch = if turn.entry.success then turn.writes else .empty := by
  have hhappens := turn.happens
  obtain ⟨step, fresh, view, exchanges, outcome, patch, performed⟩ := turn
  dsimp only at hhappens
  simp only [entry, writes]
  cases hhappens <;> simp [Step.entry, Step.entry.logged, *]

theorem writes_eq_empty (hkind : turn.step.kind ≠ .known .action) : turn.writes = .empty := by
  unfold writes
  split
  · next action hsettings => exact absurd (Step.kind_of_settings hsettings) hkind
  · rfl

end Turn

end LeadAutomation
