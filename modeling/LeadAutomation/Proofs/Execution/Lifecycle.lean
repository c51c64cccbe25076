import LeadAutomation.Proofs.Traces
import LeadAutomation.Proofs.Workflow.Accounts

/-!
# The life of a record

An execution is handled in three ways: an entry is added to its log, it is finalized, or a workflow
is run on it. Each has a guard of its own, and they may come in any order and with any arguments.
`Becomes` says what a record turns into when a handling succeeds; one that does not succeed is
refused at once, before anything is called, so that there is no record that was changed halfway.
What holds of a record through all its life, and that its first end is its last, follows from these
two.
-/

namespace LeadAutomation

/-- Something that is done to the record of an execution. -/
inductive Handling where
  | record (entry : LogEntry)
  | finalize (now : Timestamp) (status : ExecutionStatus) (message : Option String)
  | run (options : Options) (workflow : Workflow) (lead : Option Lead)

namespace Handling

/-- What a handling does; gives the record as it is afterwards. -/
def program : Handling → Execution → Program Execution
  | .record entry, execution => Workflow.guardState (execution.record entry)
  | .finalize now status message, execution =>
    Workflow.guardState (execution.finalize now status message)
  | .run options workflow lead, execution => Prod.fst <$> workflow.run options execution lead

/-- A handling that a record can go through only once. -/
def IsEnding : Handling → Prop
  | .record _ => False
  | .finalize .. | .run .. => True

/-- The guard of a handling. -/
def Admits : Handling → Execution → Prop
  | .record _, execution | .run .., execution => execution.status = .running
  | .finalize _ status _, execution =>
    status.isTerminal = true ∧ execution.status.isTerminal = false

/-- A handling fails on a record at once, without a call. -/
def IsRefused (handling : Handling) (execution : Execution) : Prop :=
  ∃ error, handling.program execution = .fail (.executionState error)

/-- What a record becomes through a handling that succeeds. -/
inductive Becomes (execution : Execution) : Handling → Execution → Prop
  | recorded {entry : LogEntry} (running : execution.status = .running) :
      Becomes execution (.record entry) { execution with log := execution.log ++ [entry] }
  | finalized {now : Timestamp} {status : ExecutionStatus} {message : Option String}
    (terminal : status.isTerminal = true)
      (unended : execution.status.isTerminal = false) :
      Becomes execution (.finalize now status message) { execution with
        status
        errorMessage := if status = .failed then message else none
        completedAt := some now }
  | ran {options : Options} {workflow : Workflow} {lead : Option Lead}
    (running : execution.status = .running)
      (turns : List (Turn options)) (now : Timestamp) :
      Becomes execution (.run options workflow lead) (execution.concluded turns now)

variable {σ : Type} (answer : (call : Call) → σ → call.Reply × σ)

/-- In some surroundings, a handling succeeds on a record. -/
def Succeeds (point : Execution × σ) (handling : Handling) : Prop :=
  ∃ next, ((handling.program point.1).run answer point.2).1 = .returned next

/-- A record and its surroundings after a handling; a handling that does not succeed has no record
to leave behind. -/
def after (point : Execution × σ) (handling : Handling) : Execution × σ :=
  let (ended, world) := (handling.program point.1).run answer point.2
  match ended with
  | .returned execution => (execution, world)
  | .failed _ | .crashed _ => (point.1, world)

/-- A record and its surroundings after some handlings. -/
def afterAll (handlings : List Handling) (point : Execution × σ) : Execution × σ :=
  handlings.foldl (after answer) point

variable {answer} {execution next : Execution} {point : Execution × σ} {handling : Handling}

/-! ### One handling -/

theorem not_succeeds_of_isRefused (h : handling.IsRefused point.1) :
    ¬ handling.Succeeds answer point := by
  obtain ⟨error, hprogram⟩ := h
  rintro ⟨next, hnext⟩
  rw [hprogram] at hnext
  cases hnext

theorem after_of_isRefused (h : handling.IsRefused point.1) :
    handling.after answer point = point := by
  obtain ⟨error, hprogram⟩ := h
  rw [after, hprogram]
  rfl

theorem transcript_of_isRefused {world : σ} (h : handling.IsRefused execution) :
    (handling.program execution).transcript answer world = [] := by
  obtain ⟨error, hprogram⟩ := h
  rw [hprogram]
  rfl

theorem isRefused_of_not_admits (h : ¬ handling.Admits execution) :
    handling.IsRefused execution := by
  cases handling with
  | record entry =>
    have hnot : execution.status ≠ .running := h
    refine ⟨.notRunning execution.id execution.status, ?_⟩
    rw [program, Execution.record, if_pos hnot]
    rfl
  | finalize now status message =>
    cases hterminal : status.isTerminal with
    | false =>
      refine ⟨.notTerminal status, ?_⟩
      rw [program, Execution.finalize, hterminal]
      rfl
    | true =>
      have hended : execution.status.isTerminal = true := by simpa [Admits, hterminal] using h
      refine ⟨.alreadyFinalized execution.id execution.status, ?_⟩
      rw [program, Execution.finalize, hterminal, hended]
      rfl
  | run options workflow lead =>
    have hnot : execution.status ≠ .running := h
    refine ⟨.notRunning execution.id execution.status, ?_⟩
    rw [program, Workflow.run, if_pos hnot]
    rfl

variable (answer) in
/-- Whatever the surroundings do, a handling that is admitted succeeds. -/
theorem exists_becomes_of_admits (h : handling.Admits execution) (world : σ) :
    ∃ next, ((handling.program execution).run answer world).1 = .returned next ∧
    Becomes execution handling next := by
  cases handling with
  | record entry =>
    refine ⟨_, ?_, .recorded h⟩
    rw [program, Execution.record_of_running h]
    rfl
  | finalize now status message =>
    obtain ⟨hterminal, hunended⟩ := h
    refine ⟨_, ?_, .finalized hterminal hunended⟩
    rw [program, Execution.finalize, hterminal, hunended]
    rfl
  | run options workflow lead =>
    obtain ⟨turns, final, fresh, -, -, hended⟩ :=
      Workflow.exists_course_of_runs_run h
        (Program.runs_transcript answer (workflow.run options execution lead) world)
    exact ⟨_, congrArg Prod.fst (Program.run_bind_pure_of_returned (Prod.ext hended rfl)),
      .ran h turns fresh.now⟩

theorem succeeds_iff_admits : handling.Succeeds answer point ↔ handling.Admits point.1 := by
  constructor
  · intro hsucceeds
    refine Classical.byContradiction fun hnot => ?_
    exact not_succeeds_of_isRefused (isRefused_of_not_admits hnot) hsucceeds
  · intro hadmits
    obtain ⟨next, hnext, -⟩ := exists_becomes_of_admits answer hadmits point.2
    exact ⟨next, hnext⟩

variable (answer) in
/-- A handling is refused, and nothing changes, or it succeeds, and the record becomes what it is
then. -/
theorem cases_after (handling : Handling) (point : Execution × σ) :
    handling.IsRefused point.1 ∧ handling.after answer point = point ∨
      handling.Succeeds answer point ∧
      Becomes point.1 handling (handling.after answer point).1 := by
  by_cases hadmits : handling.Admits point.1
  · obtain ⟨next, hnext, hbecomes⟩ := exists_becomes_of_admits answer hadmits point.2
    refine .inr ⟨⟨next, hnext⟩, ?_⟩
    rcases hrun : (handling.program point.1).run answer point.2 with ⟨ended, world⟩
    rw [hrun] at hnext
    obtain rfl : ended = .returned next := hnext
    rw [after, hrun]
    exact hbecomes
  · have hrefused := isRefused_of_not_admits hadmits
    exact .inl ⟨hrefused, after_of_isRefused hrefused⟩

theorem isRefused_of_isTerminal (handling : Handling)
    (hterminal : execution.status.isTerminal = true) :
    handling.IsRefused execution := by
  apply isRefused_of_not_admits
  intro hadmits
  cases handling with
  | record entry => rw [hadmits] at hterminal; cases hterminal
  | finalize now status message => rw [hadmits.2] at hterminal; cases hterminal
  | run options workflow lead => rw [hadmits] at hterminal; cases hterminal

end Handling

/-- A record has an end just if its status says that it has ended, and an error only if the status
says that it failed. -/
structure Execution.IsConsistent (execution : Execution) : Prop where
  completedAt : execution.completedAt.isSome = true ↔ execution.status.isTerminal = true
  errorMessage : execution.errorMessage.isSome = true → execution.status = .failed

theorem Execution.isConsistent_start (fresh : Fresh) (workflow : Workflow) (leadId : Option Uuid)
    (event : Option EventKind) (triggerData : Json) (extra : Json.Members) :
    (start fresh workflow leadId event triggerData extra).IsConsistent where
  completedAt := by simp [start, ExecutionStatus.isTerminal]
  errorMessage := by simp [start]

namespace Handling

variable {σ : Type} {answer : (call : Call) → σ → call.Reply × σ} {execution next : Execution}
  {point : Execution × σ}
  {handling : Handling} {handlings : List Handling}

namespace Becomes

theorem isConsistent (h : Becomes execution handling next) (hconsistent : execution.IsConsistent) :
    next.IsConsistent := by
  cases h with
  | recorded running => exact ⟨hconsistent.completedAt, hconsistent.errorMessage⟩
  | finalized terminal unended =>
    refine ⟨by simp [terminal], ?_⟩
    intro hmessage
    dsimp only at hmessage ⊢
    split at hmessage
    · next hfailed => exact hfailed
    · cases hmessage
  | ran running turns now =>
    unfold Execution.concluded
    cases hfailure : turns.findSome? Turn.failure? with
    | none => exact ⟨by simp [ExecutionStatus.isTerminal], by simp⟩
    | some message => exact ⟨by simp [ExecutionStatus.isTerminal], by simp⟩

theorem log_prefix (h : Becomes execution handling next) : execution.log <+: next.log := by
  cases h with
  | recorded running => exact List.prefix_append _ _
  | finalized terminal unended => exact List.prefix_rfl
  | ran running turns now => exact List.prefix_append _ _

theorem isTerminal (h : Becomes execution handling next) (hending : handling.IsEnding) :
    next.status.isTerminal = true := by
  cases h with
  | recorded running => exact hending.elim
  | finalized terminal unended => exact terminal
  | ran running turns now =>
    unfold Execution.concluded
    split <;> rfl

end Becomes

/-! ### One handling after another -/

theorem isConsistent_afterAll (handlings : List Handling) (hconsistent : point.1.IsConsistent) :
    (afterAll answer handlings point).1.IsConsistent := by
  induction handlings generalizing point with
  | nil => exact hconsistent
  | cons handling rest ih =>
    apply ih
    rcases cases_after answer handling point with ⟨-, hafter⟩ | ⟨-, hbecomes⟩
    · rwa [hafter]
    · exact hbecomes.isConsistent hconsistent

theorem log_prefix_afterAll (handlings : List Handling) (point : Execution × σ) :
    point.1.log <+: (afterAll answer handlings point).1.log := by
  induction handlings generalizing point with
  | nil => exact List.prefix_rfl
  | cons handling rest ih =>
    refine List.IsPrefix.trans ?_ (ih (handling.after answer point))
    rcases cases_after answer handling point with ⟨-, hafter⟩ | ⟨-, hbecomes⟩
    · exact ⟨[], by rw [hafter, List.append_nil]⟩
    · exact hbecomes.log_prefix

theorem afterAll_of_isTerminal (handlings : List Handling)
    (hterminal : point.1.status.isTerminal = true) :
    afterAll answer handlings point = point := by
  induction handlings with
  | nil => rfl
  | cons handling rest ih =>
    change afterAll answer rest (handling.after answer point) = point
    rw [after_of_isRefused (isRefused_of_isTerminal handling hterminal), ih]

theorem isTerminal_after (hending : handling.IsEnding)
    (hsucceeds : handling.Succeeds answer point) :
    (handling.after answer point).1.status.isTerminal = true := by
  rcases cases_after answer handling point with ⟨hrefused, -⟩ | ⟨-, hbecomes⟩
  · exact absurd hsucceeds (not_succeeds_of_isRefused hrefused)
  · exact hbecomes.isTerminal hending

end Handling

open Handling

/-- However the record of an execution is handled from its start on, in whatever surroundings, it is
consistent at any time and its log has only been added to. What its guard does not admit is refused
at once: it calls nothing and changes nothing. After a first end everything is refused, and the
record and its surroundings stay as they are. -/
theorem Execution.lifecycle {σ : Type} (answer : (call : Call) → σ → call.Reply × σ) (world : σ)
    (fresh : Fresh) (workflow : Workflow) (leadId : Option Uuid) (event : Option EventKind)
    (triggerData : Json) (extra : Json.Members) (before handlings : List Handling)
    (handling : Handling) :
    let earlier :=
      afterAll answer before (start fresh workflow leadId event triggerData extra, world)
    let point := afterAll answer handlings earlier
    point.1.IsConsistent ∧
    earlier.1.log <+: point.1.log ∧
    (handling.Succeeds answer point ↔ handling.Admits point.1) ∧
    (¬ handling.Succeeds answer point → handling.IsRefused point.1 ∧
      (handling.program point.1).transcript answer point.2 = [] ∧
      handling.after answer point = point) ∧
    ∀ ending rest, handlings = ending :: rest → ending.IsEnding → ending.Succeeds answer earlier →
      point = ending.after answer earlier ∧ handling.IsRefused point.1 ∧
      handling.after answer point = point := by
  intro earlier point
  have hconsistent : earlier.1.IsConsistent :=
    isConsistent_afterAll before (isConsistent_start fresh workflow leadId event triggerData extra)
  refine ⟨isConsistent_afterAll handlings hconsistent, log_prefix_afterAll handlings earlier,
    succeeds_iff_admits, ?_, ?_⟩
  · intro hnot
    rcases cases_after answer handling point with ⟨hrefused, hafter⟩ | ⟨hsucceeds, -⟩
    · exact ⟨hrefused, transcript_of_isRefused hrefused, hafter⟩
    · exact absurd hsucceeds hnot
  · rintro ending rest rfl hending hsucceeds
    have hterminal := isTerminal_after hending hsucceeds
    have hpoint : point = ending.after answer earlier := afterAll_of_isTerminal rest hterminal
    have hrefused : handling.IsRefused point.1 :=
      isRefused_of_isTerminal handling (hpoint ▸ hterminal)
    exact ⟨hpoint, hrefused, after_of_isRefused hrefused⟩

end LeadAutomation
