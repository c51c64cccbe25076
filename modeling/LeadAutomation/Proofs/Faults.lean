import LeadAutomation.Proofs.Dispatch
import LeadAutomation.Proofs.Workflow.Faults

/-!
# Faults of the store

Whatever automation is told to do, event by event and workflow by workflow, comes down to stages: a
look into the store, a rule that takes part, a workflow that is launched. Only launches begin
executions and end them. So what a launch leaves behind on a frail host, `FrailHost.Launches`, is
what automation leaves behind, and the order in which a launch stores its two results is the order
in which they are stored by whatever runs.
-/

namespace LeadAutomation

open Program (traceAll afterAll ConsistsOf)

/-- What automation can be told to do for real. -/
inductive Command where
  | dispatch (event : Event)
  | execute (workflowId : Uuid) (leadId : Option Uuid) (triggerData : Json)

def Command.program (options : Options) : Command → Program Unit
  | .dispatch event => discard (event.dispatch options)
  | .execute workflowId leadId triggerData =>
    discard (Workflow.execute options workflowId leadId triggerData)

/-- Whether a call only looks into the store. -/
def StoreCall.IsRead : StoreCall → Prop
  | .listActiveRules _ | .getRule _ | .listActiveWorkflows _ | .getWorkflow _ | .getLead
    _ | .getExecution _
  | .listExecutions .. => True
  | _ => False

theorem StoreCall.IsRead.sparesExecutions {call : StoreCall} (h : call.IsRead) :
    call.SparesExecutions := by
  cases call with
  | createExecution execution => exact h
  | updateExecution execution => exact h
  | failStaleExecutions cutoff message => exact h
  | _ => trivial

/-- What a command comes down to. -/
inductive Stage where
  | read (call : StoreCall) (isRead : call.IsRead)
  | rule (payload : Json) (rule : Rule) (lead : Lead)
  | launch (launch : Launch)

namespace Stage

variable {σ : Type} (options : Options)

def program : Stage → Program Unit
  | .read call _ => discard (.store call)
  | .rule payload r lead => discard (Event.applyRule options payload r lead)
  | .launch l => discard (l.program options)

variable {options}

theorem read_callsOnly {call : StoreCall} (isRead : call.IsRead) :
    (program options (.read call isRead)).CallsOnly Call.SparesExecutions :=
  .map _ (.store isRead.sparesExecutions)

theorem rule_callsOnly (payload : Json) (rule : Rule) (lead : Lead) :
    (program options (.rule payload rule lead)).CallsOnly Call.SparesExecutions :=
  .map _ (Event.applyRule_callsOnly trivial (fun _ => trivial) (fun _ => trivial)
    (fun _ _ => trivial) _ _ _ _)

theorem program_callsOnly (stage : Stage) : (stage.program options).CallsOnly Call.IsOrderly := by
  cases stage with
  | read call isRead => exact (read_callsOnly isRead).mono fun _ => Call.SparesExecutions.isOrderly
  | rule payload rule lead =>
    exact (rule_callsOnly payload rule lead).mono fun _ => Call.SparesExecutions.isOrderly
  | launch launch => exact .map _ (launch.program_callsOnly options)

variable {host : FrailHost σ}

theorem running_run (stage : Stage) {s : σ} {record : Execution}
    (hmem : record ∈ host.executions ((stage.program options).run host.answer s).2)
    (hrunning : record.status = .running) :
    record ∈ host.executions s ∨
      ∃ launch, stage = .launch launch ∧ record = launch.record host s ∧
        launch.IsStranded host s ((launch.program options).trace host.answer s) := by
  cases stage with
  | read call isRead =>
    rw [FrailHost.executions_run (read_callsOnly isRead)] at hmem
    exact .inl hmem
  | rule payload rule lead =>
    rw [FrailHost.executions_run (rule_callsOnly payload rule lead)] at hmem
    exact .inl hmem
  | launch launch =>
    have hrun : ((program options (.launch launch)).run host.answer s).2 =
        ((launch.program options).run host.answer s).2 :=
      Program.run_bind_pure
    rw [hrun] at hmem
    obtain hold | ⟨heq, hstranded⟩ := (FrailHost.launches launch s).running hmem hrunning
    · exact .inl hold
    · exact .inr ⟨launch, rfl, heq, hstranded⟩

/-- What stages leave running ran before or was launched in a stage that could not store its end. -/
theorem running_afterAll (stages : List Stage) {s : σ} {record : Execution}
    (hmem : record ∈ host.executions (afterAll host.answer (stages.map (program options)) s))
    (hrunning : record.status = .running) :
    record ∈ host.executions s ∨
      ∃ earlier launch later, stages = earlier ++ .launch launch :: later ∧
        let start := afterAll host.answer (earlier.map (program options)) s
        record = launch.record host start ∧
          launch.IsStranded host start ((launch.program options).trace host.answer start) := by
  induction stages generalizing s with
  | nil => exact .inl hmem
  | cons stage rest ih =>
    -- What still runs at the end ran when the first stage was over, or one of the others left it.
    obtain hafter | ⟨earlier, launch, later, rfl, hstranded⟩ := ih hmem
    · obtain hold | ⟨launch, rfl, hstranded⟩ := running_run stage hafter hrunning
      · exact .inl hold
      · exact .inr ⟨[], launch, rest, rfl, hstranded⟩
    · exact .inr ⟨stage :: earlier, launch, later, rfl, hstranded⟩

/-- Whatever stages come later, a launch writes to its lead after its end has been stored. -/
theorem writesAfterEnd (launch : Launch) (later : List Stage) (s : σ) :
    host.WritesAfterEnd (launch.record host s).id ((launch.program options).trace host.answer s)
      (traceAll host.answer (later.map (program options))
        ((launch.program options).run host.answer s).2) := by
  have horderly : ∀ p ∈ later.map (program options), p.CallsOnly Call.IsOrderly := by
    intro p hp
    obtain ⟨stage, -, rfl⟩ := List.mem_map.1 hp
    exact stage.program_callsOnly
  exact (FrailHost.launches launch s).writesAfterEnd (FrailHost.staysEnded_traceAll horderly)

end Stage

/-! ### What commands come down to -/

section ConsistsOf

variable {σ : Type} {answer : (call : Call) → σ → call.Reply × σ} {options : Options}

theorem Program.ConsistsOf.read (call : StoreCall) (isRead : call.IsRead) :
    ConsistsOf answer (Stage.program options) (Program.store call) :=
  .of_part (.read call isRead) rfl

theorem Program.ConsistsOf.launch (launch : Launch) :
    ConsistsOf answer (Stage.program options) (launch.program options) :=
  .of_part (.launch launch) rfl

theorem Event.apply_consistsOf (event : Event) (lead : Lead) (participant : Participant) :
    ConsistsOf answer (Stage.program options) (event.apply options lead participant) := by
  cases participant with
  | rule rule => exact .of_part (.rule event.payload rule lead) rfl
  | workflow workflow =>
    have hlaunch : ConsistsOf answer (Stage.program options)
        (workflow.launch options (some lead) event.kind event.payload) :=
      .launch ⟨workflow, some lead, event.kind, event.payload⟩
    apply hlaunch.bind
    intro ended
    apply (ConsistsOf.read (.getLead lead.id) trivial).bind
    intro found
    exact .bind (.orFail _ found) fun left => .pure _

theorem Event.applyAll_consistsOf (event : Event) (participants : List Participant) (lead : Lead) :
    ConsistsOf answer (Stage.program options) (event.applyAll options participants lead) := by
  induction participants generalizing lead with
  | nil => exact .pure _
  | cons participant rest ih =>
    apply (event.apply_consistsOf lead participant).bind
    intro (summary, left)
    exact .bind (ih left) fun summaries => .pure _

theorem Event.workflows_consistsOf (event : Event) :
    ConsistsOf answer (Stage.program options) event.workflows := by
  unfold workflows
  split
  · exact .map _ (.read _ trivial)
  · exact .pure _

theorem Event.opening_consistsOf (event : Event) :
    ConsistsOf answer (Stage.program options) event.opening := by
  apply (ConsistsOf.read (.getLead event.leadId) trivial).bind
  intro found
  apply (ConsistsOf.orFail _ found).bind
  intro lead
  apply ((ConsistsOf.read (.listActiveRules none) trivial).map _).bind
  intro rules
  exact .bind event.workflows_consistsOf fun workflows => .pure _

theorem Workflow.execute_consistsOf (workflowId : Uuid) (leadId : Option Uuid)
    (triggerData : Json) :
    ConsistsOf answer (Stage.program options) (execute options workflowId leadId triggerData) := by
  apply (ConsistsOf.read (.getWorkflow workflowId) trivial).bind
  intro found
  apply (ConsistsOf.orFail _ found).bind
  intro workflow
  split
  · exact .done _
  · have hlaunch :
        ∀ lead, ConsistsOf answer (Stage.program options)
            (workflow.launch options lead .manual triggerData) :=
      fun lead => .launch ⟨workflow, lead, .manual, triggerData⟩
    split
    · next id =>
      have hlead : ConsistsOf answer (Stage.program options)
          (Program.store (.getLead id) >>= fun found => Program.orFail (.leadNotFound id) found) :=
        .bind (.read _ trivial) fun found => .orFail _ found
      exact (hlead.map some).bind hlaunch
    · exact .bind (.pure _) hlaunch

theorem Command.program_consistsOf (command : Command) :
    ConsistsOf answer (Stage.program options) (command.program options) := by
  cases command with
  | dispatch event =>
    change ConsistsOf answer _ (discard (event.dispatch options))
    rw [Event.dispatch_eq]
    exact .map _ (.bind event.opening_consistsOf fun (lead, participants) =>
      event.applyAll_consistsOf participants lead)
  | execute workflowId leadId triggerData =>
    exact .map _ (Workflow.execute_consistsOf workflowId leadId triggerData)

end ConsistsOf

namespace Command

variable {σ : Type}

/-- Commands come down to stages, of which each launch keeps two promises whatever the store refuses
and the systems outside do. An execution is left running only by a launch whose own end could not be
stored; and a launch writes to its lead only after its end has been stored, so that no lead has such
a write while the execution is running. -/
theorem ends_before_writes (host : FrailHost σ) (options : Options) (commands : List Command)
    (s : σ) (hidle : ∀ record ∈ host.executions s, record.status ≠ .running) :
    ∃ stages : List Stage,
      traceAll host.answer (commands.map (program options)) s =
        traceAll host.answer (stages.map (Stage.program options)) s ∧
      afterAll host.answer (commands.map (program options)) s =
        afterAll host.answer (stages.map (Stage.program options)) s ∧
      (∀ record ∈ host.executions (afterAll host.answer (commands.map (program options)) s),
        record.status = .running →
        ∃ earlier launch later, stages = earlier ++ .launch launch :: later ∧
          let start := afterAll host.answer (earlier.map (Stage.program options)) s
          record = launch.record host start ∧
            launch.IsStranded host start ((launch.program options).trace host.answer start)) ∧
      ∀ earlier launch later, stages = earlier ++ .launch launch :: later →
        let start := afterAll host.answer (earlier.map (Stage.program options)) s
        host.WritesAfterEnd (launch.record host start).id
          ((launch.program options).trace host.answer start)
          (traceAll host.answer (later.map (Stage.program options))
            ((launch.program options).run host.answer start).2) := by
  have hcommands : ∀ p ∈ commands.map (program options),
      ConsistsOf host.answer (Stage.program options) p := by
    intro p hp
    obtain ⟨command, -, rfl⟩ := List.mem_map.1 hp
    exact command.program_consistsOf
  obtain ⟨stages, htrace, hafter⟩ := ConsistsOf.all hcommands s
  refine ⟨stages, htrace, hafter, ?_, ?_⟩
  · intro record hmem hrunning
    rw [hafter] at hmem
    obtain hold | hlaunched := Stage.running_afterAll stages hmem hrunning
    · exact absurd hrunning (hidle record hold)
    · exact hlaunched
  · rintro earlier launch later -
    exact Stage.writesAfterEnd launch later _

/-- A lead and a workflow that scores it. -/
def scoring : Store where
  leads := [.blank Program.stillFresh]
  workflows := [{
    id := ⟨1⟩
    name := "score"
    description := none
    trigger := .leadCreated
    active := true
    priority := 0
    steps := [⟨⟨2⟩, .known .action, "score", 1,
      .obj [("metadata", .obj []), ("target", .str "score"), ("type", .str "scoring"),
        ("value", .int 70)]⟩]
    createdBy := none
    createdAt := .epoch
    updatedAt := none }]

/-- The first of two launches cannot store its end, the second one does. -/
theorem ends_before_writes_scoring :
    let host := FrailHost.refusing
    let lead := Lead.blank Program.stillFresh
    let commands : List Command :=
      [.execute ⟨1⟩ (some lead.id) .null, .dispatch (Event.leadCreated .epoch lead.id)]
    let s := (scoring, [false, false, false, true])
    (∀ record ∈ host.executions s, record.status ≠ .running) ∧
    ∃ stages : List Stage,
      traceAll host.answer (commands.map (program {})) s =
        traceAll host.answer (stages.map (Stage.program {})) s ∧
      afterAll host.answer (commands.map (program {})) s =
        afterAll host.answer (stages.map (Stage.program {})) s ∧
      (∀ record ∈ host.executions (afterAll host.answer (commands.map (program {})) s),
        record.status = .running →
        ∃ earlier launch later, stages = earlier ++ .launch launch :: later ∧
          let start := afterAll host.answer (earlier.map (Stage.program {})) s
          record = launch.record host start ∧
            launch.IsStranded host start ((launch.program {}).trace host.answer start)) ∧
      ∀ earlier launch later, stages = earlier ++ .launch launch :: later →
        let start := afterAll host.answer (earlier.map (Stage.program {})) s
        host.WritesAfterEnd (launch.record host start).id
          ((launch.program {}).trace host.answer start)
          (traceAll host.answer (later.map (Stage.program {}))
            ((launch.program {}).run host.answer start).2) := by
  have hidle : ∀ record ∈ FrailHost.refusing.executions (scoring, [false, false, false, true]),
      record.status ≠ .running :=
    List.forall_mem_nil _
  exact ⟨hidle, ends_before_writes _ {} _ _ hidle⟩

example :
    let commands : List Command := [
      .execute ⟨1⟩ (some (Lead.blank Program.stillFresh).id) .null,
      .dispatch (Event.leadCreated .epoch (Lead.blank Program.stillFresh).id)]
    (FrailHost.refusing.executions (afterAll FrailHost.refusing.answer (commands.map (program {}))
      (scoring, [false, false, false, true]))).map (·.status) = [.running,
        .completed] := by decide +kernel

end Command

end LeadAutomation
