import LeadAutomation.Program

/-!
# The store in memory

A store that keeps its records in lists. Rules and workflows stand in the order in which they were
first saved, and saving one again leaves it in its place, so that equal priorities resolve the same
way every time.

`Store.answer` is the meaning of the calls to a store: what each results in and the store after it.
-/

namespace LeadAutomation

/-- Rules, workflows, leads and executions, each list without two records of one identifier. -/
structure Store where
  rules : List Rule := []
  workflows : List Workflow := []
  leads : List Lead := []
  executions : List Execution := []

namespace Store

/-- Puts an item in the place of the one with its identifier, or else at the end. -/
def upsert {α : Type} (id : α → Uuid) (item : α) : List α → List α
  | [] => [item]
  | first :: rest => if id first = id item then item :: rest else first :: upsert id item rest

def modify {α : Type} (id : α → Uuid) (wanted : Uuid) (change : α → α) (items : List α) : List α :=
  items.map fun item => if id item = wanted then change item else item

def find? {α : Type} (id : α → Uuid) (wanted : Uuid) (items : List α) : Option α :=
  items.find? fun item => id item = wanted

/-- Whether an execution still runs and was started before a point in time. -/
def isStale (cutoff : Timestamp) (execution : Execution) : Bool :=
  execution.status = .running && execution.startedAt.before cutoff

/-- Ends an execution as failed; one that has ended already is left alone. -/
def abandon (now : Timestamp) (message : String) (execution : Execution) : Execution :=
  match execution.finalize now .failed (some message) with
  | .ok ended => ended
  | .error _ => execution

/-- Executions with the latest first. -/
def latestFirst (executions : List Execution) : List Execution :=
  executions.mergeSort fun a b => !a.startedAt.before b.startedAt

/-- What a call results in at some time, and the store after it. -/
def answer (now : Timestamp) (call : StoreCall) (store : Store) :
    Except AutomationError call.Result × Store :=
  match call with
  | .listActiveRules kind =>
    (.ok (store.rules.filter fun rule => rule.active && kind.all fun kind => rule.kind = kind),
      store)
  | .getRule id => (.ok (find? Rule.id id store.rules), store)
  | .saveRule rule => (.ok (), { store with rules := upsert Rule.id rule store.rules })
  | .deleteRule id =>
    let rest := store.rules.filter fun rule => rule.id ≠ id
    (.ok (rest.length ≠ store.rules.length), { store with rules := rest })
  | .listActiveWorkflows trigger =>
    (.ok (store.workflows.filter fun workflow => workflow.active && workflow.trigger = trigger),
      store)
  | .getWorkflow id => (.ok (find? Workflow.id id store.workflows), store)
  | .saveWorkflow workflow =>
    (.ok (), { store with workflows := upsert Workflow.id workflow store.workflows })
  | .getLead id => (.ok (find? Lead.id id store.leads), store)
  | .applyPatch id patch =>
    match find? Lead.id id store.leads with
    | some lead =>
      (.ok (patch.applyTo now lead),
        { store with leads := modify Lead.id id (patch.applyTo now) store.leads })
    | none => (.error (.leadNotFound id), store)
  | .saveLead lead => (.ok (), { store with leads := upsert Lead.id lead store.leads })
  | .createExecution execution =>
    (.ok (), { store with executions := upsert Execution.id execution store.executions })
  | .updateExecution execution =>
    match find? Execution.id execution.id store.executions with
    | some _ =>
      (.ok (), { store with executions := upsert Execution.id execution store.executions })
    | none => (.error (.executionNotFound execution.id), store)
  | .getExecution id => (.ok (find? Execution.id id store.executions), store)
  | .listExecutions workflowId limit =>
    let history :=
      latestFirst (store.executions.filter fun execution => execution.workflowId = workflowId)
    (.ok (history.take limit.toNat), store)
  | .failStaleExecutions cutoff message =>
    let stale := store.executions.filter (isStale cutoff)
    let swept := store.executions.map fun execution =>
      if isStale cutoff execution then abandon now message execution else execution
    (.ok stale.length, { store with executions := swept })

end Store

end LeadAutomation
