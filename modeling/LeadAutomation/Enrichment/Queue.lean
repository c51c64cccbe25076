import LeadAutomation.Program

/-!
# The enrichment queue

Whoever asks for enrichment does not wait for it: a request is put into a queue of bounded capacity,
and a worker forwards requests from there to an integration, in the order in which they came and
each once. A full queue and a queue without a worker refuse requests.

An integration that fails does not keep the worker from going on. One that breaks down takes the
worker with it, and what was waiting is lost.
-/

namespace LeadAutomation

/-- What became of the worker of a queue. -/
inductive WorkerState where
  | running
  /-- It forwarded everything and ended. -/
  | finished
  /-- It broke down. -/
  | panicked
  | stopped
deriving DecidableEq, Repr

namespace WorkerState

instance : Named WorkerState where
  all := [.running, .finished, .panicked, .stopped]
  name
    | .running => "running"
    | .finished => "finished"
    | .panicked => "panicked"
    | .stopped => "stopped"
  find_name a := by cases a <;> rfl

end WorkerState

/-- Requests on their way to an integration. -/
structure EnrichmentQueue where
  integration : String
  capacity : Nat
  waiting : List EnrichmentRequest
  worker : WorkerState
  capacity_pos : 0 < capacity
  waiting_le : waiting.length ≤ capacity

namespace EnrichmentQueue

/-- The capacity of queues for which no other is chosen. -/
def defaultCapacity : Nat := 1024

def maxCapacity : Nat := (1 <<< 61) - 1

/-- An empty queue with a worker; there is none without capacity. -/
def open? (integration : String) (capacity : Nat) : Option EnrichmentQueue :=
  if h : 0 < capacity ∧
    capacity ≤ maxCapacity then some ⟨integration, capacity, [], .running, h.1, Nat.zero_le _⟩
  else none

def request (queue : EnrichmentQueue) (request : EnrichmentRequest) :
    Except AutomationError EnrichmentQueue :=
  if queue.worker ≠ .running then .error (.enrichment "channel closed")
  else if h : queue.waiting.length < queue.capacity then
    .ok { queue with
      waiting := queue.waiting ++ [request]
      waiting_le := by rw [List.length_append]; exact h }
  else .error (.enrichment "no available capacity")

/-- The call by which a request is forwarded. -/
def forwardingCall (integration : String) (request : EnrichmentRequest) : IntegrationCall where
  integration
  action := request.provider
  data := .obj [
    ("leadId", request.leadId.toJson),
    ("metadata", .obj request.metadata),
    ("provider", .str request.provider)]

def pop (queue : EnrichmentQueue) : EnrichmentQueue :=
  { queue with
    waiting := queue.waiting.tail
    waiting_le := by
      have h := queue.waiting_le
      simp only [List.length_tail]
      omega }

/-- The queue after its worker has ended in some way; nothing is waiting any more. -/
def close (worker : WorkerState) (queue : EnrichmentQueue) : EnrichmentQueue :=
  { queue with worker, waiting := [], waiting_le := Nat.zero_le _ }

def stop (queue : EnrichmentQueue) : EnrichmentQueue :=
  if queue.worker = .running then queue.close .stopped else queue

/-- The worker forwards the first request, if there is one. -/
def forwardNext (queue : EnrichmentQueue) : Program EnrichmentQueue :=
  match queue.worker, queue.waiting with
  | .running, first :: _ => do
    match ← (Program.effect (.integrate (forwardingCall queue.integration first))).attempt with
    | .returned _ | .failed _ => pure queue.pop
    | .crashed _ => pure (queue.close .panicked)
  | _, _ => pure queue

/-- The worker forwards some number of requests. -/
def forward : Nat → EnrichmentQueue → Program EnrichmentQueue
  | 0, queue => pure queue
  | count + 1, queue => do forward count (← queue.forwardNext)

/-- The worker forwards everything that is waiting. -/
def drain (queue : EnrichmentQueue) : Program EnrichmentQueue := forward queue.waiting.length queue

/-- No further requests will come: the worker forwards what is waiting and ends. -/
def finish (queue : EnrichmentQueue) : Program EnrichmentQueue := do
  let drained ← queue.drain
  pure (if drained.worker = .running then drained.close .finished else drained)

end EnrichmentQueue

end LeadAutomation
