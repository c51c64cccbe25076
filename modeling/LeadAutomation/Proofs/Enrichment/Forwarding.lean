import LeadAutomation.Enrichment.Queue
import LeadAutomation.Proofs.Runs
import Mathlib.Data.List.Induction

/-!
# Forwarding requests

Whoever holds a queue puts requests into it while its worker forwards others, and the worker waits
for a reply while further requests come in. An `Office` is a queue together with those who hold it,
the request that the worker has in hand and a log of what was accepted, refused and forwarded. Its
moves are the smallest steps of all these, and they may follow each other in any order: one that is
impossible where it comes is passed over.

Whatever the order, and whatever the integration replies, requests are forwarded as they were
accepted, each once, none is refused that has room, and none is lost before the worker finishes:
`EnrichmentQueue.Office.requests_served`.
-/

namespace LeadAutomation.EnrichmentQueue

/-- What can happen next around a queue. -/
inductive Move where
  /-- One of those who hold the queue lets another one hold it too. -/
  | share
  /-- One of those who hold the queue lets go of it. -/
  | release
  /-- One of those who hold the queue puts a request into it. -/
  | ask (request : EnrichmentRequest)
  /-- The worker turns to the next request and calls the integration, or ends if none can come any
  more. -/
  | take
  /-- The integration replies to the worker. -/
  | reply (reply : Outcome Json)
  /-- The worker is stopped from outside. -/
  | abort

/-- A queue in use, and what came of the requests so far. -/
structure Office where
  queue : EnrichmentQueue
  /-- How many hold the queue. -/
  holders : Nat
  /-- The request for which the worker waits for a reply. -/
  inHand : Option EnrichmentRequest
  accepted : List EnrichmentRequest
  refused : List EnrichmentRequest
  /-- The calls to the integration so far. -/
  calls : List IntegrationCall

namespace Office

/-- A new queue, held once. -/
def opened (integration : String) (capacity : Nat) (hcapacity : 0 < capacity) : Office where
  queue := ⟨integration, capacity, [], .running, hcapacity, Nat.zero_le _⟩
  holders := 1
  inHand := none
  accepted := []
  refused := []
  calls := []

def ask (request : EnrichmentRequest) (office : Office) : Office :=
  match office.queue.request request with
  | .ok queue => { office with queue, accepted := office.accepted ++ [request] }
  | .error _ => { office with refused := office.refused ++ [request] }

/-- The worker forwards the first request and waits; without requests it ends once nobody holds the
queue. -/
def take (office : Office) : Office :=
  match office.inHand, office.queue.worker, office.queue.waiting with
  | none, .running, first :: _ =>
    { office with
      queue := office.queue.pop
      inHand := some first
      calls := office.calls ++ [forwardingCall office.queue.integration first] }
  | none, .running, [] =>
    if office.holders = 0 then { office with queue := office.queue.close .finished } else office
  | _, _, _ => office

/-- The worker gets a reply. -/
def hear (office : Office) : Outcome Json → Office
  | .returned _ | .failed _ => { office with inHand := none }
  | .crashed _ => { office with queue := office.queue.close .panicked, inHand := none }

def act (office : Office) : Move → Office
  | .share => if office.holders = 0 then office else { office with holders := office.holders + 1 }
  | .release => { office with holders := office.holders - 1 }
  | .ask request => if office.holders = 0 then office else office.ask request
  | .take => office.take
  | .reply reply => if office.inHand.isSome then office.hear reply else office
  | .abort => { office with queue := office.queue.stop, inHand := none }

/-- The office after some moves. -/
def after (office : Office) (moves : List Move) : Office := moves.foldl act office

end Office

/-! ### Single requests -/

section

variable {queue next : EnrichmentQueue} {request : EnrichmentRequest}

/-- A queue with a worker refuses requests just when it is full. -/
theorem request_eq_error_iff (request : EnrichmentRequest) (hrunning : queue.worker = .running) :
    (∃ error, queue.request request = .error error) ↔ queue.waiting.length = queue.capacity := by
  have hle := queue.waiting_le
  by_cases hroom : queue.waiting.length < queue.capacity
  · simp [EnrichmentQueue.request, hrunning, hroom, Nat.ne_of_lt hroom]
  · simp [EnrichmentQueue.request, hrunning, Nat.le_antisymm hle (Nat.le_of_not_lt hroom)]

theorem request_of_not_running (h : queue.worker ≠ .running) :
    queue.request request = .error (.enrichment "channel closed") :=
  if_pos h

theorem request_eq_ok (h : queue.request request = .ok next) :
    queue.worker = .running ∧ next.integration = queue.integration ∧
    next.capacity = queue.capacity ∧
      next.worker = .running ∧ next.waiting = queue.waiting ++ [request] := by
  unfold EnrichmentQueue.request at h
  split at h
  · cases h
  · rename_i hrunning
    have hworker : queue.worker = .running := Decidable.not_not.1 hrunning
    split at h
    · obtain rfl := Except.ok.inj h
      exact ⟨hworker, rfl, rfl, hworker, rfl⟩
    · cases h

theorem open?_eq {integration : String} {capacity : Nat} (hpos : 0 < capacity)
    (hle : capacity ≤ maxCapacity) :
    open? integration capacity = some (Office.opened integration capacity hpos).queue :=
  dif_pos ⟨hpos, hle⟩

theorem stop_of_not_running (h : queue.worker ≠ .running) : queue.stop = queue := if_neg h

end

namespace Office

variable {integration : String} {capacity : Nat} {office : Office} {request : EnrichmentRequest}
  {move : Move} {moves : List Move}

/-! ### Single moves -/

theorem act_share_of_unheld (h : office.holders = 0) : office.act .share = office := if_pos h

theorem act_share_of_held (h : office.holders ≠ 0) :
    office.act .share = { office with holders := office.holders + 1 } :=
  if_neg h

theorem act_ask_of_unheld (h : ¬ 0 < office.holders) : office.act (.ask request) = office :=
  if_pos (Nat.eq_zero_of_not_pos h)

theorem act_reply_of_inHand {reply : Outcome Json} (h : office.inHand.isSome) :
    office.act (.reply reply) = office.hear reply :=
  if_pos h

theorem act_reply_of_free {reply : Outcome Json} (h : ¬ office.inHand.isSome) :
    office.act (.reply reply) = office := if_neg h

theorem act_ask_of_ok {queue : EnrichmentQueue} (hholders : 0 < office.holders)
    (h : office.queue.request request = .ok queue) :
    office.act (.ask request) = { office with
      queue, accepted := office.accepted ++ [request] } := by
  simp only [act, ask, h, if_neg (Nat.pos_iff_ne_zero.1 hholders)]

theorem act_ask_of_error {error : AutomationError} (hholders : 0 < office.holders)
    (h : office.queue.request request = .error error) :
    office.act (.ask request) = { office with refused := office.refused ++ [request] } := by
  simp only [act, ask, h, if_neg (Nat.pos_iff_ne_zero.1 hholders)]

theorem take_of_cons {first : EnrichmentRequest} {rest : List EnrichmentRequest}
    (hinHand : office.inHand = none) (hrunning : office.queue.worker = .running)
    (hwaiting : office.queue.waiting = first :: rest) :
    office.take = { office with
      queue := office.queue.pop
      inHand := some first
      calls := office.calls ++ [forwardingCall office.queue.integration first] } := by
  simp only [take, hinHand, hrunning, hwaiting]

theorem take_of_nil (hinHand : office.inHand = none) (hrunning : office.queue.worker = .running)
    (hwaiting : office.queue.waiting = []) :
    office.take =
      if office.holders = 0 then { office with queue := office.queue.close .finished }
      else office := by
  simp only [take, hinHand, hrunning, hwaiting]

theorem take_of_not_ready (h : office.inHand.isSome ∨ office.queue.worker ≠ .running) :
    office.take = office := by
  unfold take
  split
  · rename_i hinHand hrunning _
    simp [hinHand, hrunning] at h
  · rename_i hinHand hrunning _
    simp [hinHand, hrunning] at h
  · rfl

/-! ### What every move keeps -/

/-- What holds of an office at any time. -/
structure Sound (integration : String) (capacity : Nat) (office : Office) : Prop where
  integration_eq : office.queue.integration = integration
  capacity_eq : office.queue.capacity = capacity
  /-- What was accepted was forwarded in turn, and the rest is waiting unless the worker was cut
  short. -/
  inTurn : ∃ forwarded rest, office.calls = forwarded.map (forwardingCall integration) ∧
    office.accepted = forwarded ++ rest ∧
    (office.queue.worker = .running ∨ office.queue.worker = .finished → rest = office.queue.waiting)
  finished : office.queue.worker = .finished → office.holders = 0 ∧ office.queue.waiting = []
  /-- Only a running worker waits for a reply. -/
  running : office.inHand.isSome → office.queue.worker = .running

theorem sound_opened (hcapacity : 0 < capacity) :
    (opened integration capacity hcapacity).Sound integration capacity where
  integration_eq := rfl
  capacity_eq := rfl
  inTurn := ⟨[], [], rfl, rfl, fun _ => rfl⟩
  finished h := by cases h
  running _ := rfl

namespace Sound

theorem ask (h : office.Sound integration capacity) (hholders : 0 < office.holders)
    (request : EnrichmentRequest) :
    (office.act (.ask request)).Sound integration capacity := by
  obtain ⟨forwarded, rest, hcalls, haccepted, hrest⟩ := h.inTurn
  cases hrequest : office.queue.request request with
  | error error =>
    rw [act_ask_of_error hholders hrequest]
    exact ⟨h.integration_eq, h.capacity_eq, h.inTurn, h.finished, h.running⟩
  | ok queue =>
    rw [act_ask_of_ok hholders hrequest]
    obtain ⟨hrunning, hintegration, hcapacity, hstill, hwaiting⟩ := request_eq_ok hrequest
    refine ⟨hintegration.trans h.integration_eq, hcapacity.trans h.capacity_eq, ?_, ?_,
      fun _ => hstill⟩
    · refine ⟨forwarded, rest ++ [request], hcalls, ?_, fun _ => ?_⟩
      · change office.accepted ++ [request] = _
        rw [haccepted, List.append_assoc]
      · change rest ++ [request] = queue.waiting
        rw [hwaiting, hrest (.inl hrunning)]
    · intro hfinished
      cases hstill.symm.trans hfinished

/-- The request to which the worker turns is the first of those accepted that it has not yet
forwarded. -/
theorem take (h : office.Sound integration capacity) : office.take.Sound integration capacity := by
  obtain ⟨forwarded, rest, hcalls, haccepted, hrest⟩ := h.inTurn
  by_cases hready : office.inHand.isSome ∨ office.queue.worker ≠ .running
  · rwa [take_of_not_ready hready]
  obtain ⟨hfree, hworker⟩ := not_or.1 hready
  have hinHand : office.inHand = none := by simpa using hfree
  have hrunning : office.queue.worker = .running := Decidable.not_not.1 hworker
  cases hwaiting : office.queue.waiting with
  | nil =>
    rw [take_of_nil hinHand hrunning hwaiting]
    split
    · rename_i hholders
      refine ⟨h.integration_eq, h.capacity_eq, ⟨forwarded, rest, hcalls, haccepted, fun _ => ?_⟩,
        fun _ => ⟨hholders, rfl⟩, ?_⟩
      · exact (hrest (.inl hrunning)).trans hwaiting
      · intro hsome
        rw [show ({ office with queue := office.queue.close .finished } : Office).inHand =
          none from hinHand] at hsome
        cases hsome
    · exact h
  | cons first later =>
    rw [take_of_cons hinHand hrunning hwaiting]
    refine ⟨h.integration_eq, h.capacity_eq, ⟨forwarded ++ [first], later, ?_, ?_, fun _ => ?_⟩,
      fun hfinished => ?_,
      fun _ => hrunning⟩
    · change office.calls ++ [forwardingCall office.queue.integration first] = _
      rw [hcalls, h.integration_eq, List.map_append, List.map_singleton]
    · change office.accepted = _
      rw [haccepted, hrest (.inl hrunning), hwaiting, List.append_assoc, List.singleton_append]
    · change later = office.queue.waiting.tail
      rw [hwaiting, List.tail_cons]
    · cases hrunning.symm.trans hfinished

/-- Where the worker ends without having finished, whatever was waiting may be lost. -/
theorem cut (h : office.Sound integration capacity) {worker : WorkerState}
    (hworker : worker = .panicked ∨ worker = .stopped) :
    ({ office with queue := office.queue.close worker, inHand := none } : Office).Sound
      integration capacity := by
  obtain ⟨forwarded, rest, hcalls, haccepted, -⟩ := h.inTurn
  refine ⟨h.integration_eq, h.capacity_eq, ⟨forwarded, rest, hcalls, haccepted, ?_⟩, ?_,
    fun hsome => nomatch hsome⟩
  · intro hgood
    change worker = .running ∨ worker = .finished at hgood
    rcases hworker with rfl | rfl <;> simp at hgood
  · intro hfinished
    change worker = .finished at hfinished
    rcases hworker with rfl | rfl <;> cases hfinished

theorem act (h : office.Sound integration capacity) (move : Move) :
    (office.act move).Sound integration capacity := by
  cases move with
  | share =>
    by_cases hholders : office.holders = 0
    · rwa [act_share_of_unheld hholders]
    · rw [act_share_of_held hholders]
      exact ⟨h.integration_eq, h.capacity_eq, h.inTurn,
        fun hfinished => absurd (h.finished hfinished).1 hholders, h.running⟩
  | release =>
    refine ⟨h.integration_eq, h.capacity_eq, h.inTurn, fun hfinished => ?_, h.running⟩
    obtain ⟨hholders, hwaiting⟩ := h.finished hfinished
    exact ⟨by simp [Office.act, hholders], hwaiting⟩
  | ask request =>
    by_cases hholders : 0 < office.holders
    · exact h.ask hholders request
    · rwa [act_ask_of_unheld hholders]
  | take => exact h.take
  | reply reply =>
    by_cases hinHand : office.inHand.isSome
    · rw [act_reply_of_inHand hinHand]
      cases reply with
      | returned _ | failed _ =>
        exact ⟨h.integration_eq, h.capacity_eq, h.inTurn, h.finished, fun hsome => nomatch hsome⟩
      | crashed text => exact h.cut (.inl rfl)
    · rwa [act_reply_of_free hinHand]
  | abort =>
    by_cases hrunning : office.queue.worker = .running
    · rw [show office.act .abort = { office with
        queue := office.queue.close .stopped, inHand := none } by simp [Office.act, stop, hrunning]]
      exact h.cut (.inr rfl)
    · change ({ office with queue := office.queue.stop, inHand := none } : Office).Sound
        integration capacity
      rw [stop_of_not_running hrunning]
      exact ⟨h.integration_eq, h.capacity_eq, h.inTurn, h.finished, fun hsome => nomatch hsome⟩

theorem after (h : office.Sound integration capacity) (moves : List Move) :
    (office.after moves).Sound integration capacity := by
  induction moves generalizing office with
  | nil => exact h
  | cons move moves ih => exact ih (h.act move)

end Sound

/-! ### How a worker ends -/

/-- A worker runs until it has nothing left to do, the integration breaks down or it is stopped. -/
theorem worker_act (office : Office) (move : Move) :
    (office.act move).queue.worker = office.queue.worker ∨
    (move = .take ∧ (office.act move).queue.worker = .finished) ∨
    (∃ text, move = .reply (.crashed text) ∧ (office.act move).queue.worker = .panicked) ∨
    (move = .abort ∧ (office.act move).queue.worker = .stopped) := by
  cases move with
  | share =>
    by_cases hholders : office.holders = 0
    · exact .inl (by rw [act_share_of_unheld hholders])
    · exact .inl (by rw [act_share_of_held hholders])
  | release => exact .inl rfl
  | ask request =>
    refine .inl ?_
    by_cases hholders : 0 < office.holders
    · cases hrequest : office.queue.request request with
      | error error => rw [act_ask_of_error hholders hrequest]
      | ok queue =>
        rw [act_ask_of_ok hholders hrequest]
        obtain ⟨hrunning, -, -, hstill, -⟩ := request_eq_ok hrequest
        exact hstill.trans hrunning.symm
    · rw [act_ask_of_unheld hholders]
  | take =>
    change office.take.queue.worker = _ ∨ (_ ∧ office.take.queue.worker = _) ∨ _
    unfold take
    split
    · exact .inl rfl
    · split
      · exact .inr (.inl ⟨rfl, rfl⟩)
      · exact .inl rfl
    · exact .inl rfl
  | reply reply =>
    by_cases hinHand : office.inHand.isSome
    · rw [act_reply_of_inHand hinHand]
      cases reply with
      | returned _ | failed _ => exact .inl rfl
      | crashed text => exact .inr (.inr (.inl ⟨text, rfl, rfl⟩))
    · exact .inl (by rw [act_reply_of_free hinHand])
  | abort =>
    by_cases hrunning : office.queue.worker = .running
    · refine .inr (.inr (.inr ⟨rfl, ?_⟩))
      simp [act, stop, hrunning, close]
    · refine .inl ?_
      change office.queue.stop.worker = _
      rw [stop_of_not_running hrunning]

/-- A worker that runs at first panics only where the integration breaks down, and is stopped only
from outside. -/
theorem exists_mem_of_worker_after (hrunning : office.queue.worker = .running) (moves : List Move) :
    ((office.after moves).queue.worker = .panicked → ∃ text, .reply (.crashed text) ∈ moves) ∧
      ((office.after moves).queue.worker = .stopped → .abort ∈ moves) := by
  -- From the end, since only the last move can have ended the worker.
  induction moves using List.reverseRecOn with
  | nil => simp [after, hrunning]
  | append_singleton moves move ih =>
    have hstep : office.after (moves ++ [move]) = (office.after moves).act move := by simp [after]
    rw [hstep]
    rcases worker_act (office.after moves) move with h | ⟨-, h⟩ | ⟨text, rfl, h⟩ |
      ⟨rfl, h⟩ <;> rw [h]
    · exact ⟨fun hpanicked => (ih.1 hpanicked).imp fun text => List.mem_append_left _,
        fun hstopped => List.mem_append_left _ (ih.2 hstopped)⟩
    · exact ⟨fun h => (nomatch h), fun h => (nomatch h)⟩
    · exact ⟨fun _ => ⟨text, by simp⟩, fun h => (nomatch h)⟩
    · exact ⟨fun h => (nomatch h), fun _ => by simp⟩

/-! ### After the worker has ended -/

theorem act_of_not_running (hworker : office.queue.worker ≠ .running)
    (hinHand : office.inHand = none) (move : Move) :
    (office.act move).queue.worker ≠ .running ∧ (office.act move).inHand = none ∧
      (office.act move).accepted = office.accepted ∧ (office.act move).calls = office.calls := by
  cases move with
  | share =>
    by_cases hholders : office.holders = 0
    · rw [act_share_of_unheld hholders]
      exact ⟨hworker, hinHand, rfl, rfl⟩
    · rw [act_share_of_held hholders]
      exact ⟨hworker, hinHand, rfl, rfl⟩
  | release => exact ⟨hworker, hinHand, rfl, rfl⟩
  | ask request =>
    by_cases hholders : 0 < office.holders
    · rw [act_ask_of_error hholders (request_of_not_running hworker)]
      exact ⟨hworker, hinHand, rfl, rfl⟩
    · rw [act_ask_of_unheld hholders]
      exact ⟨hworker, hinHand, rfl, rfl⟩
  | take =>
    rw [show office.act .take = office from take_of_not_ready (.inr hworker)]
    exact ⟨hworker, hinHand, rfl, rfl⟩
  | reply reply =>
    rw [act_reply_of_free (by simp [hinHand])]
    exact ⟨hworker, hinHand, rfl, rfl⟩
  | abort =>
    change office.queue.stop.worker ≠ .running ∧ _
    rw [stop_of_not_running hworker]
    exact ⟨hworker, rfl, rfl, rfl⟩

theorem after_of_not_running (hworker : office.queue.worker ≠ .running)
    (hinHand : office.inHand = none) (moves : List Move) :
    (office.after moves).queue.worker ≠ .running ∧ (office.after moves).accepted = office.accepted ∧
      (office.after moves).calls = office.calls := by
  induction moves generalizing office with
  | nil => exact ⟨hworker, rfl, rfl⟩
  | cons move moves ih =>
    obtain ⟨hworker, hinHand, haccepted, hcalls⟩ := act_of_not_running hworker hinHand move
    obtain ⟨hlast, haccepted', hcalls'⟩ := ih hworker hinHand
    exact ⟨hlast, haccepted'.trans haccepted, hcalls'.trans hcalls⟩

/-! ### When nobody holds the queue any more -/

/-- The worker left to itself: it gets replies and turns to one request after another. -/
def rounds (replies : List (Outcome Json)) : List Move :=
  replies.flatMap fun reply => [.reply reply, .take]

theorem act_reply {reply : Outcome Json} (hreply : ∀ text, reply ≠ .crashed text) :
    office.act (.reply reply) = { office with inHand := none } := by
  by_cases hinHand : office.inHand.isSome
  · rw [act_reply_of_inHand hinHand]
    cases reply with
    | returned _ | failed _ => rfl
    | crashed text => exact absurd rfl (hreply text)
  · rw [act_reply_of_free hinHand]
    rw [← show office.inHand = none by simpa using hinHand]

/-- A worker that nobody can give requests any more forwards what is waiting and finishes. -/
theorem worker_after_rounds (hholders : office.holders = 0)
    (hworker : office.queue.worker = .running ∨ office.queue.worker = .finished)
    {replies : List (Outcome Json)} (hreplies : ∀ reply ∈ replies, ∀ text, reply ≠ .crashed text)
    (hmany : office.queue.worker = .running → office.queue.waiting.length < replies.length) :
    (office.after (rounds replies)).queue.worker = .finished := by
  induction replies generalizing office with
  | nil => exact hworker.resolve_left fun hrunning => Nat.not_lt_zero _ (hmany hrunning)
  | cons reply replies ih =>
    obtain ⟨hreply, hreplies⟩ := List.forall_mem_cons.1 hreplies
    change (((office.act (.reply reply)).take).after (rounds replies)).queue.worker = _
    rw [act_reply hreply]
    -- Of the office with its worker free, only these three facts matter.
    generalize hfree : ({ office with inHand := none } : Office) = free
    obtain ⟨hqueue, hholders', hinHand⟩ : free.queue = office.queue ∧
        free.holders = office.holders ∧ free.inHand = none := by
      rw [← hfree]
      exact ⟨rfl, rfl, rfl⟩
    rw [← hqueue] at hworker hmany
    rw [← hholders'] at hholders
    rcases hworker with hrunning | hfinished
    · have hlength := hmany hrunning
      cases hwaiting : free.queue.waiting with
      | nil =>
        rw [take_of_nil hinHand hrunning hwaiting, if_pos hholders]
        exact ih hholders (.inr rfl) hreplies fun h => nomatch h
      | cons first rest =>
        rw [take_of_cons hinHand hrunning hwaiting]
        refine ih hholders (.inl hrunning) hreplies fun _ => ?_
        rw [hwaiting, List.length_cons, List.length_cons] at hlength
        change free.queue.waiting.tail.length < _
        rw [hwaiting, List.tail_cons]
        exact Nat.lt_of_succ_lt_succ hlength
    · have hworker : free.queue.worker ≠ .running := by simp [hfinished]
      rw [take_of_not_ready (.inr hworker)]
      exact ih hholders (.inr hfinished) hreplies fun h => absurd h hworker

/-! ### What the program's worker does -/

/-- The worker's turns: it takes a request and waits for the reply, again and again. -/
def turns (replies : List (Outcome Json)) : List Move :=
  replies.flatMap fun reply => [.take, .reply reply]

/-- Everybody lets go of the queue, and the worker gets these replies and turns to the queue once
more. -/
def closing (office : Office) (replies : List (Outcome Json)) : List Move :=
  List.replicate office.holders .release ++ turns replies ++ [.take]

/-- The call by which a request is forwarded, with the reply to it. -/
def forwarding (integration : String) (request : EnrichmentRequest) (reply : Outcome Json) :
    Exchange :=
  ⟨.effect (.integrate (forwardingCall integration request)), reply⟩

section

variable {first : EnrichmentRequest} {rest : List EnrichmentRequest} {exchanges : List Exchange}
  {ended : Outcome EnrichmentQueue} {count : Nat}

theorem after_turn (hinHand : office.inHand = none) (hrunning : office.queue.worker = .running)
    (hwaiting : office.queue.waiting = first :: rest) (reply : Outcome Json) :
    office.after [.take, .reply reply] = { office with
      queue := match reply with
        | .returned _ | .failed _ => office.queue.pop
        | .crashed _ => office.queue.close .panicked
      inHand := none
      calls := office.calls ++ [forwardingCall office.queue.integration first] } := by
  change office.take.act (.reply reply) = _
  rw [take_of_cons hinHand hrunning hwaiting]
  cases reply <;> rfl

/-- One turn on, the worker still runs with the rest of the requests, or it has broken down. -/
theorem queue_after_turn (hinHand : office.inHand = none)
    (hrunning : office.queue.worker = .running) (hwaiting : office.queue.waiting = first :: rest)
    (reply : Outcome Json) :
    ((office.after [.take, .reply reply]).queue.worker = .running ∧
      (office.after [.take, .reply reply]).queue.waiting = rest) ∨
    ((office.after [.take, .reply reply]).queue.worker ≠ .running ∧
      ∃ text, reply = .crashed text) := by
  rw [after_turn hinHand hrunning hwaiting]
  cases reply with
  | returned _ | failed _ => exact .inl ⟨hrunning, congrArg List.tail hwaiting⟩
  | crashed text => exact .inr ⟨(fun h => nomatch h), text, rfl⟩

/-- The worker forwards a request as its program does: it turns to the request and gets the
reply. -/
theorem runs_forwardNext (hinHand : office.inHand = none)
    (hrunning : office.queue.worker = .running) (hwaiting : office.queue.waiting = first :: rest) :
    office.queue.forwardNext.Runs exchanges ended ↔
      ∃ reply, exchanges = [forwarding office.queue.integration first reply] ∧
        ended = .returned (office.after [.take, .reply reply]).queue := by
  have hprogram : office.queue.forwardNext =
      .ask (.effect (.integrate (forwardingCall office.queue.integration first))) fun reply =>
        pure (office.after [.take, .reply reply]).queue := by
    unfold forwardNext
    rw [hrunning, hwaiting]
    refine congrArg (Program.ask _) (funext fun reply => ?_)
    rw [after_turn hinHand hrunning hwaiting]
    cases reply <;> rfl
  rw [hprogram, Program.runs_ask]
  constructor
  · rintro ⟨reply, rest, rfl, h⟩
    obtain ⟨rfl, rfl⟩ := Program.runs_pure.1 h
    exact ⟨reply, rfl, rfl⟩
  · rintro ⟨reply, rfl, rfl⟩
    exact ⟨reply, [], rfl, .done _⟩

theorem forward_of_not_running {queue : EnrichmentQueue} (h : queue.worker ≠ .running)
    (count : Nat) : forward count queue = pure queue := by
  induction count with
  | zero => rfl
  | succ count ih =>
    have hnext : queue.forwardNext = pure queue := by
      unfold forwardNext
      split
      · rename_i hrunning _
        exact absurd hrunning h
      · rfl
    rw [forward, hnext, Program.pure_bind, ih]

theorem runs_forward_succ (hinHand : office.inHand = none)
    (hrunning : office.queue.worker = .running) (hwaiting : office.queue.waiting = first :: rest)
    (h : (forward (count + 1) office.queue).Runs exchanges ended) :
    ∃ reply later, exchanges = forwarding office.queue.integration first reply :: later ∧
      (forward count (office.after [.take, .reply reply]).queue).Runs later ended := by
  rw [forward, Program.runs_bind] at h
  rcases h with ⟨queue, before, later, rfl, hfirst, hrest⟩ | ⟨error, hfirst, -⟩ |
    ⟨text, hfirst, -⟩
  · obtain ⟨reply, rfl, hqueue⟩ := (runs_forwardNext hinHand hrunning hwaiting).1 hfirst
    obtain rfl := Outcome.returned.inj hqueue
    exact ⟨reply, later, rfl, hrest⟩
  · obtain ⟨reply, -, hended⟩ := (runs_forwardNext hinHand hrunning hwaiting).1 hfirst
    cases hended
  · obtain ⟨reply, -, hended⟩ := (runs_forwardNext hinHand hrunning hwaiting).1 hfirst
    cases hended

/-- The program forwards as many requests as it is asked to, unless the integration breaks down, and
each of its turns is one of the office. -/
theorem runs_forward (hinHand : office.inHand = none)
    (hcount : office.queue.worker = .running → count ≤ office.queue.waiting.length)
    (h : (forward count office.queue).Runs exchanges ended) :
    ∃ replies : List (Outcome Json), replies.length ≤ office.queue.waiting.length ∧
      exchanges =
        List.zipWith (forwarding office.queue.integration) office.queue.waiting replies ∧
      ended = .returned (office.after (turns replies)).queue ∧
      (office.queue.worker = .running → (∀ text, .crashed text ∉ replies) →
        (office.after (turns replies)).queue.worker = .running) ∧
      ((office.after (turns replies)).queue.worker = .running → replies.length = count ∧
        (office.after (turns replies)).inHand = none ∧
        (office.after (turns replies)).queue.waiting = office.queue.waiting.drop count) := by
  induction count generalizing office exchanges with
  | zero =>
    obtain ⟨rfl, rfl⟩ := Program.runs_pure.1 h
    exact ⟨[], Nat.zero_le _, List.zipWith_nil_right.symm, rfl, fun h _ => h,
      fun _ => ⟨rfl, hinHand, rfl⟩⟩
  | succ count ih =>
    by_cases hrunning : office.queue.worker = .running
    · obtain ⟨first, rest, hwaiting⟩ := List.exists_cons_of_length_pos
        (Nat.lt_of_lt_of_le count.succ_pos (hcount hrunning))
      obtain ⟨reply, later, rfl, hlater⟩ := runs_forward_succ hinHand hrunning hwaiting h
      rw [hwaiting] at hcount ⊢
      have hturn := queue_after_turn hinHand hrunning hwaiting reply
      generalize hoffice : office.after [.take, .reply reply] = office' at hlater hturn
      have hafter : ∀ replies, office.after (turns (reply :: replies)) =
          office'.after (turns replies) := fun replies => by rw [← hoffice]; rfl
      obtain ⟨hfree, hintegration⟩ : office'.inHand = none ∧
          office'.queue.integration = office.queue.integration := by
        rw [← hoffice, after_turn hinHand hrunning hwaiting]
        exact ⟨rfl, by cases reply <;> rfl⟩
      obtain ⟨hworker, hrest⟩ | ⟨hworker, text, rfl⟩ := hturn
      · obtain ⟨replies, hle, rfl, rfl, hcalm, hall⟩ := ih hfree (fun _ => by
          rw [hrest]
          exact Nat.le_of_succ_le_succ (hcount hrunning)) hlater
        rw [hrest] at hle hall ⊢
        refine ⟨reply :: replies, Nat.succ_le_succ hle, by rw [hintegration]; rfl, ?_⟩
        rw [hafter]
        refine ⟨rfl, ?_, ?_⟩
        · exact fun _ hreplies => hcalm hworker fun text hmem =>
            hreplies text (List.mem_cons_of_mem _ hmem)
        · exact fun h => ⟨congrArg (· + 1) (hall h).1, (hall h).2⟩
      · rw [forward_of_not_running hworker] at hlater
        obtain ⟨rfl, rfl⟩ := Program.runs_pure.1 hlater
        refine ⟨[.crashed text], Nat.succ_le_succ (Nat.zero_le _),
          congrArg _ List.zipWith_nil_right.symm, ?_⟩
        rw [hafter]
        refine ⟨rfl, ?_, ?_⟩
        · exact fun _ hreplies => absurd (List.mem_singleton_self _) (hreplies text)
        · exact fun h => absurd h hworker
    · rw [forward_of_not_running hrunning] at h
      obtain ⟨rfl, rfl⟩ := Program.runs_pure.1 h
      exact ⟨[], Nat.zero_le _, List.zipWith_nil_right.symm, rfl,
        fun h => absurd h hrunning, fun h => absurd h hrunning⟩

theorem after_releases (office : Office) (count : Nat) :
    office.after (List.replicate count .release) =
      { office with holders := office.holders - count } := by
  induction count generalizing office with
  | zero => rfl
  | succ count ih =>
    refine (ih (office.act .release)).trans ?_
    simp only [act, Nat.sub_sub, Nat.add_comm]

@[simp]
theorem holders_take (office : Office) : office.take.holders = office.holders := by
  unfold take
  split
  · rfl
  · split <;> rfl
  · rfl

@[simp]
theorem holders_hear (office : Office) (reply : Outcome Json) :
    (office.hear reply).holders = office.holders := by
  cases reply <;> rfl

theorem holders_after_turns (office : Office) (replies : List (Outcome Json)) :
    (office.after (turns replies)).holders = office.holders := by
  induction replies generalizing office with
  | nil => rfl
  | cons reply replies ih =>
    refine (ih (office.take.act (.reply reply))).trans ?_
    simp only [act]
    split <;> simp

/-- The program that finishes a queue is the office where everybody lets go of the queue and the
worker goes on. -/
theorem runs_finish (hinHand : office.inHand = none)
    (h : office.queue.finish.Runs exchanges ended) :
    ∃ replies : List (Outcome Json), replies.length ≤ office.queue.waiting.length ∧
      exchanges =
        List.zipWith (forwarding office.queue.integration) office.queue.waiting replies ∧
      ended = .returned (office.after (office.closing replies)).queue ∧
      (office.queue.worker = .running → (∀ text, .crashed text ∉ replies) →
        replies.length = office.queue.waiting.length ∧
          (office.after (office.closing replies)).queue.worker = .finished) := by
  generalize hlet : office.after (List.replicate office.holders .release) = left
  have hleft := hlet.symm.trans (after_releases office office.holders)
  have hclosing : ∀ replies,
      office.after (office.closing replies) = (left.after (turns replies)).take := by
    intro replies
    rw [← hlet]
    simp only [closing, after, List.foldl_append, List.foldl_cons, List.foldl_nil, act]
  have hqueue : left.queue = office.queue := by rw [hleft]
  have hholders : ∀ replies, (left.after (turns replies)).holders = 0 := fun replies => by
    rw [holders_after_turns, hleft, Nat.sub_self]
  rw [← hqueue] at h ⊢
  obtain ⟨drained, hdrained, rfl⟩ | ⟨error, hdrained, -⟩ | ⟨text, hdrained, -⟩ :=
    Program.runs_bind_pure.1 h
  all_goals
    obtain ⟨replies, hle, rfl, hended, hcalm, hall⟩ :=
      runs_forward (by rw [hleft, hinHand]) (fun _ => Nat.le_refl _) hdrained
  · obtain rfl := Outcome.returned.inj hended
    refine ⟨replies, hle, rfl, ?_⟩
    rw [hclosing]
    by_cases hrunning : (left.after (turns replies)).queue.worker = .running
    · obtain ⟨hlength, hfree, hwaiting⟩ := hall hrunning
      rw [take_of_nil hfree hrunning (hwaiting.trans List.drop_length), if_pos (hholders replies),
        if_pos hrunning]
      exact ⟨rfl, fun _ _ => ⟨hlength, rfl⟩⟩
    · rw [take_of_not_ready (.inr hrunning), if_neg hrunning]
      exact ⟨rfl, fun hstart hreplies => absurd (hcalm hstart hreplies) hrunning⟩
  · cases hended
  · cases hended

end

/-! ### How requests are served -/

/-- Requests are served as they came, by an integration with a name and through a queue of some
capacity. -/
structure Serves (integration : String) (capacity : Nat) (office : Office) : Prop where
  /-- The integration was called for the requests that were accepted, in their order and for each
  once, up to those that are still waiting. -/
  inTurn : ∃ forwarded,
    office.calls = forwarded.map (fun request => ⟨integration, request.provider, .obj [
      ("leadId", request.leadId.toJson),
      ("metadata", .obj request.metadata),
      ("provider", .str request.provider)]⟩) ∧
    forwarded <+: office.accepted ∧
    (office.queue.worker ≠ .panicked → office.accepted = forwarded ++ office.queue.waiting)
  /-- A request is refused, with no other effect, just when as many are waiting as there is
  capacity. -/
  refuses_iff : office.queue.worker = .running → 0 < office.holders → ∀ request,
    office.act (.ask request) = { office with refused := office.refused ++ [request] } ↔
      office.queue.waiting.length = capacity
  /-- Any other request is accepted and waits behind those that came before. -/
  accepts : office.queue.worker = .running → 0 < office.holders →
    office.queue.waiting.length ≠ capacity → ∀ request,
    (office.act (.ask request)).accepted = office.accepted ++ [request] ∧
      (office.act (.ask request)).queue.waiting = office.queue.waiting ++ [request] ∧
      (office.act (.ask request)).calls = office.calls
  /-- After an error the worker goes on as after any other reply. -/
  goesOn : office.inHand.isSome → office.queue.worker = .running ∧
    ∀ error, office.act (.reply (.failed error)) = { office with inHand := none }
  /-- A worker that has finished has forwarded everything, and nobody holds the queue any more. -/
  forwardsAll : office.queue.worker = .finished →
    office.holders = 0 ∧ office.calls = office.accepted.map (forwardingCall integration)
  /-- Once nobody holds the queue any more, the worker finishes as soon as it has been replied to
  often enough. -/
  finishes : office.holders = 0 → office.queue.worker = .running → ∀ replies : List (Outcome Json),
    (∀ reply ∈ replies, ∀ text, reply ≠ .crashed text) →
      office.queue.waiting.length < replies.length →
      (office.after (rounds replies)).queue.worker = .finished
  /-- After a breakdown nothing is forwarded and every request is refused. -/
  breaksDown : office.inHand.isSome → ∀ text moves,
    let broken := (office.act (.reply (.crashed text))).after moves
    broken.calls = office.calls ∧ broken.accepted = office.accepted ∧
      ∀ request, ∃ error, broken.queue.request request = .error error

theorem Sound.serves (h : office.Sound integration capacity)
    (hstopped : office.queue.worker ≠ .stopped) :
    office.Serves integration capacity where
  inTurn := by
    obtain ⟨forwarded, rest, hcalls, haccepted, hrest⟩ := h.inTurn
    refine ⟨forwarded, hcalls, ⟨rest, haccepted.symm⟩, fun hpanicked => ?_⟩
    rw [haccepted, hrest]
    cases hworker : office.queue.worker with
    | running => exact .inl rfl
    | finished => exact .inr rfl
    | panicked => exact absurd hworker hpanicked
    | stopped => exact absurd hworker hstopped
  refuses_iff hrunning hholders request := by
    rw [← h.capacity_eq, ← request_eq_error_iff request hrunning]
    constructor
    · intro hact
      cases hrequest : office.queue.request request with
      | error error => exact ⟨error, rfl⟩
      | ok queue =>
        have haccepted :=
          congrArg (List.length ∘ Office.accepted) (act_ask_of_ok hholders hrequest ▸ hact)
        simp at haccepted
    · rintro ⟨error, hrequest⟩
      exact act_ask_of_error hholders hrequest
  accepts hrunning hholders hroom request := by
    rw [← h.capacity_eq, ne_eq, ← request_eq_error_iff request hrunning] at hroom
    cases hrequest : office.queue.request request with
    | error error => exact absurd ⟨error, hrequest⟩ hroom
    | ok queue =>
      rw [act_ask_of_ok hholders hrequest]
      obtain ⟨-, -, -, -, hwaiting⟩ := request_eq_ok hrequest
      exact ⟨rfl, hwaiting, rfl⟩
  goesOn hinHand := ⟨h.running hinHand, fun error => act_reply fun text hreply => nomatch hreply⟩
  forwardsAll hfinished := by
    obtain ⟨hholders, hwaiting⟩ := h.finished hfinished
    obtain ⟨forwarded, rest, hcalls, haccepted, hrest⟩ := h.inTurn
    rw [hrest (.inr hfinished), hwaiting, List.append_nil] at haccepted
    exact ⟨hholders, haccepted ▸ hcalls⟩
  finishes hholders hrunning replies hreplies hmany :=
    worker_after_rounds hholders (.inl hrunning) hreplies fun _ => hmany
  breaksDown hinHand text moves := by
    have hbroken : office.act (.reply (.crashed text)) = office.hear (.crashed text) :=
      if_pos hinHand
    have hworker : (office.hear (.crashed text)).queue.worker ≠ .running := fun h => nomatch h
    rw [hbroken]
    obtain ⟨hend, haccepted, hcalls⟩ := after_of_not_running hworker rfl moves
    exact ⟨hcalls, haccepted, fun request => ⟨_, request_of_not_running hend⟩⟩

theorem after_append (office : Office) (moves later : List Move) :
    office.after (moves ++ later) = (office.after moves).after later :=
  List.foldl_append

theorem abort_notMem_closing (office : Office) (replies : List (Outcome Json)) :
    .abort ∉ office.closing replies := by
  simp [closing, turns, List.mem_replicate]

/-- In whatever order requests come, the worker takes its steps and the integration replies, from
the opening of the queue on and as long as nobody stops the worker, requests are served as they
came; and the worker ends in no other way than by finishing, unless the integration breaks down.

The office is that of the program: it opens with the queue that the program opens, and wherever the
program finishes the queue, it makes the calls of an office that is being closed, for the waiting
requests in turn, and ends with its queue. -/
theorem requests_served (integration : String) (hcapacity : 0 < capacity) (moves : List Move)
    (h : .abort ∉ moves) :
    ((opened integration capacity hcapacity).after moves).Serves integration capacity ∧
      ((∀ text, .reply (.crashed text) ∉ moves) →
        ((opened integration capacity hcapacity).after moves).queue.worker = .running ∨
          ((opened integration capacity hcapacity).after moves).queue.worker = .finished) ∧
      (capacity ≤ maxCapacity → open? integration capacity =
        some (opened integration capacity hcapacity).queue) ∧
      let office := (opened integration capacity hcapacity).after moves
      office.inHand = none → ∀ exchanges ended, office.queue.finish.Runs exchanges ended →
        ∃ replies : List (Outcome Json),
          exchanges = List.zipWith (forwarding integration) office.queue.waiting replies ∧
          ended = .returned (office.after (office.closing replies)).queue ∧
          (office.after (office.closing replies)).Serves integration capacity ∧
          (office.queue.worker = .running → (∀ text, .crashed text ∉ replies) →
            replies.length = office.queue.waiting.length ∧
              (office.after (office.closing replies)).queue.worker = .finished) := by
  have hrunning : (opened integration capacity hcapacity).queue.worker = .running := rfl
  have hserves : ∀ moves : List Move, .abort ∉ moves →
      ((opened integration capacity hcapacity).after moves).Serves integration capacity :=
    fun moves h => ((sound_opened hcapacity).after moves).serves fun hworker =>
      h ((exists_mem_of_worker_after hrunning moves).2 hworker)
  obtain ⟨hpanicked, hstopped⟩ := exists_mem_of_worker_after hrunning moves
  refine ⟨hserves moves h, fun hcalm => ?_, open?_eq hcapacity, ?_⟩
  · cases hworker : ((opened integration capacity hcapacity).after moves).queue.worker with
    | running => exact .inl rfl
    | finished => exact .inr rfl
    | panicked =>
      obtain ⟨text, hmem⟩ := hpanicked hworker
      exact absurd hmem (hcalm text)
    | stopped => exact absurd (hstopped hworker) h
  · intro office hinHand exchanges ended hfinish
    obtain ⟨replies, -, hexchanges, hended, hfinished⟩ := runs_finish hinHand hfinish
    rw [((sound_opened hcapacity).after moves).integration_eq] at hexchanges
    refine ⟨replies, hexchanges, hended, ?_, hfinished⟩
    have hclosed := hserves (moves ++ office.closing replies) fun hmem =>
      (List.mem_append.1 hmem).elim h (abort_notMem_closing office replies)
    rwa [after_append] at hclosed

def requestTo (provider : String) : EnrichmentRequest := ⟨⟨7⟩, provider, []⟩

/-- Three requests, one of which comes too early for a queue of capacity 1; the first fails; then
nobody holds the queue. -/
def busyDay : List Move :=
  [.ask (requestTo "first"), .take, .ask (requestTo "second"), .ask (requestTo "third"),
    .reply (.failed (.integration "crm" "unavailable")), .take, .release,
    .reply (.returned .null), .take]

/-- Two requests are waiting. -/
def busyMorning : Office :=
  (opened "crm" 2 Nat.two_pos).after [.ask (requestTo "first"), .ask (requestTo "second")]

theorem requests_served_busyDay :
    let office := (opened "crm" 1 Nat.one_pos).after busyDay
    office.Serves "crm" 1 ∧ office.queue.worker = .finished ∧
      office.accepted = [requestTo "first", requestTo "second"] ∧
      office.refused = [requestTo "third"] ∧
      office.calls.map IntegrationCall.action = ["first", "second"] ∧
      busyMorning.queue.finish.Runs
        [forwarding "crm" (requestTo "first") (.failed (.integration "crm" "unavailable")),
          forwarding "crm" (requestTo "second") (.returned .null)]
        (.returned (busyMorning.queue.close .finished)) :=
  ⟨(requests_served "crm" Nat.one_pos busyDay (by simp [busyDay])).1, rfl, rfl, rfl, rfl,
    .ask _ (.ask _ (.done _))⟩

end Office

end LeadAutomation.EnrichmentQueue
