import LeadAutomation.Proofs.Host
import LeadAutomation.Proofs.Traces

/-!
# Frail hosts

A frail host is a place for programs to run in whose store may fail: a call to the store either does
what the store in memory does or is answered with an error and does nothing, as it happens. As on
any host, the systems outside may do anything except touch the store.

On a frail host, what has been stored cannot be told from what a program means to store. What can be
told is what is never undone: an execution that has ended stays so, as long as no other one is begun
under its identifier.
-/

namespace LeadAutomation

/-- Surroundings with a store of their own that may refuse any call. -/
structure FrailHost (σ : Type) where
  answer : (call : Call) → σ → call.Reply × σ
  store : σ → Store
  /-- What the clock of the store shows. -/
  time : σ → Timestamp
  answer_store (call : StoreCall) (s : σ) :
    ((answer (.store call) s).1 = ((store s).answer (time s) call).1 ∧
      store (answer (.store call) s).2 = ((store s).answer (time s) call).2) ∨
    ((∃ error, (answer (.store call) s).1 = .error error) ∧
      store (answer (.store call) s).2 = store s)
  store_effect (call : EffectCall) (s : σ) : store (answer (.effect call) s).2 = store s
  store_stamp (s : σ) : store (answer .stamp s).2 = store s

/-- A store that refuses its calls as a list says, one after another, in surroundings that do all
they are asked, in no time. -/
def FrailHost.refusing : FrailHost (Store × List Bool) where
  answer
    | .store call, (store, faults) =>
      if faults.headD false then (.error (.repository "connection lost"), (store, faults.tail))
      else
        let (result, store) := store.answer .epoch call
        (result, (store, faults.tail))
    | .effect call, state => (.returned call.rehearsedReply, state)
    | .stamp, (store, faults) =>
      -- no execution is begun under the identifier of a stored one
      (⟨.epoch, fun n => ⟨BitVec.ofNat 128 (store.executions.length + n)⟩⟩, (store, faults))
  store := Prod.fst
  time _ := .epoch
  answer_store call s := by
    obtain ⟨store, faults⟩ := s
    dsimp only
    cases faults.headD false with
    | true => exact .inr ⟨⟨_, rfl⟩, rfl⟩
    | false => exact .inl ⟨rfl, rfl⟩
  store_effect _ _ := rfl
  store_stamp _ := rfl

/-- Whether a call to the store leaves executions alone. -/
def StoreCall.SparesExecutions : StoreCall → Prop
  | .createExecution _ | .updateExecution _ | .failStaleExecutions .. => False
  | _ => True

/-- Whether a call leaves executions alone. -/
def Call.SparesExecutions : Call → Prop
  | .store call => call.SparesExecutions
  | .effect _ | .stamp => True

/-- Whether all that a call does to executions is to begin one or to store one that has ended. -/
def Call.IsOrderly : Call → Prop
  | .store (.updateExecution execution) => execution.status.isTerminal = true
  | .store (.failStaleExecutions ..) => False
  | _ => True

theorem Call.IsOffline.sparesExecutions {call : Call} (h : call.IsOffline) :
    call.SparesExecutions := by
  cases call with
  | store call => exact h.elim
  | effect call => trivial
  | stamp => trivial

theorem Call.SparesExecutions.isOrderly {call : Call} (h : call.SparesExecutions) :
    call.IsOrderly := by
  cases call with
  | store call =>
    cases call with
    | updateExecution execution => exact h.elim
    | failStaleExecutions cutoff message => exact h.elim
    | _ => trivial
  | effect call => trivial
  | stamp => trivial

/-- An execution is begun under some identifier. -/
def Exchange.Begins (id : Uuid) (exchange : Exchange) : Prop :=
  ∃ execution, exchange = ⟨.store (.createExecution execution), .ok ()⟩ ∧ execution.id = id

/-- What is stored under some identifier is an execution that has ended. -/
def Store.HasEnded (store : Store) (id : Uuid) : Prop :=
  ∃ execution, find? Execution.id id store.executions = some execution ∧
    execution.status.isTerminal = true

theorem Store.executions_answer {now : Timestamp} {call : StoreCall} {store : Store}
    (h : call.SparesExecutions) :
    (store.answer now call).2.executions = store.executions := by
  cases call with
  | applyPatch id patch =>
    simp only [answer]
    split <;> rfl
  | createExecution execution => exact h.elim
  | updateExecution execution => exact h.elim
  | failStaleExecutions cutoff message => exact h.elim
  | _ => rfl

theorem Store.answer_of_error {now : Timestamp} {call : StoreCall} {store : Store}
    {error : AutomationError} (h : (store.answer now call).1 = .error error) :
    (store.answer now call).2 = store := by
  cases call with
  | applyPatch id patch =>
    simp only [answer] at h ⊢
    split at h
    · cases h
    · rfl
  | updateExecution execution =>
    simp only [answer] at h ⊢
    split at h
    · cases h
    · rfl
  | _ => cases h

/-- An execution can be stored as it has become only if it is there. -/
theorem Store.answer_updateExecution_of_ok {now : Timestamp} {execution : Execution} {store : Store}
    (h : (store.answer now (.updateExecution execution)).1 = .ok ()) :
    (store.answer now (.updateExecution execution)).2.executions =
      upsert Execution.id execution store.executions := by
  simp only [answer] at h ⊢
  split at h
  · rfl
  · cases h

theorem Store.hasEnded_congr {store other : Store} {id : Uuid}
    (h : other.executions = store.executions) (hended : store.HasEnded id) : other.HasEnded id := by
  rwa [HasEnded, h]

theorem Store.hasEnded_upsert {store other : Store} {id : Uuid} {execution : Execution}
    (h : other.executions = upsert Execution.id execution store.executions)
    (hended : store.HasEnded id) (hkeeps : execution.id = id → execution.status.isTerminal = true) :
    other.HasEnded id := by
  rw [HasEnded, h, find?_upsert]
  by_cases hid : execution.id = id
  · rw [if_pos hid]
    exact ⟨execution, rfl, hkeeps hid⟩
  · rw [if_neg hid]
    exact hended

theorem Store.hasEnded_answer {now : Timestamp} {call : StoreCall} {store : Store} {id : Uuid}
    (hcall : (Call.store call).IsOrderly) (hended : store.HasEnded id) :
    (∃ execution, call = .createExecution execution ∧ execution.id = id) ∨
    (store.answer now call).2.HasEnded id := by
  by_cases hspares : call.SparesExecutions
  · exact .inr (hasEnded_congr (executions_answer hspares) hended)
  · cases call with
    | createExecution execution =>
      by_cases hid : execution.id = id
      · exact .inl ⟨execution, rfl, hid⟩
      · exact .inr (hasEnded_upsert rfl hended fun heq => absurd heq hid)
    | updateExecution execution =>
      right
      simp only [answer]
      split
      · exact hasEnded_upsert rfl hended fun _ => hcall
      · exact hended
    | failStaleExecutions cutoff message => exact hcall.elim
    | _ => exact absurd trivial hspares

namespace FrailHost

variable {σ α : Type} (host : FrailHost σ)

def executions (s : σ) : List Execution := (host.store s).executions

/-- At every moment of a trace the execution of some identifier has ended, up to the one at which
another one begins under it. -/
def StaysEnded (id : Uuid) : List (Exchange × σ) → Prop
  | [] => True
  | (exchange, s) :: rest => exchange.Begins id ∨ (host.store s).HasEnded id ∧ StaysEnded id rest

variable {host} {id : Uuid} {s : σ}

theorem executions_answer (call : Call) (h : call.SparesExecutions) (s : σ) :
    host.executions (host.answer call s).2 = host.executions s := by
  unfold executions
  cases call with
  | store call =>
    obtain ⟨-, hstore⟩ | ⟨-, hstore⟩ := host.answer_store call s
    · rw [hstore, Store.executions_answer h]
    · rw [hstore]
  | effect call => rw [host.store_effect]
  | stamp => rw [host.store_stamp]

theorem store_of_ok {call : StoreCall} {result : call.Result}
    (h : (host.answer (.store call) s).1 = .ok result) :
    ((host.store s).answer (host.time s) call).1 = .ok result ∧
      host.store (host.answer (.store call) s).2 =
        ((host.store s).answer (host.time s) call).2 := by
  obtain ⟨hreply, hstore⟩ | ⟨⟨error, hreply⟩, -⟩ := host.answer_store call s
  · exact ⟨hreply.symm.trans h, hstore⟩
  · rw [hreply] at h
    cases h

theorem store_of_error {call : StoreCall} {error : AutomationError}
    (h : (host.answer (.store call) s).1 = .error error) :
    host.store (host.answer (.store call) s).2 = host.store s := by
  obtain ⟨hreply, hstore⟩ | ⟨-, hstore⟩ := host.answer_store call s
  · rw [hstore]
    exact Store.answer_of_error (hreply.symm.trans h)
  · exact hstore

theorem executions_of_error {call : StoreCall} {error : AutomationError}
    (h : (host.answer (.store call) s).1 = .error error) :
    host.executions (host.answer (.store call) s).2 = host.executions s :=
  congrArg Store.executions (store_of_error h)

theorem executions_create {execution : Execution}
    (h : (host.answer (.store (.createExecution execution)) s).1 = .ok ()) :
    host.executions (host.answer (.store (.createExecution execution)) s).2 =
      Store.upsert Execution.id execution (host.executions s) := by
  unfold executions
  rw [(store_of_ok h).2]
  rfl

theorem executions_update {execution : Execution}
    (h : (host.answer (.store (.updateExecution execution)) s).1 = .ok ()) :
    host.executions (host.answer (.store (.updateExecution execution)) s).2 =
      Store.upsert Execution.id execution (host.executions s) := by
  obtain ⟨hresult, hstore⟩ := store_of_ok h
  unfold executions
  rw [hstore, Store.answer_updateExecution_of_ok hresult]

theorem executions_run {p : Program α} (hp : p.CallsOnly Call.SparesExecutions) (s : σ) :
    host.executions (p.run host.answer s).2 = host.executions s :=
  hp.view_run executions_answer s

/-! ### Ends -/

/-- An execution that has ended stays so through any orderly call that begins no other one under its
identifier. -/
theorem hasEnded_answer {call : Call} (hcall : call.IsOrderly)
    (hended : (host.store s).HasEnded id) :
    (⟨call, (host.answer call s).1⟩ : Exchange).Begins id ∨
    (host.store (host.answer call s).2).HasEnded id := by
  cases call with
  | store call =>
    obtain ⟨hreply, hstore⟩ | ⟨-, hstore⟩ := host.answer_store call s
    · rw [hstore]
      obtain ⟨execution, rfl, hid⟩ | hstill := Store.hasEnded_answer hcall hended
      · exact .inl ⟨execution, congrArg (Exchange.mk _) hreply, hid⟩
      · exact .inr hstill
    · exact .inr (by rwa [hstore])
  | effect call => exact .inr (by rwa [host.store_effect])
  | stamp => exact .inr (by rwa [host.store_stamp])

theorem staysEnded_trace_append {p : Program α} (hp : p.CallsOnly Call.IsOrderly)
    {rest : List (Exchange × σ)} (hended : (host.store s).HasEnded id)
    (hrest : (host.store (p.run host.answer s).2).HasEnded id → host.StaysEnded id rest) :
    host.StaysEnded id (p.trace host.answer s ++ rest) := by
  induction p generalizing s with
  | done outcome => exact hrest hended
  | ask call next ih =>
    obtain hbegins | hstill := hasEnded_answer hp.1 hended
    · exact .inl hbegins
    · exact .inr ⟨hstill, ih _ (hp.2 _) hstill hrest⟩

theorem staysEnded_traceAll {programs : List (Program Unit)}
    (hprograms : ∀ p ∈ programs, p.CallsOnly Call.IsOrderly) (hended : (host.store s).HasEnded id) :
    host.StaysEnded id (Program.traceAll host.answer programs s) := by
  induction programs generalizing s with
  | nil => trivial
  | cons p rest ih =>
    obtain ⟨hp, hrest⟩ := List.forall_mem_cons.1 hprograms
    exact staysEnded_trace_append hp hended fun hstill => ih hrest hstill

end FrailHost

end LeadAutomation
