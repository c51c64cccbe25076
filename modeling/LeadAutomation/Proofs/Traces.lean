import LeadAutomation.Proofs.Runs

/-!
# Traces

A trace tells what a program does in some surroundings, call by call, with the surroundings after
each reply. Where a transcript says what was called and what came back, a trace also says what every
moment between two calls was like.

Several programs run one after another, each from where the one before it left off, whether that
returned or not. A longer program can be taken for such a sequence of shorter ones: `ConsistsOf`.
-/

namespace LeadAutomation.Program

variable {α β σ : Type} (answer : (call : Call) → σ → call.Reply × σ)

/-- A call in some state, the reply to it and the state that follows. -/
def moment (call : Call) (state : σ) : Exchange × σ :=
  (⟨call, (answer call state).1⟩, (answer call state).2)

/-- The calls of a program with their replies, each with the state that follows. -/
def trace : Program α → σ → List (Exchange × σ)
  | .done _, _ => []
  | .ask call next, state =>
    moment answer call state :: trace (next (answer call state).1) (answer call state).2

/-- The state after some programs, one after another. -/
def afterAll (programs : List (Program Unit)) (state : σ) : σ :=
  programs.foldl (fun state p => (p.run answer state).2) state

/-- The trace of some programs, one after another. -/
def traceAll : List (Program Unit) → σ → List (Exchange × σ)
  | [], _ => []
  | p :: rest, state => p.trace answer state ++ traceAll rest (p.run answer state).2

variable {answer} {state : σ}

theorem map_fst_trace (p : Program α) (state : σ) :
    (p.trace answer state).map Prod.fst = p.transcript answer state := by
  induction p generalizing state with
  | done outcome => rfl
  | ask call next ih =>
    rw [trace, List.map_cons, ih]
    rfl

theorem trace_bind (p : Program α) (f : α → Program β) (state : σ) :
    (p >>= f).trace answer state = p.trace answer state ++
      match p.run answer state with
      | (.returned a, state) => (f a).trace answer state
      | (.failed _, _) | (.crashed _, _) => [] := by
  induction p generalizing state with
  | done outcome => cases outcome <;> rfl
  | ask call next ih =>
    rw [ask_bind, trace, trace, List.cons_append, ih]
    rfl

/-- What only computes on a result adds no call. -/
theorem trace_bind_pure {p : Program α} {g : α → β} :
    (p >>= fun a => pure (g a)).trace answer state = p.trace answer state := by
  rw [trace_bind]
  split <;> exact List.append_nil _

theorem run_bind_pure {p : Program α} {g : α → β} :
    ((p >>= fun a => pure (g a)).run answer state).2 = (p.run answer state).2 := by
  rw [run_bind]
  split
  · next a next hp => rw [hp]; rfl
  · next error next hp => rw [hp]
  · next text next hp => rw [hp]

theorem run_bind_pure_of_returned {p : Program α} {g : α → β} {a : α} {next : σ}
    (h : p.run answer state = (.returned a, next)) :
    (p >>= fun a => pure (g a)).run answer state = (.returned (g a), next) := by
  rw [run_bind, h]
  rfl

theorem run_of_run_bind_pure_failed {p : Program α} {g : α → β} {error : AutomationError} {next : σ}
    (h : (p >>= fun a => pure (g a)).run answer state = (.failed error, next)) :
    p.run answer state = (.failed error, next) := by
  rw [run_bind] at h
  rcases hp : p.run answer state with ⟨a | fault | text, left⟩
  · rw [hp] at h
    cases h
  · rw [hp] at h
    cases h
    rfl
  · rw [hp] at h
    cases h

theorem CallsOnly.of_mem_trace {allowed : Call → Prop} {p : Program α} (hp : p.CallsOnly allowed) :
    ∀ step ∈ p.trace answer state, allowed step.1.call := by
  induction p generalizing state with
  | done outcome => exact List.forall_mem_nil _
  | ask call next ih => exact List.forall_mem_cons.2 ⟨hp.1, ih _ (hp.2 _)⟩

/-! ### Calls to a store -/

variable {call : StoreCall} {f : call.Result → Program β}

theorem trace_store_bind_ok {result : call.Result}
    (hreply : (answer (.store call) state).1 = .ok result) :
    (store call >>= f).trace answer state =
      moment answer (.store call) state :: (f result).trace answer
        (answer (.store call) state).2 := by
  change moment answer (.store call) state :: (ofExcept (answer (.store call) state).1 >>=
    f).trace answer _ = _
  rw [hreply]
  rfl

theorem run_store_bind_error {error : AutomationError}
    (hreply : (answer (.store call) state).1 = .error error) :
    (store call >>= f).run answer state = (.failed error, (answer (.store call) state).2) := by
  change (ofExcept (answer (.store call) state).1 >>= f).run answer _ = _
  rw [hreply]
  rfl

theorem trace_store_bind_error {error : AutomationError}
    (hreply : (answer (.store call) state).1 = .error error) :
    (store call >>= f).trace answer state = [moment answer (.store call) state] := by
  change moment answer (.store call) state :: (ofExcept (answer (.store call) state).1 >>=
    f).trace answer _ = _
  rw [hreply]
  rfl

/-! ### Sequences -/

variable {programs others : List (Program Unit)}

theorem afterAll_append : afterAll answer (programs ++ others) state =
    afterAll answer others (afterAll answer programs state) :=
  List.foldl_append

theorem traceAll_append : traceAll answer (programs ++ others) state =
    traceAll answer programs state ++ traceAll answer others (afterAll answer programs state) := by
  induction programs generalizing state with
  | nil => rfl
  | cons p rest ih =>
    rw [List.cons_append, traceAll, traceAll, ih, List.append_assoc]
    rfl

/-! ### Stretches of traces -/

/-- The state that some moments, the first of which comes from `state`, have led to. -/
def stateAfter (state : σ) (moments : List (Exchange × σ)) : σ :=
  moments.foldl (fun _ moment => moment.2) state

/-- Each of some moments is that of an allowed call, in the state that the ones before it have led
to. -/
def Traced (answer : (call : Call) → σ → call.Reply × σ) (allowed : Call → Prop) :
    σ → List (Exchange × σ) → Prop
  | _, [] => True
  | state, first :: rest =>
    (∃ call, allowed call ∧ first = moment answer call state) ∧ Traced answer allowed first.2 rest

theorem stateAfter_concat {moments : List (Exchange × σ)} {last : Exchange × σ} :
    stateAfter state (moments ++ [last]) = last.2 := by
  simp [stateAfter]

theorem stateAfter_trace (p : Program α) (state : σ) :
    stateAfter state (p.trace answer state) = (p.run answer state).2 := by
  induction p generalizing state with
  | done outcome => rfl
  | ask call next ih => exact ih _ _

namespace Traced

variable {allowed : Call → Prop} {moments later : List (Exchange × σ)}

theorem append_iff : Traced answer allowed state (moments ++ later) ↔
    Traced answer allowed state moments ∧
    Traced answer allowed (stateAfter state moments) later := by
  induction moments generalizing state with
  | nil => exact (iff_of_eq (true_and _)).symm
  | cons first rest ih => exact (and_congr_right fun _ => ih).trans and_assoc.symm

theorem trace {p : Program α} (hp : p.CallsOnly allowed) (state : σ) :
    Traced answer allowed state (p.trace answer state) := by
  induction p generalizing state with
  | done outcome => trivial
  | ask call next ih => exact ⟨⟨call, hp.1, rfl⟩, ih _ (hp.2 _) _⟩

theorem traceAll (hprograms : ∀ p ∈ programs, p.CallsOnly allowed) (state : σ) :
    Traced answer allowed state (traceAll answer programs state) := by
  induction programs generalizing state with
  | nil => trivial
  | cons p rest ih =>
    obtain ⟨hp, hrest⟩ := List.forall_mem_cons.1 hprograms
    rw [Program.traceAll, append_iff, stateAfter_trace]
    exact ⟨trace hp state, ih hrest _⟩

end Traced

/-! ### Parts -/

/-- Whatever state it starts from, a program does what some parts do one after another; which ones
may depend on the state. -/
def ConsistsOf {ι : Type} (answer : (call : Call) → σ → call.Reply × σ) (part : ι → Program Unit)
    (p : Program α) : Prop :=
  ∀ state, ∃ parts : List ι,
    p.trace answer state = traceAll answer (parts.map part) state ∧
      (p.run answer state).2 = afterAll answer (parts.map part) state

namespace ConsistsOf

variable {ι : Type} {part : ι → Program Unit}

theorem done (outcome : Outcome α) : ConsistsOf answer part (.done outcome) :=
  fun _ => ⟨[], rfl, rfl⟩

theorem pure (a : α) : ConsistsOf answer part (Pure.pure a : Program α) := .done _

theorem orFail (error : AutomationError) (found : Option α) :
    ConsistsOf answer part (Program.orFail error found) := by
  cases found <;> exact .done _

theorem of_part (i : ι) {p : Program α} (hpart : part i = discard p) :
    ConsistsOf answer part p := by
  refine fun state => ⟨[i], ?_, ?_⟩
  · rw [List.map_singleton, traceAll, traceAll, hpart, List.append_nil]
    exact trace_bind_pure.symm
  · rw [List.map_singleton, hpart]
    exact run_bind_pure.symm

/-- One program after another consists of the parts of both, as far as it gets. -/
theorem bind {p : Program α} {f : α → Program β} (hp : ConsistsOf answer part p)
    (hf : ∀ a, ConsistsOf answer part (f a)) :
    ConsistsOf answer part (p >>= f) := by
  intro state
  obtain ⟨first, htrace, hafter⟩ := hp state
  rw [trace_bind, run_bind]
  rcases hrun : p.run answer state with ⟨ended, next⟩
  rw [hrun] at hafter
  have hnext : next = afterAll answer (first.map part) state := hafter
  cases ended with
  | returned a =>
    obtain ⟨second, htrace', hafter'⟩ := hf a next
    refine ⟨first ++ second, ?_, ?_⟩
    · rw [List.map_append, traceAll_append, htrace, ← hnext]
      exact congrArg _ htrace'
    · rw [List.map_append, afterAll_append, ← hnext]
      exact hafter'
  | failed error => exact ⟨first, by rw [htrace, List.append_nil], hnext⟩
  | crashed text => exact ⟨first, by rw [htrace, List.append_nil], hnext⟩

theorem map {p : Program α} (f : α → β) (hp : ConsistsOf answer part p) :
    ConsistsOf answer part (f <$> p) :=
  hp.bind fun a => .pure (f a)

theorem all (hparts : ∀ p ∈ programs, ConsistsOf answer part p) (state : σ) :
    ∃ parts : List ι, traceAll answer programs state = traceAll answer (parts.map part) state ∧
      afterAll answer programs state = afterAll answer (parts.map part) state := by
  induction programs generalizing state with
  | nil => exact ⟨[], rfl, rfl⟩
  | cons p rest ih =>
    obtain ⟨hp, hrest⟩ := List.forall_mem_cons.1 hparts
    obtain ⟨first, htrace, hafter⟩ := hp state
    obtain ⟨second, htrace', hafter'⟩ := ih hrest (p.run answer state).2
    refine ⟨first ++ second, ?_, ?_⟩
    · rw [traceAll, List.map_append, traceAll_append, htrace, htrace', hafter]
    · rw [List.map_append, afterAll_append, ← hafter, ← hafter']
      rfl

end ConsistsOf

end LeadAutomation.Program
