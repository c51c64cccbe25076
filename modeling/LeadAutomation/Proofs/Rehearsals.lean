import LeadAutomation.Proofs.Host
import LeadAutomation.Proofs.Traces
import LeadAutomation.Scripted

/-!
# Rehearsals and the real thing

A rehearsed program follows one of the runs that the program itself has: the one in which every
system outside obliges, that is, goes well and replies as a rehearsal does. Its intents are what is
asked of those systems in that run.
-/

namespace LeadAutomation

/-- Whether a call goes to a system outside. -/
def Call.IsEffect : Call → Prop
  | .effect _ => True
  | .store _ | .stamp => False

namespace Exchange

/-- What was asked of a system outside. -/
def asked? : Exchange → Option EffectCall
  | ⟨.effect call, _⟩ => some call
  | ⟨.store _, _⟩ | ⟨.stamp, _⟩ => none

/-- Whether the reply of a system outside is the one that a rehearsal gives. -/
def IsObliging : Exchange → Prop
  | ⟨.effect call, reply⟩ => reply = .returned call.rehearsedReply
  | ⟨.store _, _⟩ | ⟨.stamp, _⟩ => True

theorem IsObliging.not_isBreakdown {exchange : Exchange} (h : exchange.IsObliging) :
    ¬ exchange.IsBreakdown := by
  rintro ⟨call, text, rfl⟩
  cases h

theorem asked?_eq_none {exchange : Exchange} (h : ¬ exchange.call.IsEffect) :
    exchange.asked? = none := by
  obtain ⟨call | call | _, reply⟩ := exchange
  · rfl
  · exact absurd trivial h
  · rfl

end Exchange

/-- The intents that come of asking for something. -/
def Intents.of (asked : List EffectCall) : Intents := asked.foldl add {}

namespace Program

variable {α β σ : Type} {answer : (call : Call) → σ → call.Reply × σ}

theorem run_map (f : α → β) (p : Program α) (state : σ) :
    ((f <$> p).run answer state).1 = (p.run answer state).1.map f := by
  change ((p >>= fun a => pure (f a)).run answer state).1 = _
  rw [run_bind]
  rcases p.run answer state with ⟨a | error | text, left⟩ <;> rfl

/-! ### Obliging runs -/

theorem CallsOnly.of_mem {allowed : Call → Prop} {p : Program α} (hp : CallsOnly allowed p)
    {exchanges : List Exchange} {ended : Outcome α} (h : p.Runs exchanges ended) :
    ∀ exchange ∈ exchanges, allowed exchange.call := by
  induction h with
  | done outcome => exact List.forall_mem_nil _
  | ask reply rest ih => exact List.forall_mem_cons.2 ⟨hp.1, ih (hp.2 reply)⟩

/-- A rehearsal follows an obliging run of what is rehearsed and writes down what is asked in it. -/
theorem exists_runs_of_rehearseFrom {p : Program α} {intents : Intents} {exchanges : List Exchange}
    {ended : Outcome (α × Intents)} (h : (p.rehearseFrom intents).Runs exchanges ended) :
    ∃ real outcome, p.Runs real outcome ∧ (∀ exchange ∈ real, exchange.IsObliging) ∧
      ended = outcome.map fun a =>
        (a, (real.filterMap Exchange.asked?).foldl Intents.add intents) := by
  induction p generalizing intents exchanges with
  | done outcome =>
    refine ⟨[], outcome, .done _, List.forall_mem_nil _, ?_⟩
    cases outcome with
    | returned a => exact (runs_pure.1 h).2
    | failed error => exact (runs_fail.1 h).2
    | crashed text => exact (runs_done.1 h).2
  | ask call next ih =>
    cases call with
    | effect call =>
      obtain ⟨real, outcome, hreal, hobliging, hended⟩ := ih (.returned call.rehearsedReply) h
      exact ⟨⟨.effect call, .returned call.rehearsedReply⟩ :: real, outcome, .ask _ hreal,
        List.forall_mem_cons.2 ⟨rfl, hobliging⟩, hended⟩
    | store call =>
      obtain ⟨reply, rest, rfl, hrest⟩ := runs_ask.1 h
      obtain ⟨real, outcome, hreal, hobliging, hended⟩ := ih reply hrest
      exact ⟨⟨.store call, reply⟩ :: real, outcome, .ask _ hreal,
        List.forall_mem_cons.2 ⟨trivial, hobliging⟩, hended⟩
    | stamp =>
      obtain ⟨fresh, rest, rfl, hrest⟩ := runs_ask.1 h
      obtain ⟨real, outcome, hreal, hobliging, hended⟩ := ih fresh hrest
      exact ⟨⟨.stamp, fresh⟩ :: real, outcome, .ask _ hreal,
        List.forall_mem_cons.2 ⟨trivial, hobliging⟩, hended⟩

theorem exists_runs_of_rehearse (answer : (call : Call) → σ → call.Reply × σ) (p : Program α)
    (state : σ) :
    ∃ real outcome next, p.Runs real outcome ∧ (∀ exchange ∈ real, exchange.IsObliging) ∧
      p.rehearse.run answer state =
        (outcome.map fun a => (a, .of (real.filterMap Exchange.asked?)), next) := by
  obtain ⟨real, outcome, hreal, hobliging, hended⟩ :=
    exists_runs_of_rehearseFrom (runs_transcript answer p.rehearse state)
  exact ⟨real, outcome, (p.rehearse.run answer state).2, hreal, hobliging, Prod.ext hended rfl⟩

theorem CallsOnly.rehearseFrom {allowed : Call → Prop} {p : Program α} (hp : p.CallsOnly allowed)
    (intents : Intents) :
    (p.rehearseFrom intents).CallsOnly fun call => allowed call ∧ ¬ call.IsEffect := by
  induction p generalizing intents with
  | done outcome => cases outcome <;> trivial
  | ask call next ih =>
    cases call with
    | effect call => exact ih _ (hp.2 _) _
    | store call => exact ⟨⟨hp.1, id⟩, fun reply => ih reply (hp.2 reply) intents⟩
    | stamp => exact ⟨⟨hp.1, id⟩, fun fresh => ih fresh (hp.2 fresh) intents⟩

theorem isObliging_of_mem_transcript
    (hobliging : ∀ call s, (answer (.effect call) s).1 = .returned call.rehearsedReply)
    {p : Program α} {state : σ} :
    ∀ exchange ∈ p.transcript answer state, exchange.IsObliging := by
  intro exchange hmem
  obtain ⟨s, hreply⟩ := exists_of_mem_transcript hmem
  obtain ⟨call | call | _, reply⟩ := exchange
  · trivial
  · exact hreply.trans (hobliging call s)
  · trivial

/-! ### What is asked for -/

/-- What a program asks of systems outside, in order. -/
def asked (answer : (call : Call) → σ → call.Reply × σ) (p : Program α) (state : σ) :
    List EffectCall :=
  (p.transcript answer state).filterMap Exchange.asked?

theorem transcript_bind {p : Program α} {f : α → Program β} {a : α} {state next : σ}
    (hp : p.run answer state = (.returned a, next)) :
    (p >>= f).transcript answer state =
      p.transcript answer state ++ (f a).transcript answer next := by
  rw [← map_fst_trace, trace_bind, hp, List.map_append, map_fst_trace, map_fst_trace]

theorem transcript_attempt (p : Program α) (state : σ) :
    p.attempt.transcript answer state = p.transcript answer state := by
  induction p generalizing state with
  | done outcome => rfl
  | ask call next ih => exact congrArg _ (ih _ _)

theorem asked_bind {p : Program α} {f : α → Program β} {a : α} {state next : σ}
    (hp : p.run answer state = (.returned a, next)) :
    asked answer (p >>= f) state = asked answer p state ++ asked answer (f a) next := by
  rw [asked, transcript_bind hp, List.filterMap_append]
  rfl

theorem asked_eq_nil {p : Program α} (hp : p.CallsOnly fun call => ¬ call.IsEffect) (state : σ) :
    asked answer p state = [] := by
  apply List.filterMap_eq_nil_iff.2
  intro exchange hmem
  exact Exchange.asked?_eq_none (hp.of_mem (runs_transcript answer p state) exchange hmem)

end Program

theorem Host.asked_store_bind {σ β : Type} (host : Host σ) {call : StoreCall}
    {f : call.Result → Program β} {s : σ} {result : call.Result}
    (hresult : ((host.store s).answer (host.time s) call).1 = .ok result) :
    Program.asked host.answer (Program.store call >>= f) s =
      Program.asked host.answer (f result) (host.answer (.store call) s).2 := by
  change Program.asked host.answer (Program.ofExcept (host.answer (.store call) s).1 >>= f) _ = _
  rw [host.answer_store, hresult]
  rfl

end LeadAutomation
