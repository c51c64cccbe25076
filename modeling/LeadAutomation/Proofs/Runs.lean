import LeadAutomation.Program

/-!
# Runs

What a program does when its surroundings may reply anything. A run is the list of the calls that a
program makes, each with the reply to it, and `Program.Runs` says which runs a program has and how
they end. What holds of all runs holds for every store, every clock and every system outside,
however they behave.

The laws of `Runs` take a program apart call by call, so that a statement about a program is read
off its parts.
-/

namespace LeadAutomation

/-- A call and the reply to it. -/
structure Exchange where
  call : Call
  reply : call.Reply

/-- Whether a system outside broke down instead of replying. -/
def Exchange.IsBreakdown (exchange : Exchange) : Prop :=
  ∃ call text, exchange = ⟨.effect call, .crashed text⟩

namespace Program

variable {α β σ : Type}

/-- `p.Runs exchanges outcome` says that `p`, given the replies in `exchanges`, makes the calls in
it and ends so. -/
inductive Runs : Program α → List Exchange → Outcome α → Prop
  | done (outcome : Outcome α) : Runs (.done outcome) [] outcome
  | ask {call : Call} {next : call.Reply →
    Program α} {exchanges : List Exchange} {outcome : Outcome α}
      (reply : call.Reply) (rest : Runs (next reply) exchanges outcome) :
      Runs (.ask call next) (⟨call, reply⟩ :: exchanges) outcome

@[simp]
theorem runs_done {outcome ended : Outcome α} {exchanges : List Exchange} :
    (Program.done outcome).Runs exchanges ended ↔ exchanges = [] ∧ ended = outcome := by
  constructor
  · intro h
    cases h
    exact ⟨rfl, rfl⟩
  · rintro ⟨rfl, rfl⟩
    exact .done _

theorem runs_ask {call : Call} {next : call.Reply → Program α} {exchanges : List Exchange}
    {ended : Outcome α} :
    (Program.ask call next).Runs exchanges ended ↔
      ∃ reply rest, exchanges = ⟨call, reply⟩ :: rest ∧ (next reply).Runs rest ended := by
  constructor
  · intro h
    cases h with
    | ask reply rest => exact ⟨reply, _, rfl, rest⟩
  · rintro ⟨reply, rest, rfl, h⟩
    exact .ask reply h

@[simp]
theorem runs_pure {a : α} {exchanges : List Exchange} {ended : Outcome α} :
    (pure a : Program α).Runs exchanges ended ↔ exchanges = [] ∧ ended = .returned a :=
  runs_done

@[simp]
theorem runs_fail {error : AutomationError} {exchanges : List Exchange} {ended : Outcome α} :
    (fail error : Program α).Runs exchanges ended ↔ exchanges = [] ∧ ended = .failed error :=
  runs_done

/-- A sequence runs as its first part does and, where that returns, as the second part does from
there. -/
theorem runs_bind {p : Program α} {f : α → Program β} {exchanges : List Exchange}
    {ended : Outcome β} :
    (p >>= f).Runs exchanges ended ↔
      (∃ a before after, exchanges = before ++ after ∧ p.Runs before (.returned a) ∧
        (f a).Runs after ended) ∨
      (∃ error, p.Runs exchanges (.failed error) ∧ ended = .failed error) ∨
      (∃ text, p.Runs exchanges (.crashed text) ∧ ended = .crashed text) := by
  induction p generalizing exchanges with
  | done outcome =>
    cases outcome with
    | returned a =>
      rw [show (Program.done (.returned a) >>= f) = f a from rfl]
      constructor
      · intro h
        exact .inl ⟨a, [], exchanges, rfl, .done _, h⟩
      · rintro (⟨b, before, after, rfl, hp, hf⟩ | ⟨error, hp, -⟩ | ⟨text, hp, -⟩)
        · cases hp
          exact hf
        · cases hp
        · cases hp
    | failed error =>
      rw [show (Program.done (.failed error) >>= f) = .done (.failed error) from rfl, runs_done]
      constructor
      · rintro ⟨rfl, rfl⟩
        exact .inr (.inl ⟨error, .done _, rfl⟩)
      · rintro (⟨b, before, after, rfl, hp, hf⟩ | ⟨error, hp, rfl⟩ | ⟨text, hp, -⟩)
        · cases hp
        · cases hp
          exact ⟨rfl, rfl⟩
        · cases hp
    | crashed text =>
      rw [show (Program.done (.crashed text) >>= f) = .done (.crashed text) from rfl, runs_done]
      constructor
      · rintro ⟨rfl, rfl⟩
        exact .inr (.inr ⟨text, .done _, rfl⟩)
      · rintro (⟨b, before, after, rfl, hp, hf⟩ | ⟨error, hp, -⟩ | ⟨text, hp, rfl⟩)
        · cases hp
        · cases hp
        · cases hp
          exact ⟨rfl, rfl⟩
  | ask call next ih =>
    rw [ask_bind]
    simp only [runs_ask, ih]
    constructor
    · rintro ⟨reply, rest, rfl, ⟨a, before, after, rfl, hp, hf⟩ | ⟨error, hp, rfl⟩ |
        ⟨text, hp, rfl⟩⟩
      · exact .inl ⟨a, ⟨call, reply⟩ :: before, after, rfl, ⟨reply, before, rfl, hp⟩, hf⟩
      · exact .inr (.inl ⟨error, ⟨reply, rest, rfl, hp⟩, rfl⟩)
      · exact .inr (.inr ⟨text, ⟨reply, rest, rfl, hp⟩, rfl⟩)
    · rintro (⟨a, _, after, rfl, ⟨reply, before, rfl, hp⟩, hf⟩ |
        ⟨error, ⟨reply, rest, rfl, hp⟩, rfl⟩ |
        ⟨text, ⟨reply, rest, rfl, hp⟩, rfl⟩)
      · exact ⟨reply, before ++ after, rfl, .inl ⟨a, before, after, rfl, hp, hf⟩⟩
      · exact ⟨reply, rest, rfl, .inr (.inl ⟨error, hp, rfl⟩)⟩
      · exact ⟨reply, rest, rfl, .inr (.inr ⟨text, hp, rfl⟩)⟩

theorem runs_bind_returned {p : Program α} {f : α → Program β} {exchanges : List Exchange} {b : β} :
    (p >>= f).Runs exchanges (.returned b) ↔
      ∃ a before after, exchanges = before ++ after ∧ p.Runs before (.returned a) ∧
      (f a).Runs after (.returned b) := by
  rw [runs_bind]
  constructor
  · rintro (h | ⟨error, -, hended⟩ | ⟨text, -, hended⟩)
    · exact h
    · cases hended
    · cases hended
  · exact .inl

/-- A sequence whose second part only computes makes the calls of its first part. -/
theorem runs_bind_pure {p : Program α} {g : α → β} {exchanges : List Exchange} {ended : Outcome β} :
    (p >>= fun a => pure (g a)).Runs exchanges ended ↔
      (∃ a, p.Runs exchanges (.returned a) ∧ ended = .returned (g a)) ∨
      (∃ error, p.Runs exchanges (.failed error) ∧ ended = .failed error) ∨
      (∃ text, p.Runs exchanges (.crashed text) ∧ ended = .crashed text) := by
  rw [runs_bind]
  apply or_congr_left
  constructor
  · rintro ⟨a, before, after, rfl, hp, hpure⟩
    obtain ⟨rfl, rfl⟩ := runs_pure.1 hpure
    exact ⟨a, by rwa [List.append_nil], rfl⟩
  · rintro ⟨a, hp, rfl⟩
    exact ⟨a, exchanges, [], (List.append_nil _).symm, hp, .done _⟩

theorem exists_runs_of_bind_pure {p : Program α} {g : α → β} {exchanges : List Exchange}
    {ended : Outcome β} (h : (p >>= fun a => pure (g a)).Runs exchanges ended) :
    ∃ outcome, p.Runs exchanges outcome := by
  obtain ⟨a, hp, -⟩ | ⟨error, hp, -⟩ | ⟨text, hp, -⟩ := runs_bind_pure.1 h
  · exact ⟨_, hp⟩
  · exact ⟨_, hp⟩
  · exact ⟨_, hp⟩

/-- An attempt makes the calls of what is attempted and always returns. -/
theorem runs_attempt {p : Program α} {exchanges : List Exchange} {ended : Outcome (Outcome α)} :
    p.attempt.Runs exchanges ended ↔
    ∃ outcome, p.Runs exchanges outcome ∧ ended = .returned outcome := by
  induction p generalizing exchanges with
  | done outcome =>
    change (Program.done (.returned outcome)).Runs exchanges ended ↔ _
    rw [runs_done]
    constructor
    · rintro ⟨rfl, rfl⟩
      exact ⟨outcome, .done _, rfl⟩
    · rintro ⟨outcome, h, rfl⟩
      cases h
      exact ⟨rfl, rfl⟩
  | ask call next ih =>
    simp only [attempt, runs_ask, ih]
    constructor
    · rintro ⟨reply, rest, rfl, outcome, hp, rfl⟩
      exact ⟨outcome, ⟨reply, rest, rfl, hp⟩, rfl⟩
    · rintro ⟨outcome, ⟨reply, rest, rfl, hp⟩, rfl⟩
      exact ⟨reply, rest, rfl, outcome, hp, rfl⟩

theorem runs_stamp_bind {f : Fresh → Program β} {exchanges : List Exchange} {ended : Outcome β} :
    (stamp >>= f).Runs exchanges ended ↔
      ∃ fresh rest, exchanges = ⟨.stamp, fresh⟩ :: rest ∧ (f fresh).Runs rest ended :=
  runs_ask

theorem runs_store_returned {call : StoreCall} {result : call.Result} {exchanges : List Exchange} :
    (store call).Runs exchanges (.returned result) ↔ exchanges = [⟨.store call, .ok result⟩] := by
  rw [store, runs_ask]
  constructor
  · rintro ⟨reply, rest, rfl, hrest⟩
    cases reply with
    | ok given =>
      obtain ⟨rfl, hended⟩ := runs_pure.1 hrest
      cases hended
      rfl
    | error error =>
      obtain ⟨-, hended⟩ := runs_fail.1 hrest
      cases hended
  · rintro rfl
    exact ⟨.ok result, [], rfl, runs_pure.2 ⟨rfl, rfl⟩⟩

theorem runs_map_returned {p : Program α} {g : α → β} {exchanges : List Exchange} {b : β} :
    (g <$> p).Runs exchanges (.returned b) ↔ ∃ a, p.Runs exchanges (.returned a) ∧ b = g a := by
  rw [map_eq_pure_bind, runs_bind_pure]
  constructor
  · rintro (⟨a, h, hended⟩ | ⟨error, -, hended⟩ | ⟨text, -, hended⟩)
    · exact ⟨a, h, Outcome.returned.inj hended⟩
    · cases hended
    · cases hended
  · rintro ⟨a, h, rfl⟩
    exact .inl ⟨a, h, rfl⟩

/-- A call to a system outside whose failure is dealt with goes one of three ways. -/
theorem runs_effect_caught_bind {call : EffectCall}
    {f : Except AutomationError call.Result → Program β} {exchanges : List Exchange}
    {ended : Outcome β} :
    ((effect call).caught >>= f).Runs exchanges ended ↔
      (∃ result rest, exchanges = ⟨.effect call, .returned result⟩ :: rest ∧
        (f (.ok result)).Runs rest ended) ∨
      (∃ error rest, exchanges = ⟨.effect call, .failed error⟩ :: rest ∧
        (f (.error error)).Runs rest ended) ∨
      (∃ text, exchanges = [⟨.effect call, .crashed text⟩] ∧ ended = .crashed text) := by
  change (Program.ask (.effect call) fun reply =>
    caught (.done reply) >>= f).Runs exchanges ended ↔ _
  rw [runs_ask]
  constructor
  · rintro ⟨result | error | text, rest, rfl, h⟩
    · exact .inl ⟨result, rest, rfl, h⟩
    · exact .inr (.inl ⟨error, rest, rfl, h⟩)
    · obtain ⟨rfl, rfl⟩ := runs_done.1 h
      exact .inr (.inr ⟨text, rfl, rfl⟩)
  · rintro (⟨result, rest, rfl, h⟩ | ⟨error, rest, rfl, h⟩ | ⟨text, rfl, rfl⟩)
    · exact ⟨.returned result, rest, rfl, h⟩
    · exact ⟨.failed error, rest, rfl, h⟩
    · exact ⟨.crashed text, [], rfl, runs_done.2 ⟨rfl, rfl⟩⟩

/-! ### The run that some surroundings bring about -/

/-- The calls of a program and the replies to them, where `answer` replies to calls from a state. -/
def transcript (answer : (call : Call) → σ → call.Reply × σ) : Program α → σ → List Exchange
  | .done _, _ => []
  | .ask call next, state =>
    let (reply, state) := answer call state
    ⟨call, reply⟩ :: transcript answer (next reply) state

theorem runs_transcript (answer : (call : Call) → σ → call.Reply × σ) (p : Program α) (state : σ) :
    p.Runs (p.transcript answer state) (p.run answer state).1 := by
  induction p generalizing state with
  | done outcome => exact .done outcome
  | ask call next ih => exact .ask _ (ih _ _)

theorem exists_of_mem_transcript {answer : (call : Call) → σ → call.Reply × σ} {p : Program α}
    {state : σ} {exchange : Exchange} (hmem : exchange ∈ p.transcript answer state) :
    ∃ s, exchange.reply = (answer exchange.call s).1 := by
  induction p generalizing state with
  | done outcome => simp [transcript] at hmem
  | ask call next ih =>
    rcases List.mem_cons.1 hmem with rfl | hmem
    · exact ⟨state, rfl⟩
    · exact ih _ hmem

theorem not_isBreakdown_of_mem_transcript {answer : (call : Call) → σ → call.Reply × σ}
    (hcalm : ∀ call s text, (answer (.effect call) s).1 ≠ .crashed text) {p : Program α} {state : σ}
    {exchange : Exchange} (hmem : exchange ∈ p.transcript answer state) :
    ¬ exchange.IsBreakdown := by
  rintro ⟨call, text, rfl⟩
  obtain ⟨s, hreply⟩ := exists_of_mem_transcript hmem
  exact hcalm call s text hreply.symm

/-- A supply that is the same at every reading of the clock. -/
def stillFresh : Fresh := ⟨.epoch, fun n => ⟨BitVec.ofNat 128 n⟩⟩

theorem run_store_bind_ok {answer : (call : Call) → σ → call.Reply × σ} {call : StoreCall}
    {f : call.Result → Program β} {state : σ} {result : call.Result}
    (hreply : (answer (.store call) state).1 = .ok result) :
    (store call >>= f).run answer state = (f result).run answer (answer (.store call) state).2 := by
  change (ofExcept (answer (.store call) state).1 >>= f).run answer _ = _
  rw [hreply]
  rfl

theorem run_stamp_bind {answer : (call : Call) → σ → call.Reply × σ} {f : Fresh → Program β}
    {state : σ} :
    (stamp >>= f).run answer state =
      (f (answer .stamp state).1).run answer (answer .stamp state).2 := rfl

theorem run_store_caught_bind {answer : (call : Call) → σ → call.Reply × σ} {call : StoreCall}
    {f : Except AutomationError call.Result → Program β} {state : σ} :
    ((store call).caught >>= f).run answer state =
      (f (answer (.store call) state).1).run answer (answer (.store call) state).2 := by
  change ((ofExcept (answer (.store call) state).1).caught >>= f).run answer _ = _
  cases (answer (.store call) state).1 <;> rfl

/-! ### What a program may call -/

/-- Every call that a program makes, whatever it is told, is one of those allowed. -/
def CallsOnly (allowed : Call → Prop) : Program α → Prop
  | .done _ => True
  | .ask call next => allowed call ∧ ∀ reply, CallsOnly allowed (next reply)

namespace CallsOnly

variable {allowed : Call → Prop}

theorem pure (a : α) : CallsOnly allowed (Pure.pure a : Program α) := trivial

theorem bind {p : Program α} {f : α → Program β} (hp : CallsOnly allowed p)
    (hf : ∀ a, CallsOnly allowed (f a)) :
    CallsOnly allowed (p >>= f) := by
  induction p with
  | done outcome =>
    cases outcome with
    | returned a => exact hf a
    | failed error => trivial
    | crashed text => trivial
  | ask call next ih => exact ⟨hp.1, fun reply => ih reply (hp.2 reply)⟩

theorem bind_of_runs {p : Program α} {f : α → Program β} (hp : CallsOnly allowed p)
    (hf : ∀ exchanges a, p.Runs exchanges (.returned a) → CallsOnly allowed (f a)) :
    CallsOnly allowed (p >>= f) := by
  induction p with
  | done outcome =>
    cases outcome with
    | returned a => exact hf [] a (.done _)
    | failed error => trivial
    | crashed text => trivial
  | ask call next ih =>
    exact ⟨hp.1, fun reply => ih reply (hp.2 reply) fun _ a h => hf _ a (.ask reply h)⟩

theorem mono {others : Call → Prop} (h : ∀ call, allowed call → others call) {p : Program α}
    (hp : CallsOnly allowed p) :
    CallsOnly others p := by
  induction p with
  | done outcome => trivial
  | ask call next ih => exact ⟨h call hp.1, fun reply => ih reply (hp.2 reply)⟩

/-- A program whose calls all leave something as it is leaves it as it is. -/
theorem view_run {γ : Type} {view : σ → γ} {answer : (call : Call) → σ → call.Reply × σ}
    (hkeep : ∀ call, allowed call → ∀ s, view (answer call s).2 = view s) {p : Program α}
    (hp : CallsOnly allowed p) (s : σ) :
    view (p.run answer s).2 = view s := by
  induction p generalizing s with
  | done outcome => rfl
  | ask call next ih =>
    change view ((next (answer call s).1).run answer (answer call s).2).2 = _
    rw [ih _ (hp.2 _), hkeep call hp.1]

theorem attempt {p : Program α} (hp : CallsOnly allowed p) : CallsOnly allowed p.attempt := by
  induction p with
  | done outcome => trivial
  | ask call next ih => exact ⟨hp.1, fun reply => ih reply (hp.2 reply)⟩

theorem ofExcept (result : Except AutomationError α) :
    CallsOnly allowed (Program.ofExcept result) := by
  cases result <;> trivial

theorem map {p : Program α} (f : α → β) (hp : CallsOnly allowed p) : CallsOnly allowed (f <$> p) :=
  hp.bind fun a => .pure (f a)

theorem orFail (error : AutomationError) (found : Option α) :
    CallsOnly allowed (Program.orFail error found) := by
  cases found <;> trivial

theorem store {call : StoreCall} (h : allowed (.store call)) :
    CallsOnly allowed (Program.store call) :=
  ⟨h, fun _ => .ofExcept _⟩

theorem stamp (h : allowed .stamp) : CallsOnly allowed Program.stamp := ⟨h, fun _ => trivial⟩

theorem effect_caught {call : EffectCall} (h : allowed (.effect call)) :
    CallsOnly allowed (Program.effect call).caught :=
  ⟨h, fun reply => by cases reply <;> trivial⟩

end CallsOnly

end Program

end LeadAutomation
