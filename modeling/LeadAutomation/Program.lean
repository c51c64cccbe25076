import LeadAutomation.Integration.Call
import LeadAutomation.Notification
import LeadAutomation.Enrichment.Request
import LeadAutomation.Store.Call

/-!
# Programs

Whatever automation does beyond computing is a call: to the store, to the systems that it notifies
and integrates, or for the current time and new identifiers. A `Program` is a computation with its
calls laid open, so that what is called, in which order, and what follows from each reply can be
read off it. `run` answers the calls from a state.

Stores fail with an error. The systems outside may also break down in the middle of a call; a
program that does not expect a breakdown breaks down with it, and `attempt` is where one is
expected.
-/

namespace LeadAutomation

/-- How something ended. -/
inductive Outcome (α : Type) where
  | returned (a : α)
  | failed (error : AutomationError)
  /-- It broke down, with or without a text that says how. -/
  | crashed (text : Option String)

/-- A call to a system outside. -/
inductive EffectCall where
  | notify (notification : Notification)
  | integrate (call : IntegrationCall)
  | enrich (request : EnrichmentRequest)
deriving DecidableEq

/-- What a call to a system outside results in. -/
abbrev EffectCall.Result : EffectCall → Type
  | .notify _ => Unit
  | .integrate _ => Json
  | .enrich _ => Unit

inductive Call where
  | store (call : StoreCall)
  | effect (call : EffectCall)
  /-- Asks for the current time and new identifiers. -/
  | stamp

/-- What a call is answered with. -/
abbrev Call.Reply : Call → Type
  | .store call => Except AutomationError call.Result
  | .effect call => Outcome call.Result
  | .stamp => Fresh

/-- A computation that makes calls. -/
inductive Program (α : Type) where
  | done (outcome : Outcome α)
  | ask (call : Call) (next : call.Reply → Program α)

namespace Program

variable {α β σ : Type}

/-- One program after another; the second is left out unless the first returns. -/
def andThen (f : α → Program β) : Program α → Program β
  | .done (.returned a) => f a
  | .done (.failed error) => .done (.failed error)
  | .done (.crashed text) => .done (.crashed text)
  | .ask call next => .ask call fun reply => andThen f (next reply)

instance : Monad Program where
  pure a := .done (.returned a)
  bind p f := andThen f p

def fail (error : AutomationError) : Program α := .done (.failed error)

/-- The result, or the failure. -/
def ofExcept : Except AutomationError α → Program α
  | .ok a => pure a
  | .error error => fail error

/-- The value, or a failure where there is none. -/
def orFail (error : AutomationError) : Option α → Program α
  | some a => pure a
  | none => fail error

def store (call : StoreCall) : Program call.Result := .ask (.store call) ofExcept

def effect (call : EffectCall) : Program call.Result := .ask (.effect call) .done

/-- The current time and new identifiers. -/
def stamp : Program Fresh := .ask .stamp pure

/-- A program that returns how another one ended. -/
def attempt : Program α → Program (Outcome α)
  | .done outcome => pure outcome
  | .ask call next => .ask call fun reply => attempt (next reply)

/-- A program that returns the result or the failure of another one and breaks down only if that one
does. -/
def caught (p : Program α) : Program (Except AutomationError α) :=
  p.attempt.andThen fun
    | .returned a => pure (.ok a)
    | .failed error => pure (.error error)
    | .crashed text => .done (.crashed text)

/-- Runs a program, where `answer` replies to calls from a state. -/
def run (answer : (call : Call) → σ → call.Reply × σ) : Program α → σ → Outcome α × σ
  | .done outcome, state => (outcome, state)
  | .ask call next, state =>
    let (reply, state) := answer call state
    run answer (next reply) state

/-! ### Laws -/

@[simp]
theorem pure_bind (a : α) (f : α → Program β) : (pure a : Program α) >>= f = f a := rfl

@[simp]
theorem fail_bind (error : AutomationError) (f : α → Program β) : fail error >>= f = fail error :=
  rfl

@[simp]
theorem ask_bind (call : Call) (next : call.Reply → Program α) (f : α → Program β) :
    Program.ask call next >>= f = .ask call fun reply => next reply >>= f := rfl

theorem bind_pure (p : Program α) : p >>= pure = p := by
  induction p with
  | done outcome => cases outcome <;> rfl
  | ask call next ih => simp only [ask_bind, ih]

theorem bind_assoc {γ : Type} (p : Program α) (f : α → Program β) (g : β → Program γ) :
    p >>= f >>= g = p >>= fun a => f a >>= g := by
  induction p with
  | done outcome => cases outcome <;> rfl
  | ask call next ih => simp only [ask_bind, ih]

instance : LawfulMonad Program :=
  LawfulMonad.mk' Program bind_pure (fun _ _ => rfl) bind_assoc

/-- Running one program after another. -/
theorem run_bind (answer : (call : Call) → σ → call.Reply × σ) (p : Program α) (f : α → Program β)
    (state : σ) :
    (p >>= f).run answer state =
      match p.run answer state with
      | (.returned a, state) => (f a).run answer state
      | (.failed error, state) => (.failed error, state)
      | (.crashed text, state) => (.crashed text, state) := by
  induction p generalizing state with
  | done outcome => cases outcome <;> rfl
  | ask call next ih => simpa only [ask_bind, run] using ih _ _

/-- An attempt always returns, and has the same effects. -/
theorem run_attempt (answer : (call : Call) → σ → call.Reply × σ) (p : Program α) (state : σ) :
    p.attempt.run answer state = (.returned (p.run answer state).1, (p.run answer state).2) := by
  induction p generalizing state with
  | done outcome => rfl
  | ask call next ih => simpa only [attempt, run] using ih _ _

end Program

end LeadAutomation
