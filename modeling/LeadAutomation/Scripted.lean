import LeadAutomation.Rehearsal
import LeadAutomation.Store

/-!
# Scripted surroundings

A place for programs to run in: the store in memory, a clock, and systems outside that play their
parts from a script. What they are asked is written down as in a rehearsal. A script may also let
calls to the store fail, so that it can be seen how automation bears up.

Each reply of a script is given once. What a script says nothing about goes well.
-/

namespace LeadAutomation

inductive Mishap where
  /-- Nothing; the store answers. -/
  | spared
  /-- The call fails before it reaches the store. -/
  | failed (error : AutomationError)
  /-- The store finds nothing, where a call may find nothing. -/
  | overlooked
deriving DecidableEq

/-- What systems outside reply and what happens to the calls to the store of each name, in order. -/
structure Script where
  notifier : List (Outcome Unit) := []
  /-- An integration that returns nothing of its own replies as in a rehearsal. -/
  integrations : List (Outcome (Option Json)) := []
  enrichment : List (Outcome Unit) := []
  mishaps : List (String × Mishap) := []

/-- The store, the script as far as it has not been played, what was asked for, and the readings of
the clock. -/
structure Surroundings where
  store : Store := {}
  script : Script := {}
  intents : Intents := {}
  readings : Nat := 0

namespace Outcome

/-- An outcome with another value in the place of the one returned. -/
def map {α β : Type} (f : α → β) : Outcome α → Outcome β
  | returned a => returned (f a)
  | failed error => failed error
  | crashed text => crashed text

end Outcome

namespace StoreCall

/-- The name by which a script knows a call. -/
def name : StoreCall → String
  | listActiveRules _ => "list_active_rules"
  | getRule _ => "get_rule"
  | saveRule _ => "save_rule"
  | deleteRule _ => "delete_rule"
  | listActiveWorkflows _ => "list_active_workflows"
  | getWorkflow _ => "get_workflow"
  | saveWorkflow _ => "save_workflow"
  | getLead _ => "get_lead"
  | applyPatch _ _ => "apply_patch"
  | saveLead _ => "save_lead"
  | createExecution _ => "create_execution"
  | updateExecution _ => "update_execution"
  | getExecution _ => "get_execution"
  | listExecutions _ _ => "list_executions"
  | failStaleExecutions _ _ => "fail_stale_executions"

/-- What a call results in that finds nothing, where that can be. -/
def nothing? : (call : StoreCall) → Option call.Result
  | getRule _ => some none
  | getWorkflow _ => some none
  | getLead _ => some none
  | getExecution _ => some none
  | _ => none

end StoreCall

namespace Surroundings

variable (clock : Nat → Fresh)

/-- The surroundings after the clock was read. -/
def tick (s : Surroundings) : Surroundings := { s with readings := s.readings + 1 }

def askStore (call : StoreCall) (s : Surroundings) :
    Except AutomationError call.Result × Surroundings :=
  let (result, store) := s.store.answer (clock s.readings).now call
  (result, { s.tick with store })

def answerStore (call : StoreCall) (s : Surroundings) :
    Except AutomationError call.Result × Surroundings :=
  let named : String × Mishap → Bool := fun mishap => mishap.1 = call.name
  let rest : Surroundings := { s with script.mishaps := s.script.mishaps.eraseP named }
  match (s.script.mishaps.find? named).map Prod.snd, call.nothing? with
  | some (.failed error), _ => (.error error, rest)
  | some .overlooked, some result => (.ok result, rest)
  | _, _ => askStore clock call rest

def answerEffect (call : EffectCall) (s : Surroundings) : Outcome call.Result × Surroundings :=
  let s := { s with intents := s.intents.add call }
  match call with
  | .notify _ =>
    (s.script.notifier.headD (.returned ()), { s with script.notifier := s.script.notifier.tail })
  | .integrate call =>
    ((s.script.integrations.headD (.returned none)).map (·.getD call.rehearsedReply),
      { s with script.integrations := s.script.integrations.tail })
  | .enrich _ =>
    (s.script.enrichment.headD (.returned ()),
      { s with script.enrichment := s.script.enrichment.tail })

/-- How the surroundings answer a call, with `clock` giving the time and new identifiers at each
reading. -/
def answer (call : Call) (s : Surroundings) : call.Reply × Surroundings :=
  match call with
  | .store call => answerStore clock call s
  | .effect call => answerEffect call s
  | .stamp => (clock s.readings, s.tick)

end Surroundings

end LeadAutomation
