import LeadAutomation.Action.Plan
import LeadAutomation.Program

/-!
# Carrying out actions

Actions are carried out one after another, and each sees what those before it wrote to the lead. One
that fails does not keep the others from being carried out. The writes are merged into one patch for
the caller to store.
-/

namespace LeadAutomation

structure ActionOutcome where
  kind : Word ActionKind
  target : String
  success : Bool
  /-- What was written or sent. -/
  value : Option Json := none
  /-- How that differs from what was asked for. -/
  note : Option String := none
  error : Option String := none
  durationMs : Int64 := 0
deriving DecidableEq

namespace ActionOutcome

def ofSuccess (action : Action) (value : Json) (note : Option String) : ActionOutcome :=
  { kind := action.kind, target := action.target, success := true, value := some value, note }

def ofFailure (action : Action) (error : String) : ActionOutcome :=
  { kind := action.kind, target := action.target, success := false, error := some error }

def toJson (outcome : ActionOutcome) : Json := .obj
  ([("action_type", .str outcome.kind.text), ("duration_ms", .int outcome.durationMs.toInt)] ++
    Json.optional "error" .str outcome.error ++
    Json.optional "note" .str outcome.note ++
    [("success", .bool outcome.success), ("target", .str outcome.target)] ++
    Json.optional "value" id outcome.value)

end ActionOutcome

structure AppliedActions where
  outcomes : List ActionOutcome
  /-- The merged writes. -/
  patch : LeadPatch
deriving DecidableEq

namespace AppliedActions

def empty : AppliedActions := ⟨[], .empty⟩

def allSucceeded (applied : AppliedActions) : Bool := applied.outcomes.all (·.success)

def firstError? (applied : AppliedActions) : Option String := applied.outcomes.findSome? (·.error)

end AppliedActions

namespace ActionPlan

def patch : ActionPlan → LeadPatch
  | .write planned => planned.patch
  | .notify _ | .enrich _ | .fault _ => .empty

/-- Carries out a plan as far as the systems outside are concerned. -/
def carryOut (action : Action) : ActionPlan → Program ActionOutcome
  | .write planned => pure (.ofSuccess action planned.value planned.note)
  | .notify notification => do
    match ← (Program.effect (.notify notification)).caught with
    | .ok () => pure (.ofSuccess action notification.receipt none)
    | .error error => pure (.ofFailure action error.message)
  | .enrich request => do
    match ← (Program.effect (.enrich request)).caught with
    | .ok () => pure (.ofSuccess action request.receipt none)
    | .error error => pure (.ofFailure action error.message)
  | .fault reason => pure (.ofFailure action reason.message)

end ActionPlan

/-- Carries out actions on a lead, if there is one, and gives the lead as they leave it. -/
def applyActions (now : Timestamp) (defaults : List String) (payload : Json) :
    List Action → Option Lead → Program (AppliedActions × Option Lead)
  | [], lead => pure (.empty, lead)
  | action :: rest, lead => do
    let plan := action.plan ⟨lead, payload⟩ defaults
    let outcome ← plan.carryOut action
    let (later, final) ← applyActions now defaults payload rest (lead.map (plan.patch.applyTo now))
    pure (⟨outcome :: later.outcomes, plan.patch.merge later.patch⟩, final)

end LeadAutomation
