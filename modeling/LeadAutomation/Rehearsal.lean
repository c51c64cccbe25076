import LeadAutomation.Program

/-!
# Rehearsals

A rehearsed program reaches no system outside. Its notifications, integration calls and enrichment
requests are written down as intents and answered as if they had gone well; all its other calls are
made as they are.
-/

namespace LeadAutomation

/-- What would have been asked of the systems outside, in order. -/
structure Intents where
  notifications : List Notification := []
  integrations : List IntegrationCall := []
  enrichments : List EnrichmentRequest := []
deriving DecidableEq

namespace Intents

/-- The intents with one more. -/
def add (intents : Intents) : EffectCall → Intents
  | .notify notification =>
    { intents with notifications := intents.notifications ++ [notification] }
  | .integrate call => { intents with integrations := intents.integrations ++ [call] }
  | .enrich request => { intents with enrichments := intents.enrichments ++ [request] }

def toJson (intents : Intents) : Json := .obj [
  ("enrichments", .arr (intents.enrichments.map EnrichmentRequest.toJson)),
  ("integrations", .arr (intents.integrations.map IntegrationCall.toJson)),
  ("notifications", .arr (intents.notifications.map Notification.toJson))]

end Intents

/-- The reply of a rehearsal to a call. -/
def EffectCall.rehearsedReply : (call : EffectCall) → call.Result
  | .notify _ => ()
  | .integrate call => call.rehearsedReply
  | .enrich _ => ()

namespace Program

variable {α : Type}

/-- A program with its calls to systems outside added to some intents instead of made. -/
def rehearseFrom (intents : Intents) : Program α → Program (α × Intents)
  | .done (.returned a) => pure (a, intents)
  | .done (.failed error) => fail error
  | .done (.crashed text) => .done (.crashed text)
  | .ask (.effect call) next =>
    rehearseFrom (intents.add call) (next (.returned call.rehearsedReply))
  | .ask (.store call) next => .ask (.store call) fun reply => rehearseFrom intents (next reply)
  | .ask .stamp next => .ask .stamp fun fresh => rehearseFrom intents (next fresh)

/-- A program with its calls to systems outside written down instead of made. -/
def rehearse (p : Program α) : Program (α × Intents) := p.rehearseFrom {}

end Program

end LeadAutomation
