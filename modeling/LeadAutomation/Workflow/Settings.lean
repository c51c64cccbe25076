import LeadAutomation.Action.Basic
import LeadAutomation.Condition
import LeadAutomation.Notification
import LeadAutomation.Workflow.Basic

/-!
# Step settings

The configuration of a step is free-form JSON in a workflow; `Step.settings` reads it according to
the kind of the step when the step is carried out. `Step.parseConfig` is for those who only ask
whether that will be possible, before anything runs.
-/

namespace LeadAutomation

inductive StepSettings where
  | action (action : Action)
  | condition (conditions : List Condition)
  | delay (minutes : Binary64)
  | notification (message : String) (subject : Option String) (recipients : List String)
  | integration (integration action : String) (data : Json)

namespace StepSettings

def chainFields : Fields (List Condition) := .required "conditions" (Decoder.list Condition.decode)

/-- Reads a chain of conditions, which has to stand in an object. -/
def decodeChain? : Json → Option (List Condition)
  | .obj members => (chainFields.decode "ConditionStepConfig" (Json.obj members)).toOption
  | _ => none

/-- Reads the conditions of a step: a chain under `conditions`, or else a single condition. -/
def decodeConditions (config : Json) : Except DecodeError (List Condition) :=
  match decodeChain? config, Condition.decode config with
  | some chain, _ => .ok chain
  | none, .ok single => .ok [single]
  | none, .error _ => .error (.noForm "ConditionStepConfig")

def delayFields : Fields Binary64 := .defaulted "duration" Decoder.double .zero

def notificationFields : Fields (String × Option String) :=
  Prod.mk <$> .required "message" Decoder.text <*> .spare "subject" Decoder.text

/-- The recipients that the configuration of a step names. -/
def recipients (config : Json) : List String :=
  (config.members?.map Notification.recipientsOf).getD []

def integrationFields : Fields StepSettings :=
  StepSettings.integration <$> .required "integration_id" Decoder.text ["integrationId"]
    <*> .required "action" Decoder.text
    <*> .defaulted "data" Decoder.value .null

/-- Reads the settings of a step of some kind. -/
def decode (kind : StepKind) (config : Json) : Except DecodeError StepSettings :=
  match kind with
  | .action => .action <$> Action.decode config
  | .condition => .condition <$> decodeConditions config
  | .delay => .delay <$> delayFields.decode "DelayConfig" config
  | .notification =>
    (fun (message, subject) => .notification message subject (recipients config)) <$>
      notificationFields.decode "NotificationStepConfig" config
  | .integration => integrationFields.decode "IntegrationStepConfig" config

/-- Reads the configuration of a step of some kind without keeping what it says. -/
def check (kind : StepKind) (config : Json) : Except DecodeError Unit :=
  match kind with
  | .action => discard (Action.decode config)
  | .condition => discard (decodeConditions config)
  | .delay => discard (delayFields.decode "DelayConfig" config)
  | .notification => discard (notificationFields.decode "NotificationStepConfig" config)
  | .integration => discard (integrationFields.decode "IntegrationStepConfig" config)

end StepSettings

inductive StepFault where
  | unsupported (kind : String)
  | invalidConfig (kind : StepKind) (error : DecodeError)
deriving DecidableEq

def StepFault.message : StepFault → String
  | .unsupported kind => "unsupported step type '" ++ kind ++ "'"
  | .invalidConfig kind error => "invalid " ++ Named.name kind ++ " config: " ++ error.message

def Step.settings (step : Step) : Except StepFault StepSettings :=
  match step.kind with
  | .known kind => (StepSettings.decode kind step.config).mapError (StepFault.invalidConfig kind)
  | .other kind _ => .error (.unsupported kind)

/-- Whether the configuration of a step can be read; if not, the error says why. -/
def Step.parseConfig (step : Step) : Except String Unit :=
  match step.kind with
  | .known kind =>
    (StepSettings.check kind step.config).mapError fun error =>
      "invalid " ++ step.kind.text ++ " config: " ++ error.message
  | .other text _ => .error ("unsupported step type '" ++ text ++ "'")

end LeadAutomation
