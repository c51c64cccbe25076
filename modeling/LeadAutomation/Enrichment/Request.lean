import LeadAutomation.Json.Decode

/-!
# Enrichment requests

A request asks a provider to find out more about a lead.
-/

namespace LeadAutomation

structure EnrichmentRequest where
  leadId : Uuid
  provider : String
  metadata : Json.Members
deriving DecidableEq

namespace EnrichmentRequest

def fields : Fields EnrichmentRequest :=
  EnrichmentRequest.mk <$> .required "lead_id" Decoder.uuid
    <*> .required "provider" Decoder.text
    <*> .defaulted "metadata" Decoder.members []

def decode : Decoder EnrichmentRequest := fields.decode "EnrichmentRequest"

def toJson (request : EnrichmentRequest) : Json := .obj [
  ("lead_id", request.leadId.toJson),
  ("metadata", .obj request.metadata),
  ("provider", .str request.provider)]

/-- What is reported of a request that was accepted. -/
def receipt (request : EnrichmentRequest) : Json := .obj [
  ("provider", .str request.provider),
  ("queued", .bool true)]

end EnrichmentRequest

end LeadAutomation
