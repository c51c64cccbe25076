import LeadAutomation.Enrichment.Queue
import LeadAutomation.Http.Service
import LeadAutomation.Integration.Endpoint
import LeadAutomation.Proofs.Action.Attempts
import LeadAutomation.Proofs.Action.Carried
import LeadAutomation.Proofs.Action.Outcomes
import LeadAutomation.Proofs.Condition.Chains
import LeadAutomation.Proofs.Condition.Membership
import LeadAutomation.Proofs.Dispatch
import LeadAutomation.Proofs.Enrichment.Forwarding
import LeadAutomation.Proofs.Execution.Finality
import LeadAutomation.Proofs.Execution.History
import LeadAutomation.Proofs.Execution.Lifecycle
import LeadAutomation.Proofs.Execution.Storage
import LeadAutomation.Proofs.Execution.Sweeps
import LeadAutomation.Proofs.Faults
import LeadAutomation.Proofs.FirstFault
import LeadAutomation.Proofs.FrailHost
import LeadAutomation.Proofs.Http.Definitions
import LeadAutomation.Proofs.Http.Discretion
import LeadAutomation.Proofs.Http.Removals
import LeadAutomation.Proofs.LastWrites
import LeadAutomation.Proofs.Lead.Patches
import LeadAutomation.Proofs.Lead.Views
import LeadAutomation.Proofs.ListingOrder
import LeadAutomation.Proofs.LooseValues
import LeadAutomation.Proofs.Maintenance
import LeadAutomation.Proofs.Names
import LeadAutomation.Proofs.Notification.Sent
import LeadAutomation.Proofs.Registers
import LeadAutomation.Proofs.Rehearsals
import LeadAutomation.Proofs.RoundTrips
import LeadAutomation.Proofs.Rule.Clamping
import LeadAutomation.Proofs.Rule.Matching
import LeadAutomation.Proofs.Rule.Predicted
import LeadAutomation.Proofs.Rule.Retriggering
import LeadAutomation.Proofs.Rule.Validated
import LeadAutomation.Proofs.StoredScores
import LeadAutomation.Proofs.Template.Documents
import LeadAutomation.Proofs.Template.Rendering
import LeadAutomation.Proofs.Trials
import LeadAutomation.Proofs.Validation.Flaws
import LeadAutomation.Proofs.Workflow.Faults
import LeadAutomation.Proofs.Workflow.Feasible
import LeadAutomation.Proofs.Workflow.Numbering
import LeadAutomation.Proofs.Workflow.Readable
import LeadAutomation.Proofs.Workflow.Tolerance
import LeadAutomation.Proofs.Workflow.Writes
import LeadAutomation.Scripted
import LeadAutomation.Settings
