import LeadAutomation.Uuid
import LeadAutomation.Timestamp

/-!
# Fresh values

Records that are made rather than read take their identifiers and their time of making from outside.
A `Fresh` is one such supply: the current time and as many new identifiers as a record may need.
-/

namespace LeadAutomation

/-- The current time and a supply of new identifiers. -/
structure Fresh where
  now : Timestamp
  id : Nat → Uuid

end LeadAutomation
