import LeadAutomation.Condition
import LeadAutomation.Lead.Basic

/-!
# What conditions and templates can see

Names are resolved against a lead, if there is one, and then against the payload of what happened.
Attributes of the lead come first; a name under which the lead has nothing is looked up in the
payload, as it is or as a path of keys with dots between.
-/

namespace LeadAutomation

/-- A lead, if there is one, and the payload behind it. -/
structure RecordView where
  lead : Option Lead
  payload : Json

namespace RecordView

/-- The value of a name in a payload. -/
def payloadValue? (payload : Json) (name : String) : Option FieldValue :=
  (payload.path? name).bind FieldValue.ofJson?

/-- The value of a name among the attributes of the lead. -/
def attribute? (view : RecordView) (name : String) : Option FieldValue :=
  view.lead.bind (·.attribute? name)

def lookup (view : RecordView) (name : String) : Option FieldValue :=
  (view.attribute? name).or (payloadValue? view.payload name)

/-- The text that a payload value has where a name is replaced by it; `null` has none. -/
def jsonText? : Json → Option String
  | .null => none
  | .str s => some s
  | json => some json.text

def text? (view : RecordView) (name : String) : Option String :=
  ((view.attribute? name).map FieldValue.display).or ((view.payload.path? name).bind jsonText?)

end RecordView

end LeadAutomation
