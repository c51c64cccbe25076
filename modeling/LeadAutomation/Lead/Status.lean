import LeadAutomation.Vocabulary

/-!
# The status of a lead

Where a lead stands between first contact and sale. People write statuses in any case, so `ofText?`
is lenient; stored records use the capital names.
-/

namespace LeadAutomation

inductive LeadStatus where
  | raw
  | enriched
  | contacted
  | qualified
  | nurturing
  | converted
  | disqualified
  | lost
deriving DecidableEq, Repr

namespace LeadStatus

instance : Inhabited LeadStatus := ⟨.raw⟩

instance : Named LeadStatus where
  all := [.raw, .enriched, .contacted, .qualified, .nurturing, .converted, .disqualified, .lost]
  name
    | .raw => "RAW"
    | .enriched => "ENRICHED"
    | .contacted => "CONTACTED"
    | .qualified => "QUALIFIED"
    | .nurturing => "NURTURING"
    | .converted => "CONVERTED"
    | .disqualified => "DISQUALIFIED"
    | .lost => "LOST"
  find_name a := by cases a <;> rfl

def name (status : LeadStatus) : String := Named.name status

/-- The status that a text names, in any case and with any blanks around it. -/
def ofText? (text : String) : Option LeadStatus :=
  Named.all.find? fun status =>
    Text.lowerAscii (Named.name status) == Text.lowerAscii (Text.trim text)

def invalidMessage (text : String) : String := "'" ++ text ++ "' is not a valid lead status"

end LeadStatus

end LeadAutomation
