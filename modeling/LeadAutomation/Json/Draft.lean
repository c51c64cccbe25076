import LeadAutomation.Json.Basic

/-!
# JSON text as far as it can be read

A reader that goes through a text from its start may find a value unfit before it comes to the place
where the text stops being JSON, or the other way round. A `Draft` keeps both kinds of findings in
the order of the text: it is the value that the text spells out up to the place where it breaks off,
together with the places where well-formed text denotes nothing.

Every value is a draft (`ofJson`), and `value?` gives back the value of a draft without such places
(`value?_ofJson`).
-/

namespace LeadAutomation.Json

/-- What a text spells out. The members of an object stand as written; a key that is no text is left
open. -/
inductive Draft where
  | null
  | bool (b : Bool)
  | num (n : Number)
  | str (s : String)
  | arr (items : List Draft)
  | obj (members : List (Option String × Draft))
  /-- Well-formed text without a value: a number past the finite range, a string with half a
  surrogate pair or containers nested too deep. -/
  | valueless
  /-- The text stops being JSON. Nothing follows in the draft, and the containers around it stay
  open. -/
  | broken

namespace Draft

instance : Inhabited Draft := ⟨.broken⟩

mutual

def ofJson : Json → Draft
  | .null => .null
  | .bool b => .bool b
  | .num n => .num n
  | .str s => .str s
  | .arr items => .arr (ofItems items)
  | .obj members => .obj (ofMembers members)

def ofItems : List Json → List Draft
  | [] => []
  | item :: rest => ofJson item :: ofItems rest

def ofMembers : Members → List (Option String × Draft)
  | [] => []
  | (key, value) :: rest => (some key, ofJson value) :: ofMembers rest

end

instance : Coe Json Draft := ⟨ofJson⟩

mutual

/-- The value of a draft, if every part of it has one. -/
def value? : Draft → Option Json
  | .null => some .null
  | .bool b => some (.bool b)
  | .num n => some (.num n)
  | .str s => some (.str s)
  | .arr items => (itemValues? items).map .arr
  | .obj members => (memberValues? members).map .obj
  | .valueless => none
  | .broken => none

def itemValues? : List Draft → Option (List Json)
  | [] => some []
  | item :: rest =>
    match value? item, itemValues? rest with
    | some item, some rest => some (item :: rest)
    | _, _ => none

def memberValues? : List (Option String × Draft) → Option Members
  | [] => some []
  | (key, value) :: rest =>
    match key, value? value, memberValues? rest with
    | some key, some value, some rest => some ((key, value) :: rest)
    | _, _, _ => none

end

mutual

/-- Whether the text of a draft is JSON to its end. -/
def isWhole : Draft → Bool
  | .arr items => itemsWhole items
  | .obj members => membersWhole members
  | .null => true
  | .bool _ => true
  | .num _ => true
  | .str _ => true
  | .valueless => true
  | .broken => false

def itemsWhole : List Draft → Bool
  | [] => true
  | item :: rest => isWhole item && itemsWhole rest

def membersWhole : List (Option String × Draft) → Bool
  | [] => true
  | (_, value) :: rest => isWhole value && membersWhole rest

end

mutual

theorem value?_ofJson : (json : Json) → (ofJson json).value? = some json
  | .null => rfl
  | .bool _ => rfl
  | .num _ => rfl
  | .str _ => rfl
  | .arr items => by simp [ofJson, value?, itemValues?_ofItems items]
  | .obj members => by simp [ofJson, value?, memberValues?_ofMembers members]

theorem itemValues?_ofItems : (items : List Json) → itemValues? (ofItems items) = some items
  | [] => rfl
  | item :: rest => by simp [ofItems, itemValues?, value?_ofJson item, itemValues?_ofItems rest]

theorem memberValues?_ofMembers :
    (members : Members) → memberValues? (ofMembers members) = some members
  | [] => rfl
  | (key, value) :: rest => by
    simp [ofMembers, memberValues?, value?_ofJson value, memberValues?_ofMembers rest]

end

mutual

theorem isWhole_ofJson : (json : Json) → (ofJson json).isWhole = true
  | .null => rfl
  | .bool _ => rfl
  | .num _ => rfl
  | .str _ => rfl
  | .arr items => by simp [ofJson, isWhole, itemsWhole_ofItems items]
  | .obj members => by simp [ofJson, isWhole, membersWhole_ofMembers members]

theorem itemsWhole_ofItems : (items : List Json) → itemsWhole (ofItems items) = true
  | [] => rfl
  | item :: rest => by simp [ofItems, itemsWhole, isWhole_ofJson item, itemsWhole_ofItems rest]

theorem membersWhole_ofMembers : (members : Members) → membersWhole (ofMembers members) = true
  | [] => rfl
  | (_, value) :: rest => by
    simp [ofMembers, membersWhole, isWhole_ofJson value, membersWhole_ofMembers rest]

end

end Draft

end LeadAutomation.Json
