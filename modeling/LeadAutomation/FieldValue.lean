import LeadAutomation.Json.Decode

/-!
# Loosely typed values

The values that conditions compare and actions write: truth values, numbers, texts and lists of
these. They have no declared type; what a value means is up to the operator that uses it.

A JSON value becomes a loose value in one of two ways. `decode` is strict and refuses `null` and
objects wherever they stand; `ofJson?` serves data that comes from outside and leaves such items out
of lists.
-/

namespace LeadAutomation

inductive FieldValue where
  | bool (b : Bool)
  | number (x : Binary64)
  | text (s : String)
  | list (items : List FieldValue)

namespace FieldValue

instance : Inhabited FieldValue := ⟨.text ""⟩

/-- The number that a value can be taken for: a number itself, or a text that is a numeral between
blanks. -/
def number? : FieldValue → Option Binary64
  | .number x => some x
  | .text s => Binary64.ofText? (Text.trim s)
  | .bool _ | .list _ => none

def text? : FieldValue → Option String
  | .text s => some s
  | .bool _ | .number _ | .list _ => none

def items? : FieldValue → Option (List FieldValue)
  | .list items => some items
  | .bool _ | .number _ | .text _ => none

mutual

/-- Equality between values of one kind; values of different kinds are never equal. -/
def equal : FieldValue → FieldValue → Bool
  | .bool a, .bool b => a == b
  | .number x, .number y => x.numEq y
  | .text s, .text t => s == t
  | .list xs, .list ys => equalItems xs ys
  | .bool _, .number _ | .bool _, .text _ | .bool _, .list _ => false
  | .number _, .bool _ | .number _, .text _ | .number _, .list _ => false
  | .text _, .bool _ | .text _, .number _ | .text _, .list _ => false
  | .list _, .bool _ | .list _, .number _ | .list _, .text _ => false

def equalItems : List FieldValue → List FieldValue → Bool
  | [], [] => true
  | x :: xs, y :: ys => equal x y && equalItems xs ys
  | [], _ :: _ => false
  | _ :: _, [] => false

end

/-- A number as messages show it: a whole number below `10 ^ 15` without a sign on zero, others in
plain digits. -/
def numberText (x : Binary64) : String :=
  if x.isWhole && x.wholePart < 1000000000000000 then toString x.truncate else x.text plainNumber

mutual

/-- A value as messages show it; the items of a list with commas between. -/
def display : FieldValue → String
  | .bool b => if b then "true" else "false"
  | .number x => numberText x
  | .text s => s
  | .list items => Text.join "," (displayItems items)

def displayItems : List FieldValue → List String
  | [] => []
  | item :: rest => display item :: displayItems rest

end

mutual

/-- The value of a JSON value. `null` and objects have none and are left out of lists. -/
def ofJson? : Json → Option FieldValue
  | .bool b => some (.bool b)
  | .num n => some (.number n.toBinary64)
  | .str s => some (.text s)
  | .arr items => some (.list (ofJsonItems items))
  | .null => none
  | .obj _ => none

def ofJsonItems : List Json → List FieldValue
  | [] => []
  | json :: rest =>
    match ofJson? json with
    | some item => item :: ofJsonItems rest
    | none => ofJsonItems rest

end

mutual

def toJson : FieldValue → Json
  | .bool b => .bool b
  | .number x => .float x
  | .text s => .str s
  | .list items => .arr (toJsonItems items)

def toJsonItems : List FieldValue → List Json
  | [] => []
  | item :: rest => toJson item :: toJsonItems rest

end

mutual

/-- The value of a JSON value in which no `null` and no object stands outside another object. -/
def strict? : Json → Option FieldValue
  | .bool b => some (.bool b)
  | .num n => some (.number n.toBinary64)
  | .str s => some (.text s)
  | .arr items => (strictItems? items).map .list
  | .null => none
  | .obj _ => none

def strictItems? : List Json → Option (List FieldValue)
  | [] => some []
  | json :: rest =>
    match strict? json, strictItems? rest with
    | some item, some items => some (item :: items)
    | _, _ => none

end

/-- Reads a value and refuses what `strict?` refuses. -/
def decode : Decoder FieldValue := Decoder.whole fun json =>
  match strict? json with
  | some v => .ok v
  | none => .error (.noForm "FieldValue")

end FieldValue

end LeadAutomation
