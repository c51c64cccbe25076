import LeadAutomation.Json.Draft
import LeadAutomation.Json.Printer
import LeadAutomation.Text.Escaped
import LeadAutomation.Vocabulary
import LeadAutomation.Fresh

/-!
# Reading records from JSON

Records are decoded strictly as to shape and leniently as to form: a record may be an object, whose
members that it does not know are ignored, or an array of its fields in the order in which they are
declared. A field may go by several names, but may be given once only.

What is decoded is a draft, so that text can be decoded as far as it is JSON; of a value every part
can be read. `Fields` describes how the fields of a record are read; records are put together from
single fields with `<$>` and `<*>`. What is wrong with a value is a `DecodeError`. Of several faults
the one is reported that a reader going through the draft from its start meets first: an array or an
object of the wrong kind is refused at its opening bracket, a field given again at its name, and a
missing field is noticed at the end.
-/

namespace LeadAutomation

/-- The kind of a value, with its content where it has a short one. -/
inductive Given where
  | null
  | bool (b : Bool)
  | int (n : Int)
  | float (x : Binary64)
  | text (s : String)
  | sequence
  | map
deriving DecidableEq

/-- What makes a value unfit for a type. -/
inductive DecodeError where
  /-- The text that should give the value is not JSON, or has no value. -/
  | unreadable
  /-- The value is of another kind than expected. -/
  | mismatch (given : Given) (expected : String)
  /-- The integer is too large or too small for the expected width. -/
  | outOfRange (given : Int) (expected : String)
  /-- What should name an alternative is neither a text nor an object. -/
  | noName (given : Given)
  /-- An object that should hold the name of an alternative holds nothing, or goes on after the
  name. -/
  | notSingle
  /-- An object that should hold the name of an alternative goes on after a member that is none. -/
  | notSingleAfter (first : DecodeError)
  | missing (field : String)
  | duplicate (field : String)
  | unknownVariant (given : String) (names : List String)
  /-- An array is too short for a record. -/
  | tooShort (length : Nat) (record : String) (fields : Nat)
  /-- An array goes on after the last field of a record. -/
  | tooLong (length : Nat)
  /-- None of the forms that the type may take fits. -/
  | noForm (type : String)
  /-- The text of an identifier or a point in time does not follow its grammar. -/
  | malformed (text : String) (expected : String)
deriving DecidableEq

/-- The kind of the value that a draft begins, if it begins one. -/
def Json.Draft.given? : Json.Draft → Option Given
  | .null => some .null
  | .bool b => some (.bool b)
  | .num (.int n) => some (.int n)
  | .num (.float x) => some (.float x)
  | .str s => some (.text s)
  | .arr _ => some .sequence
  | .obj _ => some .map
  | .valueless => none
  | .broken => none

namespace DecodeError

def ticked (s : String) : String := "`" ++ s ++ "`"

/-- What kind of value is given. -/
def givenText : Given → String
  | .null => "null"
  | .bool b => "boolean " ++ ticked (if b then "true" else "false")
  | .int n => "integer " ++ ticked (toString n)
  | .float x => "floating point " ++ ticked (x.text jsonNumber)
  | .text s => "string " ++ Text.escaped s
  | .sequence => "sequence"
  | .map => "map"

/-- The alternatives of a vocabulary. -/
def oneOf : List String → String
  | [a, b] => ticked a ++ " or " ++ ticked b
  | names => "one of " ++ Text.join ", " (names.map ticked)

/-- The message that a client is shown. -/
def message : DecodeError → String
  | unreadable => "not JSON"
  | mismatch given expected => "invalid type: " ++ givenText given ++ ", expected " ++ expected
  | outOfRange given expected =>
    "invalid value: integer " ++ ticked (toString given) ++ ", expected " ++ expected
  | noName given => "invalid type: " ++ givenText given ++ ", expected string or map"
  | notSingle | notSingleAfter _ => "invalid value: map, expected map with a single key"
  | missing field => "missing field " ++ ticked field
  | duplicate field => "duplicate field " ++ ticked field
  | unknownVariant given names => "unknown variant " ++ ticked given ++ ", expected " ++ oneOf names
  | tooShort length record fields =>
    "invalid length " ++ toString length ++ ", expected struct " ++ record ++ " with " ++
      toString fields ++
      (if fields = 1 then " element" else " elements")
  | tooLong length => "invalid length " ++ toString length ++ ", expected fewer elements in array"
  | noForm type => "data did not match any variant of untagged enum " ++ type
  | malformed text expected =>
    "invalid value: string " ++ Text.escaped text ++ ", expected " ++ expected

end DecodeError

abbrev Decoder (α : Type) := Json.Draft → Except DecodeError α

namespace Decoder

/-- Refuses a draft, either for its kind or because it cannot be read. -/
def mismatch {α : Type} (draft : Json.Draft) (expected : String) : Except DecodeError α :=
  match draft.given? with
  | some given => .error (.mismatch given expected)
  | none => .error .unreadable

def whole {α : Type} (read : Json → Except DecodeError α) : Decoder α := fun draft =>
  match draft.value? with
  | some json => read json
  | none => .error .unreadable

def text : Decoder String
  | .str s => .ok s
  | draft => mismatch draft "a string"

def bool : Decoder Bool
  | .bool b => .ok b
  | draft => mismatch draft "a boolean"

/-- An integer from `low` to `high`; `expected` names the width. -/
def intWithin (expected : String) (low high : Int) : Decoder Int
  | .num (.int n) => if low ≤ n ∧ n ≤ high then .ok n else .error (.outOfRange n expected)
  | draft => mismatch draft expected

def int32 (draft : Json.Draft) : Except DecodeError Int32 :=
  (Int32.ofInt ·) <$> intWithin "i32" Int32.minValue.toInt Int32.maxValue.toInt draft

def int64 (draft : Json.Draft) : Except DecodeError Int64 :=
  (Int64.ofInt ·) <$> intWithin "i64" Int64.minValue.toInt Int64.maxValue.toInt draft

def uint32 (draft : Json.Draft) : Except DecodeError UInt32 :=
  (UInt32.ofNat ·.toNat) <$> intWithin "u32" 0 (UInt32.size - 1) draft

def uint16 (draft : Json.Draft) : Except DecodeError UInt16 :=
  (UInt16.ofNat ·.toNat) <$> intWithin "u16" 0 (UInt16.size - 1) draft

/-- Any number, as a double. -/
def double : Decoder Binary64
  | .num n => .ok n.toBinary64
  | draft => mismatch draft "f64"

/-- Any value, brought into canonical form. -/
def value : Decoder Json := whole fun json => .ok json.canonical

/-- The members of an object, brought into canonical form. -/
def members : Decoder Json.Members
  | .obj members =>
    match Json.Draft.memberValues? members with
    | some members => .ok (Json.sortMembers (Json.canonicalMembers members))
    | none => .error .unreadable
  | draft => mismatch draft "a map"

/-- The items of an array, each read by `item`. -/
def list {α : Type} (item : Decoder α) : Decoder (List α)
  | .arr items => items.mapM item
  | draft => mismatch draft "a sequence"

/-- A value that may be `null`. -/
def nullable {α : Type} (decode : Decoder α) : Decoder (Option α)
  | .null => .ok none
  | draft => some <$> decode draft

def uuid : Decoder Uuid
  | .str s => match Uuid.ofText? s with
    | some id => .ok id
    | none => .error (.malformed s "a formatted UUID string")
  | draft => mismatch draft "a formatted UUID string"

def timestamp : Decoder Timestamp
  | .str s => match Timestamp.ofText? s with
    | some t => .ok t
    | none => .error (.malformed s "an RFC 3339 formatted date and time string")
  | draft => mismatch draft "an RFC 3339 formatted date and time string"

/-- A member of a vocabulary by its exact name. -/
def name {α : Type} [Named α] (given : String) : Except DecodeError α :=
  match Named.ofName? given with
  | some a => .ok a
  | none => .error (.unknownVariant given (Named.names α))

/-- The alternative that a member of an object stands for; the member has nothing but `null` under
its name. -/
def alternative {α : Type} [Named α] : Option String × Json.Draft → Except DecodeError α
  | (none, _) => .error .unreadable
  | (some key, content) => do
    let a ← name key
    match content with
    | .null => .ok a
    | draft => mismatch draft "unit"

/-- A member of a vocabulary: its name, or an object that holds `null` under the name. -/
def named {α : Type} [Named α] : Decoder α
  | .str s => name s
  | .obj [] => .error .notSingle
  | .obj [member] => alternative member
  | .obj (member :: _) =>
    match (alternative member : Except DecodeError α) with
    | .ok _ => .error .notSingle
    | .error first => .error (.notSingleAfter first)
  | draft =>
    match draft.given? with
    | some given => .error (.noName given)
    | none => .error .unreadable

/-- A word of a vocabulary that is read leniently. -/
def word {α : Type} [Named α] (draft : Json.Draft) : Except DecodeError (Word α) :=
  Word.ofText <$> text draft

end Decoder

/-- What is wrong with a record, and how far into it a reader notices. -/
structure Fault where
  position : Nat
  error : DecodeError

/-- Whichever of two faults is noticed first. -/
def Fault.first (f g : Fault) : Fault := if g.position < f.position then g else f

/-- What a record is read from: the members of an object or the items of an array. -/
inductive RecordSource where
  | members (members : List (Option String × Json.Draft))
  | items (items : List Json.Draft)

/-- The name of a record and the number of its fields. -/
structure RecordShape where
  name : String
  fields : Nat

/-- How some fields of a record are read, given the number of fields declared before them. -/
structure Fields (α : Type) where
  /-- The names of each field. -/
  names : List (List String)
  read : RecordShape → RecordSource → Nat → Except Fault α

namespace Fields

/-- How many fields these are. -/
def count {α : Type} (fields : Fields α) : Nat := fields.names.length

/-- Both results, or the fault that is noticed first. -/
def both {α β : Type} (f : Except Fault (α → β)) (x : Except Fault α) : Except Fault β :=
  match f, x with
  | .ok f, .ok a => .ok (f a)
  | .ok _, .error fault => .error fault
  | .error fault, .ok _ => .error fault
  | .error fault, .error other => .error (fault.first other)

instance : Applicative Fields where
  pure a := ⟨[], fun _ _ _ => .ok a⟩
  seq f x := ⟨f.names ++ (x ()).names, fun shape source declared =>
    both (f.read shape source declared) ((x ()).read shape source (declared + f.count))⟩

/-- A fault at a position, if a draft does not fit. -/
def valueAt {α : Type} (decode : Decoder α) (position : Nat) (draft : Json.Draft) :
    Except Fault α :=
  (decode draft).mapError (Fault.mk position)

/-- Whether a key is one of some names. -/
def isNamed (names : List String) (key : Option String) : Bool := key.any names.contains

/-- The members that answer to any of some names, with their positions. -/
def matching (names : List String) (members : List (Option String × Json.Draft)) :
    List (Json.Draft × Nat) :=
  (members.zipIdx.filter fun (member, _) => isNamed names member.1).map fun (member, position) =>
    (member.2, position)

/-- Whether a member that belongs to no field stops a reader: its key is no text, or its text is not
JSON. -/
def stops (names : List String) (member : Option String × Json.Draft) : Bool :=
  !isNamed names member.1 && !(member.1.isSome && member.2.isWhole)

/-- A fault at the first member that belongs to no field and stops a reader. -/
def passOthers (names : List String) (members : List (Option String × Json.Draft)) :
    Except Fault Unit :=
  match members.findIdx? (stops names) with
  | some position => .error ⟨position, .unreadable⟩
  | none => .ok ()

/-- One field. In an object it is read from the member with its name or another of its names; a
second such member is a fault. `absent` is its value where it is missing from an object, `omitted`
where an array ends before it. -/
def field {α : Type} (name : String) (aliases : List String) (decode : Decoder α)
    (absent omitted : Option α) :
    Fields α where
  names := [name :: aliases]
  read shape source declared :=
    match source with
    | .members members =>
      match matching (name :: aliases) members with
      | [] => match absent with
        | some a => .ok a
        | none => .error ⟨members.length + declared, .missing name⟩
      | [(draft, position)] => valueAt decode position draft
      | (draft, position) :: (_, again) :: _ =>
        match valueAt decode position draft with
        | .ok _ => .error ⟨again, .duplicate name⟩
        | .error fault => .error fault
    | .items items =>
      match items[declared]? with
      | some draft => valueAt decode declared draft
      | none => match omitted with
        | some a => .ok a
        | none => .error ⟨declared, .tooShort declared shape.name shape.fields⟩

/-- A field that has to be there. -/
def required {α : Type} (name : String) (decode : Decoder α) (aliases : List String := []) :
    Fields α :=
  field name aliases decode none none

/-- A field that may be `null`, and in an object may be missing. -/
def optional {α : Type} (name : String) (decode : Decoder α) (aliases : List String := []) :
    Fields (Option α) :=
  field name aliases (Decoder.nullable decode) (some none) none

/-- A field with a value for where it is missing. -/
def defaulted {α : Type} (name : String) (decode : Decoder α) (absent : α)
    (aliases : List String := []) : Fields α :=
  field name aliases decode (some absent) (some absent)

/-- A field that may be `null` or missing in either form. -/
def spare {α : Type} (name : String) (decode : Decoder α) (aliases : List String := []) :
    Fields (Option α) :=
  defaulted name (Decoder.nullable decode) none aliases

def decode {α : Type} (fields : Fields α) (name : String) : Decoder α
  | .obj members =>
    (both ((fun _ a => a) <$> passOthers fields.names.flatten members)
      (fields.read ⟨name, fields.count⟩ (.members members) 0)).mapError Fault.error
  | .arr items =>
    match fields.read ⟨name, fields.count⟩ (.items items) 0 with
    | .ok a => if fields.count < items.length then .error (.tooLong items.length) else .ok a
    | .error fault => .error fault.error
  | draft => Decoder.mismatch draft ("struct " ++ name)

end Fields

def Uuid.toJson (id : Uuid) : Json := .str id.text

def Timestamp.toJson (t : Timestamp) : Json := .str t.text

end LeadAutomation
