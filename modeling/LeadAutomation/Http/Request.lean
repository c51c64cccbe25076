import LeadAutomation.Http.MediaType
import LeadAutomation.Http.Target
import LeadAutomation.Json.Decode
import LeadAutomation.Json.Parser

/-!
# Requests

What a client sends: a method, a target, and perhaps a body with its type. `ofText?` says what can
be sent at all; of what has been sent, reading a part either gives a value or rejects the request
with a status.
-/

namespace LeadAutomation.Http

structure Request where
  method : String
  target : Target
  contentType : Option String
  body : String
deriving DecidableEq, Repr

/-- Why a part of a request could not be read. -/
inductive Rejection where
  /-- The path, the query or the body does not follow its grammar. -/
  | malformed
  /-- The body is not of a JSON type. -/
  | notJson
  /-- The body is JSON of the wrong shape. -/
  | misfit
deriving DecidableEq, Repr

def Rejection.status : Rejection → Nat
  | .malformed => 400
  | .notJson => 415
  | .misfit => 422

/-! ### Percent encoding -/

/-- The bytes of a text in which bytes may be given by a percent sign and two hexadecimal digits. -/
def percentBytes : List Char → List UInt8
  | [] => []
  | '%' :: a :: b :: rest =>
    match Json.hexValue? a, Json.hexValue? b with
    | some high, some low => .ofNat (16 * high + low) :: percentBytes rest
    | _, _ => 37 :: percentBytes (a :: b :: rest)
  | c :: rest => c.toString.toUTF8.toList ++ percentBytes rest

/-- The text that percent encoding stands for, if its bytes are one. -/
def percentDecode? (cs : List Char) : Option String := String.fromUTF8? ⟨(percentBytes cs).toArray⟩

namespace Request

def isMethod (s : String) : Bool := s ≠ "" && s.toList.all MediaType.isToken

/-- Whether text can be sent as a header: it has no control characters but tabs. -/
def isHeader (s : String) : Bool :=
  s.toList.all fun c => c = '\t' || (32 ≤ c.toNat && c.toNat ≠ 127)

/-- A request from its parts as text, if it can be sent. -/
def ofText? (method target : String) (contentType : Option String) (body : String) :
    Option Request :=
  if isMethod method && contentType.all isHeader then
    (Target.ofText? target).map fun target => ⟨method, target, contentType, body⟩
  else none

/-- A part of a form: plus signs are blanks, and the rest is percent encoded. -/
def formText? (cs : List Char) : Option String :=
  percentDecode? (cs.map fun c => if c = '+' then ' ' else c)

/-- The values given for a key in the query; a value that is no text is left open. -/
def queryValues (request : Request) (key : String) : List (Option String) :=
  (Text.splitChars '&' request.target.query.toList).filterMap fun pair =>
    if pair.isEmpty then none
    else if formText? (pair.takeWhile (· ≠ '=')) = some key then
      some (formText? ((pair.dropWhile (· ≠ '=')).drop 1))
    else none

/-- An integer of 64 bits from the query, which may give it once. -/
def queryInteger? (request : Request) (key : String) : Except Rejection (Option Int) :=
  match request.queryValues key with
  | [] => .ok none
  | [some text] =>
    match Text.integer? text.toList with
    | some n =>
      if Int64.minValue.toInt ≤ n ∧ n ≤ Int64.maxValue.toInt then .ok (some n)
        else .error .malformed
    | none => .error .malformed
  | _ => .error .malformed

/-- An identifier from a segment of the path. -/
def pathId (segment : String) : Except Rejection Uuid :=
  match (percentDecode? segment.toList).bind Uuid.ofText? with
  | some id => .ok id
  | none => .error .malformed

/-! ### Bodies -/

/-- Whether the body is of a JSON type. -/
def hasJson (request : Request) : Bool :=
  (request.contentType.bind MediaType.ofText?).any (·.isJson)

/-- How a body that does not fit is rejected: what stops a reader of the text itself is
malformed. -/
def rejectionOf : DecodeError → Rejection
  | .unreadable | .tooLong _ | .noName _ | .notSingle => .malformed
  | .notSingleAfter first => rejectionOf first
  | _ => .misfit

/-- Reads the body. What follows its first value is not looked at, and a value that does not fit
rejects the request even if the text stops being JSON after it. -/
def read {α : Type} (decode : Decoder α) (request : Request) : Except Rejection α :=
  if request.hasJson then (decode (.ofText request.body)).mapError rejectionOf else .error .notJson

end Request

end LeadAutomation.Http
