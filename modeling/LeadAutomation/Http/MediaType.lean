import LeadAutomation.Text

/-!
# Media types

The type of a request's body: a type and a subtype, perhaps a suffix of the subtype after a plus
sign, and then parameters. Only bodies of a JSON type are read.
-/

namespace LeadAutomation.Http

structure MediaType where
  type : String
  subtype : String
  suffix : Option String
deriving DecidableEq, Repr

namespace MediaType

def isToken (c : Char) : Bool := c.isAlphanum || "!#$%&'*+-.^_\x60|~".toList.contains c

def isQuotable (c : Char) : Bool := ' ' ≤ c && c ≤ '~'

/-- The text after a quoted value: blanks up to a semicolon or the end. -/
def afterQuoted : List Char → Option (List Char)
  | [] => some []
  | ';' :: rest => some rest
  | ' ' :: rest => afterQuoted rest
  | _ => none

/-- The rest of a quoted value up to its closing mark; gives what follows it. -/
def quotedRest? (cs : List Char) : Option (List Char) :=
  let isInside (c : Char) : Bool := isQuotable c && c ≠ '"'
  match cs.dropWhile isInside with
  | '"' :: rest => afterQuoted rest
  | _ => none

/-- A quoted value after its first mark, not empty: a mark that stands first in it belongs to the
value. -/
def quotedValue? : List Char → Option (List Char)
  | [] => none
  | c :: rest => if isQuotable c then quotedRest? rest else none

/-- The value of a parameter; gives what follows it. -/
def parameterValue? : List Char → Option (List Char)
  | '"' :: rest => quotedValue? rest
  | cs =>
    let body := cs.takeWhile isToken
    match cs.dropWhile isToken with
    | [] => some []
    | ';' :: rest => if body.isEmpty then none else some rest
    | _ => none

/-- Whether characters are parameters: names with values, each after blanks; `fuel` bounds their
number. -/
def areParameters : Nat → List Char → Bool
  | 0, _ => false
  | fuel + 1, cs =>
    let cs := cs.dropWhile (· = ' ')
    if cs.isEmpty then true
    else
      let name := cs.takeWhile isToken
      match cs.dropWhile isToken with
      | '=' :: rest =>
        if name.isEmpty then false
        else match parameterValue? rest with
          | some rest => areParameters fuel rest
          | none => false
      | _ => false

/-- The last plus sign that does not stand first splits a subtype from its suffix. -/
def splitSuffix (subtype : List Char) : List Char × Option (List Char) :=
  let suffix := (subtype.reverse.takeWhile (· ≠ '+')).reverse
  let front := subtype.take (subtype.length - suffix.length - 1)
  if suffix.length < subtype.length && !front.isEmpty then (front, some suffix) else (subtype, none)

/-- A media type from its text, names in any case. -/
def ofText? (text : String) : Option MediaType :=
  let cs := text.toList
  let type := cs.takeWhile isToken
  match cs.dropWhile isToken with
  | '/' :: rest =>
    let (subtype, suffix) := splitSuffix (rest.takeWhile isToken)
    let parsed : MediaType :=
      ⟨Text.lowerAscii (String.ofList type), Text.lowerAscii (String.ofList subtype),
        suffix.map fun suffix => Text.lowerAscii (String.ofList suffix)⟩
    if type.isEmpty then none
    else match rest.dropWhile isToken with
      | [] => some parsed
      | ';' :: parameters =>
        if (rest.takeWhile isToken).isEmpty ||
          !areParameters (parameters.length + 1) parameters then none
        else some parsed
      | _ => none
  | _ => none

/-- Whether a media type is one of JSON. -/
def isJson (media : MediaType) : Bool :=
  media.type = "application" && (media.subtype = "json" || media.suffix = some "json")

end MediaType

end LeadAutomation.Http
