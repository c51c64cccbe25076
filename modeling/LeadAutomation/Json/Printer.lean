import LeadAutomation.Json.Basic
import LeadAutomation.Binary64.Decimal

/-!
# Compact JSON text

How a value is written where a template prints it and where it leaves over the wire: no spaces,
members as they stand, doubles in the notation `jsonNumber`. Inside strings only the quotation mark,
the backslash and the control characters are escaped.
-/

namespace LeadAutomation.Json

def hexDigit (n : Nat) : Char := if n < 10 then Char.ofNat (48 + n) else Char.ofNat (87 + n)

/-- A code unit as four hexadecimal digits. -/
def hexUnit (n : Nat) : String :=
  String.ofList [hexDigit (n / 4096 % 16), hexDigit (n / 256 % 16), hexDigit (n / 16 % 16),
    hexDigit (n % 16)]

/-- A character as it stands inside a JSON string. -/
def escapeChar (c : Char) : String :=
  if c = '"' then "\\\"" else if c = '\\' then "\\\\"
  else if c = '\n' then "\\n" else if c = '\r' then "\\r" else if c = '\t' then "\\t"
  else if c.toNat = 8 then "\\b" else if c.toNat = 12 then "\\f"
  else if c.toNat < 32 then "\\u" ++ hexUnit c.toNat
  else c.toString

def quoted (s : String) : String :=
  "\"" ++ s.toList.foldl (fun text c => text ++ escapeChar c) "" ++ "\""

def Number.text : Number → String
  | .int n => toString n
  | .float x => x.text jsonNumber

mutual

def text : Json → String
  | .null => "null"
  | .bool b => if b then "true" else "false"
  | .num n => n.text
  | .str s => quoted s
  | .arr items => "[" ++ itemsText items ++ "]"
  | .obj members => "\x7b" ++ membersText members ++ "\x7d"

def itemsText : List Json → String
  | [] => ""
  | [item] => text item
  | item :: rest => text item ++ "," ++ itemsText rest

def membersText : Members → String
  | [] => ""
  | [(key, value)] => quoted key ++ ":" ++ text value
  | (key, value) :: rest => quoted key ++ ":" ++ text value ++ "," ++ membersText rest

end

end LeadAutomation.Json
