import LeadAutomation.Text
import LeadAutomation.Text.Invisible

/-!
# Text in messages

A text that a message shows stands between quotation marks. The mark itself, the backslash and the
characters that do not show are written as escapes, with the code point in braces where there is no
shorter one.
-/

namespace LeadAutomation.Text

/-- The code point of a character in hexadecimal, without leading zeros. -/
def hexCode (c : Char) : String := String.ofList (Nat.toDigits 16 c.toNat)

/-- A character as it stands in a message. -/
def escapedChar (c : Char) : String :=
  if c = '"' then "\\\"" else if c = '\\' then "\\\\"
  else if c = '\n' then "\\n" else if c = '\r' then "\\r" else if c = '\t' then "\\t"
  else if c.toNat = 0 then "\\0"
  else if isInvisible c then "\\u\x7b" ++ hexCode c ++ "\x7d"
  else c.toString

def escaped (s : String) : String :=
  "\"" ++ s.toList.foldl (fun text c => text ++ escapedChar c) "" ++ "\""

end LeadAutomation.Text
