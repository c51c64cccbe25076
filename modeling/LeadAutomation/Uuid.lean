import LeadAutomation.Json.Parser

/-!
# Identifiers

Rules, workflows, leads and executions are known by 128-bit identifiers. They are written as 32
hexadecimal digits in groups of 8, 4, 4, 4 and 12 with hyphens between; `ofText?` also reads
capitals, the digits without hyphens, the written form in braces and the written form after
`urn:uuid:` in small letters or capitals.
-/

namespace LeadAutomation

structure Uuid where
  bits : BitVec 128
deriving DecidableEq, Repr

namespace Uuid

instance : Inhabited Uuid := ⟨⟨0⟩⟩

/-- The last `count` hexadecimal digits of a number, the most significant first. -/
def hexDigits : Nat → Nat → List Char
  | 0, _ => []
  | count + 1, n => hexDigits count (n / 16) ++ [Json.hexDigit (n % 16)]

/-- The number that hexadecimal digits stand for. -/
def hexNumber? (digits : List Char) : Option Nat :=
  digits.foldlM (fun n c => (Json.hexValue? c).map (16 * n + ·)) 0

def digits (id : Uuid) : List Char := hexDigits 32 id.bits.toNat

/-- Digits with hyphens after the eighth, twelfth, sixteenth and twentieth. -/
def hyphenate (digits : List Char) : List Char :=
  digits.take 8 ++ '-' :: (digits.drop 8).take 4 ++ '-' :: (digits.drop 12).take 4 ++
    '-' :: (digits.drop 16).take 4 ++ '-' :: digits.drop 20

def text (id : Uuid) : String := String.ofList (hyphenate id.digits)

/-- An identifier from its 32 digits. -/
def ofDigits? (digits : List Char) : Option Uuid :=
  if digits.length = 32 then (hexNumber? digits).map fun n => ⟨BitVec.ofNat 128 n⟩ else none

/-- An identifier from digits with the four hyphens in their places. -/
def ofHyphenated? (cs : List Char) : Option Uuid :=
  let digits :=
    cs.take 8 ++ (cs.drop 9).take 4 ++ (cs.drop 14).take 4 ++ (cs.drop 19).take 4 ++ cs.drop 24
  if hyphenate digits = cs then ofDigits? digits else none

/-- An identifier from any of its four forms. -/
def ofText? (s : String) : Option Uuid :=
  let cs := s.toList
  if cs.length = 32 then ofDigits? cs
  else if cs.length = 36 then ofHyphenated? cs
  else if cs.length = 38 then
    if cs.head? = some '\x7b' ∧
      cs.getLast? = some '\x7d' then ofHyphenated? (cs.tail.take 36) else none
  else if cs.length = 45 then
    if (cs.take 9).map Char.toLower = "urn:uuid:".toList then ofHyphenated? (cs.drop 9) else none
  else none

end Uuid

end LeadAutomation
