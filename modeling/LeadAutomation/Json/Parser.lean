import LeadAutomation.Json.Draft
import LeadAutomation.Json.Printer

/-!
# Reading JSON text

`Draft.ofText` reads the value at the front of a text as far as it can be read, with the members of
objects in the order and number in which they are written; `document?` asks for a value with nothing
but blanks after it and gives its canonical form.

Each reader takes its part from the front of a text and gives what follows it, or `none` where the
text is no such part.

Numbers without a fraction or an exponent are exact within the 64-bit ranges. All others are
doubles, made in three steps: the digits are taken into a 64-bit integer until one more would not
fit, the integer becomes a double, and the double is multiplied or divided by a power of ten. Each
step rounds to the nearest value, so the result can differ in its last digit from the double nearest
to the numeral. A numeral past the finite range has no value, and neither has a container that
stands in more than 126 others.
-/

namespace LeadAutomation.Json

/-- Text without the four blanks that JSON knows at its front. -/
def skipBlanks (cs : List Char) : List Char :=
  cs.dropWhile fun c => c = ' ' || c = '\n' || c = '\t' || c = '\r'

/-- The number that a hexadecimal digit stands for. -/
def hexValue? (c : Char) : Option Nat :=
  if c.isDigit then some (c.toNat - 48)
  else if 'a' ≤ c && c ≤ 'f' then some (c.toNat - 87)
  else if 'A' ≤ c && c ≤ 'F' then some (c.toNat - 55)
  else none

def hexUnit? : List Char → Option (Nat × List Char)
  | a :: b :: c :: d :: rest => do
    let a ← hexValue? a
    let b ← hexValue? b
    let c ← hexValue? c
    let d ← hexValue? d
    some (4096 * a + 256 * b + 16 * c + d, rest)
  | _ => none

/-- The character after `\u`, given by one unit or by two that are a surrogate pair; half a pair is
none. -/
def unicodeEscape? (cs : List Char) : Option (Option Char × List Char) :=
  match hexUnit? cs with
  | none => none
  | some (high, rest) =>
    if 0xD800 ≤ high && high ≤ 0xDBFF then
      match rest with
      | '\\' :: 'u' :: tail =>
        match hexUnit? tail with
        | some (low, tail) =>
          if 0xDC00 ≤ low && low ≤ 0xDFFF then
            some (some (Char.ofNat (0x10000 + (high - 0xD800) * 1024 + (low - 0xDC00))), tail)
          else some (none, rest)
        | none => some (none, rest)
      | _ => some (none, rest)
    else if 0xDC00 ≤ high && high ≤ 0xDFFF then some (none, rest)
    else some (some (Char.ofNat high), rest)

/-- The character after a backslash. -/
def escape? : List Char → Option (Option Char × List Char)
  | '"' :: rest => some (some '"', rest)
  | '\\' :: rest => some (some '\\', rest)
  | '/' :: rest => some (some '/', rest)
  | 'b' :: rest => some (some (Char.ofNat 8), rest)
  | 'f' :: rest => some (some (Char.ofNat 12), rest)
  | 'n' :: rest => some (some '\n', rest)
  | 'r' :: rest => some (some '\r', rest)
  | 't' :: rest => some (some '\t', rest)
  | 'u' :: rest => unicodeEscape? rest
  | _ => none

/-- The characters up to the closing quotation mark, given in reverse so far. A string with half a
surrogate pair is read to its end but holds no text. -/
def stringBody? : Nat → Option (List Char) → List Char → Option (Option String × List Char)
  | 0, _, _ => none
  | _ + 1, _, [] => none
  | fuel + 1, done, c :: rest =>
    if c = '"' then some (done.map fun cs => String.ofList cs.reverse, rest)
    else if c = '\\' then
      match escape? rest with
      | some (some escaped, rest) => stringBody? fuel (done.map (escaped :: ·)) rest
      | some (none, rest) => stringBody? fuel none rest
      | none => none
    else if c.toNat < 32 then none
    else stringBody? fuel (done.map (c :: ·)) rest

/-- A string after its opening quotation mark. -/
def string? (cs : List Char) : Option (Option String × List Char) :=
  stringBody? (cs.length + 1) (some []) cs

/-- Digits taken into a 64-bit integer as far as they fit, and the number of those that did not. -/
def significand (start : Nat) : List Char → Nat × Nat
  | [] => (start, 0)
  | c :: rest =>
    let next := 10 * start + (c.toNat - 48)
    if next < UInt64.size then significand next rest else (start, (c :: rest).length)

/-- The double nearest to ten to the power. -/
def powerOfTen (exponent : Nat) : Binary64 := .ofNat false (Decimal.tenTo exponent)

/-- Scales by a power of ten, in steps of at most `10 ^ 308`; `none` past the finite range. -/
def scale? : Nat → Binary64 → Int → Option Binary64
  | 0, x, _ => some x
  | fuel + 1, x, exponent =>
    if exponent.natAbs ≤ 308 then
      if 0 ≤ exponent then x.mul (powerOfTen exponent.natAbs)
        else x.div (powerOfTen exponent.natAbs)
    else if x.units = 0 then some x
    else if 0 ≤ exponent then none
    else (x.div (powerOfTen 308)).bind fun y => scale? fuel y (exponent + 308)

/-- The double of a significand and a power of ten. A significand of zero is zero whatever the
exponent. -/
def scaled? (negative : Bool) (digits : Nat) (exponent : Int) : Option Binary64 :=
  if digits = 0 then some (Binary64.withSign negative .zero)
  else if exponent < -1000 then some (Binary64.withSign negative .zero)
  else (scale? 5 (.ofNat false digits) exponent).map (Binary64.withSign negative)

/-- The exponent part of a numeral, if there is one: `e`, an optional sign, at least one digit. -/
def exponent? : List Char → Option (Int × List Char)
  | [] => some (0, [])
  | c :: rest =>
    if c = 'e' || c = 'E' then
      let (negative, digits) := match rest with
        | '-' :: tail => (true, tail)
        | '+' :: tail => (false, tail)
        | tail => (false, tail)
      match Text.natural? (digits.takeWhile Char.isDigit) with
      | some n => some (if negative then -(n : Int) else n, digits.dropWhile Char.isDigit)
      | none => none
    else some (0, c :: rest)

/-- The fraction of a numeral, if there is one: a point and at least one digit. -/
def fraction? : List Char → Option ((List Char) × List Char)
  | '.' :: rest =>
    let digits := rest.takeWhile Char.isDigit
    if digits.isEmpty then none else some (digits, rest.dropWhile Char.isDigit)
  | rest => some ([], rest)

/-- A numeral after its sign; a leading zero stands alone before the point. -/
def number? (negative : Bool) (cs : List Char) : Option (Option Number × List Char) := do
  let whole := cs.takeWhile Char.isDigit
  if whole.isEmpty || (1 < whole.length && whole.head? == some '0') then none
  else
    let (fraction, rest) ← fraction? (cs.dropWhile Char.isDigit)
    let (exponent, tail) ← exponent? rest
    let plain := fraction.isEmpty && rest.length == tail.length
    let value : Nat := whole.foldl (fun n c => 10 * n + (c.toNat - 48)) 0
    if plain && !negative && value < UInt64.size then some (some (.int value), tail)
    else if plain && negative && 0 < value && value ≤ 1 <<< 63
      then some (some (.int (-value)), tail)
    else
      let (digits, droppedWhole) := significand 0 whole
      let (digits, droppedFraction) := significand digits fraction
      let shift : Int := droppedWhole + droppedFraction
      some ((scaled? negative digits (shift - fraction.length + exponent)).map .float, tail)

namespace Draft

/-- A scalar and what follows it; what is read without a value is valueless. -/
def ofScalar {α : Type} (draft : α → Draft) :
    Option (Option α × List Char) → Draft × Option (List Char)
  | some (some a, rest) => (draft a, some rest)
  | some (none, rest) => (.valueless, some rest)
  | none => (.broken, none)

/-- A container and what follows it; one that is whole has no value where no more containers are
allowed. -/
def ofContainer (depth : Nat) (draft : Draft) (rest : Option (List Char)) :
    Draft × Option (List Char) :=
  if depth = 0 then (if rest.isSome then .valueless else .broken, rest) else (draft, rest)

mutual

/-- One value and what follows it, with `depth` containers still allowed inside one another. -/
def read : Nat → Nat → List Char → Draft × Option (List Char)
  | 0, _, _ => (.broken, none)
  | fuel + 1, depth, cs =>
    match skipBlanks cs with
    | 'n' :: 'u' :: 'l' :: 'l' :: rest => (.null, some rest)
    | 't' :: 'r' :: 'u' :: 'e' :: rest => (.bool true, some rest)
    | 'f' :: 'a' :: 'l' :: 's' :: 'e' :: rest => (.bool false, some rest)
    | '"' :: rest => ofScalar .str (string? rest)
    | '-' :: rest => ofScalar .num (number? true rest)
    | '[' :: rest =>
      match skipBlanks rest with
      | ']' :: rest => ofContainer depth (.arr []) (some rest)
      | rest =>
        let (items, rest) := readItems fuel (depth - 1) [] rest
        ofContainer depth (.arr items) rest
    | '\x7b' :: rest =>
      match skipBlanks rest with
      | '\x7d' :: rest => ofContainer depth (.obj []) (some rest)
      | rest =>
        let (members, rest) := readMembers fuel (depth - 1) [] rest
        ofContainer depth (.obj members) rest
    | rest => ofScalar .num (number? false rest)

/-- Items up to the closing bracket, given in reverse so far. -/
def readItems : Nat → Nat → List Draft → List Char → List Draft × Option (List Char)
  | 0, _, done, _ => ((.broken :: done).reverse, none)
  | fuel + 1, depth, done, cs =>
    match read fuel depth cs with
    | (item, none) => ((item :: done).reverse, none)
    | (item, some rest) =>
      match skipBlanks rest with
      | ',' :: rest => readItems fuel depth (item :: done) rest
      | ']' :: rest => ((item :: done).reverse, some rest)
      | _ => ((.broken :: item :: done).reverse, none)

/-- Members up to the closing brace, given in reverse so far. -/
def readMembers : Nat → Nat → List (Option String × Draft) → List Char →
    List (Option String × Draft) × Option (List Char)
  | 0, _, done, _ => (((none, .broken) :: done).reverse, none)
  | fuel + 1, depth, done, cs =>
    match skipBlanks cs with
    | '"' :: rest =>
      match string? rest with
      | none => (((none, .broken) :: done).reverse, none)
      | some (key, rest) =>
        match skipBlanks rest with
        | ':' :: rest =>
          match read fuel depth rest with
          | (value, none) => (((key, value) :: done).reverse, none)
          | (value, some rest) =>
            match skipBlanks rest with
            | ',' :: rest => readMembers fuel depth ((key, value) :: done) rest
            | '\x7d' :: rest => (((key, value) :: done).reverse, some rest)
            | _ => (((none, .broken) :: (key, value) :: done).reverse, none)
        | _ => (((key, .broken) :: done).reverse, none)
    | _ => (((none, .broken) :: done).reverse, none)

end

/-- How many containers may stand inside one another. -/
def maxDepth : Nat := 127

/-- The draft at the front of a text and, if it is whole, what follows it. -/
def scan (s : String) : Draft × Option (List Char) := read (2 * s.length + 2) maxDepth s.toList

/-- What a text spells out; what follows its first value is not looked at. -/
def ofText (s : String) : Draft := (scan s).1

end Draft

/-- The value of a text that holds one value and blanks around it. -/
def document? (s : String) : Option Json :=
  match Draft.scan s with
  | (draft, some rest) => if (skipBlanks rest).isEmpty then draft.value?.map canonical else none
  | (_, none) => none

end LeadAutomation.Json
