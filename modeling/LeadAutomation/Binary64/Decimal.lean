import LeadAutomation.Text
import LeadAutomation.Binary64.Basic

/-!
# Decimal text of double-precision numbers

Writing: the shortest digits that read back as the same number, and of those the nearest. Between
which two values a decimal has to lie is computed in quarter steps, so every comparison is between
natural numbers. Which of two decimals is taken that are equally near, and what is done with the
digits (where positional notation ends, whether a whole number keeps its point) is a `NumberFormat`;
the two formats in use are `jsonNumber` and `plainNumber`.

Reading: an optional sign, digits with at most one point, an optional exponent; the value is the
closest one.
-/

namespace LeadAutomation

/-- The number `digits * 10 ^ exponent`. -/
structure Decimal where
  digits : Nat
  exponent : Int
deriving DecidableEq, Repr

namespace Decimal

def tenTo (power : Nat) : Nat := Nat.pow 10 power

/-- Number of decimal digits, one for zero; `fuel` bounds the divisions. -/
def lengthWithin : Nat → Nat → Nat
  | 0, _ => 1
  | fuel + 1, n => if n < 10 then 1 else lengthWithin fuel (n / 10) + 1

/-- Number of decimal digits, one for zero. -/
def length (n : Nat) : Nat := lengthWithin n.log2 n

/-- The same number with its trailing zeros moved into the exponent; `fuel` bounds their count. -/
def stripWithin : Nat → Decimal → Decimal
  | 0, d => d
  | fuel + 1, d =>
    if d.digits ≠ 0 ∧ d.digits % 10 = 0 then stripWithin fuel ⟨d.digits / 10, d.exponent + 1⟩ else d

/-- The same number with its trailing zeros moved into the exponent. -/
def strip (d : Decimal) : Decimal := stripWithin (length d.digits) d

end Decimal

/-- Which of two neighbouring decimals stands for a magnitude in their middle. -/
inductive Tie where
  /-- The one whose last digit is even. -/
  | even
  /-- The larger one. -/
  | up
deriving DecidableEq, Repr

/-- Whether the lower of two neighbouring decimals is taken, given its digits. -/
def Tie.takesLower (tie : Tie) (lower : Nat) : Bool :=
  match tie with
  | .even => lower % 2 == 0
  | .up => false

structure NumberFormat where
  tie : Tie
  /-- The decimal exponents written without an exponent part. -/
  positional : Int → Bool
  /-- Whether a whole number in positional notation ends in a point and a zero. -/
  keepsPoint : Bool

/-- Numbers in JSON text: positional from `1e-5` up to, not including, `1e16`, and never mistaken
for an integer. -/
def jsonNumber : NumberFormat := ⟨.even, fun exponent => -5 ≤ exponent && exponent < 16, true⟩

/-- Numbers in messages: positional throughout. -/
def plainNumber : NumberFormat := ⟨.up, fun _ => true, false⟩

namespace NumberFormat

/-- The text `"0"` repeated. -/
def zeros (count : Nat) : String := String.ofList (List.replicate count '0')

/-- A decimal in positional notation. -/
def positionalText (format : NumberFormat) (d : Decimal) : String :=
  let digits := toString d.digits
  let point := (digits.length : Int) + d.exponent
  if 0 ≤ d.exponent then digits ++ zeros d.exponent.toNat ++
    (if format.keepsPoint then ".0" else "")
  else if 0 < point then
    String.ofList (digits.toList.take point.toNat) ++ "." ++
      String.ofList (digits.toList.drop point.toNat)
  else "0." ++ zeros (-point).toNat ++ digits

/-- A decimal with one digit before the point and an exponent that always has a sign. -/
def exponentText (d : Decimal) : String :=
  let digits := (toString d.digits).toList
  let exponent := (digits.length : Int) + d.exponent - 1
  let fraction := String.ofList (digits.drop 1)
  String.ofList (digits.take 1) ++ (if fraction.isEmpty then "" else "." ++ fraction) ++
    (if exponent < 0 then "e-" else "e+") ++ toString exponent.natAbs

/-- A decimal in the notation that the format chooses. -/
def text (format : NumberFormat) (d : Decimal) : String :=
  if format.positional ((toString d.digits).length + d.exponent - 1) then format.positionalText d
  else exponentText d

end NumberFormat

namespace Binary64

/-! ### Writing -/

def leadingExponent (units : Nat) : Int :=
  (Decimal.length (units * Decimal.tenTo 400 / unitsPerOne) : Int) - 401

/-- The bounds, in quarter steps, of what rounds to a magnitude, and whether the bounds themselves
do. -/
def roundingBounds (units : Nat) : Nat × Nat × Bool :=
  let gap := 1 <<< spacing units
  let atPowerOfTwo := spacing units ≠ 0 && units == (1 <<< 52) * gap
  (4 * units - (if atPowerOfTwo then gap else 2 * gap), 4 * units + 2 * gap, units / gap % 2 == 0)

/-- The closer of the two multiples of `10 ^ exponent` around a magnitude, if either rounds to
it. -/
def gridPoint? (tie : Tie) (units : Nat) (exponent : Int) : Option Nat :=
  let (low, high, closed) := roundingBounds units
  let scale := Decimal.tenTo (-exponent).toNat
  let weight := Decimal.tenTo exponent.toNat * (4 * unitsPerOne)
  let value := 4 * units * scale
  let below := value / weight
  let inside (n : Nat) : Bool :=
    let point := n * weight
    (low * scale < point && point < high * scale) ||
      (closed && (low * scale == point || point == high * scale))
  let twiceRest := 2 * (value % weight)
  let belowFirst := twiceRest < weight || (twiceRest == weight && tie.takesLower below)
  match inside below, inside (below + 1) with
  | true, true => some (if belowFirst then below else below + 1)
  | true, false => some below
  | false, true => some (below + 1)
  | false, false => none

/-- The first grid with a point that rounds to the magnitude, from `digits` digits on; `fuel` grids
are tried. -/
def shortestFrom (tie : Tie) (units : Nat) (leading : Int) : Nat → Nat → Decimal
  | 0, _ => ⟨units * Decimal.tenTo 400 / unitsPerOne, -400⟩
  | fuel + 1, digits =>
    match gridPoint? tie units (leading - digits + 1) with
    | some point => Decimal.strip ⟨point, leading - digits + 1⟩
    | none => shortestFrom tie units leading fuel (digits + 1)

/-- The fewest digits that read back as a magnitude, and of those the nearest; seventeen always
suffice. -/
def shortest (tie : Tie) (units : Nat) : Decimal :=
  if units = 0 then ⟨0, 0⟩ else shortestFrom tie units (leadingExponent units) 17 1

/-- The text of a number, with a sign if it is negative (zero too). -/
def text (format : NumberFormat) (x : Binary64) : String :=
  (if x.negative then "-" else "") ++ format.text (shortest format.tie x.units)

/-! ### Reading -/

/-- The value closest to a decimal; `none` past the range. Exponents that settle the matter are not
expanded. -/
def ofDecimal? (negative : Bool) (d : Decimal) : Option Binary64 :=
  let size := (Decimal.length d.digits : Int) + d.exponent
  if d.digits = 0 || size < -330 then some (withSign negative zero)
  else if 310 < size then none
  else nearest negative (d.digits * Decimal.tenTo d.exponent.toNat)
    (Decimal.tenTo (-d.exponent).toNat)

/-- The exponent part of a numeral: nothing, or `e`, an optional sign and at least one digit. -/
def exponentPart? : List Char → Option Int
  | [] => some 0
  | c :: rest => if c = 'e' || c = 'E' then Text.integer? rest else none

/-- An unsigned numeral: digits around at most one point, one digit at least, then the exponent
part. -/
def magnitude? (cs : List Char) : Option Decimal :=
  let whole := cs.takeWhile Char.isDigit
  let afterWhole := cs.dropWhile Char.isDigit
  let (fraction, rest) := match afterWhole with
    | '.' :: tail => (tail.takeWhile Char.isDigit, tail.dropWhile Char.isDigit)
    | _ => ([], afterWhole)
  match Text.natural? (whole ++ fraction), exponentPart? rest with
  | some digits, some exponent => some ⟨digits, exponent - fraction.length⟩
  | _, _ => none

/-- A finite number from its numeral; blanks around it are not allowed here. -/
def ofText? (s : String) : Option Binary64 :=
  match s.toList with
  | '-' :: rest => (magnitude? rest).bind (ofDecimal? true)
  | '+' :: rest => (magnitude? rest).bind (ofDecimal? false)
  | rest => (magnitude? rest).bind (ofDecimal? false)

end Binary64

end LeadAutomation
