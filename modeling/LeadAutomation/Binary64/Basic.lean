/-!
# Finite double-precision numbers

The numbers that conditions, scores and delays are computed with: the finite values of the IEEE 754
format `binary64`, with both zeros. A magnitude is held as a whole number of the smallest positive
step, `2 ^ -1074`, so that comparing, rounding and printing are exact arithmetic on natural numbers
and nothing about them is hidden from a proof.

The one approximate operation is `nearest`, which rounds a quotient of natural numbers to the
closest value and a tie to the even one. Products and quotients are formed exactly and rounded by it
once.
-/

namespace LeadAutomation

namespace Binary64

/-- Steps in the number one. -/
def unitsPerOne : Nat := 1 <<< 1074

/-- The first power of two past every finite magnitude, `2 ^ 1024`, in steps. -/
def unitsLimit : Nat := 1 <<< 2098

/-- The first whole number that 53 bits do not hold, `2 ^ 53`; itself it needs one significant bit
only. -/
def significandLimit : Nat := 1 <<< 53

end Binary64

/-- A finite value of the format `binary64`: `units` steps of `2 ^ -1074`, with a sign that zero has
too. -/
structure Binary64 where
  negative : Bool
  units : Nat
  /-- The magnitude has at most 53 significant bits. -/
  representable : ∃ m e, m ≤ Binary64.significandLimit ∧ units = m <<< e
  /-- The magnitude is below `2 ^ 1024`. -/
  finite : units < Binary64.unitsLimit

namespace Binary64

theorem unitsPerOne_pos : 0 < unitsPerOne := by decide

theorem unitsLimit_pos : 0 < unitsLimit := by decide

@[ext]
theorem ext {x y : Binary64} (hnegative : x.negative = y.negative) (hunits : x.units = y.units) :
    x = y := by
  cases x
  cases y
  simp_all

instance : DecidableEq Binary64 := fun x y =>
  if h : x.negative = y.negative ∧ x.units = y.units then .isTrue (ext h.1 h.2)
  else .isFalse fun heq => h (heq ▸ ⟨rfl, rfl⟩)

def zero : Binary64 := ⟨false, 0, ⟨0, 0, by decide, rfl⟩, unitsLimit_pos⟩

instance : Inhabited Binary64 := ⟨zero⟩

def neg (x : Binary64) : Binary64 := { x with negative := !x.negative }

def withSign (negative : Bool) (x : Binary64) : Binary64 := { x with negative := negative }

/-- The signed number of steps: what a number is worth, the same for both zeros. -/
def worth (x : Binary64) : Int := if x.negative then -(x.units : Int) else x.units

/-- Equality of worth: the two zeros are equal. -/
def numEq (x y : Binary64) : Bool := x.worth == y.worth

def less (x y : Binary64) : Bool := x.worth < y.worth

def isWhole (x : Binary64) : Bool := x.units % unitsPerOne == 0

/-- The whole number that the magnitude reaches, dropping any fraction. -/
def wholePart (x : Binary64) : Nat := x.units / unitsPerOne

/-- A number rounded towards zero. -/
def truncate (x : Binary64) : Int := if x.negative then -(x.wholePart : Int) else x.wholePart

/-- The closest whole number; a half goes away from zero. -/
def round (x : Binary64) : Int :=
  let magnitude := (2 * x.units + unitsPerOne) / (2 * unitsPerOne)
  if x.negative then -(magnitude : Int) else magnitude

/-- The exponent of the spacing between neighbours at `units` steps, where 53 significant bits are
kept. -/
def spacing (units : Nat) : Nat := units.log2 - 52

theorem div_spacing_lt (units : Nat) : units / (1 <<< spacing units) < significandLimit := by
  refine Nat.div_lt_of_lt_mul ?_
  rw [significandLimit, Nat.one_shiftLeft, Nat.one_shiftLeft, ← Nat.pow_add]
  have hbound := Nat.lt_log2_self (n := units)
  exact Nat.lt_of_lt_of_le hbound (Nat.pow_le_pow_right (by decide) (by unfold spacing; omega))

/-- The whole number closest to `num / den`; a tie goes to the even one. -/
def nearestQuotient (num den : Nat) : Nat :=
  let quotient := num / den
  let twiceRest := 2 * (num % den)
  if den < twiceRest || (twiceRest == den && quotient % 2 == 1) then quotient + 1 else quotient

theorem nearestQuotient_le (num den : Nat) : nearestQuotient num den ≤ num / den + 1 := by
  unfold nearestQuotient
  dsimp only
  split
  · exact Nat.le_refl _
  · exact Nat.le_succ _

/-- The value closest to `num / den`, a tie going to the even one; `none` where that is past every
finite value. -/
def nearest (negative : Bool) (num den : Nat) : Option Binary64 :=
  let steps := num * unitsPerOne
  let exponent := spacing (steps / den)
  let factor := nearestQuotient steps (den <<< exponent)
  if hfinite : factor <<< exponent < unitsLimit then
    some ⟨negative, factor <<< exponent, ⟨factor, exponent, by
      have hfactor := nearestQuotient_le steps (den <<< exponent)
      have hquotient := div_spacing_lt (steps / den)
      rw [Nat.div_div_eq_div_mul, Nat.one_shiftLeft, ← Nat.shiftLeft_eq] at hquotient
      exact Nat.le_trans hfactor hquotient, rfl⟩, hfinite⟩
  else none

theorem shiftLeft_lt_one_shiftLeft (bits : Nat) {n exponent limit : Nat} (hn : n < 1 <<< bits)
    (hlimit : bits + exponent ≤ limit) : n <<< exponent < 1 <<< limit := by
  rw [Nat.one_shiftLeft] at hn
  rw [Nat.shiftLeft_eq, Nat.one_shiftLeft]
  refine Nat.lt_of_lt_of_le (Nat.mul_lt_mul_of_pos_right hn (Nat.two_pow_pos _)) ?_
  rw [← Nat.pow_add]
  exact Nat.pow_le_pow_right (by decide) hlimit

/-- The largest finite value, `2 ^ 1024 - 2 ^ 971`. -/
def largest (negative : Bool) : Binary64 :=
  ⟨negative, (significandLimit - 1) <<< 2045, ⟨significandLimit - 1, 2045, by decide, rfl⟩,
    shiftLeft_lt_one_shiftLeft 53 (by decide) (by decide)⟩

/-- A whole number of at most 53 bits, exactly. -/
def ofSmall (negative : Bool) (n : Nat) (h : n ≤ significandLimit) : Binary64 :=
  ⟨negative, n <<< 1074, ⟨n, 1074, h, rfl⟩,
    shiftLeft_lt_one_shiftLeft 54
      (Nat.lt_of_le_of_lt h (by decide : significandLimit < 1 <<< 54)) (by decide)⟩

/-- The value closest to a whole number: exact up to `2 ^ 53`, and the largest finite value past the
range. -/
def ofNat (negative : Bool) (n : Nat) : Binary64 :=
  if h : n ≤ significandLimit then ofSmall negative n h
    else (nearest negative n 1).getD (largest negative)

/-- The value closest to an integer. -/
def ofInt (n : Int) : Binary64 := ofNat (n < 0) n.natAbs

def mul (x y : Binary64) : Option Binary64 :=
  nearest (x.negative != y.negative) (x.units * y.units) (unitsPerOne * unitsPerOne)

/-- The quotient by a number other than zero, rounded once. -/
def div (x y : Binary64) : Option Binary64 :=
  nearest (x.negative != y.negative) x.units y.units

@[simp]
theorem worth_zero : zero.worth = 0 := rfl

theorem numEq_refl (x : Binary64) : x.numEq x = true := by simp [numEq]

theorem numEq_comm (x y : Binary64) : x.numEq y = y.numEq x := BEq.comm

end Binary64

end LeadAutomation
