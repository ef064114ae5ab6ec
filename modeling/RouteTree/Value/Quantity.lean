import RouteTree.Text.Cut

/-! # Quantities

A whole number is its own value. A floating-point number is written as a decimal and holds the
nearest number with a significand of at most 53 binary digits, so the value can differ from what is
written. Quantities are exact: a floating-point number equals the whole number that it holds and no
other, however large both are.
-/

namespace RouteTree

/-- What a number amounts to. -/
inductive Quantity where
  | finite (amount : Dyadic)
  | infinite (negative : Bool)
  deriving DecidableEq

/-- A decimal without its sign: a whole number times a power of ten. -/
structure Decimal where
  digits : Nat
  exponent : Int
  deriving DecidableEq, Repr

namespace Decimal

/-- The number that digits denote, of which there has to be one at least. -/
def number? (digits : List Char) : Option Nat :=
  if digits.isEmpty || digits.any (!·.isDigit) then none
  else some (digits.foldl (fun number digit => 10 * number + (digit.toNat - 48)) 0)

/-- Read the power of ten of a decimal, which is zero when none is written. -/
def exponent? : List Char → Option Int
  | [] => some 0
  | '-' :: digits => (number? digits).map fun number => -(number : Int)
  | '+' :: digits => (number? digits).map fun number => (number : Int)
  | digits => (number? digits).map fun number => (number : Int)

/-- Read a decimal such as `12.5` or `1e-07`. Every digit after the point takes one from the power
of ten. -/
def read? (text : List Char) : Option Decimal := do
  let mantissa := Text.before 'e' text
  let places := Text.after '.' mantissa
  let digits ← number? (Text.before '.' mantissa ++ places)
  let exponent ← exponent? (Text.after 'e' text)
  return ⟨digits, exponent - places.length⟩

/-- A decimal as a fraction. -/
def fraction (decimal : Decimal) : Nat × Nat :=
  (decimal.digits * Nat.pow 10 decimal.exponent.toNat, Nat.pow 10 (-decimal.exponent).toNat)

end Decimal

namespace Quantity

/-- The whole number nearest to a fraction; of two neighbours equally near it is the even one. -/
def roundEven (numerator denominator : Nat) : Nat :=
  let whole := numerator / denominator
  let rest := 2 * (numerator % denominator)
  if rest < denominator || (rest == denominator && whole % 2 == 0) then whole else whole + 1

/-- Rounding moves a fraction by half a unit at most. -/
theorem roundEven_near (numerator denominator : Nat) (positive : 0 < denominator) :
    2 * (denominator * roundEven numerator denominator) ≤ 2 * numerator + denominator ∧
      2 * numerator ≤ 2 * (denominator * roundEven numerator denominator) + denominator := by
  have divided := Nat.div_add_mod numerator denominator
  have small := Nat.mod_lt numerator positive
  simp only [roundEven]
  split
  next low =>
    simp only [Bool.or_eq_true, decide_eq_true_eq, Bool.and_eq_true, beq_iff_eq] at low
    omega
  next high =>
    simp only [Bool.or_eq_true, decide_eq_true_eq, Bool.and_eq_true, beq_iff_eq, not_or] at high
    rw [Nat.mul_add, Nat.mul_one]
    omega

/-- Rounding keeps whole numbers. -/
theorem roundEven_mul (whole denominator : Nat) (positive : 0 < denominator) :
    roundEven (denominator * whole) denominator = whole := by
  simp [roundEven, Nat.mul_div_cancel_left whole positive, positive]

/-- A fraction in units of a power of two. -/
def inUnits (numerator denominator : Nat) (unit : Int) : Nat × Nat :=
  (numerator <<< (-unit).toNat, denominator <<< unit.toNat)

/-- The power of two in whose units a fraction is rounded: it leaves 53 binary digits, and no unit
is smaller than the one of exponent -1074. -/
def unitOf (numerator denominator : Nat) : Int :=
  let estimate : Int := (numerator.log2 : Int) - denominator.log2
  let (scaled, unit) := inUnits numerator denominator estimate
  let leading := if unit ≤ scaled then estimate else estimate - 1
  max (leading - 52) (-1074)

/-- The largest power of two that no finite floating-point number reaches. -/
def bound : Dyadic :=
  .ofIntWithPrec 1 (-1024)

/-- The floating-point number nearest to a fraction, infinite when it would reach the bound. -/
def nearest (negative : Bool) (numerator denominator : Nat) : Quantity :=
  let unit := unitOf numerator denominator
  let (scaled, divisor) := inUnits numerator denominator unit
  let amount := Dyadic.ofIntWithPrec (roundEven scaled divisor) (-unit)
  if bound ≤ amount then .infinite negative
  else .finite (if negative then -amount else amount)

/-- The quantity of a whole number. -/
def ofInt (number : Int) : Quantity :=
  .finite (.ofInt number)

/-- The quantity of an unsigned text. -/
def ofMagnitude? (negative : Bool) (text : List Char) : Option Quantity :=
  if text = ['i', 'n', 'f'] then some (.infinite negative)
  else (Decimal.read? text).map fun decimal =>
    nearest negative decimal.fraction.1 decimal.fraction.2

/-- The quantity of a floating-point number, given by its text. -/
def ofText? (text : String) : Option Quantity :=
  match text.toList with
  | '-' :: magnitude => ofMagnitude? true magnitude
  | magnitude => ofMagnitude? false magnitude

end Quantity

end RouteTree
