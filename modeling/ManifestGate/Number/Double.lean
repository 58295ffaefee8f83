/-!
# Binary64 numbers

A finite binary64 number is kept as sign, significand and power of two. Every operation is exact
arithmetic followed by one rounding to the nearest number of the format, ties to the even
significand. Zero keeps its sign.
-/

namespace ManifestGate

/-- The number `±significand · 2 ^ exponent`. -/
structure Double where
  negative : Bool
  significand : Nat
  exponent : Int
  deriving DecidableEq, Inhabited

namespace Double

def leastExponent : Int := -1074

def greatestExponent : Int := 971

/-- The least significand of 53 bits. -/
def leastNormal : Nat := 4503599627370496

/-- The first number beyond the significands of 53 bits. -/
def significandLimit : Nat := 9007199254740992

def zero (negative : Bool) : Double := ⟨negative, 0, leastExponent⟩

/-- A significand of 53 bits, or fewer at the least exponent. -/
structure Canonical (x : Double) : Prop where
  significand_lt : x.significand < significandLimit
  least_le : leastExponent ≤ x.exponent
  normal : leastNormal ≤ x.significand ∨ x.exponent = leastExponent

/-- A number that is too great for the format. -/
def beyond (negative : Bool) : Double := ⟨negative, leastNormal, greatestExponent + 1⟩

def isFinite (x : Double) : Bool :=
  x.exponent ≤ greatestExponent

/-- `num / den` rounded to a whole number, a half to the even neighbour. -/
def roundDiv (num den : Nat) : Nat :=
  let below := num / den
  let rest := num % den
  if 2 * rest < den ∨ (2 * rest = den ∧ below % 2 = 0) then below else below + 1

/-- `num / den` as a fraction counted in units of `2 ^ exponent`. -/
def inUnits (num den : Nat) (exponent : Int) : Nat × Nat :=
  if 0 ≤ exponent then (num, den * Nat.pow 2 exponent.toNat)
  else (num * Nat.pow 2 (-exponent).toNat, den)

/-- The exponent that leaves `num / den` a significand of 53 bits, if the format has it. -/
def unitExponent (num den : Nat) : Int :=
  let guess : Int := (Nat.log2 num : Int) - (Nat.log2 den : Int) - 53
  let (top, bottom) := inUnits num den guess
  let exponent := if top / bottom < significandLimit then guess else guess + 1
  max leastExponent exponent

/-- The number nearest to `num / den`, not bounded above. -/
def nearest (negative : Bool) (num den : Nat) : Double :=
  if num = 0 then zero negative
  else
    let exponent := unitExponent num den
    let (top, bottom) := inUnits num den exponent
    let significand := roundDiv top bottom
    if significand = significandLimit then ⟨negative, leastNormal, exponent + 1⟩
    else ⟨negative, significand, exponent⟩

def ofDecimal (negative : Bool) (digits : Nat) (power : Int) : Double :=
  if 0 ≤ power then nearest negative (digits * Nat.pow 10 power.toNat) 1
  else nearest negative digits (Nat.pow 10 (-power).toNat)

def ofInt (n : Int) : Double :=
  nearest (n < 0) n.natAbs 1

def fraction (x : Double) : Nat × Nat :=
  if 0 ≤ x.exponent then (x.significand * Nat.pow 2 x.exponent.toNat, 1)
  else (x.significand, Nat.pow 2 (-x.exponent).toNat)

/-- The number as a rational. Both zeros are the rational zero. -/
def toRat (x : Double) : Rat :=
  let (num, den) := x.fraction
  mkRat (if x.negative then -(num : Int) else num) den

def mul (x y : Double) : Double :=
  let (a, b) := x.fraction
  let (c, d) := y.fraction
  nearest (x.negative != y.negative) (a * c) (b * d)

def div (x y : Double) : Double :=
  let (a, b) := x.fraction
  let (c, d) := y.fraction
  nearest (x.negative != y.negative) (a * d) (b * c)

def neg (x : Double) : Double :=
  { x with negative := !x.negative }

end Double

end ManifestGate
