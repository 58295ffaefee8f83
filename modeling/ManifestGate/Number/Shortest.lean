import ManifestGate.Number.Double

/-!
# Shortest decimal texts of binary64 numbers

The text of a number has the fewest digits that read back as the number. The numbers that round to
`x` fill an interval around `x`; a decimal grid has a point in it exactly if one of the two grid
points next to `x` lies in it, so the coarsest grid with a hit is found by testing two points each.
-/

namespace ManifestGate.Double

/-- The interval of rationals that round to a positive number, in quarters of its unit. -/
structure Rounding where
  low : Nat
  high : Nat
  closed : Bool

/-- Half way to both neighbours. Below a power of two the neighbour is half as far away. -/
def rounding (x : Double) : Rounding where
  low := 4 * x.significand -
    (if x.significand = leastNormal ∧ x.exponent ≠ leastExponent then 1 else 2)
  high := 4 * x.significand + 2
  closed := x.significand % 2 = 0

structure Decimal where
  digits : Nat
  power : Int
  deriving DecidableEq

/-- Whether the decimal lies in the interval around `x`. -/
def hits (x : Double) (d : Decimal) : Bool :=
  let i := x.rounding
  let unit := x.exponent - 2
  let num := d.digits * Nat.pow 10 d.power.toNat * Nat.pow 2 (-unit).toNat
  let den := Nat.pow 10 (-d.power).toNat * Nat.pow 2 unit.toNat
  if i.closed then i.low * den ≤ num ∧ num ≤ i.high * den
  else i.low * den < num ∧ num < i.high * den

/-- The grid points `n · 10 ^ power` and `(n + 1) · 10 ^ power` around `x`, the nearer one first;
of two equally near the even one. -/
def around (x : Double) (power : Int) : Decimal × Decimal :=
  let (num, den) := x.fraction
  let top := num * Nat.pow 10 (-power).toNat
  let bottom := den * Nat.pow 10 power.toNat
  let n := top / bottom
  let below : Decimal := ⟨n, power⟩
  let above : Decimal := ⟨n + 1, power⟩
  if roundDiv top bottom = n then (below, above) else (above, below)

/-- The power of ten of the first digit of a positive fraction. -/
def decade (num den : Nat) : Int :=
  if den ≤ num then ((Nat.toDigits 10 (num / den)).length : Int) - 1
  else Int.negOfNat (Nat.toDigits 10 ((den - 1) / num)).length

/-- Tries grids of `tries` more sizes, each ten times finer than the one before. -/
def search (x : Double) : Nat → Int → Decimal
  | 0, power => (x.around power).1
  | tries + 1, power =>
    let (nearer, farther) := x.around power
    if x.hits nearer then nearer
    else if x.hits farther then farther
    else search x tries (power - 1)

/-- The shortest decimal that reads back as the magnitude of `x`; of those the nearest. -/
def shortest (x : Double) : Decimal :=
  let (num, den) := x.fraction
  search x 17 (decade num den)

/-- Moves the trailing zeros of the digits into the power. -/
def Decimal.trim (d : Decimal) : Nat → Decimal
  | 0 => d
  | steps + 1 =>
    if d.digits % 10 = 0 ∧ d.digits ≠ 0 then Decimal.trim ⟨d.digits / 10, d.power + 1⟩ steps else d

/-- Where positional notation ends: the powers of ten of the first digit that are written out. -/
structure Positional where
  least : Int
  greatest : Int

/-- Numbers from a hundred-thousandth up to sixteen places before the point are written out. -/
def written : Positional := ⟨-5, 15⟩

/-- The text of the digits with the decimal point after `lead + 1` of them. -/
def positional (digits : List Char) (lead : Int) : List Char :=
  if lead < 0 then
    '0' :: '.' :: (List.replicate (-lead - 1).toNat '0' ++ digits)
  else
    let whole := lead.toNat + 1
    let fractional := digits.drop whole
    (digits.take whole ++ List.replicate (whole - digits.length) '0') ++
      '.' :: (if fractional.isEmpty then ['0'] else fractional)

/-- One digit, the others behind the point, and the power of ten with its sign. -/
def scientific (digits : List Char) (lead : Int) : List Char :=
  let mantissa := match digits with
    | [] => []
    | [d] => [d]
    | d :: rest => d :: '.' :: rest
  let sign := if lead < 0 then '-' else '+'
  mantissa ++ 'e' :: sign :: Nat.toDigits 10 lead.natAbs

/-- The text of a number: always with a decimal point or an exponent. -/
def toText (x : Double) : String :=
  let sign := if x.negative then ['-'] else []
  let magnitude :=
    if x.significand = 0 then ['0', '.', '0']
    else
      let d := Decimal.trim x.shortest 17
      let digits := Nat.toDigits 10 d.digits
      let lead := d.power + digits.length - 1
      if written.least ≤ lead ∧ lead ≤ written.greatest then positional digits lead
      else scientific digits lead
  String.ofList (sign ++ magnitude)

end ManifestGate.Double
