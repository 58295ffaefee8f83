import Mathlib.Algebra.Order.Field.Rat
import Mathlib.Algebra.Order.Ring.Abs
import Mathlib.Tactic.Linarith
import Mathlib.Tactic.Ring
import ManifestGate.Number.Double

/-!
# Whole numbers as binary64 numbers

A whole number of at most 53 bits is a binary64 number. Beyond, the format has only the multiples of
a power of two, the unit of the number, and the nearest of them is taken. So numbers below `2 ^ 53`
are kept apart from all others, and two numbers that fall together are at most a unit apart.
-/

namespace ManifestGate

namespace Double

/-- The distance from a number to the next one of the format; below `2 ^ 53` it is one. -/
def unit (n : Nat) : Nat :=
  2 ^ (Nat.log2 n - 52)

/-- The multiple of the unit that is nearest to the number. -/
def roundNat (n : Nat) : Nat :=
  roundDiv n (unit n) * unit n

def round (n : Int) : Int :=
  n.sign * roundNat n.natAbs

/-- The format does not keep the numbers apart. -/
def Merged (a b : Int) : Prop :=
  round a = round b

instance (a b : Int) : Decidable (Merged a b) :=
  inferInstanceAs (Decidable (_ = _))

theorem unit_pos (n : Nat) : 0 < unit n :=
  Nat.two_pow_pos _

/-! ## Quotients rounded to whole numbers -/

theorem roundDiv_one (num : Nat) : roundDiv num 1 = num := by
  simp [roundDiv, Nat.mod_one]

theorem div_le_roundDiv (num den : Nat) : num / den ≤ roundDiv num den := by
  unfold roundDiv
  dsimp only
  split <;> omega

/-- A rounded quotient is off by at most one half. -/
theorem roundDiv_near (num : Nat) {den : Nat} (positive : 0 < den) :
    2 * (roundDiv num den * den) ≤ 2 * num + den ∧
      2 * num ≤ 2 * (roundDiv num den * den) + den := by
  have whole : num / den * den + num % den = num := by
    rw [Nat.mul_comm]
    exact Nat.div_add_mod num den
  have rest : num % den < den := Nat.mod_lt num positive
  unfold roundDiv
  dsimp only
  split
  · omega
  · rw [Nat.add_mul]
    omega

theorem roundNat_of_lt {n : Nat} (small : n < 2 ^ 53) : roundNat n = n := by
  have short : Nat.log2 n < 53 := by
    by_cases zero : n = 0
    · subst zero
      decide
    · exact (Nat.log2_lt zero).mpr small
  have one : unit n = 1 := by
    unfold unit
    rw [Nat.sub_eq_zero_of_le (by omega), pow_zero]
  rw [roundNat, one, roundDiv_one, Nat.mul_one]

theorem significandLimit_eq : significandLimit = 2 ^ 53 := by
  norm_num [significandLimit]

theorem leastNormal_eq : leastNormal = 2 ^ 52 := by
  norm_num [leastNormal]

/-! ## The value of the nearest binary64 number -/

/-- A significand and an exponent are worth a whole number if they agree with it after clearing the
power of two on either side. -/
theorem toRat_eq_of_mul {significand value : Nat} {exponent : Int}
    (same : significand * 2 ^ exponent.toNat = value * 2 ^ (-exponent).toNat) (negative : Bool) :
    toRat ⟨negative, significand, exponent⟩ = if negative then -(value : Rat) else value := by
  unfold toRat fraction
  by_cases whole : 0 ≤ exponent
  · have none : (-exponent).toNat = 0 := by omega
    rw [none, pow_zero, mul_one] at same
    simp only [if_pos whole, Nat.pow_eq, same]
    cases negative <;> simp [Rat.mkRat_one]
  · have none : exponent.toNat = 0 := by omega
    rw [none, pow_zero, mul_one] at same
    simp only [if_neg whole, Nat.pow_eq, same, Rat.mkRat_eq_div]
    have apart : (2 : Rat) ^ (-exponent).toNat ≠ 0 := by positivity
    cases negative <;> simp [neg_div, mul_div_cancel_right₀ _ apart]

theorem unitExponent_whole {n : Nat} (positive : n ≠ 0) :
    unitExponent n 1 = (Nat.log2 n : Int) - 52 := by
  have least : 2 ^ Nat.log2 n ≤ n := Nat.log2_self_le positive
  have guessed : (Nat.log2 n : Int) - (Nat.log2 1 : Int) - 53 = (Nat.log2 n : Int) - 53 := by
    rw [show Nat.log2 1 = 0 by decide]
    omega
  -- the guess always leaves one bit too many
  have tooLong : ¬(inUnits n 1 ((Nat.log2 n : Int) - 53)).1 /
      (inUnits n 1 ((Nat.log2 n : Int) - 53)).2 < significandLimit := by
    rw [not_lt, significandLimit_eq]
    unfold inUnits
    split
    · next long =>
      rw [Nat.pow_eq, Nat.one_mul, Nat.le_div_iff_mul_le (Nat.two_pow_pos _), ← pow_add]
      rwa [show 53 + ((Nat.log2 n : Int) - 53).toNat = Nat.log2 n by omega]
    · next short =>
      rw [Nat.pow_eq, Nat.div_one]
      calc 2 ^ 53 = 2 ^ Nat.log2 n * 2 ^ (-((Nat.log2 n : Int) - 53)).toNat := by
            rw [← pow_add]
            congr 1
            omega
        _ ≤ n * 2 ^ (-((Nat.log2 n : Int) - 53)).toNat := Nat.mul_le_mul_right _ least
  unfold unitExponent
  simp only [guessed, if_neg tooLong]
  unfold leastExponent
  omega

theorem toRat_nearest_whole {n : Nat} (positive : n ≠ 0) (negative : Bool) :
    (nearest negative n 1).toRat = if negative then -(roundNat n : Rat) else roundNat n := by
  unfold nearest
  rw [if_neg positive]
  simp only [unitExponent_whole positive]
  by_cases long : 52 ≤ Nat.log2 n
  · have exponent : ((Nat.log2 n : Int) - 52).toNat = Nat.log2 n - 52 := by omega
    have units : inUnits n 1 ((Nat.log2 n : Int) - 52) = (n, unit n) := by
      rw [inUnits, if_pos (by omega), exponent, Nat.pow_eq, Nat.one_mul, unit]
    simp only [units]
    split
    · next carried =>
      have next : ((Nat.log2 n : Int) - 52 + 1).toNat = Nat.log2 n - 52 + 1 := by omega
      have none : (-((Nat.log2 n : Int) - 52 + 1)).toNat = 0 := by omega
      apply toRat_eq_of_mul
      rw [next, none, pow_zero, Nat.mul_one, roundNat, carried, leastNormal_eq, significandLimit_eq,
        unit]
      ring
    · have none : (-((Nat.log2 n : Int) - 52)).toNat = 0 := by omega
      apply toRat_eq_of_mul
      rw [exponent, none, pow_zero, Nat.mul_one, roundNat, unit]
  · have exponent : (-((Nat.log2 n : Int) - 52)).toNat = 52 - Nat.log2 n := by omega
    have none : ((Nat.log2 n : Int) - 52).toNat = 0 := by omega
    have units : inUnits n 1 ((Nat.log2 n : Int) - 52) = (n * 2 ^ (52 - Nat.log2 n), 1) := by
      rw [inUnits, if_neg (by omega), exponent, Nat.pow_eq]
    have fits : n * 2 ^ (52 - Nat.log2 n) ≠ significandLimit := by
      rw [significandLimit_eq]
      apply ne_of_lt
      calc n * 2 ^ (52 - Nat.log2 n)
          < 2 ^ (Nat.log2 n + 1) * 2 ^ (52 - Nat.log2 n) :=
            Nat.mul_lt_mul_of_pos_right Nat.lt_log2_self (Nat.two_pow_pos _)
        _ = 2 ^ 53 := by
          rw [← pow_add]
          congr 1
          omega
    simp only [units, roundDiv_one, if_neg fits]
    apply toRat_eq_of_mul
    rw [exponent, none, pow_zero, Nat.mul_one, roundNat_of_lt]
    exact (Nat.log2_lt positive).mp (by omega)

theorem toRat_ofInt (n : Int) : (ofInt n).toRat = round n := by
  unfold ofInt
  by_cases isZero : n = 0
  · subst isZero
    have worthless : 0 * 2 ^ leastExponent.toNat = 0 * 2 ^ (-leastExponent).toNat := by
      rw [Nat.zero_mul, Nat.zero_mul]
    simpa [nearest, zero, round] using toRat_eq_of_mul worthless false
  · rw [toRat_nearest_whole (Int.natAbs_ne_zero.mpr isZero)]
    unfold round
    rcases lt_or_gt_of_ne isZero with negative | positive
    · simp [negative, Int.sign_eq_neg_one_of_neg negative]
    · simp [not_lt.mpr positive.le, Int.sign_eq_one_of_pos positive]

/-! ## Which numbers fall together -/

theorem le_roundNat {n : Nat} (large : 2 ^ 53 ≤ n) : 2 ^ 53 ≤ roundNat n := by
  have positive : n ≠ 0 := by
    rintro rfl
    norm_num at large
  have long : 53 ≤ Nat.log2 n := (Nat.le_log2 positive).mpr large
  have bits : 2 ^ 52 * unit n = 2 ^ Nat.log2 n := by
    rw [unit, ← pow_add]
    congr 1
    omega
  have quotient : 2 ^ 52 ≤ n / unit n := by
    rw [Nat.le_div_iff_mul_le (unit_pos n), bits]
    exact Nat.log2_self_le positive
  calc 2 ^ 53 ≤ 2 ^ Nat.log2 n := Nat.pow_le_pow_right (by decide) long
    _ = 2 ^ 52 * unit n := bits.symm
    _ ≤ roundDiv n (unit n) * unit n :=
      Nat.mul_le_mul_right _ (quotient.trans (div_le_roundDiv n (unit n)))

theorem roundNat_lt_iff {n : Nat} : roundNat n < 2 ^ 53 ↔ n < 2 ^ 53 := by
  constructor
  · intro small
    by_contra large
    exact absurd small (not_lt.mpr (le_roundNat (not_lt.mp large)))
  · intro small
    rwa [roundNat_of_lt small]

theorem unit_le {n bits : Nat} (small : n < 2 ^ (bits + 53)) : unit n ≤ 2 ^ bits := by
  apply Nat.pow_le_pow_right (by decide)
  by_cases zero : n = 0
  · subst zero
    simp
  · have length := (Nat.log2_lt zero).mpr small
    omega

theorem natAbs_round (n : Int) : (round n).natAbs = roundNat n.natAbs := by
  by_cases zero : n = 0
  · subst zero
    rfl
  · rw [round, Int.natAbs_mul, Int.natAbs_sign_of_ne_zero zero, Nat.one_mul, Int.natAbs_natCast]

theorem round_of_lt {n : Int} (small : n.natAbs < 2 ^ 53) : round n = n := by
  rw [round, roundNat_of_lt small, Int.sign_mul_natAbs]

/-- A number below `2 ^ 53` is kept apart from all others. -/
theorem Merged.eq {a b : Int} (merged : Merged a b)
    (small : a.natAbs < 2 ^ 53 ∨ b.natAbs < 2 ^ 53) : a = b := by
  have bothSmall : a.natAbs < 2 ^ 53 ↔ b.natAbs < 2 ^ 53 := by
    rw [← roundNat_lt_iff, ← natAbs_round, merged, natAbs_round, roundNat_lt_iff]
  have smallA : a.natAbs < 2 ^ 53 := small.elim id bothSmall.mpr
  rw [Merged, round_of_lt smallA, round_of_lt (bothSmall.mp smallA)] at merged
  exact merged

/-- Rounding moves a number by at most half a unit. -/
theorem round_near (n : Int) : 2 * |round n - n| ≤ unit n.natAbs := by
  obtain ⟨above, below⟩ := roundDiv_near n.natAbs (unit_pos n.natAbs)
  rw [← roundNat] at above below
  have moved : |(roundNat n.natAbs : Int) - n.natAbs| * 2 ≤ unit n.natAbs := by
    rw [← Int.natCast_natAbs]
    omega
  have sign : |n.sign| ≤ 1 := by
    rcases n.sign_trichotomy with one | zero | minus
    · simp [one]
    · simp [zero]
    · simp [minus]
  have apart : round n - n = n.sign * (roundNat n.natAbs - n.natAbs) := by
    rw [round, mul_sub, Int.sign_mul_natAbs]
  calc 2 * |round n - n|
      = |n.sign| * (|(roundNat n.natAbs : Int) - n.natAbs| * 2) := by
        rw [apart, abs_mul]
        ring
    _ ≤ 1 * (|(roundNat n.natAbs : Int) - n.natAbs| * 2) :=
      mul_le_mul_of_nonneg_right sign (by positivity)
    _ ≤ unit n.natAbs := by rwa [one_mul]

/-- Numbers of at most 64 bits that are not kept apart are close to each other. -/
theorem Merged.near {a b : Int} (merged : Merged a b) (long : a.natAbs < 2 ^ 64)
    (longOther : b.natAbs < 2 ^ 64) : |a - b| ≤ 2 ^ 11 := by
  have near := round_near a
  have nearOther := round_near b
  have step : (unit a.natAbs : Int) ≤ 2 ^ 11 := by exact_mod_cast unit_le long
  have stepOther : (unit b.natAbs : Int) ≤ 2 ^ 11 := by exact_mod_cast unit_le longOther
  rw [merged, abs_sub_comm] at near
  have through := abs_sub_le a (round b) b
  linarith

end Double

end ManifestGate
