import ManifestGate.Number.Shortest

/-!
# Numbers of documents

A number is a whole number or a binary64 number, and the two stay apart: `1` is not `1.0`. Only
a comparison by value takes both as binary64 numbers, and there a large whole number is rounded.
-/

namespace ManifestGate

inductive Number where
  | integer (value : Int)
  | double (value : Double)
  deriving DecidableEq, Inhabited

namespace Number

/-- The least whole number of 64 bits with sign; a number below it is a double. -/
def leastInteger : Int := -9223372036854775808

/-- The greatest whole number of 64 bits without sign; a number above it is a double. -/
def greatestInteger : Int := 18446744073709551615

def InRange (n : Int) : Prop := leastInteger ≤ n ∧ n ≤ greatestInteger

instance (n : Int) : Decidable (InRange n) :=
  inferInstanceAs (Decidable (_ ∧ _))

/-- The number as a double, rounded to the nearest. -/
def asDouble : Number → Double
  | .integer n => Double.ofInt n
  | .double x => x

/-- Same kind and same value; the two zeros of a double have the same value. -/
def same : Number → Number → Bool
  | .integer a, .integer b => a = b
  | .double x, .double y => x.toRat = y.toRat
  | _, _ => false

/-- Same value as doubles. -/
def sameValue (a b : Number) : Bool :=
  a.asDouble.toRat = b.asDouble.toRat

def toText : Number → String
  | .integer n => toString n
  | .double x => x.toText

/-- The number as a status code, if it is a whole number of at most 16 bits. -/
def code? : Number → Option Nat
  | .integer n => if 0 ≤ n ∧ n < 65536 then some n.toNat else none
  | .double _ => none

theorem code?_eq_some_iff {n : Number} {code : Nat} :
    n.code? = some code ↔ n = .integer code ∧ code < 65536 := by
  cases n with
  | integer value =>
    rw [code?, integer.injEq]
    constructor
    · intro read
      split at read
      · next bounded =>
        obtain ⟨positive, small⟩ := bounded
        have same := Option.some.inj read
        omega
      · cases read
    · rintro ⟨rfl, small⟩
      rw [if_pos ⟨Int.natCast_nonneg code, by omega⟩, Int.toNat_natCast]
  | double x => simp [code?]

theorem same_refl (a : Number) : same a a = true := by
  cases a <;> simp [same]

theorem same_symm (a b : Number) : same a b = same b a := by
  cases a <;> cases b <;> simp [same, eq_comm]

theorem sameValue_refl (a : Number) : sameValue a a = true := by
  simp [sameValue]

theorem sameValue_symm (a b : Number) : sameValue a b = sameValue b a := by
  simp [sameValue, eq_comm]

theorem sameValue_trans {a b c : Number} (first : sameValue a b = true)
    (second : sameValue b c = true) : sameValue a c = true := by
  simp only [sameValue, decide_eq_true_eq] at *
  exact first.trans second

end Number

end ManifestGate
