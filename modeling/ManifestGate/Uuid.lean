/-!
# Random identifiers

The text of a random identifier: 32 hexadecimal digits in five groups, of which one digit tells the
version and two bits the variant.
-/

namespace ManifestGate.Uuid

def hexDigits (count n : Nat) : List Char :=
  let digits := Nat.toDigits 16 (n % Nat.pow 16 count)
  List.replicate (count - digits.length) '0' ++ digits

/-- The identifier made of random bits: 48, 12 and 62 of them are used. -/
def ofBits (high middle low : Nat) : String :=
  let first := hexDigits 12 high
  let last := hexDigits 16 (Nat.pow 2 63 + low % Nat.pow 2 62)
  String.ofList (first.take 8 ++ '-' :: first.drop 8 ++ '-' :: '4' :: hexDigits 3 middle ++
    '-' :: last.take 4 ++ '-' :: last.drop 4)

end ManifestGate.Uuid
