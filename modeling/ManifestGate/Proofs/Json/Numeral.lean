import Mathlib.Data.List.Basic
import Mathlib.Data.List.TakeDrop
import Mathlib.Data.List.TakeWhile
import ManifestGate.Json.Printer
import ManifestGate.Json.Reader
import ManifestGate.Proofs.Result

/-!
# Numerals in a text

A numeral is read up to the first character that cannot go on with it, so what stands behind it has
no part in its value. The text of a whole number in range is read as this number. For a double that
is a property of the double, since the reader rounds more than once.
-/

namespace ManifestGate

namespace Json

/-- What stands behind a numeral: nothing, or a character that no numeral goes on with. -/
def EndsNumeral (rest : List Char) : Prop :=
  ∀ c ∈ rest.head?, c.isDigit = false ∧ c ≠ '.' ∧ c ≠ 'e' ∧ c ≠ 'E'

/-- A character at which a numeral starts. -/
def StartsNumeral (c : Char) : Prop :=
  c = '-' ∨ c.isDigit = true

instance (c : Char) : Decidable (StartsNumeral c) :=
  inferInstanceAs (Decidable (_ ∨ _))

theorem StartsNumeral.ne {c d : Char} (starts : StartsNumeral c) (other : ¬StartsNumeral d) :
    c ≠ d :=
  fun same => other (same ▸ starts)

theorem StartsNumeral.printable {c : Char} (starts : StartsNumeral c) : isBlank c = false := by
  have space := starts.ne (d := ' ') (by decide)
  have newline := starts.ne (d := '\n') (by decide)
  have tab := starts.ne (d := '\t') (by decide)
  have carriage := starts.ne (d := '\r') (by decide)
  simp [isBlank, space, newline, tab, carriage]

theorem digits1_eq_ok_iff {text found left : List Char} :
    digits1 text = .ok (found, left) ↔
      found ≠ [] ∧ text = found ++ left ∧ (∀ c ∈ found, c.isDigit = true) ∧
        ∀ c ∈ left.head?, c.isDigit = false := by
  unfold digits1
  rw [List.span_eq_takeWhile_dropWhile]
  constructor
  · intro read
    cases taken : text.takeWhile Char.isDigit with
    | nil =>
      rw [taken] at read
      cases left : text.dropWhile Char.isDigit <;> rw [left] at read <;> cases read
    | cons c more =>
      rw [taken] at read
      cases read
      rw [← taken]
      refine ⟨by simp [taken], List.takeWhile_append_dropWhile.symm, ?_, ?_⟩
      · exact fun d member => List.mem_takeWhile_imp member
      · intro d head
        have stops := List.head?_dropWhile_not Char.isDigit text
        rw [Option.mem_def.mp head] at stops
        simpa using stops
  · rintro ⟨nonempty, rfl, digits, stops⟩
    have none : left.takeWhile Char.isDigit = [] := by
      cases left with
      | nil => rfl
      | cons c more => simp [stops c rfl]
    have all : left.dropWhile Char.isDigit = left := by
      cases left with
      | nil => rfl
      | cons c more => simp [stops c rfl]
    rw [List.takeWhile_append_of_pos digits, List.dropWhile_append_of_pos digits, none, all,
      List.append_nil]
    cases found with
    | nil => exact absurd rfl nonempty
    | cons c more => rfl

theorem digits1_append {text found left rest : List Char}
    (read : digits1 text = .ok (found, left)) (ends : EndsNumeral rest) :
    digits1 (text ++ rest) = .ok (found, left ++ rest) := by
  obtain ⟨nonempty, rfl, digits, stops⟩ := digits1_eq_ok_iff.mp read
  refine digits1_eq_ok_iff.mpr ⟨nonempty, List.append_assoc _ _ _, digits, ?_⟩
  cases left with
  | nil => exact fun c head => (ends c head).1
  | cons c more => exact stops

theorem readWhole_of_ne {c : Char} (different : c ≠ '0') (rest : List Char) :
    readWhole (c :: rest) = digits1 (c :: rest) := by
  unfold readWhole
  split
  · next same => exact absurd (List.cons.inj same).1 different
  · rfl

/-- A zero at the front stands alone. -/
theorem readWhole_zero {rest : List Char} (ends : EndsNumeral rest) :
    readWhole ('0' :: rest) = .ok (['0'], rest) := by
  cases rest with
  | nil => rfl
  | cons c more => simp [readWhole, (ends c rfl).1]

theorem readWhole_append {text found left rest : List Char}
    (read : readWhole text = .ok (found, left)) (ends : EndsNumeral rest) :
    readWhole (text ++ rest) = .ok (found, left ++ rest) := by
  cases text with
  | nil => cases read
  | cons c more =>
    by_cases zero : c = '0'
    · subst zero
      cases more with
      | nil =>
        cases read
        exact readWhole_zero ends
      | cons d others =>
        simp only [readWhole] at read
        split at read
        · cases read
        · next notDigit =>
          cases read
          simp [readWhole, notDigit]
    · rw [readWhole_of_ne zero] at read
      rw [List.cons_append, readWhole_of_ne zero]
      exact digits1_append read ends

theorem readFraction_none {text : List Char} (plain : ∀ c ∈ text.head?, c ≠ '.') :
    readFraction text = .ok (none, text) := by
  unfold readFraction
  split
  · next more => exact absurd rfl (plain '.' rfl)
  · rfl

theorem readFraction_append {text left rest : List Char} {found : Option (List Char)}
    (read : readFraction text = .ok (found, left)) (ends : EndsNumeral rest) :
    readFraction (text ++ rest) = .ok (found, left ++ rest) := by
  by_cases point : ∃ more, text = '.' :: more
  · obtain ⟨more, rfl⟩ := point
    obtain ⟨⟨digits, after⟩, taken, same⟩ := Except.map_eq_ok_iff.mp read
    cases same
    simp only [List.cons_append, readFraction, digits1_append taken ends]
    rfl
  · have plain : ∀ c ∈ text.head?, c ≠ '.' := by
      rintro c head rfl
      exact point ⟨text.tail, List.eq_cons_of_mem_head? head⟩
    rw [readFraction_none plain] at read
    cases read
    apply readFraction_none
    cases text with
    | nil => exact fun c head => (ends c head).2.1
    | cons c more => exact plain

theorem readPower_none {text : List Char} (plain : ∀ c ∈ text.head?, c ≠ 'e' ∧ c ≠ 'E') :
    readPower text = .ok (none, text) := by
  cases text with
  | nil => rfl
  | cons c more =>
    obtain ⟨lower, upper⟩ := plain c rfl
    simp [readPower, lower, upper]

/-- The sign of a power, and what is left without it. -/
def powerSign : List Char → Bool × List Char
  | '-' :: more => (true, more)
  | '+' :: more => (false, more)
  | more => (false, more)

theorem powerSign_append {text : List Char} (nonempty : text ≠ []) (rest : List Char) :
    powerSign (text ++ rest) = ((powerSign text).1, (powerSign text).2 ++ rest) := by
  cases text with
  | nil => exact absurd rfl nonempty
  | cons c more =>
    by_cases minus : c = '-'
    · subst minus
      rfl
    · by_cases plus : c = '+'
      · subst plus
        rfl
      · simp [powerSign, minus, plus]

theorem readPower_marked {c : Char} (mark : c = 'e' ∨ c = 'E') (more : List Char) :
    readPower (c :: more) = (digits1 (powerSign more).2).map fun (found, rest) =>
      let magnitude := found.foldl (fun m c => m * 10 + digitValue c) 0
      (some (if (powerSign more).1 then -(magnitude : Int) else magnitude), rest) := by
  simp only [readPower, mark, if_true]
  rfl

theorem readPower_append {text left rest : List Char} {power : Option Int}
    (read : readPower text = .ok (power, left)) (ends : EndsNumeral rest) :
    readPower (text ++ rest) = .ok (power, left ++ rest) := by
  by_cases marked : ∃ c more, text = c :: more ∧ (c = 'e' ∨ c = 'E')
  · obtain ⟨c, more, rfl, mark⟩ := marked
    rw [readPower_marked mark] at read
    obtain ⟨⟨digits, after⟩, taken, same⟩ := Except.map_eq_ok_iff.mp read
    cases same
    have nonempty : more ≠ [] := by
      rintro rfl
      cases taken
    rw [List.cons_append, readPower_marked mark, powerSign_append nonempty,
      digits1_append taken ends]
    rfl
  · have plain : ∀ c ∈ text.head?, c ≠ 'e' ∧ c ≠ 'E' := by
      intro c head
      have whole : text = c :: text.tail := List.eq_cons_of_mem_head? head
      exact ⟨fun lower => marked ⟨c, _, whole, .inl lower⟩,
        fun upper => marked ⟨c, _, whole, .inr upper⟩⟩
    rw [readPower_none plain] at read
    cases read
    apply readPower_none
    cases text with
    | nil => exact fun c head => (ends c head).2.2
    | cons c more => exact plain

/-- Whether a numeral is negative, and what is left without its sign. -/
def numeralSign : List Char → Bool × List Char
  | '-' :: rest => (true, rest)
  | text => (false, text)

theorem readNumber_eq (text : List Char) :
    readNumber text = (do
      let (whole, rest) ← readWhole (numeralSign text).2
      let (fractional, rest) ← readFraction rest
      let (power, rest) ← readPower rest
      match Numeral.value? ⟨(numeralSign text).1, whole, fractional, power⟩ with
      | some n => .ok (.number n, rest)
      | none => .error .number) := by
  unfold readNumber
  split
  next negative rest sign =>
    have same : numeralSign text = (negative, rest) := by
      rw [← sign]
      cases text with
      | nil => rfl
      | cons c more =>
        by_cases minus : c = '-'
        · rw [minus]
          rfl
        · simp [numeralSign, minus]
    obtain rfl : (numeralSign text).1 = negative := congrArg Prod.fst same
    obtain rfl : (numeralSign text).2 = rest := congrArg Prod.snd same
    rfl

theorem readNumber_ok_iff {text left : List Char} {json : Json} :
    readNumber text = .ok (json, left) ↔
      ∃ whole afterWhole fractional afterFraction power n,
        readWhole (numeralSign text).2 = .ok (whole, afterWhole) ∧
        readFraction afterWhole = .ok (fractional, afterFraction) ∧
        readPower afterFraction = .ok (power, left) ∧
        Numeral.value? ⟨(numeralSign text).1, whole, fractional, power⟩ = some n ∧
        json = .number n := by
  rw [readNumber_eq]
  constructor
  · intro read
    obtain ⟨⟨whole, afterWhole⟩, readW, read⟩ := Except.bind_eq_ok_iff.mp read
    obtain ⟨⟨fractional, afterFraction⟩, readF, read⟩ := Except.bind_eq_ok_iff.mp read
    obtain ⟨⟨power, afterPower⟩, readP, read⟩ := Except.bind_eq_ok_iff.mp read
    dsimp only at readF readP read
    split at read
    · next n value =>
      cases read
      exact ⟨_, _, _, _, _, n, readW, readF, readP, value, rfl⟩
    · cases read
  · rintro ⟨whole, afterWhole, fractional, afterFraction, power, n, readW, readF, readP, value, rfl⟩
    simp [readW, readF, readP, value, bind, Except.bind]

theorem numeralSign_append {text : List Char} (nonempty : text ≠ []) (rest : List Char) :
    numeralSign (text ++ rest) = ((numeralSign text).1, (numeralSign text).2 ++ rest) := by
  cases text with
  | nil => exact absurd rfl nonempty
  | cons c more =>
    by_cases minus : c = '-'
    · subst minus
      rfl
    · simp [numeralSign, minus]

/-- A numeral is read alike before any text that ends it. -/
theorem readNumber_append {text left rest : List Char} {json : Json}
    (read : readNumber text = .ok (json, left)) (ends : EndsNumeral rest) :
    readNumber (text ++ rest) = .ok (json, left ++ rest) := by
  have nonempty : text ≠ [] := by
    rintro rfl
    cases read
  obtain ⟨_, _, _, _, _, n, whole, fractional, power, value, rfl⟩ := readNumber_ok_iff.mp read
  rw [readNumber_ok_iff, numeralSign_append nonempty]
  exact ⟨_, _, _, _, _, n, readWhole_append whole ends, readFraction_append fractional ends,
    readPower_append power ends, value, rfl⟩

/-- A numeral starts with a digit or a minus sign. -/
theorem readNumber_head {text left : List Char} {json : Json}
    (read : readNumber text = .ok (json, left)) :
    ∃ c rest, text = c :: rest ∧ StartsNumeral c := by
  obtain ⟨whole, afterWhole, _, _, _, _, readW, _⟩ := readNumber_ok_iff.mp read
  cases text with
  | nil => cases readW
  | cons c rest =>
    refine ⟨c, rest, rfl, ?_⟩
    by_cases minus : c = '-'
    · exact .inl minus
    · have unsigned : (numeralSign (c :: rest)).2 = c :: rest := by simp [numeralSign, minus]
      rw [unsigned] at readW
      by_cases zero : c = '0'
      · exact .inr (zero ▸ rfl)
      · rw [readWhole_of_ne zero] at readW
        obtain ⟨nonempty, split, digits, _⟩ := digits1_eq_ok_iff.mp readW
        cases whole with
        | nil => exact absurd rfl nonempty
        | cons d more =>
          cases split
          exact .inr (digits c List.mem_cons_self)

/-! ## Whole numbers -/

theorem foldl_digitValue_toDigits (n : Nat) :
    (Nat.toDigits 10 n).foldl (fun m c => m * 10 + digitValue c) 0 = n := by
  have value := @Nat.ofDigitChars_ten_toDigits n
  rw [Nat.ofDigitChars_eq_foldl] at value
  simpa only [digitValue, Nat.mul_comm] using value

theorem head_toDigits_ne_zero {n : Nat} (positive : 0 < n) :
    (Nat.toDigits 10 n).head? ≠ some '0' := by
  induction n using Nat.strongRecOn with
  | ind n ih =>
    by_cases small : n < 10
    · rw [Nat.toDigits_of_lt_base small]
      have nonzero : ∀ k < 10, 0 < k → Nat.digitChar k ≠ '0' := by decide
      simpa using nonzero n small positive
    · have tens : 10 ≤ n := Nat.not_lt.mp small
      have shorter := ih (n / 10) (by omega) (by omega)
      rw [Nat.toDigits_of_base_le (by decide) tens,
        List.head?_append_of_ne_nil _ Nat.toDigits_ne_nil]
      exact shorter

theorem readWhole_toDigits (n : Nat) :
    readWhole (Nat.toDigits 10 n) = .ok (Nat.toDigits 10 n, []) := by
  by_cases positive : 0 < n
  · have digits : ∀ c ∈ Nat.toDigits 10 n, c.isDigit = true :=
      fun c member => Nat.isDigit_of_mem_toDigits (by decide) (by decide) member
    have taken : digits1 (Nat.toDigits 10 n) = .ok (Nat.toDigits 10 n, []) :=
      digits1_eq_ok_iff.mpr ⟨Nat.toDigits_ne_nil, (List.append_nil _).symm, digits, nofun⟩
    have front := head_toDigits_ne_zero positive
    cases text : Nat.toDigits 10 n with
    | nil => exact absurd text Nat.toDigits_ne_nil
    | cons c more =>
      rw [text] at front taken
      rw [readWhole_of_ne (fun zero => front (by rw [zero]; rfl)), taken]
  · obtain rfl : n = 0 := by omega
    rfl

end Json

namespace Number

/-- The text of the number is read as the number. -/
def ReadsBack (n : Number) : Prop :=
  Json.readNumber n.toText.toList = .ok (.number n, [])

theorem toText_natCast (n : Nat) :
    (Number.integer n).toText.toList = Nat.toDigits 10 n := by
  change (toString n).toList = _
  rw [Nat.toString_eq_ofList_toDigits, String.toList_ofList]

theorem toText_negSucc (n : Nat) :
    (Number.integer (Int.negSucc n)).toText.toList = '-' :: Nat.toDigits 10 (n + 1) := by
  change ("-" ++ toString (n + 1)).toList = _
  simp

end Number

namespace Json

theorem numeralSign_toDigits (n : Nat) :
    numeralSign (Nat.toDigits 10 n) = (false, Nat.toDigits 10 n) := by
  have digits : ∀ c ∈ Nat.toDigits 10 n, c.isDigit = true :=
    fun c member => Nat.isDigit_of_mem_toDigits (by decide) (by decide) member
  cases text : Nat.toDigits 10 n with
  | nil => exact absurd text Nat.toDigits_ne_nil
  | cons c more =>
    have digit := digits c (text ▸ List.mem_cons_self)
    have noMinus : c ≠ '-' := by
      rintro rfl
      cases digit
    simp [numeralSign, noMinus]

end Json

namespace Number

/-- A whole number that fits into 64 bits is read from its text, with or without a sign. -/
theorem readsBack_integer {n : Int} (inRange : InRange n) : (Number.integer n).ReadsBack := by
  unfold ReadsBack
  rw [Json.readNumber_ok_iff]
  cases n with
  | ofNat m =>
    rw [Int.ofNat_eq_natCast] at inRange ⊢
    refine ⟨Nat.toDigits 10 m, [], none, [], none, .integer m, ?_, rfl, rfl, ?_, rfl⟩
    · rw [toText_natCast, Json.numeralSign_toDigits]
      exact Json.readWhole_toDigits m
    · rw [toText_natCast, Json.numeralSign_toDigits]
      simp [Json.Numeral.value?, Json.foldl_digitValue_toDigits, inRange]
  | negSucc m =>
    refine ⟨Nat.toDigits 10 (m + 1), [], none, [], none, .integer (.negSucc m), ?_, rfl, rfl, ?_,
      rfl⟩
    · rw [toText_negSucc]
      exact Json.readWhole_toDigits (m + 1)
    · have value : -((m + 1 : Nat) : Int) = Int.negSucc m := rfl
      rw [toText_negSucc]
      simp only [Json.Numeral.value?, Json.foldl_digitValue_toDigits, Json.numeralSign, value]
      simp [inRange]

end Number
end ManifestGate
