import ManifestGate.Manifest.Call
import ManifestGate.Proofs.Number.Rounding

/-!
# How `ensure` compares numbers

An `ensure` clause compares a call result with a document, numbers as binary64 numbers. So of
documents that are equal but for whole numbers it compares what these are rounded to.
-/

namespace ManifestGate

namespace Json

mutual

/-- The documents are equal but for whole numbers, and those at one place are related. -/
inductive Paired (related : Int → Int → Prop) : Json → Json → Prop where
  | null : Paired related .null .null
  | bool {b : Bool} : Paired related (.bool b) (.bool b)
  | integer {a b : Int} : related a b →
      Paired related (.number (.integer a)) (.number (.integer b))
  | double {x : Double} : Paired related (.number (.double x)) (.number (.double x))
  | string {text : String} : Paired related (.string text) (.string text)
  | array {items others : List Json} : PairedItems related items others →
      Paired related (.array items) (.array others)
  | object {entries others : List (String × Json)} : PairedEntries related entries others →
      Paired related (.object entries) (.object others)

inductive PairedItems (related : Int → Int → Prop) : List Json → List Json → Prop where
  | nil : PairedItems related [] []
  | cons {item other : Json} {rest others : List Json} : Paired related item other →
      PairedItems related rest others → PairedItems related (item :: rest) (other :: others)

inductive PairedEntries (related : Int → Int → Prop) :
    List (String × Json) → List (String × Json) → Prop where
  | nil : PairedEntries related [] []
  | cons {key : String} {value other : Json} {rest others : List (String × Json)} :
      Paired related value other → PairedEntries related rest others →
      PairedEntries related ((key, value) :: rest) ((key, other) :: others)

end

section

variable {first second third : Int → Int → Prop}

mutual

/-- What two relations imply together is implied at all places. -/
theorem Paired.combine (implied : ∀ a b, first a b → second a b → third a b) :
    ∀ {one other : Json}, Paired first one other → Paired second one other →
      Paired third one other
  | _, _, .null, _ => .null
  | _, _, .bool, _ => .bool
  | _, _, .integer related, .integer relatedToo => .integer (implied _ _ related relatedToo)
  | _, _, .double, _ => .double
  | _, _, .string, _ => .string
  | _, _, .array items, .array itemsToo => .array (items.combine implied itemsToo)
  | _, _, .object entries, .object entriesToo => .object (entries.combine implied entriesToo)

theorem PairedItems.combine (implied : ∀ a b, first a b → second a b → third a b) :
    ∀ {items others : List Json}, PairedItems first items others → PairedItems second items others →
      PairedItems third items others
  | _, _, .nil, _ => .nil
  | _, _, .cons item rest, .cons itemToo restToo =>
    .cons (item.combine implied itemToo) (rest.combine implied restToo)

theorem PairedEntries.combine (implied : ∀ a b, first a b → second a b → third a b) :
    ∀ {entries others : List (String × Json)}, PairedEntries first entries others →
      PairedEntries second entries others → PairedEntries third entries others
  | _, _, .nil, _ => .nil
  | _, _, .cons value rest, .cons valueToo restToo =>
    .cons (value.combine implied valueToo) (rest.combine implied restToo)

end

end

mutual

theorem Paired.eq : ∀ {one other : Json}, Paired Eq one other → one = other
  | _, _, .null | _, _, .bool | _, _, .double | _, _, .string => rfl
  | _, _, .integer same => by rw [same]
  | _, _, .array items => by rw [items.eq]
  | _, _, .object entries => by rw [entries.eq]

theorem PairedItems.eq : ∀ {items others : List Json}, PairedItems Eq items others → items = others
  | _, _, .nil => rfl
  | _, _, .cons item rest => by rw [item.eq, rest.eq]

theorem PairedEntries.eq : ∀ {entries others : List (String × Json)},
    PairedEntries Eq entries others → entries = others
  | _, _, .nil => rfl
  | _, _, .cons value rest => by rw [value.eq, rest.eq]

end

mutual

theorem Paired.refl : ∀ json : Json, Paired Eq json json
  | .null => .null
  | .bool _ => .bool
  | .number (.integer _) => .integer rfl
  | .number (.double _) => .double
  | .string _ => .string
  | .array items => .array (PairedItems.refl items)
  | .object entries => .object (PairedEntries.refl entries)

theorem PairedItems.refl : ∀ items : List Json, PairedItems Eq items items
  | [] => .nil
  | item :: rest => .cons (Paired.refl item) (PairedItems.refl rest)

theorem PairedEntries.refl : ∀ entries : List (String × Json), PairedEntries Eq entries entries
  | [] => .nil
  | (_, json) :: rest => .cons (Paired.refl json) (PairedEntries.refl rest)

end

section

variable {related : Int → Int → Prop}

theorem paired_integer_iff {a b : Int} :
    Paired related (.number (.integer a)) (.number (.integer b)) ↔ related a b := by
  constructor
  · intro paired
    cases paired with
    | integer holds => exact holds
  · exact .integer

theorem paired_array_iff {items others : List Json} :
    Paired related (.array items) (.array others) ↔ PairedItems related items others := by
  constructor
  · intro paired
    cases paired with
    | array paired => exact paired
  · exact .array

theorem paired_object_iff {entries others : List (String × Json)} :
    Paired related (.object entries) (.object others) ↔ PairedEntries related entries others := by
  constructor
  · intro paired
    cases paired with
    | object paired => exact paired
  · exact .object

theorem pairedItems_cons_iff {item other : Json} {rest others : List Json} :
    PairedItems related (item :: rest) (other :: others) ↔
      Paired related item other ∧ PairedItems related rest others := by
  constructor
  · intro paired
    cases paired with
    | cons first later => exact ⟨first, later⟩
  · intro both
    exact .cons both.1 both.2

theorem pairedEntries_cons_iff {key : String} {value other : Json}
    {rest others : List (String × Json)} :
    PairedEntries related ((key, value) :: rest) ((key, other) :: others) ↔
      Paired related value other ∧ PairedEntries related rest others := by
  constructor
  · intro paired
    cases paired with
    | cons first later => exact ⟨first, later⟩
  · intro both
    exact .cons both.1 both.2

theorem PairedEntries.length_eq {entries others : List (String × Json)}
    (paired : PairedEntries related entries others) : entries.length = others.length := by
  cases paired with
  | nil => rfl
  | cons _ rest => rw [List.length_cons, List.length_cons, rest.length_eq]

end

/-! ## The comparison -/

mutual

/-- Documents that are equal but for whole numbers are alike if at each place the whole numbers are
rounded to one. -/
theorem alike_iff : ∀ {one other : Json}, Paired (fun _ _ => True) one other → other.Canonical →
    (one.alike other = true ↔ Paired Double.Merged one other)
  | _, _, .null, _ => iff_of_true rfl .null
  | _, _, .bool, _ => iff_of_true (by simp [alike]) .bool
  | _, _, .double, _ => iff_of_true (by simp [alike, Number.sameValue_refl]) .double
  | _, _, .string, _ => iff_of_true (by simp [alike]) .string
  | _, _, .integer _, _ => by
    rw [paired_integer_iff]
    simp [alike, Number.sameValue, Number.asDouble, Double.toRat_ofInt, Double.Merged]
  | _, _, .array items, canonical => by
    rw [alike, paired_array_iff]
    exact alikeItems_iff items canonical
  | _, .object others, .object entries, ⟨ordered, canonical⟩ => by
    rw [alike, paired_object_iff, Bool.and_eq_true, decide_eq_true_iff]
    have found : ∀ entry ∈ others, Dict.get? others entry.1 = some entry.2 :=
      fun entry member => Dict.get?_of_mem ordered.nodup_keys member
    rw [alikeEntries_iff entries canonical found, and_iff_right entries.length_eq]

theorem alikeItems_iff : ∀ {items others : List Json},
    PairedItems (fun _ _ => True) items others → CanonicalItems others →
      (alikeItems items others = true ↔ PairedItems Double.Merged items others)
  | _, _, .nil, _ => iff_of_true rfl .nil
  | _, _, .cons item rest, ⟨canonical, canonicalRest⟩ => by
    rw [alikeItems, Bool.and_eq_true, pairedItems_cons_iff, alike_iff item canonical,
      alikeItems_iff rest canonicalRest]

theorem alikeEntries_iff {whole : Dict Json} : ∀ {entries others : List (String × Json)},
    PairedEntries (fun _ _ => True) entries others → CanonicalEntries others →
    (∀ entry ∈ others, Dict.get? whole entry.1 = some entry.2) →
      (alikeEntries entries whole = true ↔ PairedEntries Double.Merged entries others)
  | _, _, .nil, _, _ => iff_of_true rfl .nil
  | _, _, .cons value rest, ⟨canonical, canonicalRest⟩, found => by
    obtain ⟨first, later⟩ := List.forall_mem_cons.mp found
    rw [alikeEntries, Bool.and_eq_true, pairedEntries_cons_iff, first]
    rw [alike_iff value canonical, alikeEntries_iff rest canonicalRest later]

end

end Json

theorem Predicate.value_holds_iff {expected result : Json} :
    (Predicate.value expected).holds (.ofJson result) = true ↔ result.alike expected = true := by
  simp [Predicate.holds, Value.toJson?_ofJson]

theorem Predicate.isnot_holds_iff {rejected result : Json} :
    (Predicate.isnot rejected).holds (.ofJson result) = true ↔ ¬result.alike rejected = true := by
  simp [Predicate.holds, Value.toJson?_ofJson]

/-- Between a result and a document that are equal but for whole numbers, an `ensure` clause decides
by what these are rounded to. So it compares exactly if at each place one of the two numbers is
below `2 ^ 53`. Larger ones it may take for equal though they are not, but only close ones. -/
theorem ensure_compares_rounded {result document : Json} (canonical : document.Canonical)
    (otherwise : result.Paired (fun _ _ => True) document) :
    ((Predicate.value document).holds (.ofJson result) = true ↔
      result.Paired Double.Merged document) ∧
    ((Predicate.isnot document).holds (.ofJson result) = true ↔
      ¬result.Paired Double.Merged document) ∧
    (result.Paired (fun a b => a.natAbs < 2 ^ 53 ∨ b.natAbs < 2 ^ 53) document →
      ((Predicate.value document).holds (.ofJson result) = true ↔ result = document) ∧
      ((Predicate.isnot document).holds (.ofJson result) = true ↔ result ≠ document)) ∧
    ((Predicate.value document).holds (.ofJson result) = true →
      result.Paired (fun a b => Number.InRange a → Number.InRange b → |a - b| ≤ 2 ^ 11)
        document) := by
  have decides := Json.alike_iff otherwise canonical
  rw [Predicate.value_holds_iff, Predicate.isnot_holds_iff, decides]
  refine ⟨Iff.rfl, Iff.rfl, ?_, ?_⟩
  · intro small
    have exactly : result.Paired Double.Merged document ↔ result = document := by
      constructor
      · intro merged
        exact (merged.combine (fun _ _ one bounded => one.eq bounded) small).eq
      · rintro rfl
        exact (Json.Paired.refl result).combine (fun _ _ same _ => congrArg _ same) otherwise
    exact ⟨exactly, not_congr exactly⟩
  · intro merged
    apply merged.combine _ otherwise
    intro a b one _ inRange inRangeOther
    unfold Number.InRange Number.leastInteger Number.greatestInteger at inRange inRangeOther
    exact one.near (by omega) (by omega)

/-- A document that gives a balance, and a small number beside it. -/
def balance (n : Int) : Json :=
  .object [("balance", .array [.number (.integer n), .number (.integer 5)])]

/-- The balances are one apart, and still pass for equal. -/
theorem balances_taken_for_equal :
    balance 9007199254740993 ≠ balance 9007199254740992 ∧
      (Predicate.value (balance 9007199254740992)).holds (.ofJson (balance 9007199254740993)) =
        true := by
  have canonical : (balance 9007199254740992).Canonical :=
    ⟨List.pairwise_singleton _ _, ⟨trivial, trivial, trivial⟩, trivial⟩
  have paired (related : Int → Int → Prop) (large : related 9007199254740993 9007199254740992)
      (five : related 5 5) :
      (balance 9007199254740993).Paired related (balance 9007199254740992) :=
    .object (.cons (.array (.cons (.integer large) (.cons (.integer five) .nil))) .nil)
  obtain ⟨decides, _⟩ := ensure_compares_rounded canonical (paired _ trivial trivial)
  exact ⟨by simp [balance], decides.mpr (paired _ (by decide +kernel) rfl)⟩

/-- Whole numbers of 64 bits are not compared exactly. -/
theorem large_integers_not_told_apart :
    ¬∀ a b : Int, Number.InRange a → Number.InRange b →
      ((Predicate.value (.number (.integer a))).holds (.number (.integer b)) = true ↔ a = b) := by
  intro exactly
  have one := (exactly 9007199254740993 9007199254740992 (by decide) (by decide)).mp
    (by decide +kernel)
  omega

end ManifestGate
