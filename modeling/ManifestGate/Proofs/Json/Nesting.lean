import ManifestGate.Proofs.Json.Canonical
import ManifestGate.Proofs.Json.Numeral

/-!
# How deep documents nest

A document nests as deep as its deepest part and one container more. What the reader accepts nests
less deep than its limit, and making a document canonical adds no container.
-/

namespace ManifestGate.Json

theorem nestingItems_le_iff {items : List Json} {bound : Nat} :
    nestingItems items ≤ bound ↔ ∀ item ∈ items, item.nesting ≤ bound := by
  induction items with
  | nil => simp [nestingItems]
  | cons item rest ih => rw [nestingItems, Nat.max_le, ih, List.forall_mem_cons]

theorem nestingEntries_le_iff {entries : List (String × Json)} {bound : Nat} :
    nestingEntries entries ≤ bound ↔ ∀ entry ∈ entries, entry.2.nesting ≤ bound := by
  induction entries with
  | nil => simp [nestingEntries]
  | cons entry rest ih => rw [nestingEntries, Nat.max_le, ih, List.forall_mem_cons]

theorem nestingEntries_append (first second : List (String × Json)) :
    nestingEntries (first ++ second) = max (nestingEntries first) (nestingEntries second) := by
  induction first with
  | nil => simp [nestingEntries]
  | cons entry rest ih => simp only [List.cons_append, nestingEntries, ih, Nat.max_assoc]

theorem nesting_lt_of_mem_items {item : Json} {items : List Json} (member : item ∈ items) :
    item.nesting < (array items).nesting :=
  Nat.lt_succ_of_le (nestingItems_le_iff.mp (Nat.le_refl _) item member)

theorem nesting_lt_of_mem_entries {entry : String × Json} {entries : List (String × Json)}
    (member : entry ∈ entries) : entry.2.nesting < (object entries).nesting :=
  Nat.lt_succ_of_le (nestingEntries_le_iff.mp (Nat.le_refl _) entry member)

theorem nesting_lt_of_get? {entries : Dict Json} {key : String} {value : Json}
    (found : entries.get? key = some value) : value.nesting < (object entries).nesting :=
  nesting_lt_of_mem_entries (Dict.mem_of_get?_eq_some found)

mutual

theorem nesting_canonical_le : ∀ json : Json, json.canonical.nesting ≤ json.nesting
  | .null | .bool _ | .number _ | .string _ => Nat.le_refl _
  | .array items => Nat.succ_le_succ (nestingItems_canonical_le items)
  | .object entries => by
    refine Nat.succ_le_succ (nestingEntries_le_iff.mpr fun entry member => ?_)
    exact nestingEntries_le_iff.mp (nestingEntries_canonical_le entries) entry
      (Dict.mem_ofList member)

theorem nestingItems_canonical_le : ∀ items : List Json,
    nestingItems (canonicalItems items) ≤ nestingItems items
  | [] => Nat.le_refl _
  | item :: rest => by
    have first := nesting_canonical_le item
    have others := nestingItems_canonical_le rest
    simp only [canonicalItems, nestingItems]
    omega

theorem nestingEntries_canonical_le : ∀ entries : List (String × Json),
    nestingEntries (canonicalEntries entries) ≤ nestingEntries entries
  | [] => Nat.le_refl _
  | (_, value) :: rest => by
    have first := nesting_canonical_le value
    have others := nestingEntries_canonical_le rest
    simp only [canonicalEntries, nestingEntries]
    omega

end

/-! ## The reader -/

theorem failAt_ne_ok (text : List Char) (found : α × List Char) : failAt text ≠ .ok found := by
  cases text <;> exact nofun

theorem expect_ok {value found : α} {wanted text rest : List Char}
    (taken : expect value wanted text = .ok (found, rest)) : found = value := by
  induction wanted generalizing text with
  | nil =>
    cases taken
    rfl
  | cons c more ih =>
    cases text with
    | nil => cases taken
    | cons d text =>
      rw [expect] at taken
      split at taken
      · exact ih taken
      · cases taken

theorem nesting_of_readNumber {text rest : List Char} {json : Json}
    (read : readNumber text = .ok (json, rest)) : json.nesting = 0 := by
  obtain ⟨_, _, _, _, _, n, _, _, _, _, rfl⟩ := readNumber_ok_iff.mp read
  rfl

section

variable {item : List Char → Except ReadError (Json × List Char)} {bound : Nat}
  (bounded : ∀ text json rest, item text = .ok (json, rest) → json.nesting ≤ bound)

include bounded

theorem nesting_of_readItems {fuel : Nat} {text rest : List Char} {items : List Json}
    (read : readItems item fuel text = .ok (items, rest)) : nestingItems items ≤ bound := by
  induction fuel generalizing text items with
  | zero => cases read
  | succ fuel ih =>
    unfold readItems at read
    obtain ⟨⟨first, after⟩, readFirst, read⟩ := Except.bind_eq_ok_iff.mp read
    have firstBounded := bounded _ _ _ readFirst
    dsimp only at read
    split at read
    · obtain ⟨⟨more, after⟩, readMore, read⟩ := Except.bind_eq_ok_iff.mp read
      cases read
      exact Nat.max_le.mpr ⟨firstBounded, ih readMore⟩
    · cases read
      exact Nat.max_le.mpr ⟨firstBounded, Nat.zero_le _⟩
    · exact absurd read (failAt_ne_ok _ _)

theorem nesting_of_readEntries {fuel : Nat} {text rest : List Char}
    {entries : List (String × Json)} (read : readEntries item fuel text = .ok (entries, rest)) :
    nestingEntries entries ≤ bound := by
  induction fuel generalizing text entries with
  | zero => cases read
  | succ fuel ih =>
    unfold readEntries at read
    split at read
    · obtain ⟨⟨key, after⟩, _, read⟩ := Except.bind_eq_ok_iff.mp read
      dsimp only at read
      split at read
      · obtain ⟨⟨value, after⟩, readValue, read⟩ := Except.bind_eq_ok_iff.mp read
        have valueBounded := bounded _ _ _ readValue
        dsimp only at read
        split at read
        · obtain ⟨⟨more, after⟩, readMore, read⟩ := Except.bind_eq_ok_iff.mp read
          cases read
          exact Nat.max_le.mpr ⟨valueBounded, ih readMore⟩
        · cases read
          exact Nat.max_le.mpr ⟨valueBounded, Nat.zero_le _⟩
        · exact absurd read (failAt_ne_ok _ _)
      · exact absurd read (failAt_ne_ok _ _)
    · exact absurd read (failAt_ne_ok _ _)

end

/-- A document read at a depth nests no deeper. -/
theorem nesting_of_readValue {depth : Nat} {text rest : List Char} {json : Json}
    (read : readValue depth text = .ok (json, rest)) : json.nesting ≤ depth := by
  induction depth using Nat.strongRecOn generalizing text json rest with
  | ind depth ih =>
    have scalar : json.nesting = 0 → json.nesting ≤ depth := fun none => none ▸ Nat.zero_le depth
    -- inside a container the reader goes one container less deep
    have inside : ∀ {smaller}, smaller < depth → ∀ text json rest,
        readValue smaller text = .ok (json, rest) → json.nesting ≤ smaller :=
      fun less _ _ _ => ih _ less
    rw [readValue.eq_def] at read
    dsimp only at read
    split at read
    · exact scalar (by rw [expect_ok read]; rfl)
    · exact scalar (by rw [expect_ok read]; rfl)
    · exact scalar (by rw [expect_ok read]; rfl)
    · obtain ⟨⟨found, after⟩, _, same⟩ := Except.map_eq_ok_iff.mp read
      cases same
      exact scalar rfl
    · split at read
      · cases read
      · split at read
        · cases read
          exact Nat.le_add_left _ _
        · obtain ⟨⟨items, after⟩, readItems, same⟩ := Except.map_eq_ok_iff.mp read
          cases same
          exact Nat.succ_le_succ (nesting_of_readItems (inside (Nat.lt_succ_self _)) readItems)
    · split at read
      · cases read
      · split at read
        · cases read
          exact Nat.le_add_left _ _
        · obtain ⟨⟨entries, after⟩, readEntries, same⟩ := Except.map_eq_ok_iff.mp read
          cases same
          exact Nat.succ_le_succ
            (nesting_of_readEntries (inside (Nat.lt_succ_self _)) readEntries)
    · split at read
      · exact scalar (nesting_of_readNumber read)
      · cases read
    · cases read

/-- What is parsed nests less deep than the limit. -/
theorem nesting_lt_of_parse {text : String} {json : Json} (parsed : parse text = .ok json) :
    json.nesting < nestingLimit := by
  unfold parse at parsed
  obtain ⟨found, read, rfl⟩ := Except.map_eq_ok_iff.mp parsed
  unfold Json.read at read
  obtain ⟨⟨value, rest⟩, readValue, read⟩ := Except.bind_eq_ok_iff.mp read
  dsimp only at read
  split at read
  · cases read
    refine Nat.lt_of_le_of_lt (nesting_canonical_le _) ?_
    exact Nat.lt_of_le_of_lt (nesting_of_readValue readValue) (by decide)
  · cases read

theorem canonical_of_parse {text : String} {json : Json} (parsed : parse text = .ok json) :
    json.Canonical := by
  obtain ⟨found, _, rfl⟩ := Except.map_eq_ok_iff.mp parsed
  exact canonical_canonical found

end ManifestGate.Json
