import ManifestGate.Json.Basic

/-!
# Canonical documents

Entries that are already in ascending key order are a dictionary as they stand, so a canonical
document is its own canonical form, and whatever is looked up in it is canonical.
-/

namespace ManifestGate

namespace Dict

theorem insert_of_greatest {dict : Dict α} {key : String}
    (greatest : ∀ entry ∈ dict, entry.1 < key) (value : α) :
    dict.insert key value = dict ++ [(key, value)] := by
  induction dict with
  | nil => rfl
  | cons head rest ih =>
    obtain ⟨k, v⟩ := head
    have before : k < key := greatest (k, v) List.mem_cons_self
    have notBefore : ¬key < k := fun after => String.lt_irrefl k (String.lt_trans before after)
    have different : key ≠ k := fun same => String.lt_irrefl k (same ▸ before)
    rw [insert, if_neg notBefore, if_neg different,
      ih fun entry member => greatest entry (List.mem_cons_of_mem _ member)]
    rfl

theorem insertAll_of_ascending {dict : Dict α} {entries : List (String × α)}
    (ordered : Ascending (dict ++ entries)) : dict.insertAll entries = dict ++ entries := by
  induction entries generalizing dict with
  | nil => exact (List.append_nil dict).symm
  | cons entry rest ih =>
    have greatest : ∀ other ∈ dict, other.1 < entry.1 := fun other member =>
      (List.pairwise_append.mp ordered).2.2 other member entry List.mem_cons_self
    change (dict.insert entry.1 entry.2).insertAll rest = _
    rw [insert_of_greatest greatest, List.append_cons dict entry rest]
    exact ih (List.append_cons dict entry rest ▸ ordered)

/-- Entries in ascending key order are their own dictionary. -/
theorem ofList_of_ascending {entries : List (String × α)} (ordered : Ascending entries) :
    ofList entries = entries :=
  insertAll_of_ascending ordered

theorem mem_insertAll {dict : Dict α} {entries : List (String × α)} {entry : String × α}
    (member : entry ∈ dict.insertAll entries) : entry ∈ dict ∨ entry ∈ entries := by
  induction entries generalizing dict with
  | nil => exact .inl member
  | cons head rest ih =>
    rcases ih member with present | later
    · rcases mem_insert present with same | inside
      · exact .inr (same ▸ List.mem_cons_self)
      · exact .inl inside
    · exact .inr (List.mem_cons_of_mem _ later)

theorem mem_ofList {entries : List (String × α)} {entry : String × α}
    (member : entry ∈ ofList entries) : entry ∈ entries :=
  (mem_insertAll member).resolve_left List.not_mem_nil

end Dict

namespace Json

mutual

theorem canonical_eq_self : ∀ {json : Json}, json.Canonical → json.canonical = json
  | .null, _ | .bool _, _ | .number _, _ | .string _, _ => rfl
  | .array items, sound => congrArg array (canonicalItems_eq_self sound)
  | .object entries, ⟨ordered, sound⟩ => by
    rw [canonical, canonicalEntries_eq_self sound, Dict.ofList_of_ascending ordered]

theorem canonicalItems_eq_self : ∀ {items : List Json}, CanonicalItems items →
    canonicalItems items = items
  | [], _ => rfl
  | item :: rest, ⟨first, others⟩ => by
    rw [canonicalItems, canonical_eq_self first, canonicalItems_eq_self others]

theorem canonicalEntries_eq_self : ∀ {entries : List (String × Json)}, CanonicalEntries entries →
    canonicalEntries entries = entries
  | [], _ => rfl
  | (key, value) :: rest, ⟨first, others⟩ => by
    rw [canonicalEntries, canonical_eq_self first, canonicalEntries_eq_self others]

end

theorem canonicalItems_iff {items : List Json} :
    CanonicalItems items ↔ ∀ item ∈ items, item.Canonical := by
  induction items with
  | nil => simp [CanonicalItems]
  | cons item rest ih => simp [CanonicalItems, ih]

theorem Canonical.of_get? {entries : Dict Json} {key : String} {value : Json}
    (sound : (object entries).Canonical) (found : entries.get? key = some value) :
    value.Canonical :=
  canonicalEntries_iff.mp sound.2 (key, value) (Dict.mem_of_get?_eq_some found)

end Json

end ManifestGate
