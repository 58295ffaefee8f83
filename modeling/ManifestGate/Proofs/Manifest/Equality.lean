import Mathlib.Data.List.Perm.Subperm
import ManifestGate.Proofs.Json.Canonical
import ManifestGate.Proofs.Manifest.Comparison

/-!
# What `ensure` takes for equal

Two arrays are compared place by place and two objects key by key, but of an object only the size and
the keys on the left are looked at. Where no key stands twice that is enough: by counting, the keys on
the right are the same ones. So the comparison is an equivalence of documents, and it is decided by
the parts of a document.
-/

namespace ManifestGate

namespace Dict

variable {α : Type}

theorem exists_get?_of_mem_keys {dict : Dict α} {key : String} (member : key ∈ dict.keys) :
    ∃ value, dict.get? key = some value :=
  Option.isSome_iff_exists.mp (contains_iff_mem_keys.mpr member)

theorem mem_keys_of_get? {dict : Dict α} {key : String} {value : α}
    (found : dict.get? key = some value) : key ∈ dict.keys :=
  List.mem_map_of_mem (mem_of_get?_eq_some found)

/-- Dictionaries of one size have the same keys if one of them has the keys of the other. -/
theorem mem_keys_iff_of_length_eq {entries others : Dict α} (distinct : entries.keys.Nodup)
    (sameSize : entries.length = others.length) (included : ∀ key ∈ entries.keys, key ∈ others.keys)
    (key : String) : key ∈ entries.keys ↔ key ∈ others.keys := by
  have sizes : others.keys.length ≤ entries.keys.length := by
    rw [keys, keys, List.length_map, List.length_map, sameSize]
  have counted : entries.keys.Perm others.keys :=
    (List.Nodup.subperm distinct included).perm_of_length_le sizes
  exact counted.mem_iff

end Dict

namespace Json

/-- What holds of an array if it holds of its items, and of an object if it holds of its values, holds
of all documents if it holds of the scalars. -/
@[elab_as_elim]
theorem induct {motive : Json → Prop} (null : motive .null) (bool : ∀ b, motive (.bool b))
    (number : ∀ n, motive (.number n)) (string : ∀ text, motive (.string text))
    (array : ∀ items, (∀ item ∈ items, motive item) → motive (.array items))
    (object : ∀ entries, (∀ entry ∈ entries, motive entry.2) → motive (.object entries))
    (json : Json) : motive json := by
  cases json with
  | null => exact null
  | bool b => exact bool b
  | number n => exact number n
  | string text => exact string text
  | array items =>
    apply array
    intro item member
    exact induct null bool number string array object item
  | object entries =>
    apply object
    intro entry member
    have inside := List.sizeOf_lt_of_mem member
    have parts : sizeOf entry = 1 + sizeOf entry.1 + sizeOf entry.2 := Prod.mk.sizeOf_spec _ _
    have smaller : sizeOf entry.2 < sizeOf entries := by omega
    exact induct null bool number string array object entry.2
termination_by sizeOf json

/-! ## The parts of equal documents -/

theorem alikeItems_eq_true_iff {items others : List Json} :
    alikeItems items others = true ↔ items.length = others.length ∧
      ∀ (index : Nat) (item other : Json), items[index]? = some item →
        others[index]? = some other → item.alike other = true := by
  induction items generalizing others with
  | nil => cases others <;> simp [alikeItems]
  | cons first rest ih =>
    cases others with
    | nil => simp [alikeItems]
    | cons second more =>
      rw [alikeItems, Bool.and_eq_true, ih, List.length_cons, List.length_cons, Nat.succ_inj]
      constructor
      · intro ⟨heads, lengths, tails⟩
        refine ⟨lengths, ?_⟩
        intro index item other here there
        cases index with
        | zero =>
          cases here
          cases there
          exact heads
        | succ index => exact tails index item other here there
      · intro ⟨lengths, places⟩
        exact ⟨places 0 first second rfl rfl, lengths, fun index => places (index + 1)⟩

theorem alikeEntries_eq_true_iff {entries : List (String × Json)} {others : Dict Json} :
    alikeEntries entries others = true ↔ ∀ entry ∈ entries,
      ∃ other, Dict.get? others entry.1 = some other ∧ entry.2.alike other = true := by
  induction entries with
  | nil => simp [alikeEntries]
  | cons entry rest ih =>
    obtain ⟨key, value⟩ := entry
    rw [alikeEntries, Bool.and_eq_true, ih, List.forall_mem_cons]
    cases Dict.get? others key <;> simp

theorem alike_array_iff {items others : List Json} :
    (array items).alike (array others) = true ↔ items.length = others.length ∧
      ∀ (index : Nat) (item other : Json), items[index]? = some item →
        others[index]? = some other → item.alike other = true := by
  rw [alike, alikeItems_eq_true_iff]

theorem alike_object_iff {entries others : List (String × Json)}
    (canonical : (object entries).Canonical) (canonicalOthers : (object others).Canonical) :
    (object entries).alike (object others) = true ↔
      (∀ key, key ∈ Dict.keys entries ↔ key ∈ Dict.keys others) ∧
        ∀ (key : String) (value other : Json), Dict.get? entries key = some value →
          Dict.get? others key = some other → value.alike other = true := by
  have distinct := canonical.1.nodup_keys
  have distinctOthers := canonicalOthers.1.nodup_keys
  rw [alike, Bool.and_eq_true, decide_eq_true_iff, alikeEntries_eq_true_iff]
  constructor
  · intro ⟨sameSize, found⟩
    constructor
    · apply Dict.mem_keys_iff_of_length_eq distinct sameSize
      intro key member
      obtain ⟨entry, inside, rfl⟩ := List.mem_map.mp member
      obtain ⟨other, there, _⟩ := found entry inside
      exact Dict.mem_keys_of_get? there
    · intro key value other here there
      obtain ⟨same, thereToo, equal⟩ := found (key, value) (Dict.mem_of_get?_eq_some here)
      rw [thereToo] at there
      cases there
      exact equal
  · intro ⟨sameKeys, values⟩
    constructor
    · have counted := (List.perm_ext_iff_of_nodup distinct distinctOthers).mpr sameKeys
      have sizes := counted.length_eq
      rwa [Dict.keys, Dict.keys, List.length_map, List.length_map] at sizes
    · intro entry inside
      obtain ⟨other, there⟩ :=
        Dict.exists_get?_of_mem_keys ((sameKeys entry.1).mp (List.mem_map_of_mem inside))
      have here := Dict.get?_of_mem distinct inside
      exact ⟨other, there, values entry.1 entry.2 other here there⟩

/-! ## The equivalence -/

theorem Canonical.item {items : List Json} (canonical : (array items).Canonical) {index : Nat}
    {item : Json} (here : items[index]? = some item) : item.Canonical :=
  canonicalItems_iff.mp canonical item (List.mem_of_getElem? here)

theorem alike_refl {json : Json} (canonical : json.Canonical) : json.alike json = true := by
  induction json using Json.induct with
  | null => rfl
  | bool b => simp [alike]
  | number n => exact n.sameValue_refl
  | string text => simp [alike]
  | array items ih =>
    refine alike_array_iff.mpr ⟨rfl, ?_⟩
    intro index item other here there
    rw [here] at there
    cases there
    exact ih item (List.mem_of_getElem? here) (canonical.item here)
  | object entries ih =>
    refine (alike_object_iff canonical canonical).mpr ⟨fun _ => Iff.rfl, ?_⟩
    intro key value other here there
    rw [here] at there
    cases there
    exact ih (key, value) (Dict.mem_of_get?_eq_some here) (canonical.of_get? here)

theorem alike_symm {one other : Json} (canonical : one.Canonical) (canonicalOther : other.Canonical)
    (equal : one.alike other = true) : other.alike one = true := by
  induction one using Json.induct generalizing other with
  | null => cases other <;> simp_all [alike]
  | bool b => cases other <;> simp_all [alike]
  | number n =>
    cases other with
    | number m => exact (Number.sameValue_symm m n).trans equal
    | _ => cases equal
  | string text => cases other <;> simp_all [alike]
  | array items ih =>
    cases other with
    | array others =>
      obtain ⟨lengths, places⟩ := alike_array_iff.mp equal
      refine alike_array_iff.mpr ⟨lengths.symm, ?_⟩
      intro index other item there here
      exact ih item (List.mem_of_getElem? here) (canonical.item here) (canonicalOther.item there)
        (places index item other here there)
    | _ => cases equal
  | object entries ih =>
    cases other with
    | object others =>
      obtain ⟨sameKeys, values⟩ := (alike_object_iff canonical canonicalOther).mp equal
      refine (alike_object_iff canonicalOther canonical).mpr ⟨fun key => (sameKeys key).symm, ?_⟩
      intro key other value there here
      exact ih (key, value) (Dict.mem_of_get?_eq_some here) (canonical.of_get? here)
        (canonicalOther.of_get? there) (values key value other here there)
    | _ => cases equal

theorem alike_trans {first second third : Json} (canonical : first.Canonical)
    (canonicalSecond : second.Canonical) (canonicalThird : third.Canonical)
    (before : first.alike second = true) (after : second.alike third = true) :
    first.alike third = true := by
  induction first using Json.induct generalizing second third with
  | null =>
    cases second with
    | null => exact after
    | _ => cases before
  | bool b =>
    cases second with
    | bool c =>
      obtain rfl : b = c := of_decide_eq_true before
      exact after
    | _ => cases before
  | number n =>
    cases second with
    | number m =>
      cases third with
      | number k => exact Number.sameValue_trans before after
      | _ => cases after
    | _ => cases before
  | string text =>
    cases second with
    | string other =>
      obtain rfl : text = other := of_decide_eq_true before
      exact after
    | _ => cases before
  | array items ih =>
    cases second with
    | array others =>
      cases third with
      | array more =>
        obtain ⟨lengths, places⟩ := alike_array_iff.mp before
        obtain ⟨lengthsAfter, placesAfter⟩ := alike_array_iff.mp after
        refine alike_array_iff.mpr ⟨lengths.trans lengthsAfter, ?_⟩
        intro index item last here there
        obtain ⟨inside, _⟩ := List.getElem?_eq_some_iff.mp here
        have between : others[index]? = some others[index] :=
          List.getElem?_eq_getElem (lengths ▸ inside)
        exact ih item (List.mem_of_getElem? here) (canonical.item here)
          (canonicalSecond.item between) (canonicalThird.item there)
          (places index item _ here between) (placesAfter index _ last between there)
      | _ => cases after
    | _ => cases before
  | object entries ih =>
    cases second with
    | object others =>
      cases third with
      | object more =>
        obtain ⟨sameKeys, values⟩ := (alike_object_iff canonical canonicalSecond).mp before
        obtain ⟨sameKeysAfter, valuesAfter⟩ :=
          (alike_object_iff canonicalSecond canonicalThird).mp after
        refine (alike_object_iff canonical canonicalThird).mpr
          ⟨fun key => (sameKeys key).trans (sameKeysAfter key), ?_⟩
        intro key value last here there
        obtain ⟨middle, between⟩ :=
          Dict.exists_get?_of_mem_keys ((sameKeys key).mp (Dict.mem_keys_of_get? here))
        exact ih (key, value) (Dict.mem_of_get?_eq_some here) (canonical.of_get? here)
          (canonicalSecond.of_get? between) (canonicalThird.of_get? there)
          (values key value middle here between) (valuesAfter key middle last between there)
      | _ => cases after
    | _ => cases before

end Json

/-- What an `ensure` clause takes for equal is an equivalence of documents, so that it makes no
difference which side is the literal. Arrays are equal if they have one length and equal items at each
place, objects if they have the same keys and equal values under each, and numbers if they have one
value as doubles. -/
theorem ensure_equality_congruent :
    (∀ expected result : Json,
      ((Predicate.value expected).holds (.ofJson result) = true ↔ result.alike expected = true) ∧
      ((Predicate.isnot expected).holds (.ofJson result) = true ↔
        ¬result.alike expected = true)) ∧
    Equivalence (fun one other : { json : Json // json.Canonical } =>
      one.val.alike other.val = true) ∧
    (∀ items others : List Json, (Json.array items).alike (.array others) = true ↔
      items.length = others.length ∧ ∀ (index : Nat) (item other : Json),
        items[index]? = some item → others[index]? = some other → item.alike other = true) ∧
    (∀ entries others : List (String × Json), (Json.object entries).Canonical →
      (Json.object others).Canonical → ((Json.object entries).alike (.object others) = true ↔
        (∀ key, key ∈ Dict.keys entries ↔ key ∈ Dict.keys others) ∧
          ∀ (key : String) (value other : Json), Dict.get? entries key = some value →
            Dict.get? others key = some other → value.alike other = true)) ∧
    ∀ n m : Number, (Json.number n).alike (.number m) = true ↔
      n.asDouble.toRat = m.asDouble.toRat := by
  refine ⟨?_, ?_, ?_, ?_, ?_⟩
  · intro expected result
    exact ⟨Predicate.value_holds_iff, Predicate.isnot_holds_iff⟩
  · constructor
    · intro one
      exact Json.alike_refl one.property
    · intro one other equal
      exact Json.alike_symm one.property other.property equal
    · intro first second third before after
      exact Json.alike_trans first.property second.property third.property before after
  · intro items others
    exact Json.alike_array_iff
  · intro entries others canonical canonicalOthers
    exact Json.alike_object_iff canonical canonicalOthers
  · intro n m
    exact decide_eq_true_iff

/-- With a key that stands twice the sides would matter. -/
example :
    (Json.object [("a", .null), ("a", .null)]).alike (.object [("a", .null), ("b", .null)]) = true ∧
      (Json.object [("a", .null), ("b", .null)]).alike (.object [("a", .null), ("a", .null)]) =
        false := by
  decide

end ManifestGate
