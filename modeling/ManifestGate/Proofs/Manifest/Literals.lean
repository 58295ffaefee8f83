import Mathlib.Logic.Function.Defs
import ManifestGate.Manifest.Call
import ManifestGate.Proofs.Value

/-!
# Results held against literals

Documents and values in which no API object stands are the same thing: each document is the document
of one such value, and each such value has one. A value with an API object in it, however deep, has
no document, so a clause finds it equal to no literal.
-/

namespace ManifestGate

/-- The value of a document, with the fact that no API object stands in it. -/
def Value.ofDocument (json : Json) : {value : Value // value.Plain} :=
  ⟨.ofJson json, Value.plain_ofJson json⟩

theorem Value.ofDocument_bijective : Function.Bijective Value.ofDocument := by
  constructor
  · intro one other same
    exact Value.ofJson_injective (congrArg Subtype.val same)
  · rintro ⟨value, plain⟩
    obtain ⟨json, given⟩ := Value.exists_toJson?_iff.mpr plain
    exact ⟨json, Subtype.ext (Value.ofJson_of_toJson? given)⟩

/-- A clause that asks for a literal fails, and one that rejects it holds. -/
theorem Predicate.holds_of_toJson?_eq_none {result : Value} (absent : result.toJson? = none)
    (literal : Json) : (Predicate.value literal).holds result = false ∧
      (Predicate.isnot literal).holds result = true := by
  simp [Predicate.holds, absent]

/-- Documents are in bijection with the values in which no API object stands at any depth: a
document is read back from its value, a value has a document exactly if no object stands in it, and
its document gives the value again. So a result with an object anywhere in it fails every clause
that asks for a literal and passes every clause that rejects one. -/
theorem documents_are_plain_values :
    (∀ json, (Value.ofJson json).toJson? = some json) ∧
    (∀ value : Value, (∃ json, value.toJson? = some json) ↔ ¬∃ api, value.Holds api) ∧
    (∀ (value : Value) (json : Json), value.toJson? = some json →
      Value.ofJson json = value ∧ (Value.ofJson json).same value = true) ∧
    Function.Bijective Value.ofDocument ∧
    ∀ (result : Value) (api : ApiObject), result.Holds api → ∀ literal,
      (Predicate.value literal).holds result = false ∧
        (Predicate.isnot literal).holds result = true := by
  refine ⟨Value.toJson?_ofJson, ?_, ?_, Value.ofDocument_bijective, ?_⟩
  · intro value
    rw [Value.exists_toJson?_iff, Value.Plain, not_exists]
  · intro value json given
    obtain rfl := Value.ofJson_of_toJson? given
    exact ⟨rfl, Value.same_refl _⟩
  · intro result api holds literal
    exact Predicate.holds_of_toJson?_eq_none (Value.toJson?_of_holds holds) literal

/-- An object under a key of a map in a list. -/
def nestedObject : Value :=
  .list [.null, .map [("a", .object ⟨0, "T", [], some .null⟩)]]

/-- The list is not equal to the document that it would be dumped as. -/
theorem nested_object_equals_no_literal :
    (Predicate.value (.array [.null, .object [("a", .null)]])).holds nestedObject = false ∧
      (Predicate.isnot (.array [.null, .object [("a", .null)]])).holds nestedObject = true := by
  have holds : nestedObject.Holds ⟨0, "T", [], some .null⟩ :=
    .item (List.mem_cons_of_mem _ List.mem_cons_self) (.entry List.mem_cons_self .object)
  obtain ⟨_, _, _, _, clauses⟩ := documents_are_plain_values
  exact clauses nestedObject _ holds _

end ManifestGate
