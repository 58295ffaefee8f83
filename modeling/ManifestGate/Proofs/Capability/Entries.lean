import ManifestGate.Capability.Registry
import ManifestGate.Proofs.Path
import ManifestGate.Proofs.Result

/-!
# The entries of a built registry

A registry that is built holds exactly the entries that it was built from, each under its own path,
and the absolute path of an entry leads to it with nothing left over.
-/

namespace ManifestGate

variable {σ : Type}

theorem notMem_of_isIdentifier {text : String} (identifier : isIdentifier text = true) {mark : Char}
    (foreign : (mark.isAlphanum || mark = '_') = false) : mark ∉ text.toList := by
  intro member
  unfold isIdentifier at identifier
  cases letters : text.toList with
  | nil =>
    rw [letters] at member
    cases member
  | cons first rest =>
    rw [letters] at identifier member
    simp only [Bool.and_eq_true, List.all_eq_true] at identifier
    rcases List.mem_cons.mp member with rfl | inside
    · simp only [Char.isAlphanum, Bool.or_eq_false_iff] at foreign
      simp [foreign] at identifier
    · rw [identifier.2 mark inside] at foreign
      cases foreign

theorem no_dot_of_isIdentifier {text : String} (identifier : isIdentifier text = true) :
    '.' ∉ text.toList :=
  notMem_of_isIdentifier identifier (by decide)

namespace Registry

/-! ## Collecting -/

section

variable {known final : Dict (Capability σ)} {entries : List (String × Capability σ)}

theorem collect_cons {path : String} {capability : Capability σ}
    (collected : collect known ((path, capability) :: entries) = .ok final) :
    known.contains path = false ∧ collect (known.insert path capability) entries = .ok final := by
  unfold collect at collected
  split at collected
  · cases collected
  · split at collected
    · cases collected
    · next fresh => exact ⟨Bool.eq_false_iff.mpr fresh, collected⟩

/-- What is collected is what was known and the entries, whose paths are new and distinct. -/
theorem collect_ok (collected : collect known entries = .ok final) :
    (∀ entry ∈ entries, known.contains entry.1 = false) ∧ (entries.map Prod.fst).Nodup ∧
      ∀ path capability, Dict.get? final path = some capability ↔
        Dict.get? known path = some capability ∨ (path, capability) ∈ entries := by
  induction entries generalizing known with
  | nil =>
    cases collected
    simp
  | cons entry rest ih =>
    obtain ⟨first, value⟩ := entry
    obtain ⟨fresh, collectedRest⟩ := collect_cons collected
    obtain ⟨freshRest, distinct, holds⟩ := ih collectedRest
    have apart : ∀ other ∈ rest, other.1 ≠ first ∧ known.contains other.1 = false := by
      intro other member
      have absent := freshRest other member
      rw [Bool.eq_false_iff, ne_eq, Dict.contains_insert, not_or] at absent
      exact ⟨absent.1, Bool.eq_false_iff.mpr absent.2⟩
    refine ⟨?_, ?_, ?_⟩
    · intro other member
      rcases List.mem_cons.mp member with rfl | later
      · exact fresh
      · exact (apart other later).2
    · rw [List.map_cons, List.nodup_cons]
      refine ⟨?_, distinct⟩
      intro member
      obtain ⟨other, inside, same⟩ := List.mem_map.mp member
      exact (apart other inside).1 same
    · intro path capability
      rw [holds]
      by_cases same : first = path
      · subst same
        have unknown : Dict.get? known first = none := by
          simpa [Dict.contains] using fresh
        simp [unknown, eq_comm]
      · rw [Dict.get?_insert_of_ne _ _ same]
        simp [Ne.symm same]

end

/-! ## Building -/

/-- The registry holds the entries under the root. -/
structure Holds (registry : Registry σ) (root : String) (entries : List (String × Capability σ)) :
    Prop where
  rooted : registry.root = root
  identifier : isIdentifier root = true
  distinct : (entries.map Prod.fst).Nodup
  get?_iff (path : String) (capability : Capability σ) :
    Dict.get? registry.entries path = some capability ↔ (path, capability) ∈ entries

theorem holds_of_build {root : String} {entries : List (String × Capability σ)}
    {registry : Registry σ} (built : build root entries = .ok registry) :
    registry.Holds root entries := by
  unfold build at built
  split at built
  · cases built
  · next identifier =>
    obtain ⟨known, collected, nested⟩ := Except.bind_eq_ok_iff.mp built
    split at nested
    · cases nested
    · cases nested
      obtain ⟨_, distinct, holds⟩ := collect_ok collected
      refine ⟨rfl, by simpa using identifier, distinct, ?_⟩
      intro path capability
      rw [holds]
      simp

namespace Holds

variable {registry : Registry σ} {root : String} {entries : List (String × Capability σ)}

theorem segments_absolute (holds : registry.Holds root entries) (path : String) :
    Path.segments (registry.absolute path) = registry.root :: Path.segments path := by
  rw [absolute, holds.rooted]
  exact Path.segments_below (no_dot_of_isIdentifier holds.identifier) path

theorem locate_absolute (holds : registry.Holds root entries) {path : String}
    {capability : Capability σ} (member : (path, capability) ∈ entries) :
    registry.locate (registry.absolute path) = .ok (capability, []) := by
  have found := (holds.get?_iff path capability).mpr member
  have whole : longest? registry.entries (Path.segments path) (Path.segments path).length =
      some (capability, []) := by
    obtain ⟨first, rest, parts⟩ := List.exists_cons_of_ne_nil (Path.segments_ne_nil path)
    have joined : Path.join (first :: rest) = path := by rw [← parts, Path.join_segments]
    simp [parts, longest?, joined, found]
  unfold locate
  rw [holds.segments_absolute]
  simp [Path.segments_ne_nil, whole]

end Holds

end Registry

end ManifestGate
