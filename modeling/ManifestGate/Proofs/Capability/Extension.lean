import Mathlib.Tactic.ByContra
import ManifestGate.Proofs.Capability.Entries

/-!
# Extending a registry

No path of a built registry lies below another, so at most one entry lies on the way of a path from
outside: where a look-up has found it, entries that are added later cannot come in between.
-/

namespace ManifestGate

variable {σ : Type}

namespace Registry

/-- No path of the entries lies below another one. -/
def PrefixFree (entries : Dict (Capability σ)) : Prop :=
  ∀ path ∈ Dict.keys entries, ∀ other ∈ Dict.keys entries,
    Path.segments path <+: Path.segments other → path = other

theorem mem_above {path other : String} (below : Path.segments path <+: Path.segments other)
    (different : path ≠ other) : path ∈ above other := by
  have nonempty := List.length_pos_iff.mpr (Path.segments_ne_nil path)
  have shorter : (Path.segments path).length < (Path.segments other).length := by
    apply Nat.lt_of_le_of_ne below.length_le
    intro same
    have segments := below.eq_of_length same
    apply different
    rw [← Path.join_segments path, segments, Path.join_segments]
  have first : (Path.segments other).take (Path.segments path).length = Path.segments path :=
    (List.prefix_iff_eq_take.mp below).symm
  refine List.mem_map.mpr ⟨(Path.segments path).length - 1, ?_, ?_⟩
  · rw [List.mem_range]
    omega
  · rw [Nat.sub_add_cancel nonempty, first, Path.join_segments]

theorem prefixFree_of_nested? {entries : Dict (Capability σ)} (sound : nested? entries = none) :
    PrefixFree entries := by
  intro path member other memberOther below
  by_contra different
  have clear := List.findSome?_eq_none_iff.mp sound other memberOther
  rw [Option.map_eq_none_iff, List.find?_eq_none] at clear
  exact clear path (mem_above below different) (Dict.contains_iff_mem_keys.mpr member)

theorem prefixFree_of_build {root : String} {entries : List (String × Capability σ)}
    {registry : Registry σ} (built : build root entries = .ok registry) :
    PrefixFree registry.entries := by
  unfold build at built
  split at built
  · cases built
  · obtain ⟨known, _, checked⟩ := Except.bind_eq_ok_iff.mp built
    split at checked
    · cases checked
    · next sound =>
      cases checked
      exact prefixFree_of_nested? sound

section

variable {entries : Dict (Capability σ)} {parts : List String} {capability : Capability σ}

/-- What is found lies under the first so many segments, and the others are left over. -/
theorem longest?_eq_some {count : Nat} {rest : List String}
    (found : longest? entries parts count = some (capability, rest)) :
    ∃ taken, 0 < taken ∧ taken ≤ count ∧ rest = parts.drop taken ∧
      Dict.get? entries (Path.join (parts.take taken)) = some capability := by
  induction count with
  | zero => cases found
  | succ count ih =>
    unfold longest? at found
    split at found
    · next here =>
      cases found
      exact ⟨count + 1, Nat.succ_pos count, Nat.le_refl _, rfl, here⟩
    · obtain ⟨taken, positive, bounded, left, there⟩ := ih found
      exact ⟨taken, positive, Nat.le_succ_of_le bounded, left, there⟩

/-- Among prefix-free entries the one that lies on the way is found, however far the look-up starts
behind it. -/
theorem longest?_of_prefixFree (free : PrefixFree entries)
    (undotted : ∀ part ∈ parts, '.' ∉ part.toList) {taken count : Nat} (positive : 0 < taken)
    (bounded : taken ≤ count) (limit : count ≤ parts.length)
    (here : Dict.get? entries (Path.join (parts.take taken)) = some capability) :
    longest? entries parts count = some (capability, parts.drop taken) := by
  have nonempty : parts ≠ [] := by
    rw [← List.length_pos_iff]
    omega
  have segments {n : Nat} (some : 0 < n) := Path.segments_join_take undotted nonempty some
  induction count with
  | zero => omega
  | succ count ih =>
    unfold longest?
    by_cases reached : taken = count + 1
    · rw [← reached, here]
    · cases beyond : Dict.get? entries (Path.join (parts.take (count + 1))) with
      | none => exact ih (by omega) (by omega)
      | some other =>
        have below : parts.take taken <+: parts.take (count + 1) :=
          (List.prefix_take_iff.mpr ⟨List.take_prefix _ _, by rw [List.length_take]; omega⟩)
        rw [← segments positive, ← segments (Nat.succ_pos count)] at below
        have same := free _ (Dict.contains_iff_mem_keys.mp (by simp [Dict.contains, here]))
          _ (Dict.contains_iff_mem_keys.mp (by simp [Dict.contains, beyond])) below
        have lengths := congrArg List.length (congrArg Path.segments same)
        rw [segments positive, segments (Nat.succ_pos count), List.length_take, List.length_take]
          at lengths
        omega

end

/-- The larger registry finds what the other one finds. -/
structure Extends (larger registry : Registry σ) : Prop where
  root : larger.root = registry.root
  locate (path : String) (found : Capability σ × List String) :
    registry.locate path = .ok found → larger.locate path = .ok found

theorem extends_of_extend {registry larger : Registry σ} {more : List (String × Capability σ)}
    (extended : registry.extend more = .ok larger) : larger.Extends registry := by
  have holds := holds_of_build extended
  have free := prefixFree_of_build extended
  refine ⟨holds.rooted, ?_⟩
  rintro path ⟨capability, rest⟩ located
  unfold locate at located ⊢
  cases segments : Path.segments path with
  | nil => exact absurd segments (Path.segments_ne_nil path)
  | cons head parts =>
    simp only [segments] at located ⊢
    rw [holds.rooted]
    split at located
    · cases located
    · next rooted =>
      split at located
      · cases located
      · next full =>
        split at located
        · next found there =>
          cases located
          obtain ⟨taken, positive, bounded, rfl, here⟩ := longest?_eq_some there
          have kept : Dict.get? larger.entries (Path.join (parts.take taken)) = some capability :=
            (holds.get?_iff _ _).mpr (List.mem_append_left _ (Dict.mem_of_get?_eq_some here))
          have undotted : ∀ part ∈ parts, '.' ∉ part.toList := by
            intro part member
            exact Path.no_dot_of_mem_segments (segments ▸ List.mem_cons_of_mem head member)
          have found := longest?_of_prefixFree free undotted positive bounded (Nat.le_refl _) kept
          rw [if_neg rooted, if_neg full, found]
        · cases located

namespace Extends

variable {larger registry : Registry σ} (extends_ : larger.Extends registry) {path : String}

include extends_

theorem resolve {target : Target σ} (resolved : registry.resolve path = .ok target) :
    larger.resolve path = .ok target := by
  unfold Registry.resolve at resolved ⊢
  obtain ⟨found, located, walked⟩ := Except.bind_eq_ok_iff.mp resolved
  rw [extends_.locate path found located]
  exact walked

theorem check (accepted : registry.check path = .ok ()) : larger.check path = .ok () := by
  unfold Registry.check at accepted ⊢
  obtain ⟨target, resolved, _⟩ := Except.bind_eq_ok_iff.mp accepted
  rw [extends_.resolve resolved]
  rfl

theorem fetch {target : Target σ} (resolved : registry.resolve path = .ok target) (scope : Scope) :
    larger.fetch scope path = registry.fetch scope path := by
  unfold Registry.fetch
  rw [extends_.resolve resolved, resolved]

theorem call {found : Capability σ × List String} (located : registry.locate path = .ok found)
    (scope : Scope) (arguments : Arguments) :
    larger.call scope path arguments = registry.call scope path arguments := by
  unfold Registry.call
  rw [extends_.locate path found located, located]

end Extends

end Registry

end ManifestGate
