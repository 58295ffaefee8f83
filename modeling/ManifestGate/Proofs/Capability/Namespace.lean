import ManifestGate.Proofs.Capability.Extension

/-!
# Namespaces

A registry can be built of exactly those entries whose paths are made of identifiers, differ from each
other and do not lie below one another. In such a namespace every path from outside meets at most one
entry: the one whose segments it starts with. So a look-up that tries the longest beginnings first
finds the same as any other order would.
-/

namespace ManifestGate

variable {σ : Type}

namespace Registry

/-! ## What is built -/

/-- What lies above a path are the proper beginnings of its segments. -/
theorem mem_above_iff {path other : String} :
    path ∈ above other ↔ Path.segments path <+: Path.segments other ∧ path ≠ other := by
  constructor
  · intro member
    obtain ⟨n, inside, rfl⟩ := List.mem_map.mp member
    rw [List.mem_range] at inside
    have beginning := Path.segments_join_take (fun _ => Path.no_dot_of_mem_segments)
      (Path.segments_ne_nil other) (Nat.succ_pos n)
    constructor
    · rw [beginning]
      exact List.take_prefix _ _
    · intro same
      rw [same] at beginning
      have lengths := congrArg List.length beginning
      rw [List.length_take] at lengths
      omega
  · intro ⟨below, different⟩
    exact mem_above below different

theorem prefixFree_iff {entries : List (String × Capability σ)} :
    PrefixFree entries ↔ ∀ one ∈ entries, ∀ other ∈ entries,
      ¬(Path.segments one.1 <+: Path.segments other.1 ∧
        Path.segments one.1 ≠ Path.segments other.1) := by
  constructor
  · intro free one member other memberOther ⟨nested, different⟩
    have same := free one.1 (List.mem_map_of_mem member) other.1
      (List.mem_map_of_mem memberOther) nested
    exact different (congrArg Path.segments same)
  · intro free path known other knownOther nested
    obtain ⟨one, member, rfl⟩ := List.mem_map.mp known
    obtain ⟨second, memberOther, rfl⟩ := List.mem_map.mp knownOther
    by_contra different
    refine free one member second memberOther ⟨nested, ?_⟩
    intro same
    apply different
    rw [← Path.join_segments one.1, same, Path.join_segments]

theorem nested?_eq_none_iff {entries : Dict (Capability σ)} :
    nested? entries = none ↔ PrefixFree entries := by
  constructor
  · exact prefixFree_of_nested?
  · intro free
    refine List.findSome?_eq_none_iff.mpr ?_
    intro other memberOther
    rw [Option.map_eq_none_iff, List.find?_eq_none]
    intro path isAbove known
    obtain ⟨below, different⟩ := mem_above_iff.mp isAbove
    exact different (free path (Dict.contains_iff_mem_keys.mp known) other memberOther below)

theorem collect_cons_eq_ok_iff {known final : Dict (Capability σ)} {path : String}
    {capability : Capability σ} {entries : List (String × Capability σ)} :
    collect known ((path, capability) :: entries) = .ok final ↔
      (∀ segment ∈ Path.segments path, isIdentifier segment = true) ∧
        known.contains path = false ∧ collect (known.insert path capability) entries = .ok final := by
  rw [collect, ← List.all_eq_true]
  cases (Path.segments path).all isIdentifier <;> cases known.contains path <;> simp

/-- Under a path that comes in, no later one may come in again. -/
theorem fresh_insert_iff {known : Dict (Capability σ)} {path : String} {capability : Capability σ}
    {entries : List (String × Capability σ)} :
    (∀ other ∈ entries, (known.insert path capability).contains other.1 = false) ↔
      path ∉ entries.map Prod.fst ∧ ∀ other ∈ entries, known.contains other.1 = false := by
  simp only [Bool.eq_false_iff, ne_eq, Dict.contains_insert, not_or]
  constructor
  · intro apart
    refine ⟨?_, fun other member => (apart other member).2⟩
    intro member
    obtain ⟨other, inside, same⟩ := List.mem_map.mp member
    exact (apart other inside).1 same
  · intro ⟨absent, unknown⟩ other member
    refine ⟨?_, unknown other member⟩
    intro same
    exact absent (same ▸ List.mem_map_of_mem member)

theorem exists_collect_iff {known : Dict (Capability σ)} {entries : List (String × Capability σ)} :
    (∃ final, collect known entries = .ok final) ↔
      (∀ entry ∈ entries, ∀ segment ∈ Path.segments entry.1, isIdentifier segment = true) ∧
        (entries.map Prod.fst).Nodup ∧ ∀ entry ∈ entries, known.contains entry.1 = false := by
  induction entries generalizing known with
  | nil => simp [collect]
  | cons entry rest ih =>
    obtain ⟨path, capability⟩ := entry
    simp only [collect_cons_eq_ok_iff, exists_and_left, ih, fresh_insert_iff, List.forall_mem_cons,
      List.map_cons, List.nodup_cons]
    constructor
    · intro ⟨valid, fresh, validRest, distinct, absent, unknown⟩
      exact ⟨⟨valid, validRest⟩, ⟨absent, distinct⟩, fresh, unknown⟩
    · intro ⟨⟨valid, validRest⟩, ⟨absent, distinct⟩, fresh, unknown⟩
      exact ⟨valid, fresh, validRest, distinct, absent, unknown⟩

/-- What is collected has the paths of the entries. -/
theorem mem_keys_collect {entries : List (String × Capability σ)} {final : Dict (Capability σ)}
    (collected : collect [] entries = .ok final) (path : String) :
    path ∈ Dict.keys final ↔ path ∈ entries.map Prod.fst := by
  obtain ⟨_, _, holds⟩ := collect_ok collected
  rw [← Dict.contains_iff_mem_keys, Dict.contains, Option.isSome_iff_exists, List.mem_map]
  constructor
  · intro found
    obtain ⟨capability, here⟩ := found
    have member := (holds path capability).mp here
    exact ⟨(path, capability), member.resolve_left (by simp), rfl⟩
  · intro known
    obtain ⟨entry, member, same⟩ := known
    exact ⟨entry.2, (holds path entry.2).mpr (.inr (same ▸ member))⟩

theorem exists_build_iff {root : String} {entries : List (String × Capability σ)} :
    (∃ registry, build root entries = .ok registry) ↔ isIdentifier root = true ∧
      (∀ entry ∈ entries, ∀ segment ∈ Path.segments entry.1, isIdentifier segment = true) ∧
        (entries.map Prod.fst).Nodup ∧ PrefixFree entries := by
  have free {final : Dict (Capability σ)} (collected : collect [] entries = .ok final) :
      PrefixFree final ↔ PrefixFree entries := by
    simp only [PrefixFree, mem_keys_collect collected]
    rfl
  have known : (∃ final, collect [] entries = .ok final) ↔
      (∀ entry ∈ entries, ∀ segment ∈ Path.segments entry.1, isIdentifier segment = true) ∧
        (entries.map Prod.fst).Nodup := by
    rw [exists_collect_iff]
    simp [Dict.contains]
  rw [← and_assoc (a := ∀ entry ∈ entries, _), ← known, build]
  cases isIdentifier root with
  | false => simp
  | true =>
    simp only [Bool.not_true, Bool.false_eq_true, if_false, true_and, Except.exists_bind_iff]
    constructor
    · intro accepted
      obtain ⟨final, collected, registry, checked⟩ := accepted
      refine ⟨⟨final, collected⟩, (free collected).mp (nested?_eq_none_iff.mp ?_)⟩
      split at checked
      · cases checked
      · assumption
    · intro valid
      obtain ⟨⟨final, collected⟩, sound⟩ := valid
      refine ⟨final, collected, ⟨root, final⟩, ?_⟩
      rw [nested?_eq_none_iff.mpr ((free collected).mpr sound)]
      rfl

/-! ## What is found -/

/-- Of two paths that are the beginning of one other, one lies below the other. -/
theorem PrefixFree.unique {entries : List (String × Capability σ)} (free : PrefixFree entries)
    {parts : List String} {one other : String × Capability σ} (member : one ∈ entries)
    (memberOther : other ∈ entries) (below : Path.segments one.1 <+: parts)
    (belowOther : Path.segments other.1 <+: parts) : one.1 = other.1 := by
  have known := List.mem_map_of_mem (f := Prod.fst) member
  have knownOther := List.mem_map_of_mem (f := Prod.fst) memberOther
  cases List.prefix_or_prefix_of_prefix below belowOther with
  | inl nested => exact free one.1 known other.1 knownOther nested
  | inr nested => exact (free other.1 knownOther one.1 known nested).symm

section

variable {registry : Registry σ} {root text : String} {entries : List (String × Capability σ)}
  {parts : List String}

theorem locate_root (segments : Path.segments text = [registry.root]) :
    registry.locate text = .error (.onlyRoot text) := by
  rw [locate, segments]
  simp

theorem locate_of_segments (segments : Path.segments text = registry.root :: parts)
    (nonempty : parts ≠ []) :
    registry.locate text = match longest? registry.entries parts parts.length with
      | some found => .ok found
      | none => .error (.unknownPath text) := by
  rw [locate, segments]
  cases found : longest? registry.entries parts parts.length <;>
    simp [List.isEmpty_iff, nonempty, found]

theorem locate_below (built : build root entries = .ok registry) {path : String}
    {capability : Capability σ} {rest : List String} (member : (path, capability) ∈ entries)
    (segments : Path.segments text = root :: (Path.segments path ++ rest)) :
    registry.locate text = .ok (capability, rest) := by
  have holds := holds_of_build built
  have nonempty := List.length_pos_iff.mpr (Path.segments_ne_nil path)
  have undotted : ∀ part ∈ Path.segments path ++ rest, '.' ∉ part.toList := by
    intro part inside
    exact Path.no_dot_of_mem_segments (segments ▸ List.mem_cons_of_mem root inside)
  have here : Dict.get? registry.entries (Path.join ((Path.segments path ++ rest).take
      (Path.segments path).length)) = some capability := by
    rw [List.take_left', Path.join_segments]
    · exact (holds.get?_iff path capability).mpr member
    · rfl
  have found := longest?_of_prefixFree (prefixFree_of_build built) undotted nonempty
    (by rw [List.length_append]; omega) (Nat.le_refl _) here
  rw [← holds.rooted] at segments
  rw [locate_of_segments segments (by simp [Path.segments_ne_nil]), found, List.drop_left']
  rfl

/-- A path that starts with none of the entries meets none. -/
theorem locate_beside (built : build root entries = .ok registry)
    (segments : Path.segments text = root :: parts) (nonempty : parts ≠ [])
    (beside : ∀ entry ∈ entries, ¬Path.segments entry.1 <+: parts) :
    registry.locate text = .error (.unknownPath text) := by
  have holds := holds_of_build built
  have nothing : longest? registry.entries parts parts.length = none := by
    cases found : longest? registry.entries parts parts.length with
    | none => rfl
    | some result =>
      obtain ⟨taken, positive, bounded, _, here⟩ := longest?_eq_some found
      have undotted : ∀ part ∈ parts, '.' ∉ part.toList := by
        intro part inside
        exact Path.no_dot_of_mem_segments (segments ▸ List.mem_cons_of_mem root inside)
      refine absurd ?_ (beside _ ((holds.get?_iff _ _).mp here))
      rw [Path.segments_join_take undotted nonempty positive]
      exact List.take_prefix _ _
  rw [← holds.rooted] at segments
  rw [locate_of_segments segments nonempty, nothing]

end

/-- Exactly the prefix-free sets of paths can be built. In a registry that is built no two entries lie
on the way of one path: a look-up gives the one that does, with the segments that are left over, and
none else; and every entry is found under its own path. -/
theorem namespace_prefix_free (root : String) (entries : List (String × Capability σ)) :
    ((∃ registry, build root entries = .ok registry) ↔
      isIdentifier root = true ∧
      (∀ entry ∈ entries, ∀ segment ∈ Path.segments entry.1, isIdentifier segment = true) ∧
      (entries.map Prod.fst).Nodup ∧
      ∀ one ∈ entries, ∀ other ∈ entries,
        ¬(Path.segments one.1 <+: Path.segments other.1 ∧
          Path.segments one.1 ≠ Path.segments other.1)) ∧
    ∀ registry, build root entries = .ok registry →
      (∀ text parts, Path.segments text = root :: parts →
        (∀ one ∈ entries, ∀ other ∈ entries, Path.segments one.1 <+: parts →
          Path.segments other.1 <+: parts → one = other) ∧
        (∀ path capability rest, (path, capability) ∈ entries →
          parts = Path.segments path ++ rest → registry.locate text = .ok (capability, rest)) ∧
        (parts = [] → registry.locate text = .error (.onlyRoot text)) ∧
        (parts ≠ [] → (∀ entry ∈ entries, ¬Path.segments entry.1 <+: parts) →
          registry.locate text = .error (.unknownPath text))) ∧
      ∀ path capability, (path, capability) ∈ entries →
        registry.locate (registry.absolute path) = .ok (capability, []) := by
  constructor
  · rw [exists_build_iff, prefixFree_iff]
  · intro registry built
    have holds := holds_of_build built
    obtain ⟨_, _, _, free⟩ := exists_build_iff.mp ⟨registry, built⟩
    constructor
    · intro text parts segments
      refine ⟨?_, ?_, ?_, ?_⟩
      · intro one member other memberOther below belowOther
        have samePath := free.unique member memberOther below belowOther
        have found := (holds.get?_iff one.1 one.2).mpr member
        have foundOther := (holds.get?_iff other.1 other.2).mpr memberOther
        rw [samePath, foundOther] at found
        exact Prod.ext samePath (Option.some.inj found).symm
      · intro path capability rest member same
        exact locate_below built member (same ▸ segments)
      · intro none
        rw [none, ← holds.rooted] at segments
        exact locate_root segments
      · intro nonempty beside
        exact locate_beside built segments nonempty beside
    · intro path capability member
      exact holds.locate_absolute member

/-- One path may start with the letters of another; only whole segments count. -/
example :
    (build "R" [("A", .value .null), ("AB.C", .value .null)] :
      Except RegistryError (Registry Unit)).isOk = true ∧
    (build "R" [("AB.C", .value .null), ("AB", .value .null)] :
      Except RegistryError (Registry Unit)).isOk = false := by
  decide

end Registry

end ManifestGate
