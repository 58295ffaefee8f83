import ManifestGate.Proofs.Manifest.Parameters

/-!
# What a step leaves behind

A successful step stores one value. It leaves the request data alone, unless it is the data block,
which replaces them, or the parameters, which only add names that were absent.
-/

namespace ManifestGate

variable {σ : Type}

/-- Every stored value and every field of the request data is still there. -/
structure Context.Extends (later earlier : Context) : Prop where
  results : ∀ key value, Dict.get? earlier.results key = some value →
    Dict.get? later.results key = some value
  data : ∀ name value, Dict.get? earlier.data name = some value →
    Dict.get? later.data name = some value

namespace Context.Extends

variable {first second third : Context}

theorem refl (context : Context) : context.Extends context :=
  ⟨fun _ _ found => found, fun _ _ found => found⟩

theorem trans (more : third.Extends second) (some : second.Extends first) :
    third.Extends first :=
  ⟨fun key value found => more.results key value (some.results key value found),
    fun name value found => more.data name value (some.data name value found)⟩

/-- A reference to an API object leads to the same object later on. -/
theorem resolve_object {later earlier : Context} (extends_ : later.Extends earlier)
    {reference : String} {api : ApiObject}
    (resolved : earlier.resolve reference = .ok (.object api)) :
    later.resolve reference = .ok (.object api) := by
  unfold resolve at resolved ⊢
  by_cases isData : Path.head reference = dataKey
  · simp only [isData, if_true] at resolved ⊢
    cases rest : (Path.segments reference).tail with
    | nil =>
      rw [rest] at resolved
      cases resolved
    | cons name more =>
      simp only [rest, Value.walk, Value.child?] at resolved ⊢
      cases found : Dict.get? earlier.data name with
      | none =>
        rw [found] at resolved
        cases resolved
      | some value =>
        rw [extends_.data name value found]
        rw [found] at resolved
        exact resolved
  · simp only [isData, if_false] at resolved ⊢
    cases found : Dict.get? earlier.results (Path.head reference) with
    | none =>
      rw [found] at resolved
      cases resolved
    | some value =>
      rw [extends_.results _ value found]
      rw [found] at resolved
      exact resolved

end Context.Extends

theorem Value.keys_ofEntries (entries : List (String × Json)) :
    Dict.keys (Value.ofEntries entries) = Dict.keys entries := by
  induction entries with
  | nil => rfl
  | cons entry rest ih =>
    rw [Value.ofEntries, Dict.keys_cons, Dict.keys_cons, ih]

namespace Engine

variable {engine : Engine σ} {scope : Scope} {context : Context}

/-- The parameters put defaults under names that the data lack. -/
theorem applyParameters_ok {fields : Dict ParamField} {data : Dict Value}
    {progress later : Progress σ}
    (ran : engine.applyParameters scope context fields progress = (.ok data, later)) :
    ∃ found, data = Dict.insertAll context.data found ∧
      Dict.keys found = Dict.keys (Parameters.due fields context.data) := by
  obtain ⟨_, found, fills, inserted⟩ := applyParameters_eq_ok_iff.mp ran
  exact ⟨found, inserted, fills.keys_eq⟩

/-- The parameters keep the names of the data and add those of the fields with a default. -/
theorem mem_keys_applyParameters {fields : Dict ParamField} {data : Dict Value}
    {progress later : Progress σ}
    (ran : engine.applyParameters scope context fields progress = (.ok data, later))
    (name : String) :
    name ∈ Dict.keys data ↔ name ∈ Dict.keys context.data ∨
      name ∈ Dict.keys (fields.filter fun entry => entry.2.hasDefault) := by
  obtain ⟨found, inserted, names⟩ := applyParameters_ok ran
  rw [inserted, ← Dict.contains_iff_mem_keys, Dict.contains_insertAll, names,
    Dict.contains_iff_mem_keys]
  constructor
  · rintro (known | added)
    · exact .inl known
    · obtain ⟨entry, member, same⟩ := List.mem_map.mp added
      obtain ⟨declared, _, withDefault⟩ := Parameters.mem_due_iff.mp member
      exact .inr (List.mem_map.mpr ⟨entry, List.mem_filter.mpr ⟨declared, withDefault⟩, same⟩)
  · rintro (known | added)
    · exact .inl known
    · by_cases known : name ∈ Dict.keys context.data
      · exact .inl known
      · obtain ⟨entry, member, rfl⟩ := List.mem_map.mp added
        obtain ⟨declared, withDefault⟩ := List.mem_filter.mp member
        exact .inr (List.mem_map_of_mem
          (Parameters.mem_due_iff.mpr ⟨declared, known, withDefault⟩))

/-- Everything that a successful step can do to the request data. -/
theorem step_ok {object : CompiledObject} {outcome : Outcome} {progress later : Progress σ}
    (ran : engine.step scope context object progress = (.ok outcome, later)) :
    (∃ entries, object = .var dataKey (.static (.object entries)) ∧
        outcome.data = Value.ofEntries entries) ∨
      (∃ fields, object = .params fields ∧
        engine.applyParameters scope context fields progress = (.ok outcome.data, later)) ∨
      ((∀ fields, object ≠ .params fields) ∧ (∀ source, object ≠ .var dataKey source) ∧
        outcome.data = context.data) := by
  cases object with
  | var key source =>
    unfold step at ran
    by_cases isData : key = dataKey
    · simp only [isData, if_true] at ran
      split at ran
      · next entries =>
        cases ran
        exact .inl ⟨entries, by rw [isData], rfl⟩
      · cases ran
    · simp only [isData, if_false] at ran
      obtain ⟨value, _, _, same⟩ := Action.bind_eq_ok_iff.mp ran
      cases same
      refine .inr (.inr ⟨fun _ => by simp, fun _ => ?_, rfl⟩)
      simp [isData]
  | action key spec =>
    obtain ⟨value, _, _, same⟩ := Action.bind_eq_ok_iff.mp ran
    cases same
    exact .inr (.inr ⟨fun _ => by simp, fun _ => by simp, rfl⟩)
  | params fields =>
    obtain ⟨data, _, applied, same⟩ := Action.bind_eq_ok_iff.mp ran
    cases same
    exact .inr (.inl ⟨fields, rfl, applied⟩)
  | response kwargs =>
    obtain ⟨value, _, _, same⟩ := Action.bind_eq_ok_iff.mp ran
    cases same
    exact .inr (.inr ⟨fun _ => by simp, fun _ => by simp, rfl⟩)

/-- A step of another object than the request data keeps every field. -/
theorem step_keeps_data {object : CompiledObject} {outcome : Outcome} {progress later : Progress σ}
    (ran : engine.step scope context object progress = (.ok outcome, later))
    (notData : ∀ source, object ≠ .var dataKey source) {name : String} {value : Value}
    (found : Dict.get? context.data name = some value) :
    Dict.get? outcome.data name = some value := by
  rcases step_ok ran with ⟨entries, same, _⟩ | ⟨fields, _, applied⟩ | ⟨_, _, unchanged⟩
  · exact absurd same (notData _)
  · obtain ⟨defaults, inserted, names⟩ := applyParameters_ok applied
    have absent : name ∉ Dict.keys defaults := by
      rw [names]
      intro member
      obtain ⟨entry, isDue, same⟩ := List.mem_map.mp member
      have lacking := (Parameters.mem_due_iff.mp isDue).2.1
      rw [same, ← Dict.contains_iff_mem_keys, Dict.contains, found] at lacking
      exact lacking rfl
    rw [inserted, Dict.get?_insertAll_of_notMem context.data absent]
    exact found
  · rw [unchanged]
    exact found

/-- After a fresh object other than the request data the context holds all that it held. -/
theorem settle_extends {object : CompiledObject} {outcome : Outcome} {progress later : Progress σ}
    (ran : engine.step scope context object progress = (.ok outcome, later))
    (notData : ∀ source, object ≠ .var dataKey source)
    (fresh : Dict.contains context.results object.key = false) :
    (outcome.settle context object.key).Extends context := by
  refine ⟨fun key value found => ?_, fun name value found => step_keeps_data ran notData found⟩
  have different : object.key ≠ key := by
    intro same
    rw [same, Dict.contains, found] at fresh
    cases fresh
  exact (Dict.get?_insert_of_ne context.results outcome.value different).trans found

/-- The names in the request data after a step. -/
theorem mem_keys_step {object : CompiledObject} {outcome : Outcome} {progress later : Progress σ}
    (ran : engine.step scope context object progress = (.ok outcome, later)) (name : String) :
    name ∈ Dict.keys outcome.data ↔ name ∈ object.names (Dict.keys context.data) := by
  rcases step_ok ran with ⟨entries, rfl, replaced⟩ | ⟨fields, rfl, applied⟩ |
    ⟨notParams, notData, unchanged⟩
  · rw [replaced, Value.keys_ofEntries]
    simp [CompiledObject.names]
  · rw [CompiledObject.names, List.mem_append]
    exact mem_keys_applyParameters applied name
  · rw [unchanged]
    cases object with
    | var key source =>
      have other : key ≠ dataKey := by
        intro same
        exact notData source (by rw [same])
      cases source with
      | static json => cases json <;> simp [CompiledObject.names, other]
      | reference name => rfl
      | call spec => rfl
      | fetch path => rfl
    | action key spec => rfl
    | params fields => exact absurd rfl (notParams fields)
    | response kwargs => rfl

end Engine

end ManifestGate
