import ManifestGate.Proofs.Json.Nesting
import ManifestGate.Proofs.Manifest.RoundTrip

/-!
# How deep dumps nest

A dump puts tags around what stands in the manifest: a static value stands two containers deep in
its object, the call of a parameter default four. So a dump nests up to two containers deeper than
its manifest, and the reader's limit is the same for both. A manifest close to the limit has a dump
that is not read back.
-/

namespace ManifestGate

variable {σ : Type}

/-! ## Calls -/

theorem Predicate.nesting_le {predicate : Predicate} {entries : Dict Json}
    (read : Ensure.readPredicate entries = .ok predicate) :
    predicate.toJson.nesting ≤ (Json.object entries).nesting := by
  rcases Ensure.readPredicate_ok read with ⟨literal, found, rfl⟩ | ⟨literal, found, rfl⟩
  · have inner := Json.nesting_lt_of_get? found
    simp only [toJson, Json.nesting, Json.nestingEntries] at *
    omega
  · have inner := Json.nesting_lt_of_get? found
    simp only [toJson, Json.nesting, Json.nestingEntries] at *
    omega

theorem nestingEntries_optionalField_string (name : String) (text : Option String) :
    Json.nestingEntries (optionalField name (text.map .string)) = 0 := by
  cases text <;> rfl

theorem Ensure.nesting_le {raw : Json} {ensure : Ensure} (parsed : parse raw = .ok ensure) :
    ensure.toJson.nesting ≤ raw.nesting + 1 := by
  obtain ⟨entries, rfl, predicate, _⟩ := parse_ok parsed
  have inner := Predicate.nesting_le predicate
  simpa [toJson, Json.nesting, Json.nestingEntries, Json.nestingEntries_append,
    nestingEntries_optionalField_string] using inner

theorem nesting_getD_le {entries : Dict Json} (key : String) {default : Json}
    (small : default.nesting ≤ 1) :
    ((Dict.get? entries key).getD default).nesting ≤ (Json.object entries).nesting := by
  cases found : Dict.get? entries key with
  | none => exact Nat.le_trans small (Nat.le_add_left _ _)
  | some value => exact Nat.le_of_lt (Json.nesting_lt_of_get? found)

/-- The clause of a call gets one container more. -/
theorem CallSpec.nesting_le {mapping : Json} {spec : CallSpec} (parsed : parse mapping = .ok spec) :
    spec.toJson.nesting ≤ mapping.nesting + 1 := by
  obtain ⟨call, args, kwargs, ensure⟩ := spec
  obtain ⟨entries, rfl, args, kwargs, clause⟩ := parse_ok parsed
  dsimp only at args kwargs clause
  subst args kwargs
  have positional : ((Dict.get? entries "args").getD (.array [])).nesting ≤
      (Json.object entries).nesting := nesting_getD_le "args" (Nat.le_refl 1)
  have keyword : ((Dict.get? entries "kwargs").getD (.object [])).nesting ≤
      (Json.object entries).nesting := nesting_getD_le "kwargs" (Nat.le_refl 1)
  -- only the clause gains a container, the tag around its predicate
  have clauseBound : Json.nestingEntries (optionalField "ensure" (ensure.map Ensure.toJson)) ≤
      (Json.object entries).nesting := by
    cases ensure with
    | none => exact Nat.zero_le _
    | some ensure =>
      obtain ⟨raw, found, parsedClause⟩ := readEnsure_ok clause
      have inner := Ensure.nesting_le parsedClause
      have outer := Json.nesting_lt_of_get? found
      simp only [Option.map_some, optionalField, Json.nestingEntries]
      omega
  simp only [toJson, Json.nesting, Json.nestingEntries_append, Json.nestingEntries] at *
  omega

/-! ## Objects -/

theorem VariableSource.From.nesting_le {value : Json} {source : VariableSource}
    (origin : source.From value) : source.toJson.nesting ≤ value.nesting + 2 := by
  cases source with
  | static kept =>
    cases origin
    simp [toJson, Json.nesting, Json.nestingEntries]
  | reference name => exact Nat.le_add_left _ _
  | call spec =>
    have inner := CallSpec.nesting_le origin
    simp only [toJson, Json.nesting, Json.nestingEntries]
    omega
  | fetch path => exact Nat.le_add_left _ _

theorem ParamDefault.From.nesting_le {value : Json} {default : ParamDefault}
    (origin : default.From value) : default.toJson.nesting ≤ value.nesting + 2 := by
  cases default with
  | none => exact Nat.zero_le _
  | literal kept =>
    cases origin
    simp [toJson, Json.nesting, Json.nestingEntries]
  | fetch path => exact Nat.le_add_left _ _
  | call spec =>
    have inner := CallSpec.nesting_le origin
    simp only [toJson, Json.nesting, Json.nestingEntries]
    omega

theorem ParamField.From.nesting_le {definition : Json} {field : ParamField}
    (origin : field.From definition) : field.toJson.nesting ≤ definition.nesting + 2 := by
  obtain ⟨value, rfl, kept⟩ := origin
  have inner := kept.nesting_le
  simp only [toJson, Json.nesting, Json.nestingEntries, Json.nestingItems]
  omega

theorem FieldsFrom.nesting_le {entries : List (String × Json)} {fields : Dict ParamField}
    (origins : FieldsFrom entries fields) :
    Json.nestingEntries (fields.map fun entry => (entry.1, entry.2.toJson)) ≤
      Json.nestingEntries entries + 2 := by
  induction origins with
  | nil => exact Nat.zero_le _
  | cons origin _ ih =>
    have first := origin.2.nesting_le
    simp only [List.map_cons, Json.nestingEntries] at ih ⊢
    omega

/-- An object nests up to three containers deeper than the value of its block. -/
theorem CompiledObject.From.nesting_le {value : Json} {object : CompiledObject}
    (origin : object.From value) : object.toJson.nesting ≤ value.nesting + 3 := by
  cases object with
  | var key source =>
    have inner := VariableSource.From.nesting_le origin
    simp only [toJson, Json.nesting, Json.nestingEntries]
    omega
  | action key call =>
    have inner := CallSpec.nesting_le origin
    simp only [toJson, Json.nesting, Json.nestingEntries]
    omega
  | params fields =>
    obtain ⟨entries, rfl, origins⟩ := origin
    have inner := origins.nesting_le
    simp only [toJson, Json.nesting, Json.nestingEntries]
    omega
  | response kwargs =>
    cases origin
    simp only [toJson, Json.nesting, Json.nestingEntries]
    omega

/-! ## Manifests -/

theorem compile_nesting_le {registry : Registry σ} {manifest : Json} {compiled : CompiledManifest}
    (accepted : compile registry manifest = .ok compiled) :
    compiled.toJson.nesting ≤ manifest.nesting + 2 := by
  obtain ⟨items, rfl, origins⟩ := compile_from accepted
  refine Nat.succ_le_succ (Json.nestingItems_le_iff.mpr fun json member => ?_)
  obtain ⟨object, present, rfl⟩ := List.mem_map.mp member
  obtain ⟨raw, value, inside, origin⟩ := origins object present
  have outer := CompiledObject.From.nesting_le origin
  have item := Json.nesting_lt_of_mem_items inside
  simp only [Json.nesting, Json.nestingEntries] at *
  omega

/-- Of a manifest that is accepted as a text, the dump is read back exactly if it nests less deep than
the limit. The manifest itself does; its dump nests up to two containers deeper, and a dump at the
limit is refused. -/
theorem dump_read_iff_nesting {text : String} {registry : Registry σ} {manifest : Json}
    {compiled : CompiledManifest} (parsed : parseManifest text = .ok manifest)
    (accepted : compile registry manifest = .ok compiled)
    (readBack : ∀ n ∈ compiled.toJson.numbers, n.ReadsBack) :
    manifest.nesting < Json.nestingLimit ∧
      compiled.toJson.nesting ≤ manifest.nesting + 2 ∧
      CompiledManifest.ofDump compiled.dump =
        if compiled.toJson.nesting < Json.nestingLimit then .ok compiled
        else .error (.badDump Json.ReadError.nesting.message) := by
  have document := Except.mapError_eq_ok_iff.mp parsed
  have sound := compile_wellFormed (Json.canonical_of_parse document) accepted
  exact ⟨Json.nesting_lt_of_parse document, compile_nesting_le accepted,
    CompiledManifest.ofDump_dump sound readBack⟩

/-! Towers of arrays reach the limit -/

/-- A document of the given nesting. -/
def tower : Nat → Json
  | 0 => .null
  | height + 1 => .array [tower height]

def towerManifest (height : Nat) : Json :=
  .array [.object [("var#a", tower height)]]

def towerCompiled (height : Nat) : CompiledManifest where
  objects := [.var "a" (.static (tower height))]
  distinct := List.pairwise_singleton _ _
  dataFirst := fun _ member => nomatch member

theorem tower_nesting (height : Nat) : (tower height).nesting = height := by
  induction height with
  | zero => rfl
  | succ height ih => simp [tower, Json.nesting, Json.nestingItems, ih]

theorem tower_numbers (height : Nat) : (tower height).numbers = [] := by
  induction height with
  | zero => rfl
  | succ height ih => simp [tower, Json.numbers, Json.numbersOfItems, ih]

theorem tower_canonical (height : Nat) : (tower height).Canonical := by
  induction height with
  | zero => trivial
  | succ height ih => exact ⟨ih, trivial⟩

theorem towerManifest_nesting (height : Nat) : (towerManifest height).nesting = height + 2 := by
  simp [towerManifest, Json.nesting, Json.nestingItems, Json.nestingEntries, tower_nesting]

theorem towerCompiled_nesting (height : Nat) :
    (towerCompiled height).toJson.nesting = height + 3 := by
  simp [towerCompiled, CompiledManifest.toJson, CompiledObject.toJson, VariableSource.toJson,
    Json.nesting, Json.nestingItems, Json.nestingEntries, tower_nesting]

theorem towerManifest_readsBack (height : Nat) :
    ∀ n ∈ (towerManifest height).numbers, n.ReadsBack := by
  simp [towerManifest, Json.numbers, Json.numbersOfItems, Json.numbersOfEntries, tower_numbers]

theorem towerCompiled_readsBack (height : Nat) :
    ∀ n ∈ (towerCompiled height).toJson.numbers, n.ReadsBack := by
  simp [towerCompiled, CompiledManifest.toJson, CompiledObject.toJson, VariableSource.toJson,
    Json.numbers, Json.numbersOfItems, Json.numbersOfEntries, tower_numbers]

theorem towerManifest_canonical (height : Nat) : (towerManifest height).Canonical :=
  ⟨⟨List.pairwise_singleton _ _, tower_canonical height, trivial⟩, trivial⟩

theorem parseManifest_tower {height : Nat} (low : height + 2 < Json.nestingLimit) :
    parseManifest (towerManifest height).pretty = .ok (towerManifest height) := by
  rw [parseManifest, Json.parse, Json.read_pretty (towerManifest_readsBack height),
    towerManifest_nesting, if_pos low]
  change Except.ok (towerManifest height).canonical = _
  rw [Json.canonical_eq_self (towerManifest_canonical height)]

theorem compile_tower (registry : Registry σ) (height : Nat) :
    compile registry (towerManifest (height + 1)) = .ok (towerCompiled (height + 1)) := by
  rfl

/-- A dump just below the limit. -/
theorem tower_124_dump_read :
    CompiledManifest.ofDump (towerCompiled 124).dump = .ok (towerCompiled 124) := by
  have spec := dump_read_iff_nesting (parseManifest_tower (by decide))
    (compile_tower (⟨"R", []⟩ : Registry Unit) 123) (towerCompiled_readsBack 124)
  rw [spec.2.2, towerCompiled_nesting, if_pos (by decide)]

/-- A manifest below the limit whose dump is at the limit. -/
theorem tower_125_dump_refused :
    parseManifest (towerManifest 125).pretty = .ok (towerManifest 125) ∧
      compile (⟨"R", []⟩ : Registry Unit) (towerManifest 125) = .ok (towerCompiled 125) ∧
      CompiledManifest.ofDump (towerCompiled 125).dump =
        .error (.badDump Json.ReadError.nesting.message) := by
  refine ⟨parseManifest_tower (by decide), compile_tower _ 124, ?_⟩
  have sound := compile_wellFormed (towerManifest_canonical 125)
    (compile_tower (⟨"R", []⟩ : Registry Unit) 124)
  rw [CompiledManifest.ofDump_dump sound (towerCompiled_readsBack 125), towerCompiled_nesting,
    if_neg (by decide)]

end ManifestGate
