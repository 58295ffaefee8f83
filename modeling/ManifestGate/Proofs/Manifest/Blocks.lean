import ManifestGate.Proofs.Manifest.Parsing
import ManifestGate.Proofs.Manifest.Origin

/-!
# From items to objects

A manifest that compiles has one object for each of its items, in the order of the items, and each
object is what the compiler makes of the item's key and value.
-/

namespace ManifestGate

variable {σ : Type}

/-! ## Items -/

/-- The item is a block, and the object is what the compiler makes of it. -/
def Compiles (registry : Registry σ) (item : Json) (object : CompiledObject) : Prop :=
  ∃ raw value key index known, item = .object [(raw, value)] ∧ BlockKey.parse raw = .ok key ∧
    compileObject registry index known ⟨key, value⟩ = .ok object

section

variable {registry : Registry σ}

/-- The kind of object that a block with the key becomes, and the name that it goes by. -/
inductive CompiledObject.StandsFor : BlockKey → CompiledObject → Prop where
  | data {entries : List (String × Json)} :
      StandsFor .data (.var dataKey (.static (.object entries)))
  | var {name : String} {source : VariableSource} : StandsFor (.var name) (.var name source)
  | action {name : String} {spec : CallSpec} : StandsFor (.action name) (.action name spec)
  | params {fields : Dict ParamField} : StandsFor .params (.params fields)
  | response {value : Json} : StandsFor .response (.response value)

theorem CompiledObject.StandsFor.key {key : BlockKey} {object : CompiledObject}
    (standsFor : object.StandsFor key) : object.key = key.reference := by
  cases standsFor <;> rfl

theorem compileObject_standsFor {index : Nat} {known : CompiledManifest} {block : Block}
    {object : CompiledObject} (compiled : compileObject registry index known block = .ok object) :
    object.StandsFor block.key := by
  obtain ⟨key, value⟩ := block
  unfold compileObject at compiled
  cases key with
  | data =>
    dsimp only at compiled
    split at compiled
    · cases compiled
    · cases value with
      | object entries =>
        cases compiled
        exact .data
      | _ => cases compiled
  | var name =>
    obtain ⟨source, _, rfl⟩ := Except.map_eq_ok_iff.mp compiled
    exact .var
  | action name =>
    dsimp only at compiled
    split at compiled
    · obtain ⟨spec, _, rfl⟩ := Except.map_eq_ok_iff.mp compiled
      exact .action
    · cases compiled
  | params =>
    dsimp only at compiled
    split at compiled
    · obtain ⟨fields, _, rfl⟩ := Except.map_eq_ok_iff.mp compiled
      exact .params
    · cases compiled
  | response =>
    dsimp only at compiled
    split at compiled
    · obtain ⟨_, _, same⟩ := Except.bind_eq_ok_iff.mp compiled
      cases same
      exact .response
    · obtain ⟨_, _, same⟩ := Except.bind_eq_ok_iff.mp compiled
      cases same
      exact .response
    · cases compiled

theorem compileBlocks_objects {index : Nat} {known compiled : CompiledManifest}
    {blocks : List Block} (accepted : compileBlocks registry index known blocks = .ok compiled) :
    ∃ objects, compiled.objects = known.objects ++ objects ∧
      List.Forall₂ (fun block object =>
        ∃ index known, compileObject registry index known block = .ok object) blocks objects := by
  induction blocks generalizing index known with
  | nil =>
    cases accepted
    exact ⟨[], (List.append_nil _).symm, .nil⟩
  | cons block rest ih =>
    unfold compileBlocks at accepted
    split at accepted
    · cases accepted
    · obtain ⟨object, compiledObject, continued⟩ := Except.bind_eq_ok_iff.mp accepted
      obtain ⟨next, pushed, acceptedRest⟩ := Except.bind_eq_ok_iff.mp continued
      have extended := CompiledManifest.push_ok (Except.mapError_eq_ok_iff.mp pushed)
      obtain ⟨objects, same, compiledRest⟩ := ih acceptedRest
      refine ⟨object :: objects, ?_, .cons ⟨index, known, compiledObject⟩ compiledRest⟩
      rw [same, extended, List.append_assoc]
      rfl

/-- The objects of a manifest that compiles, item by item. -/
theorem compile_items {items : List Json} {compiled : CompiledManifest}
    (accepted : compile registry (.array items) = .ok compiled) :
    List.Forall₂ (Compiles registry) items compiled.objects := by
  unfold compile at accepted
  obtain ⟨blocks, parsed, compiledBlocks⟩ := Except.bind_eq_ok_iff.mp accepted
  obtain ⟨spelled, valid⟩ := Block.parseAll_eq_ok_iff.mp (Except.mapError_eq_ok_iff.mp parsed)
  obtain rfl := Json.array.inj spelled
  obtain ⟨objects, same, made⟩ := compileBlocks_objects compiledBlocks
  rw [same]
  apply List.forall₂_map_left_iff.mpr
  refine ((List.forall₂_and_left _ _).mpr ⟨valid, made⟩).imp ?_
  rintro ⟨key, value⟩ object ⟨validKey, index, known, compiledObject⟩
  have readKey := BlockKey.parse_eq_ok_iff.mpr ⟨rfl, validKey⟩
  exact ⟨key.text, value, key, index, known, rfl, readKey, compiledObject⟩

/-- Each object of a manifest that compiles stands for a block with a valid key. -/
theorem compile_standsFor {manifest : Json} {compiled : CompiledManifest}
    (accepted : compile registry manifest = .ok compiled) :
    ∀ object ∈ compiled.objects, ∃ key : BlockKey, key.Valid ∧ object.StandsFor key := by
  obtain ⟨items, rfl, -⟩ := compile_from accepted
  have made := compile_items accepted
  generalize compiled.objects = objects at made
  clear accepted
  induction made with
  | nil => exact fun _ member => nomatch member
  | cons first _ ih =>
    obtain ⟨raw, value, key, index, known, _, readKey, compiledObject⟩ := first
    have valid := (BlockKey.parse_eq_ok_iff.mp readKey).2
    exact List.forall_mem_cons.mpr ⟨⟨key, valid, compileObject_standsFor compiledObject⟩, ih⟩

theorem Compiles.var {name : String} {value : Json} {object : CompiledObject}
    (compiles : Compiles registry (.object [("var#" ++ name, value)]) object) :
    isBlockName name = true ∧ name ∉ reservedNames ∧
      ∃ known source, compileSource registry known value = .ok source ∧
        object = .var name source := by
  obtain ⟨raw, inner, key, index, known, same, parsed, compiled⟩ := compiles
  cases same
  obtain ⟨rfl, valid, free⟩ := BlockKey.parse_var_ok parsed
  obtain ⟨source, compiledSource, same⟩ := Except.map_eq_ok_iff.mp compiled
  exact ⟨valid, free, known, source, compiledSource, same.symm⟩

theorem Compiles.response {value : Json} {object : CompiledObject}
    (compiles : Compiles registry (.object [(responseKey, value)]) object) :
    object = .response value := by
  obtain ⟨raw, inner, key, index, known, same, parsed, compiled⟩ := compiles
  cases same
  cases parsed
  unfold compileObject at compiled
  dsimp only at compiled
  split at compiled
  · obtain ⟨_, _, same⟩ := Except.bind_eq_ok_iff.mp compiled
    cases same
    rfl
  · obtain ⟨_, _, same⟩ := Except.bind_eq_ok_iff.mp compiled
    cases same
    rfl
  · cases compiled

end

/-! ## Sources -/

theorem CallSpec.isMapping_of_parse {value : Json} {spec : CallSpec}
    (parsed : parse value = .ok spec) : isMapping value = true := by
  obtain ⟨entries, rfl, _⟩ := parse_ok parsed
  unfold parse at parsed
  obtain ⟨head, readHead, _⟩ := Except.bind_eq_ok_iff.mp parsed
  unfold CallSpec.readHead at readHead
  obtain ⟨call, readCall, _⟩ := Except.bind_eq_ok_iff.mp readHead
  unfold CallSpec.readCall at readCall
  split at readCall
  · next found => simp [isMapping, Dict.contains, found]
  · cases readCall

theorem compileSource_call {registry : Registry σ} {known : CompiledManifest} {value : Json}
    {source : VariableSource} {spec : CallSpec} (parsed : CallSpec.parse value = .ok spec)
    (compiled : compileSource registry known value = .ok source) : source = .call spec := by
  unfold compileSource at compiled
  rw [if_pos (CallSpec.isMapping_of_parse parsed)] at compiled
  obtain ⟨other, called, same⟩ := Except.map_eq_ok_iff.mp compiled
  have parsedOther := compileCall_from called
  rw [parsed] at parsedOther
  cases parsedOther
  exact same.symm

end ManifestGate
