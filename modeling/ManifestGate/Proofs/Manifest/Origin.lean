import Mathlib.Data.List.Forall2
import ManifestGate.Manifest.Compile
import ManifestGate.Proofs.Manifest.Scoping
import ManifestGate.Proofs.Result

/-!
# What a compiled manifest takes over

The compiler checks the values of blocks and passes them on. What an object holds is told by its
block alone: the value, or the call that the value spells. The registry and the blocks before only
decide whether the block is accepted.
-/

namespace ManifestGate

variable {σ : Type}

/-! ## Calls -/

theorem Ensure.parse_ok {raw : Json} {ensure : Ensure} (parsed : Ensure.parse raw = .ok ensure) :
    ∃ entries, raw = .object entries ∧ readPredicate entries = .ok ensure.predicate ∧
      readCode entries = .ok ensure.code := by
  cases raw with
  | object entries =>
    unfold parse at parsed
    dsimp only at parsed
    split at parsed
    · cases parsed
    · obtain ⟨predicate, readPredicate, parsed⟩ := Except.bind_eq_ok_iff.mp parsed
      obtain ⟨error, _, parsed⟩ := Except.bind_eq_ok_iff.mp parsed
      obtain ⟨code, readCode, parsed⟩ := Except.bind_eq_ok_iff.mp parsed
      obtain ⟨log, _, parsed⟩ := Except.bind_eq_ok_iff.mp parsed
      obtain ⟨debug, _, parsed⟩ := Except.bind_eq_ok_iff.mp parsed
      cases parsed
      exact ⟨entries, rfl, readPredicate, readCode⟩
  | _ => cases parsed

theorem Ensure.readPredicate_ok {entries : Dict Json} {predicate : Predicate}
    (read : readPredicate entries = .ok predicate) :
    (∃ expected, Dict.get? entries "value" = some expected ∧ predicate = .value expected) ∨
      ∃ rejected, Dict.get? entries "isnot" = some rejected ∧ predicate = .isnot rejected := by
  unfold readPredicate at read
  split at read
  · next expected found _ =>
    cases read
    exact .inl ⟨expected, found, rfl⟩
  · next rejected _ found =>
    cases read
    exact .inr ⟨rejected, found, rfl⟩
  · cases read
  · cases read

theorem CallSpec.readEnsure_ok {entries : Dict Json} {ensure : Ensure}
    (read : readEnsure entries = .ok (some ensure)) :
    ∃ raw, Dict.get? entries "ensure" = some raw ∧ Ensure.parse raw = .ok ensure := by
  unfold readEnsure at read
  split at read
  · cases read
  · cases read
  · cases read
  · next raw _ _ found =>
    obtain ⟨parsed, accepted, same⟩ := Except.map_eq_ok_iff.mp read
    cases same
    exact ⟨raw, found, accepted⟩

/-- A call mapping is an object; the spelled call takes over its arguments and its clause. -/
theorem CallSpec.parse_ok {mapping : Json} {spec : CallSpec} (parsed : parse mapping = .ok spec) :
    ∃ entries, mapping = .object entries ∧
      spec.args = (Dict.get? entries "args").getD (.array []) ∧
      spec.kwargs = (Dict.get? entries "kwargs").getD (.object []) ∧
      readEnsure entries = .ok spec.ensure := by
  cases mapping with
  | object entries =>
    unfold parse at parsed
    obtain ⟨⟨call, ensure⟩, head, same⟩ := Except.bind_eq_ok_iff.mp parsed
    cases same
    unfold readHead at head
    obtain ⟨_, _, checked⟩ := Except.bind_eq_ok_iff.mp head
    split at checked
    · cases checked
    · obtain ⟨_, read, same⟩ := Except.bind_eq_ok_iff.mp checked
      cases same
      exact ⟨entries, rfl, rfl, rfl, read⟩
  | _ => cases parsed

/-! ## Blocks -/

theorem Symbol.ofText_capability {root text path : String}
    (symbol : ofText root text = .capability path) : path = text := by
  unfold ofText at symbol
  split at symbol
  · cases symbol
  · split at symbol
    · cases symbol
      rfl
    · cases symbol

/-- What the source of a variable takes over from the value of its block. -/
def VariableSource.From (value : Json) : VariableSource → Prop
  | .static kept => kept = value
  | .reference _ => ∃ text, value = .string text
  | .call spec => CallSpec.parse value = .ok spec
  | .fetch path => value = .string path

def ParamDefault.From (value : Json) : ParamDefault → Prop
  | .none => value = .null
  | .literal kept => kept = value
  | .fetch path => value = .string path
  | .call spec => CallSpec.parse value = .ok spec

def ParamField.From (definition : Json) (field : ParamField) : Prop :=
  ∃ value, definition = .array [.bool field.required, value] ∧ field.default.From value

/-- Each field comes from the entry of its name. -/
def FieldsFrom (entries : List (String × Json)) (fields : Dict ParamField) : Prop :=
  List.Forall₂ (fun entry field => field.1 = entry.1 ∧ field.2.From entry.2) entries fields

/-- What an object takes over from the value of its block. -/
def CompiledObject.From (value : Json) : CompiledObject → Prop
  | .var _ source => source.From value
  | .action _ call => CallSpec.parse value = .ok call
  | .params fields => ∃ entries, value = .object entries ∧ FieldsFrom entries fields
  | .response kwargs => kwargs = value

section

variable {registry : Registry σ} {known : CompiledManifest}

theorem compileCall_from {mapping : Json} {spec : CallSpec}
    (compiled : compileCall registry known mapping = .ok spec) :
    CallSpec.parse mapping = .ok spec := by
  unfold compileCall at compiled
  obtain ⟨parsed, accepted, continued⟩ := Except.bind_eq_ok_iff.mp compiled
  obtain ⟨_, _, same⟩ := Except.bind_eq_ok_iff.mp continued
  cases same
  exact Except.mapError_eq_ok_iff.mp accepted

theorem compileSource_from {value : Json} {source : VariableSource}
    (compiled : compileSource registry known value = .ok source) : source.From value := by
  unfold compileSource at compiled
  split at compiled
  · obtain ⟨spec, called, rfl⟩ := Except.map_eq_ok_iff.mp compiled
    exact compileCall_from called
  · split at compiled
    · next text _ =>
      split at compiled
      · obtain ⟨_, _, same⟩ := Except.bind_eq_ok_iff.mp compiled
        cases same
        exact ⟨text, rfl⟩
      · next path symbol =>
        obtain ⟨_, _, same⟩ := Except.bind_eq_ok_iff.mp compiled
        cases same
        rw [VariableSource.From, Symbol.ofText_capability symbol]
      · cases compiled
        rfl
    · cases compiled
      rfl

theorem compileDefault_from {name : String} {value : Json} {default : ParamDefault}
    (compiled : compileDefault registry known name value = .ok default) : default.From value := by
  unfold compileDefault at compiled
  split at compiled
  · cases compiled
    rfl
  · split at compiled
    · obtain ⟨_, _, same⟩ := Except.bind_eq_ok_iff.mp compiled
      cases same
      rfl
    · cases compiled
      rfl
  · cases compiled
    rfl
  · cases compiled
    rfl
  · split at compiled
    · obtain ⟨spec, called, rfl⟩ := Except.map_eq_ok_iff.mp compiled
      exact compileCall_from called
    · cases compiled

theorem compileField_from {name : String} {definition : Json} {field : ParamField}
    (compiled : compileField registry known name definition = .ok field) :
    field.From definition := by
  unfold compileField at compiled
  split at compiled
  · next required value =>
    obtain ⟨default, compiledDefault, same⟩ := Except.bind_eq_ok_iff.mp compiled
    cases same
    exact ⟨value, rfl, compileDefault_from compiledDefault⟩
  · cases compiled
  · cases compiled

theorem compileFields_from {entries : List (String × Json)} {fields : Dict ParamField}
    (compiled : compileFields registry known entries = .ok fields) :
    FieldsFrom entries fields := by
  induction entries generalizing fields with
  | nil =>
    cases compiled
    exact .nil
  | cons entry rest ih =>
    obtain ⟨name, definition⟩ := entry
    unfold compileFields at compiled
    obtain ⟨field, compiledField, continued⟩ := Except.bind_eq_ok_iff.mp compiled
    obtain ⟨more, compiledMore, same⟩ := Except.bind_eq_ok_iff.mp continued
    cases same
    exact .cons ⟨rfl, compileField_from compiledField⟩ (ih compiledMore)

theorem compileObject_from {index : Nat} {block : Block} {object : CompiledObject}
    (compiled : compileObject registry index known block = .ok object) :
    object.From block.value := by
  unfold compileObject at compiled
  split at compiled
  · split at compiled
    · cases compiled
    · split at compiled
      · cases compiled
      · cases compiled
        rfl
  · obtain ⟨source, compiledSource, rfl⟩ := Except.map_eq_ok_iff.mp compiled
    exact compileSource_from compiledSource
  · split at compiled
    · obtain ⟨spec, called, rfl⟩ := Except.map_eq_ok_iff.mp compiled
      exact compileCall_from called
    · cases compiled
  · split at compiled
    · next entries value =>
      obtain ⟨fields, compiledFields, rfl⟩ := Except.map_eq_ok_iff.mp compiled
      exact ⟨entries, value, compileFields_from compiledFields⟩
    · cases compiled
  · split at compiled
    · obtain ⟨_, _, same⟩ := Except.bind_eq_ok_iff.mp compiled
      cases same
      rfl
    · obtain ⟨_, _, same⟩ := Except.bind_eq_ok_iff.mp compiled
      cases same
      rfl
    · cases compiled

theorem compileBlocks_from {index : Nat} {compiled : CompiledManifest} {blocks : List Block}
    (accepted : compileBlocks registry index known blocks = .ok compiled) :
    ∀ object ∈ compiled.objects,
      object ∈ known.objects ∨ ∃ block ∈ blocks, object.From block.value := by
  induction blocks generalizing index known with
  | nil =>
    cases accepted
    exact fun object member => .inl member
  | cons block rest ih =>
    unfold compileBlocks at accepted
    split at accepted
    · cases accepted
    · obtain ⟨first, compiledFirst, continued⟩ := Except.bind_eq_ok_iff.mp accepted
      obtain ⟨next, pushed, acceptedRest⟩ := Except.bind_eq_ok_iff.mp continued
      have extended := CompiledManifest.push_ok (Except.mapError_eq_ok_iff.mp pushed)
      intro object member
      rcases ih acceptedRest object member with present | ⟨other, later, origin⟩
      · rw [extended, List.mem_append, List.mem_singleton] at present
        rcases present with before | rfl
        · exact .inl before
        · exact .inr ⟨block, List.mem_cons_self, compileObject_from compiledFirst⟩
      · exact .inr ⟨other, List.mem_cons_of_mem _ later, origin⟩

end

/-- A manifest that compiles is an array, and each object takes over the value that stands in one of
its items. -/
theorem compile_from {registry : Registry σ} {manifest : Json} {compiled : CompiledManifest}
    (accepted : compile registry manifest = .ok compiled) :
    ∃ items, manifest = .array items ∧ ∀ object ∈ compiled.objects,
      ∃ raw value, .object [(raw, value)] ∈ items ∧ object.From value := by
  unfold compile at accepted
  obtain ⟨blocks, parsed, compiledBlocks⟩ := Except.bind_eq_ok_iff.mp accepted
  obtain ⟨rfl, _⟩ := Block.parseAll_eq_ok_iff.mp (Except.mapError_eq_ok_iff.mp parsed)
  refine ⟨_, rfl, ?_⟩
  intro object member
  rcases compileBlocks_from compiledBlocks object member with none | ⟨block, inside, origin⟩
  · exact absurd none List.not_mem_nil
  · exact ⟨block.key.text, block.value, List.mem_map_of_mem inside, origin⟩

end ManifestGate
