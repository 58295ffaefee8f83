import ManifestGate.Manifest.Compile
import ManifestGate.Proofs.Manifest.Parsing
import ManifestGate.Proofs.Result

/-!
# What compiling checks

A manifest is scoped if its references reach the request data or earlier blocks, its capability paths
lead somewhere and every position that is filled in at run time has the form that it needs. A template
passes its check exactly if it is scoped, and all objects of a manifest that compiles are.
-/

namespace ManifestGate

variable {σ : Type}

/-- The head of the reference is the request data or one of the keys. -/
def Reaches (seen : List String) (reference : String) : Prop :=
  Path.head reference ≠ "" ∧ (Path.head reference = dataKey ∨ Path.head reference ∈ seen)

/-- The path leads to a value or a function. -/
def Registry.Offers (registry : Registry σ) (path : String) : Prop :=
  ∃ target, registry.resolve path = .ok target

def CallTarget.Scoped (registry : Registry σ) (seen : List String) : CallTarget → Prop
  | .capability path => registry.Offers path
  | .method reference _ => Reaches seen reference
  | .unknown => False

def Spread.Scoped (registry : Registry σ) (seen : List String) : Spread → Prop
  | .reference name => Reaches seen name
  | .capability path => registry.Offers path
  | .invalid _ => False

mutual

/-- Everything symbolic in the template has a meaning after blocks with the given keys. -/
def Template.Scoped (registry : Registry σ) (seen : List String) : Template → Prop
  | .literal _ => True
  | .reference name => Reaches seen name
  | .capability path => registry.Offers path
  | .list items => Template.ScopedItems registry seen items
  | .map entries => Template.ScopedEntries registry seen entries
  | .call target positional keyword _ =>
    (CallTarget.ofText registry.root target).Scoped registry seen ∧
      positional.Scoped registry seen ∧ keyword.Scoped registry seen
  | .malformed _ => False

def Template.ScopedItems (registry : Registry σ) (seen : List String) : List Template → Prop
  | [] => True
  | item :: rest => item.Scoped registry seen ∧ Template.ScopedItems registry seen rest

def Template.ScopedEntries (registry : Registry σ) (seen : List String) :
    List (String × Template) → Prop
  | [] => True
  | (_, template) :: rest =>
    template.Scoped registry seen ∧ Template.ScopedEntries registry seen rest

def Positional.Scoped (registry : Registry σ) (seen : List String) : Positional → Prop
  | .items items => Template.ScopedItems registry seen items
  | .spread _ source => source.Scoped registry seen
  | .invalid _ => False

def Keyword.Scoped (registry : Registry σ) (seen : List String) : Keyword → Prop
  | .entries entries => Template.ScopedEntries registry seen entries
  | .spread _ source => source.Scoped registry seen
  | .invalid _ => False

end

def CallSpec.Scoped (registry : Registry σ) (seen : List String) (spec : CallSpec) : Prop :=
  (spec.template registry.root).Scoped registry seen

def VariableSource.Scoped (registry : Registry σ) (seen : List String) : VariableSource → Prop
  | .static _ => True
  | .reference name => Reaches seen name
  | .call spec => spec.Scoped registry seen
  | .fetch path => registry.Offers path

def ParamDefault.Scoped (registry : Registry σ) (seen : List String) : ParamDefault → Prop
  | .none => True
  | .literal _ => True
  | .fetch path => registry.Offers path
  | .call spec => spec.Scoped registry seen

/-- The request data are those of an object; all else is scoped after the blocks before. -/
def CompiledObject.Scoped (registry : Registry σ) (seen : List String) : CompiledObject → Prop
  | .var key source =>
    if key = dataKey then ∃ entries, source = .static (.object entries)
    else source.Scoped registry seen
  | .action _ spec => spec.Scoped registry seen
  | .params fields => ∀ entry ∈ fields, entry.2.default.Scoped registry seen
  | .response kwargs => (Template.ofJson registry.root kwargs).Scoped registry seen

/-- Each object is scoped after the blocks before it. -/
def ScopedAfter (registry : Registry σ) (seen : List String) : List CompiledObject → Prop
  | [] => True
  | object :: rest =>
    object.Scoped registry seen ∧ ScopedAfter registry (seen ++ [object.key]) rest

section Checks

variable {registry : Registry σ} {known : CompiledManifest}

theorem checkReference_ok_iff {reference : String} :
    checkReference known reference = .ok () ↔ Reaches known.keys reference := by
  unfold checkReference Reaches CompiledManifest.contains
  by_cases empty : Path.head reference = ""
  · simp [empty]
  · by_cases reached : Path.head reference = dataKey ∨ Path.head reference ∈ known.keys
    · simp [empty, reached]
    · simp [empty, reached]

theorem Registry.checkPath_ok_iff {path : String} :
    registry.checkPath path = .ok () ↔ registry.Offers path := by
  unfold checkPath check
  rw [Except.mapError_eq_ok_iff, Except.bind_eq_ok_iff]
  exact ⟨fun ⟨target, found, _⟩ => ⟨target, found⟩, fun ⟨target, found⟩ => ⟨target, found, rfl⟩⟩

theorem checkTarget_ok_iff {target : String} :
    checkTarget registry known target = .ok () ↔
      (CallTarget.ofText registry.root target).Scoped registry known.keys := by
  unfold checkTarget
  cases CallTarget.ofText registry.root target with
  | capability path => exact Registry.checkPath_ok_iff
  | method reference name => exact checkReference_ok_iff
  | unknown => simp [CallTarget.Scoped]

theorem Spread.check_ok_iff {source : Spread} :
    source.check registry known = .ok () ↔ source.Scoped registry known.keys := by
  cases source with
  | reference name => exact checkReference_ok_iff
  | capability path => exact Registry.checkPath_ok_iff
  | invalid spread => simp [Spread.check, Spread.Scoped]

mutual

theorem Template.check_ok_iff : ∀ template : Template,
    template.check registry known = .ok () ↔ template.Scoped registry known.keys
  | .literal _ => by simp [Template.check, Template.Scoped]
  | .reference _ => checkReference_ok_iff
  | .capability _ => Registry.checkPath_ok_iff
  | .list items => Template.checkItems_ok_iff items
  | .map entries => Template.checkEntries_ok_iff entries
  | .call target positional keyword _ => by
    rw [Template.check, Except.then_eq_ok_iff, Except.then_eq_ok_iff, checkTarget_ok_iff,
      Positional.check_ok_iff target positional, Keyword.check_ok_iff target keyword]
    rfl
  | .malformed _ => by simp [Template.check, Template.Scoped]

theorem Template.checkItems_ok_iff : ∀ items : List Template,
    Template.checkItems registry known items = .ok () ↔
      Template.ScopedItems registry known.keys items
  | [] => by simp [Template.checkItems, Template.ScopedItems]
  | item :: rest => by
    rw [Template.checkItems, Except.then_eq_ok_iff, Template.check_ok_iff item,
      Template.checkItems_ok_iff rest]
    rfl

theorem Template.checkEntries_ok_iff : ∀ entries : List (String × Template),
    Template.checkEntries registry known entries = .ok () ↔
      Template.ScopedEntries registry known.keys entries
  | [] => by simp [Template.checkEntries, Template.ScopedEntries]
  | (_, template) :: rest => by
    rw [Template.checkEntries, Except.then_eq_ok_iff, Template.check_ok_iff template,
      Template.checkEntries_ok_iff rest]
    rfl

theorem Positional.check_ok_iff (target : String) : ∀ positional : Positional,
    positional.check registry known target = .ok () ↔ positional.Scoped registry known.keys
  | .items items => Template.checkItems_ok_iff items
  | .spread _ _ => Spread.check_ok_iff
  | .invalid _ => by simp [Positional.check, Positional.Scoped]

theorem Keyword.check_ok_iff (target : String) : ∀ keyword : Keyword,
    keyword.check registry known target = .ok () ↔ keyword.Scoped registry known.keys
  | .entries entries => Template.checkEntries_ok_iff entries
  | .spread _ _ => Spread.check_ok_iff
  | .invalid _ => by simp [Keyword.check, Keyword.Scoped]

end

theorem compileCall_scoped {mapping : Json} {spec : CallSpec}
    (compiled : compileCall registry known mapping = .ok spec) :
    spec.Scoped registry known.keys := by
  unfold compileCall at compiled
  obtain ⟨parsed, _, continued⟩ := Except.bind_eq_ok_iff.mp compiled
  obtain ⟨_, checked, same⟩ := Except.bind_eq_ok_iff.mp continued
  cases same
  exact (Template.check_ok_iff _).mp checked

theorem compileSource_scoped {value : Json} {source : VariableSource}
    (compiled : compileSource registry known value = .ok source) :
    source.Scoped registry known.keys := by
  unfold compileSource at compiled
  split at compiled
  · obtain ⟨spec, called, rfl⟩ := Except.map_eq_ok_iff.mp compiled
    exact compileCall_scoped called
  · split at compiled
    · split at compiled
      · obtain ⟨_, checked, same⟩ := Except.bind_eq_ok_iff.mp compiled
        cases same
        exact checkReference_ok_iff.mp checked
      · obtain ⟨_, checked, same⟩ := Except.bind_eq_ok_iff.mp compiled
        cases same
        exact Registry.checkPath_ok_iff.mp checked
      · cases compiled
        trivial
    · cases compiled
      trivial

theorem compileDefault_scoped {name : String} {value : Json} {default : ParamDefault}
    (compiled : compileDefault registry known name value = .ok default) :
    default.Scoped registry known.keys := by
  unfold compileDefault at compiled
  split at compiled
  · cases compiled
    trivial
  · split at compiled
    · obtain ⟨_, checked, same⟩ := Except.bind_eq_ok_iff.mp compiled
      cases same
      exact Registry.checkPath_ok_iff.mp checked
    · cases compiled
      trivial
  · cases compiled
    trivial
  · cases compiled
    trivial
  · split at compiled
    · obtain ⟨spec, called, rfl⟩ := Except.map_eq_ok_iff.mp compiled
      exact compileCall_scoped called
    · cases compiled

theorem compileField_scoped {name : String} {definition : Json} {field : ParamField}
    (compiled : compileField registry known name definition = .ok field) :
    field.default.Scoped registry known.keys := by
  unfold compileField at compiled
  split at compiled
  · obtain ⟨default, compiledDefault, same⟩ := Except.bind_eq_ok_iff.mp compiled
    cases same
    exact compileDefault_scoped compiledDefault
  · cases compiled
  · cases compiled

theorem compileFields_scoped {entries : List (String × Json)} {fields : Dict ParamField}
    (compiled : compileFields registry known entries = .ok fields) :
    ∀ entry ∈ fields, entry.2.default.Scoped registry known.keys := by
  induction entries generalizing fields with
  | nil =>
    cases compiled
    exact fun _ member => nomatch member
  | cons entry rest ih =>
    obtain ⟨name, definition⟩ := entry
    unfold compileFields at compiled
    obtain ⟨field, compiledField, continued⟩ := Except.bind_eq_ok_iff.mp compiled
    obtain ⟨more, compiledMore, same⟩ := Except.bind_eq_ok_iff.mp continued
    cases same
    intro entry member
    cases member with
    | head => exact compileField_scoped compiledField
    | tail _ later => exact ih compiledMore entry later

/-- The object of a block with a valid key is scoped after the known objects. -/
theorem compileObject_scoped {index : Nat} {block : Block} {object : CompiledObject}
    (valid : block.key.Valid)
    (compiled : compileObject registry index known block = .ok object) :
    object.Scoped registry known.keys := by
  unfold compileObject at compiled
  cases key : block.key with
  | data =>
    simp only [key] at compiled
    split at compiled
    · cases compiled
    · split at compiled
      · cases compiled
      · next isObject =>
        cases compiled
        rw [CompiledObject.Scoped, if_pos rfl]
        cases value : block.value with
        | object entries => exact ⟨entries, rfl⟩
        | _ => simp [value, Json.isObject] at isObject
  | var name =>
    simp only [key] at compiled
    obtain ⟨source, compiledSource, rfl⟩ := Except.map_eq_ok_iff.mp compiled
    rw [key] at valid
    rw [CompiledObject.Scoped, if_neg valid.ne_dataKey]
    exact compileSource_scoped compiledSource
  | action name =>
    simp only [key] at compiled
    split at compiled
    · obtain ⟨spec, called, rfl⟩ := Except.map_eq_ok_iff.mp compiled
      exact compileCall_scoped called
    · cases compiled
  | params =>
    simp only [key] at compiled
    split at compiled
    · obtain ⟨fields, compiledFields, rfl⟩ := Except.map_eq_ok_iff.mp compiled
      exact compileFields_scoped compiledFields
    · cases compiled
  | response =>
    simp only [key] at compiled
    split at compiled
    · obtain ⟨_, checked, same⟩ := Except.bind_eq_ok_iff.mp compiled
      cases same
      exact (Template.check_ok_iff _).mp checked
    · obtain ⟨_, checked, same⟩ := Except.bind_eq_ok_iff.mp compiled
      cases same
      exact (Template.check_ok_iff _).mp checked
    · cases compiled

end Checks

theorem CompiledManifest.push_ok {known next : CompiledManifest} {object : CompiledObject}
    (pushed : known.push object = .ok next) : next.objects = known.objects ++ [object] := by
  unfold push at pushed
  split at pushed
  · cases pushed
  · split at pushed
    · cases pushed
    · cases pushed
      rfl

theorem compileBlocks_scoped {registry : Registry σ} {index : Nat}
    {known compiled : CompiledManifest} {blocks : List Block}
    (valid : ∀ block ∈ blocks, block.key.Valid)
    (accepted : compileBlocks registry index known blocks = .ok compiled) :
    ∃ objects, compiled.objects = known.objects ++ objects ∧
      ScopedAfter registry known.keys objects := by
  induction blocks generalizing index known with
  | nil =>
    cases accepted
    exact ⟨[], (List.append_nil _).symm, trivial⟩
  | cons block rest ih =>
    unfold compileBlocks at accepted
    split at accepted
    · cases accepted
    · obtain ⟨object, compiledObject, continued⟩ := Except.bind_eq_ok_iff.mp accepted
      obtain ⟨next, pushed, acceptedRest⟩ := Except.bind_eq_ok_iff.mp continued
      have extended := CompiledManifest.push_ok (Except.mapError_eq_ok_iff.mp pushed)
      obtain ⟨objects, same, inOrder⟩ :=
        ih (fun other member => valid other (List.mem_cons_of_mem _ member)) acceptedRest
      refine ⟨object :: objects, ?_, ?_, ?_⟩
      · rw [same, extended, List.append_assoc]
        rfl
      · exact compileObject_scoped (valid block List.mem_cons_self) compiledObject
      · have keys : next.keys = known.keys ++ [object.key] := by
          rw [CompiledManifest.keys, extended, List.map_append]
          rfl
        rwa [keys] at inOrder

/-- All objects of a manifest that compiles are scoped after those before them. -/
theorem compile_scoped {registry : Registry σ} {manifest : Json} {compiled : CompiledManifest}
    (accepted : compile registry manifest = .ok compiled) :
    ScopedAfter registry [] compiled.objects := by
  unfold compile at accepted
  obtain ⟨blocks, parsed, compiledBlocks⟩ := Except.bind_eq_ok_iff.mp accepted
  obtain ⟨_, valid⟩ := Block.parseAll_eq_ok_iff.mp (Except.mapError_eq_ok_iff.mp parsed)
  obtain ⟨objects, same, inOrder⟩ := compileBlocks_scoped valid compiledBlocks
  rw [same]
  exact inOrder

end ManifestGate
