import ManifestGate.Manifest.Compile
import ManifestGate.Proofs.Capability.Extension

/-!
# Compiling against a larger registry

The compiler asks a registry for its root and whether it offers a path. A registry that offers more
under the same root reads every text as the same symbol and passes every check that was passed, so
that a manifest compiles to the objects that it compiled to.
-/

namespace ManifestGate

variable {σ : Type}

namespace Registry.Extends

variable {larger registry : Registry σ}

section

variable (extends_ : larger.Extends registry) (known : CompiledManifest)

include extends_

theorem checkPath_kept (path : String) :
    Except.KeptBy (registry.checkPath path) (larger.checkPath path) :=
  Except.KeptBy.mapError (fun _ accepted => extends_.check accepted) _

theorem checkTarget_kept (target : String) :
    Except.KeptBy (checkTarget registry known target) (checkTarget larger known target) := by
  unfold checkTarget
  rw [extends_.root]
  cases CallTarget.ofText registry.root target with
  | capability path => exact extends_.checkPath_kept path
  | method reference name => exact .refl _
  | unknown => exact .refl _

theorem spread_kept (source : Spread) :
    Except.KeptBy (source.check registry known) (source.check larger known) := by
  cases source with
  | reference name => exact .refl _
  | capability path => exact extends_.checkPath_kept path
  | invalid text => exact .refl _

end

mutual

theorem template_kept (extends_ : larger.Extends registry) (known : CompiledManifest) :
    ∀ template : Template,
      Except.KeptBy (template.check registry known) (template.check larger known)
  | .literal _ => .refl _
  | .reference _ => .refl _
  | .capability path => extends_.checkPath_kept path
  | .list items => items_kept extends_ known items
  | .map entries => entries_kept extends_ known entries
  | .call target positional keyword _ =>
    (extends_.checkTarget_kept known target).bind fun _ =>
      (positional_kept extends_ known target positional).bind fun _ =>
        keyword_kept extends_ known target keyword
  | .malformed _ => .refl _

theorem items_kept (extends_ : larger.Extends registry) (known : CompiledManifest) :
    ∀ items : List Template, Except.KeptBy (Template.checkItems registry known items)
      (Template.checkItems larger known items)
  | [] => .refl _
  | item :: rest => (template_kept extends_ known item).bind fun _ => items_kept extends_ known rest

theorem entries_kept (extends_ : larger.Extends registry) (known : CompiledManifest) :
    ∀ entries : List (String × Template), Except.KeptBy
      (Template.checkEntries registry known entries) (Template.checkEntries larger known entries)
  | [] => .refl _
  | (_, template) :: rest =>
    (template_kept extends_ known template).bind fun _ => entries_kept extends_ known rest

theorem positional_kept (extends_ : larger.Extends registry) (known : CompiledManifest)
    (target : String) : ∀ positional : Positional, Except.KeptBy
      (positional.check registry known target) (positional.check larger known target)
  | .items items => items_kept extends_ known items
  | .spread _ source => extends_.spread_kept known source
  | .invalid _ => .refl _

theorem keyword_kept (extends_ : larger.Extends registry) (known : CompiledManifest)
    (target : String) : ∀ keyword : Keyword, Except.KeptBy
      (keyword.check registry known target) (keyword.check larger known target)
  | .entries entries => entries_kept extends_ known entries
  | .spread _ source => extends_.spread_kept known source
  | .invalid _ => .refl _

end

section

variable (extends_ : larger.Extends registry) (known : CompiledManifest)

include extends_

theorem compileCall_kept (mapping : Json) :
    Except.KeptBy (compileCall registry known mapping) (compileCall larger known mapping) := by
  unfold compileCall
  rw [extends_.root]
  apply Except.KeptBy.bind (.refl _)
  intro spec
  exact (extends_.template_kept known _).bind fun _ => .refl _

/-- Where nothing but a call mapping may stand. -/
theorem mappingCall_kept {α : Type} {make : CallSpec → α} (cause : ManifestError) (value : Json) :
    Except.KeptBy
      (if CallSpec.isMapping value then (compileCall registry known value).map make
        else .error cause)
      (if CallSpec.isMapping value then (compileCall larger known value).map make
        else .error cause) := by
  by_cases mapping : CallSpec.isMapping value = true
  · rw [if_pos mapping, if_pos mapping]
    exact (extends_.compileCall_kept known value).map make
  · rw [if_neg mapping, if_neg mapping]
    exact .refl _

theorem compileSource_kept (value : Json) :
    Except.KeptBy (compileSource registry known value) (compileSource larger known value) := by
  unfold compileSource
  by_cases mapping : CallSpec.isMapping value = true
  · rw [if_pos mapping, if_pos mapping]
    exact (extends_.compileCall_kept known value).map _
  · rw [if_neg mapping, if_neg mapping]
    cases value with
    | string text =>
      dsimp only
      rw [extends_.root]
      cases Symbol.ofText registry.root text with
      | reference name => exact .refl _
      | capability path => exact (extends_.checkPath_kept path).bind fun _ => .refl _
      | plain text => exact .refl _
    | _ => exact .refl _

theorem compileDefault_kept (name : String) (value : Json) :
    Except.KeptBy (compileDefault registry known name value)
      (compileDefault larger known name value) := by
  have addressed (text : String) :
      larger.isCapabilityPath text = registry.isCapabilityPath text := by
    rw [isCapabilityPath, isCapabilityPath, extends_.root]
  cases value with
  | null => exact .refl _
  | bool b => exact .refl _
  | number n => exact .refl _
  | string text =>
    simp only [compileDefault, addressed]
    by_cases path : registry.isCapabilityPath text = true
    · rw [if_pos path, if_pos path]
      exact (extends_.checkPath_kept text).bind fun _ => .refl _
    · rw [if_neg path, if_neg path]
      exact .refl _
  | array items => exact .refl _
  | object entries => exact extends_.mappingCall_kept known _ _

theorem compileField_kept (name : String) (definition : Json) :
    Except.KeptBy (compileField registry known name definition)
      (compileField larger known name definition) := by
  unfold compileField
  split
  · next required value =>
    exact (extends_.compileDefault_kept known name value).bind fun _ => .refl _
  · exact .refl _
  · exact .refl _

theorem compileFields_kept (entries : List (String × Json)) :
    Except.KeptBy (compileFields registry known entries) (compileFields larger known entries) := by
  induction entries with
  | nil => exact .refl _
  | cons entry rest ih =>
    obtain ⟨name, definition⟩ := entry
    apply (extends_.compileField_kept known name definition).bind
    intro field
    exact ih.bind fun _ => .refl _

theorem compileObject_kept (index : Nat) (block : Block) :
    Except.KeptBy (compileObject registry index known block)
      (compileObject larger index known block) := by
  obtain ⟨key, value⟩ := block
  unfold compileObject
  cases key with
  | data => exact .refl _
  | var name => exact (extends_.compileSource_kept known value).map _
  | action name => exact extends_.mappingCall_kept known _ value
  | params =>
    cases value with
    | object entries => exact (extends_.compileFields_kept known entries).map _
    | _ => exact .refl _
  | response =>
    dsimp only
    rw [extends_.root]
    cases value with
    | object entries => exact (extends_.template_kept known _).bind fun _ => .refl _
    | string text => exact (extends_.template_kept known _).bind fun _ => .refl _
    | _ => exact .refl _

theorem compileBlocks_kept (index : Nat) (blocks : List Block) :
    Except.KeptBy (compileBlocks registry index known blocks)
      (compileBlocks larger index known blocks) := by
  induction blocks generalizing index known with
  | nil => exact .refl _
  | cons block rest ih =>
    unfold compileBlocks
    by_cases taken : known.contains block.key.reference = true
    · rw [if_pos taken, if_pos taken]
      exact .refl _
    · rw [if_neg taken, if_neg taken]
      apply (extends_.compileObject_kept known index block).bind
      intro object
      apply Except.KeptBy.bind (.refl _)
      intro next
      exact ih next (index + 1)

omit known in
theorem compile_kept (manifest : Json) :
    Except.KeptBy (compile registry manifest) (compile larger manifest) := by
  apply Except.KeptBy.bind (.refl _)
  intro blocks
  exact extends_.compileBlocks_kept .empty 0 blocks

end

end Registry.Extends

/-- Entries that are added to a registry change nothing that worked before: a path that was accepted
leads to the same entry with the same segments left over, and stands for, gives and calls the same;
a manifest that compiled compiles to the same objects. -/
theorem extend_keeps_paths_and_manifests {registry larger : Registry σ}
    {more : List (String × Capability σ)} (extended : registry.extend more = .ok larger) :
    (∀ path, registry.check path = .ok () →
      (∃ found, registry.locate path = .ok found ∧ larger.locate path = .ok found) ∧
        larger.check path = .ok () ∧ larger.resolve path = registry.resolve path ∧
        (∀ scope, larger.fetch scope path = registry.fetch scope path) ∧
        ∀ scope arguments,
          larger.call scope path arguments = registry.call scope path arguments) ∧
      ∀ manifest compiled, compile registry manifest = .ok compiled →
        compile larger manifest = .ok compiled := by
  have extends_ := Registry.extends_of_extend extended
  refine ⟨?_, fun manifest => extends_.compile_kept manifest⟩
  intro path accepted
  obtain ⟨target, resolved, _⟩ := Except.bind_eq_ok_iff.mp accepted
  obtain ⟨found, located, _⟩ := Except.bind_eq_ok_iff.mp resolved
  refine ⟨⟨found, located, extends_.locate path found located⟩, extends_.check accepted, ?_,
    extends_.fetch resolved, extends_.call located⟩
  rw [resolved, extends_.resolve resolved]

/-- A function, and a value to walk into. -/
def sectionEntries : List (String × Capability Unit) :=
  [("F.run", .function fun _ _ state => .pure (.ok .null) state),
    ("V", .value (.map [("a", .map [("b", .string "x")])]))]

/-- Walks into the value and calls the function. -/
def sectionManifest : Json :=
  .array [.object [("var#a", .string "R.V.a")],
    .object [(responseKey, .object [("b", .string "#a.b"), ("c", .string "R.F.run")])]]

/-- A value beside the function is added. The walk into the other value and the manifest stay. -/
theorem section_keeps_walk_and_manifest : ∃ registry larger compiled,
    Registry.build "R" sectionEntries = .ok registry ∧
      registry.extend [("F.stop", .value .null)] = .ok larger ∧
      registry.check "R.V.a.b" = .ok () ∧ compile registry sectionManifest = .ok compiled ∧
      larger.check "R.V.a.b" = .ok () ∧ compile larger sectionManifest = .ok compiled := by
  have isBuilt : (Registry.extend ⟨"R", sectionEntries⟩ [("F.stop", .value .null)]).isOk = true := by
    decide +kernel
  have isAccepted : (compile ⟨"R", sectionEntries⟩ sectionManifest).isOk = true := by
    decide +kernel
  have walks : Registry.check ⟨"R", sectionEntries⟩ "R.V.a.b" = .ok () := rfl
  obtain ⟨larger, extended⟩ := Except.exists_of_isOk isBuilt
  obtain ⟨compiled, accepted⟩ := Except.exists_of_isOk isAccepted
  obtain ⟨paths, manifests⟩ := extend_keeps_paths_and_manifests extended
  exact ⟨_, larger, compiled, rfl, extended, walks, accepted, (paths _ walks).2.1,
    manifests _ _ accepted⟩

end ManifestGate
