import ManifestGate.Manifest.Compile

/-!
# Registries that compile alike

Of a registry the compiler sees the root and which paths are accepted. Registries that have both in
common compile every manifest alike, refused ones included.
-/

namespace ManifestGate

variable {σ τ : Type}

/-- The registries have one root and accept the same paths, and refuse the others alike. -/
structure Registry.ChecksAs (one : Registry σ) (other : Registry τ) : Prop where
  root : one.root = other.root
  check (path : String) : one.check path = other.check path

namespace Registry.ChecksAs

variable {one : Registry σ} {other : Registry τ}

section

variable (same : one.ChecksAs other) (known : CompiledManifest)

include same

theorem checkPath_eq (path : String) : one.checkPath path = other.checkPath path := by
  rw [checkPath, checkPath, same.check]

theorem isCapabilityPath_eq (text : String) :
    one.isCapabilityPath text = other.isCapabilityPath text := by
  rw [isCapabilityPath, isCapabilityPath, same.root]

theorem checkTarget_eq (target : String) :
    checkTarget one known target = checkTarget other known target := by
  unfold checkTarget
  rw [same.root]
  cases CallTarget.ofText other.root target with
  | capability path => exact same.checkPath_eq path
  | method reference name => rfl
  | unknown => rfl

theorem spread_eq (source : Spread) : source.check one known = source.check other known := by
  cases source with
  | reference name => rfl
  | capability path => exact same.checkPath_eq path
  | invalid text => rfl

end

mutual

theorem template_eq (same : one.ChecksAs other) (known : CompiledManifest) :
    ∀ template : Template, template.check one known = template.check other known
  | .literal _ => rfl
  | .reference _ => rfl
  | .capability path => same.checkPath_eq path
  | .list items => items_eq same known items
  | .map entries => entries_eq same known entries
  | .call target positional keyword _ => by
    have before := positional_eq same known target positional
    have after := keyword_eq same known target keyword
    rw [Template.check, Template.check, same.checkTarget_eq known target, before, after]
  | .malformed _ => rfl

theorem items_eq (same : one.ChecksAs other) (known : CompiledManifest) :
    ∀ items : List Template,
      Template.checkItems one known items = Template.checkItems other known items
  | [] => rfl
  | item :: rest => by
    have first := template_eq same known item
    have later := items_eq same known rest
    rw [Template.checkItems, Template.checkItems, first, later]

theorem entries_eq (same : one.ChecksAs other) (known : CompiledManifest) :
    ∀ entries : List (String × Template),
      Template.checkEntries one known entries = Template.checkEntries other known entries
  | [] => rfl
  | (_, template) :: rest => by
    have first := template_eq same known template
    have later := entries_eq same known rest
    rw [Template.checkEntries, Template.checkEntries, first, later]

theorem positional_eq (same : one.ChecksAs other) (known : CompiledManifest) (target : String) :
    ∀ positional : Positional,
      positional.check one known target = positional.check other known target
  | .items items => items_eq same known items
  | .spread _ source => same.spread_eq known source
  | .invalid _ => rfl

theorem keyword_eq (same : one.ChecksAs other) (known : CompiledManifest) (target : String) :
    ∀ keyword : Keyword, keyword.check one known target = keyword.check other known target
  | .entries entries => entries_eq same known entries
  | .spread _ source => same.spread_eq known source
  | .invalid _ => rfl

end

section

variable (same : one.ChecksAs other) (known : CompiledManifest)

include same

theorem compileCall_eq (mapping : Json) :
    compileCall one known mapping = compileCall other known mapping := by
  simp only [compileCall, same.root, same.template_eq]

theorem compileSource_eq (value : Json) :
    compileSource one known value = compileSource other known value := by
  simp only [compileSource, same.root, same.compileCall_eq, same.checkPath_eq]

theorem compileDefault_eq (name : String) (value : Json) :
    compileDefault one known name value = compileDefault other known name value := by
  cases value <;>
    simp only [compileDefault, same.isCapabilityPath_eq, same.compileCall_eq, same.checkPath_eq]

theorem compileField_eq (name : String) (definition : Json) :
    compileField one known name definition = compileField other known name definition := by
  simp only [compileField, same.compileDefault_eq]

theorem compileFields_eq (entries : List (String × Json)) :
    compileFields one known entries = compileFields other known entries := by
  induction entries with
  | nil => rfl
  | cons entry rest ih =>
    obtain ⟨name, definition⟩ := entry
    rw [compileFields, compileFields, same.compileField_eq, ih]

theorem compileObject_eq (index : Nat) (block : Block) :
    compileObject one index known block = compileObject other index known block := by
  simp only [compileObject, same.root, same.compileSource_eq, same.compileCall_eq,
    same.compileFields_eq, same.template_eq]

theorem compileBlocks_eq (index : Nat) (blocks : List Block) :
    compileBlocks one index known blocks = compileBlocks other index known blocks := by
  induction blocks generalizing index known with
  | nil => rfl
  | cons block rest ih => simp only [compileBlocks, same.compileObject_eq, ih]

end

/-- A registry has no other part in what a manifest compiles to. -/
theorem compile_eq (same : one.ChecksAs other) (manifest : Json) :
    compile one manifest = compile other manifest := by
  simp only [compile, same.compileBlocks_eq]

end Registry.ChecksAs

end ManifestGate
