import ManifestGate.Capability.Registry
import ManifestGate.Manifest.Compiled
import ManifestGate.Manifest.Template

/-!
# Compiling manifests

Compiling computes no values. Block by block it checks the form, capability paths against the
registry, and references against the blocks before.
-/

namespace ManifestGate

variable {σ : Type}

/-- The head of a reference is the request data or an earlier block. -/
def checkReference (known : CompiledManifest) (reference : String) : Except ManifestError Unit :=
  let head := Path.head reference
  if head = "" then .error (.compile (.emptyReference reference))
  else if head = dataKey || known.contains head then .ok ()
  else .error (.reference (.notEarlier reference))

def Registry.checkPath (registry : Registry σ) (path : String) : Except ManifestError Unit :=
  (registry.check path).mapError .reference

def checkTarget (registry : Registry σ) (known : CompiledManifest) (target : String) :
    Except ManifestError Unit :=
  match CallTarget.ofText registry.root target with
  | .capability path => registry.checkPath path
  | .method reference _ => checkReference known reference
  | .unknown => .error (.reference (.noTarget target))

def Spread.check (registry : Registry σ) (known : CompiledManifest) :
    Spread → Except ManifestError Unit
  | .reference name => checkReference known name
  | .capability path => registry.checkPath path
  | .invalid spread => .error (.compile (.badSpread spread))

mutual

/-- Checks the symbols of a template from left to right, of a call first the target. -/
def Template.check (registry : Registry σ) (known : CompiledManifest) :
    Template → Except ManifestError Unit
  | .literal _ => .ok ()
  | .reference name => checkReference known name
  | .capability path => registry.checkPath path
  | .list items => Template.checkItems registry known items
  | .map entries => Template.checkEntries registry known entries
  | .call target positional keyword _ => do
    checkTarget registry known target
    positional.check registry known target
    keyword.check registry known target
  | .malformed cause => .error (.compile cause)

def Template.checkItems (registry : Registry σ) (known : CompiledManifest) :
    List Template → Except ManifestError Unit
  | [] => .ok ()
  | item :: rest => do
    item.check registry known
    Template.checkItems registry known rest

def Template.checkEntries (registry : Registry σ) (known : CompiledManifest) :
    List (String × Template) → Except ManifestError Unit
  | [] => .ok ()
  | (_, template) :: rest => do
    template.check registry known
    Template.checkEntries registry known rest

def Positional.check (registry : Registry σ) (known : CompiledManifest) (target : String) :
    Positional → Except ManifestError Unit
  | .items items => Template.checkItems registry known items
  | .spread _ spread => spread.check registry known
  | .invalid raw => .error (.compile (.argumentsShape target raw))

def Keyword.check (registry : Registry σ) (known : CompiledManifest) (target : String) :
    Keyword → Except ManifestError Unit
  | .entries entries => Template.checkEntries registry known entries
  | .spread _ spread => spread.check registry known
  | .invalid raw => .error (.compile (.keywordsShape target raw))

end

/-- The call that a mapping spells, with its symbols checked. -/
def compileCall (registry : Registry σ) (known : CompiledManifest) (mapping : Json) :
    Except ManifestError CallSpec := do
  let spec ← (CallSpec.parse mapping).mapError .compile
  (spec.template registry.root).check registry known
  return spec

/-- The source of a `var#` block. Only a mapping or a text at the top is symbolic. -/
def compileSource (registry : Registry σ) (known : CompiledManifest) (value : Json) :
    Except ManifestError VariableSource :=
  if CallSpec.isMapping value then (compileCall registry known value).map .call
  else
    match value with
    | .string text =>
      match Symbol.ofText registry.root text with
      | .reference name => do
        checkReference known name
        return .reference name
      | .capability path => do
        registry.checkPath path
        return .fetch path
      | .plain _ => .ok (.static value)
    | _ => .ok (.static value)

def compileDefault (registry : Registry σ) (known : CompiledManifest) (name : String) :
    Json → Except ManifestError ParamDefault
  | .null => .ok .none
  | .string text =>
    if registry.isCapabilityPath text then do
      registry.checkPath text
      return .fetch text
    else .ok (.literal (.string text))
  | .number n => .ok (.literal (.number n))
  | .bool b => .ok (.literal (.bool b))
  | value =>
    if CallSpec.isMapping value then (compileCall registry known value).map .call
    else .error (.compile (.badDefault name))

/-- A parameter is declared by a pair of a flag and a default. -/
def compileField (registry : Registry σ) (known : CompiledManifest) (name : String) :
    Json → Except ManifestError ParamField
  | .array [.bool required, value] => do
    return ⟨required, ← compileDefault registry known name value⟩
  | .array [_, _] => .error (.compile (.requiredNotBool name))
  | _ => .error (.compile (.parameterNotPair name))

def compileFields (registry : Registry σ) (known : CompiledManifest) :
    List (String × Json) → Except ManifestError (Dict ParamField)
  | [] => .ok []
  | (name, definition) :: rest => do
    let field ← compileField registry known name definition
    let more ← compileFields registry known rest
    return (name, field) :: more

/-- The object of a block at an index of the manifest, after the known ones. -/
def compileObject (registry : Registry σ) (index : Nat) (known : CompiledManifest)
    (block : Block) : Except ManifestError CompiledObject :=
  match block.key with
  | .data =>
    if index ≠ 0 then .error (.compile .dataNotFirst)
    else if !block.value.isObject then .error (.compile .dataNotObject)
    else .ok (.var dataKey (.static block.value))
  | .var name => (compileSource registry known block.value).map (.var name)
  | .action name =>
    if CallSpec.isMapping block.value then
      (compileCall registry known block.value).map (.action name)
    else .error (.compile (.actionNotMapping name))
  | .params =>
    match block.value with
    | .object entries => (compileFields registry known entries).map .params
    | _ => .error (.compile .paramsNotObject)
  | .response =>
    match block.value with
    | .object _ | .string _ => do
      (Template.ofJson registry.root block.value).check registry known
      return .response block.value
    | _ => .error (.compile .responseShape)

/-- Compiles the blocks from an index on, each against the objects before it. -/
def compileBlocks (registry : Registry σ) (index : Nat) (known : CompiledManifest) :
    List Block → Except ManifestError CompiledManifest
  | [] => .ok known
  | block :: rest =>
    if known.contains block.key.reference then
      .error (.compile (.duplicateKey block.key.reference))
    else do
      let object ← compileObject registry index known block
      let known ← (known.push object).mapError .compile
      compileBlocks registry (index + 1) known rest

/-- Compiles a manifest against a registry. -/
def compile (registry : Registry σ) (manifest : Json) : Except ManifestError CompiledManifest := do
  let blocks ← (Block.parseAll manifest).mapError .compile
  compileBlocks registry 0 .empty blocks

/-- The document of a manifest text. -/
def parseManifest (text : String) : Except ManifestError Json :=
  (Json.parse text).mapError fun cause => .compile (.notJson cause)

end ManifestGate
