import ManifestGate.Manifest.Compile
import ManifestGate.Manifest.Evaluate

/-!
# Executing compiled manifests

The objects of a manifest run in order, each at most once. The first error ends the run and leaves
the context as the last successful object left it; a later run resumes at the object that failed.
-/

namespace ManifestGate

variable {σ : Type}

inductive ObjectState where
  | compiled
  | executed
  deriving DecidableEq

def Context.state? (context : Context) (manifest : CompiledManifest) (key : String) :
    Option ObjectState :=
  if Dict.contains context.results key then some .executed
  else if manifest.contains key then some .compiled
  else none

namespace Engine

/-- The value that stands in for an absent parameter, if there is one. -/
def defaultValue (engine : Engine σ) (scope : Scope) (context : Context) (name : String)
    (field : ParamField) : Action σ (Option Value) :=
  match field.default with
  | .none =>
    if field.required then throw (.request (.missing name)) else pure none
  | .literal value => pure (some (.ofJson value))
  | .fetch path => do return some (← engine.registry.fetch scope path)
  | .call spec => do return some (← engine.call scope context spec)

/-- The defaults of the fields that the data lack, in field order. None sees another. -/
def defaults (engine : Engine σ) (scope : Scope) (context : Context) :
    List (String × ParamField) → Action σ (List (String × Value))
  | [] => pure []
  | (name, field) :: rest =>
    if Dict.contains context.data name then defaults engine scope context rest
    else do
      match ← engine.defaultValue scope context name field with
      | none => defaults engine scope context rest
      | some value =>
        let more ← defaults engine scope context rest
        return (name, value) :: more

/-- The request data with defaults put in; data that are not declared are refused. -/
def applyParameters (engine : Engine σ) (scope : Scope) (context : Context)
    (fields : Dict ParamField) : Action σ (Dict Value) :=
  match (Dict.keys context.data).find? fun name => !Dict.contains fields name with
  | some name => throw (.request (.unsupported name))
  | none => do
    let found ← engine.defaults scope context fields
    return Dict.insertAll context.data found

def sourceValue (engine : Engine σ) (scope : Scope) (context : Context) :
    VariableSource → Action σ Value
  | .static json => pure (.ofJson json)
  | .reference name => reference context name
  | .call spec => engine.call scope context spec
  | .fetch path => engine.registry.fetch scope path

/-- What an object leaves behind: its value and the request data. -/
structure Outcome where
  value : Value
  data : Dict Value

/-- The context after an object that left an outcome. -/
def Outcome.settle (outcome : Outcome) (context : Context) (key : String) : Context :=
  ⟨outcome.data, Dict.insert context.results key outcome.value⟩

def step (engine : Engine σ) (scope : Scope) (context : Context) :
    CompiledObject → Action σ Outcome
  | .var key source =>
    if key = dataKey then
      match source with
      | .static (.object entries) =>
        pure ⟨.map (Value.ofEntries entries), Value.ofEntries entries⟩
      | _ => throw (.compile .dataNotStatic)
    else do return ⟨← engine.sourceValue scope context source, context.data⟩
  | .action _ spec => do return ⟨← engine.call scope context spec, context.data⟩
  | .params fields => do
    let data ← engine.applyParameters scope context fields
    return ⟨.map data, data⟩
  | .response kwargs => do
    let value ← engine.evaluate scope context (Template.ofJson engine.registry.root kwargs)
    return ⟨value, context.data⟩

/-- Runs the objects that have not run yet. -/
def runObjects (engine : Engine σ) (scope : Scope) :
    List CompiledObject → Context → Progress σ → Except ManifestError Unit × Context × Progress σ
  | [], context, progress => (.ok (), context, progress)
  | object :: rest, context, progress =>
    if Dict.contains context.results object.key then
      runObjects engine scope rest context progress
    else
      match engine.step scope context object progress with
      | (.ok outcome, progress) =>
        runObjects engine scope rest (outcome.settle context object.key) progress
      | (.error cause, progress) => (.error cause, context, progress)

/-- The document of the response, if the manifest has one and it has run. -/
def response? (engine : Engine σ) (scope : Scope) (context : Context) : Action σ (Option Json) :=
  match Dict.get? context.results responseKey with
  | some value => do return some (← engine.render scope value)
  | none => pure none

/-- Runs or resumes a manifest and renders its response. -/
def execute (engine : Engine σ) (scope : Scope) (manifest : CompiledManifest) (context : Context)
    (progress : Progress σ) : Except ManifestError (Option Json) × Context × Progress σ :=
  match engine.runObjects scope manifest.objects context progress with
  | (.error cause, context, progress) => (.error cause, context, progress)
  | (.ok _, context, progress) =>
    match engine.response? scope context progress with
    | (result, progress) => (result, context, progress)

def run (engine : Engine σ) (scope : Scope) (manifest : Json) (data : Dict Value) :
    Action σ (Option Json) := do
  let compiled ← Action.ofExcept id (compile engine.registry manifest)
  fun progress =>
    match engine.execute scope compiled (.start data) progress with
    | (result, _, progress) => (result, progress)

end Engine

/-- The request data of a document: an object, or `null` for none. -/
def requestData : Json → Except ManifestError (Dict Value)
  | .object entries => .ok (Value.ofEntries entries)
  | .null => .ok []
  | other => .error (.requestData (.notObject (Value.ofJson other).kind))

end ManifestGate
