import ManifestGate.Json.Record
import ManifestGate.Manifest.Compile

/-!
# Dumps of compiled manifests

The dump of a compiled manifest is an array of its objects, each tagged by its kind, with the fields
in a fixed order. `CompiledManifest.ofDump` reads a dump back.
-/

namespace ManifestGate

/-! ## Writing -/

def Predicate.toJson : Predicate → Json
  | .value expected => .object [("value", expected)]
  | .isnot rejected => .object [("isnot", rejected)]

/-- A field that is left out where there is nothing. -/
def optionalField (name : String) : Option Json → List (String × Json)
  | some json => [(name, json)]
  | none => []

def Ensure.toJson (ensure : Ensure) : Json :=
  .object ([("predicate", ensure.predicate.toJson), ("error", .string ensure.error),
    ("code", .number (.integer ensure.code))] ++
    optionalField "log" (ensure.log.map .string) ++
    optionalField "debug" (ensure.debug.map .string))

def CallSpec.toJson (spec : CallSpec) : Json :=
  .object ([("call", .string spec.call), ("args", spec.args), ("kwargs", spec.kwargs)] ++
    optionalField "ensure" (spec.ensure.map Ensure.toJson))

def VariableSource.toJson : VariableSource → Json
  | .static value => .object [("static", value)]
  | .reference name => .object [("reference", .string name)]
  | .call spec => .object [("call", spec.toJson)]
  | .fetch path => .object [("fetch", .string path)]

def ParamDefault.toJson : ParamDefault → Json
  | .none => .string "none"
  | .literal value => .object [("literal", value)]
  | .fetch path => .object [("fetch", .string path)]
  | .call spec => .object [("call", spec.toJson)]

def ParamField.toJson (field : ParamField) : Json :=
  .object [("required", .bool field.required), ("default", field.default.toJson)]

def CompiledObject.toJson : CompiledObject → Json
  | .var key source =>
    .object [("type", .string "variable"), ("key", .string key), ("source", source.toJson)]
  | .action key call =>
    .object [("type", .string "action"), ("key", .string key), ("call", call.toJson)]
  | .params fields =>
    .object [("type", .string "parameters"),
      ("fields", .object (fields.map fun (name, field) => (name, field.toJson)))]
  | .response kwargs => .object [("type", .string "response"), ("kwargs", kwargs)]

namespace CompiledManifest

def toJson (manifest : CompiledManifest) : Json :=
  .array (manifest.objects.map CompiledObject.toJson)

/-- The dump as a text. -/
def dump (manifest : CompiledManifest) : String :=
  manifest.toJson.pretty

end CompiledManifest

/-! ## Reading -/

/-- A document inside a dump. -/
def embedded? (json : Json) : Option Json :=
  some json.canonical

def Predicate.ofJson? (json : Json) : Option Predicate :=
  match json.case? with
  | some ("value", some expected) => (embedded? expected).map .value
  | some ("isnot", some rejected) => (embedded? rejected).map .isnot
  | _ => none

def Json.code? : Json → Option Nat
  | .number n => n.code?
  | _ => none

def Ensure.fields : List String := ["predicate", "error", "code", "log", "debug"]

def Ensure.ofJson? (json : Json) : Option Ensure := do
  let record ← Record.of? .json Ensure.fields json
  let predicate ← record.required 0 "predicate" Predicate.ofJson?
  let error ← record.required 1 "error" Json.text?
  let code ← record.required 2 "code" Json.code?
  let log ← record.withDefault 3 "log" (Json.nullable? Json.text?) none
  let debug ← record.withDefault 4 "debug" (Json.nullable? Json.text?) none
  return ⟨predicate, error, code, log, debug⟩

def CallSpec.fields : List String := ["call", "args", "kwargs", "ensure"]

def CallSpec.ofJson? (json : Json) : Option CallSpec := do
  let record ← Record.of? .json CallSpec.fields json
  let call ← record.required 0 "call" Json.text?
  let args ← record.withDefault 1 "args" embedded? (.array [])
  let kwargs ← record.withDefault 2 "kwargs" embedded? (.object [])
  let ensure ← record.withDefault 3 "ensure" (Json.nullable? Ensure.ofJson?) none
  return ⟨call, args, kwargs, ensure⟩

def VariableSource.ofJson? (json : Json) : Option VariableSource :=
  match json.case? with
  | some ("static", some value) => (embedded? value).map .static
  | some ("reference", some name) => name.text?.map .reference
  | some ("call", some spec) => (CallSpec.ofJson? spec).map .call
  | some ("fetch", some path) => path.text?.map .fetch
  | _ => none

def ParamDefault.ofJson? (json : Json) : Option ParamDefault :=
  match json.case? with
  | some ("none", Option.none) | some ("none", some .null) | some ("none", some (.object [])) =>
    some .none
  | some ("literal", some value) => (embedded? value).map .literal
  | some ("fetch", some path) => path.text?.map .fetch
  | some ("call", some spec) => (CallSpec.ofJson? spec).map .call
  | _ => Option.none

def ParamField.fields : List String := ["required", "default"]

def ParamField.ofJson? (json : Json) : Option ParamField := do
  let record ← Record.of? .json ParamField.fields json
  let required ← record.required 0 "required" Json.bool?
  let default ← record.required 1 "default" ParamDefault.ofJson?
  return ⟨required, default⟩

/-- The tag of a tagged record and the record without it: the entry `type`, given once, or the
first item. -/
def splitTag? : Json → Option (String × Json)
  | .object entries =>
    match entries.filter fun entry => entry.1 = "type" with
    | [(_, .string tag)] => some (tag, .object (entries.filter fun entry => entry.1 ≠ "type"))
    | _ => none
  | .array (.string tag :: items) => some (tag, .array items)
  | _ => none

def CompiledObject.ofJson? (json : Json) : Option CompiledObject := do
  let (tag, body) ← splitTag? json
  match tag with
  | "variable" =>
    let record ← Record.of? .json ["key", "source"] body
    let key ← record.required 0 "key" Json.text?
    let source ← record.required 1 "source" VariableSource.ofJson?
    return .var key source
  | "action" =>
    let record ← Record.of? .json ["key", "call"] body
    let key ← record.required 0 "key" Json.text?
    let call ← record.required 1 "call" CallSpec.ofJson?
    return .action key call
  | "parameters" =>
    let record ← Record.of? .json ["fields"] body
    let fields ← record.required 0 "fields" (Json.dict? ParamField.ofJson?)
    return .params fields
  | "response" =>
    let record ← Record.of? .json ["kwargs"] body
    let kwargs ← record.required 0 "kwargs" embedded?
    return .response kwargs
  | _ => none

namespace CompiledManifest

/-- The objects of a dump. -/
def objectsOfJson? (json : Json) : Option (List CompiledObject) :=
  json.list? CompiledObject.ofJson?

/-- Reads the text of a dump. -/
def ofDump (text : String) : Except CompileError CompiledManifest :=
  match Json.read text with
  | .error cause => .error (.badDump cause.message)
  | .ok json =>
    match objectsOfJson? json with
    | none => .error (.badDump "an object of the wrong shape")
    | some objects => ofObjects objects

end CompiledManifest

end ManifestGate
