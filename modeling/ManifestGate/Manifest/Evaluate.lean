import ManifestGate.Manifest.Compiled
import ManifestGate.Manifest.Template
import ManifestGate.Capability.Builtin

/-!
# Evaluating templates

A template is evaluated against the request data and the values of executed objects, from left to
right: arguments before the call that takes them, positional ones before keyword ones. What a symbol
stands for is not read as a template again.
-/

namespace ManifestGate

variable {σ : Type}

/-- Runs manifests: the capabilities they call, and the host of API objects. -/
structure Engine (σ : Type) where
  registry : Registry σ
  host : Host σ

/-- The live request data, and the value of each executed object. -/
structure Context where
  data : Dict Value
  results : Dict Value

namespace Context

def start (data : Dict Value) : Context := ⟨data, []⟩

/-- What a reference leads to. The request data are live, all else is the value of an object. -/
def resolve (context : Context) (reference : String) : Except ManifestError Value :=
  let head := Path.head reference
  let rest := (Path.segments reference).tail
  if head = dataKey then
    ((Value.map context.data).walk rest).mapError fun segment =>
      .requestData (.missing segment reference)
  else
    match Dict.get? context.results head with
    | none => .error (.reference (.notExecuted reference head))
    | some value =>
      (value.walk rest).mapError fun segment => .reference (.noAttribute reference segment)

end Context

/-- Holds a call result against its clause. -/
def Ensure.enforce (ensure : Ensure) (result : Value) : Action σ Unit := do
  if ensure.predicate.holds result then
    match ensure.log with
    | some text => Action.report (.log .info text)
    | none => pure ()
    match ensure.debug with
    | some text => Action.report (.log .debug text)
    | none => pure ()
  else
    Action.report (.log .warn "ensure predicate failed")
    throw (.ensure ensure.error ensure.code)

namespace Engine

def reference (context : Context) (name : String) : Action σ Value :=
  Action.ofExcept id (context.resolve name)

/-- Calls a capability, or a method of the API object that a reference leads to. -/
def callTarget (engine : Engine σ) (scope : Scope) (context : Context) (target : String)
    (arguments : Arguments) : Action σ Value :=
  match CallTarget.ofText engine.registry.root target with
  | .capability path => engine.registry.call scope path arguments
  | .method object name => do
    match ← reference context object with
    | .object api => Action.callMethod target engine.host api name arguments
    | other => throw (.reference (.notObject name object other.kind))
  | .unknown => throw (.reference (.noMethod target))

def spread (engine : Engine σ) (scope : Scope) (context : Context) : Spread → Action σ Value
  | .reference name => reference context name
  | .capability path => engine.registry.fetch scope path
  | .invalid text => throw (.reference (.badSpread text))

mutual

def evaluate (engine : Engine σ) (scope : Scope) (context : Context) : Template → Action σ Value
  | .literal value => pure value
  | .reference name => reference context name
  | .capability path => engine.registry.fetch scope path
  | .list items => do return .list (← evaluateItems engine scope context items)
  | .map entries => do return .map (← evaluateEntries engine scope context entries)
  | .call target positional keyword ensure => do
    let positional ← evaluatePositional engine scope context positional
    let keyword ← evaluateKeyword engine scope context keyword
    let result ← engine.callTarget scope context target ⟨positional, keyword⟩
    match ensure with
    | some clause => clause.enforce result
    | none => pure ()
    return result
  | .malformed cause => throw (.compile cause)

def evaluateItems (engine : Engine σ) (scope : Scope) (context : Context) :
    List Template → Action σ (List Value)
  | [] => pure []
  | item :: rest => do
    let value ← evaluate engine scope context item
    let more ← evaluateItems engine scope context rest
    return value :: more

def evaluateEntries (engine : Engine σ) (scope : Scope) (context : Context) :
    List (String × Template) → Action σ (List (String × Value))
  | [] => pure []
  | (key, template) :: rest => do
    let value ← evaluate engine scope context template
    let more ← evaluateEntries engine scope context rest
    return (key, value) :: more

/-- A spread has to give a list; `null` stands for the empty one. -/
def evaluatePositional (engine : Engine σ) (scope : Scope) (context : Context) :
    Positional → Action σ (List Value)
  | .items items => evaluateItems engine scope context items
  | .spread text source => do
    match ← spread engine scope context source with
    | .null => return []
    | .list items => return items
    | other => throw (.reference (.argumentsKind text other.kind))
  | .invalid raw => throw (.reference (.badArguments raw))

/-- A spread has to give a map; `null` stands for the empty one. -/
def evaluateKeyword (engine : Engine σ) (scope : Scope) (context : Context) :
    Keyword → Action σ (Dict Value)
  | .entries entries => evaluateEntries engine scope context entries
  | .spread text source => do
    match ← spread engine scope context source with
    | .null => return []
    | .map entries => return entries
    | other => throw (.reference (.keywordsKind text other.kind))
  | .invalid raw => throw (.reference (.badKeywords raw))

end

def call (engine : Engine σ) (scope : Scope) (context : Context) (spec : CallSpec) :
    Action σ Value :=
  engine.evaluate scope context (spec.template engine.registry.root)

/-- The document of an API object in a response: what the dump capability makes of it. -/
def renderObject (engine : Engine σ) (scope : Scope) (api : ApiObject) : Action σ Json := do
  let path := engine.registry.absolute Builtin.dumpPath
  let dumped ← ExceptT.adapt (ManifestError.dumpFailed api.typeName)
    (engine.registry.call scope path ⟨[.object api], []⟩)
  match dumped.toJson? with
  | some json => return json
  | none => throw (.dumpNotJson api.typeName)

mutual

def render (engine : Engine σ) (scope : Scope) : Value → Action σ Json
  | .null => pure .null
  | .bool b => pure (.bool b)
  | .number n => pure (.number n)
  | .string text => pure (.string text)
  | .list items => do return .array (← renderItems engine scope items)
  | .map entries => do return .object (← renderEntries engine scope entries)
  | .object api => renderObject engine scope api

def renderItems (engine : Engine σ) (scope : Scope) : List Value → Action σ (List Json)
  | [] => pure []
  | item :: rest => do
    let json ← render engine scope item
    let more ← renderItems engine scope rest
    return json :: more

def renderEntries (engine : Engine σ) (scope : Scope) :
    List (String × Value) → Action σ (List (String × Json))
  | [] => pure []
  | (key, value) :: rest => do
    let json ← render engine scope value
    let more ← renderEntries engine scope rest
    return (key, json) :: more

end

end Engine

end ManifestGate
