import ManifestGate.Capability.Basic
import ManifestGate.Json.Printer
import ManifestGate.Json.Reader

/-!
# What ends a manifest

Each way for a manifest to be refused or a run to end early has a constructor of its own;
`ManifestError.message` holds the wording and `ManifestError.status` the status code.
-/

namespace ManifestGate

/-- Where a spread stands: among the positional or among the keyword arguments. -/
inductive SpreadKind where
  | positional
  | keyword
  deriving DecidableEq

namespace SpreadKind

/-- What stands before the capability path of a spread. -/
def mark : SpreadKind → String
  | .positional => "*"
  | .keyword => "**"

end SpreadKind

/-- A text that spreads neither a reference nor a capability path. -/
structure BadSpread where
  text : String
  kind : SpreadKind
  root : String

def BadSpread.message (spread : BadSpread) : String :=
  "'" ++ spread.text ++ "' must be a #reference or " ++ spread.kind.mark ++ spread.root ++ ".path"

/-- What is wrong with the form of a manifest. -/
inductive CompileError where
  | notJson (cause : Json.ReadError)
  | rootNotArray
  | blockNotObject (index : Nat)
  | blockNotSingle (index : Nat)
  | unknownKey (raw : String)
  | badName (name raw : String)
  | reservedName (name raw : String)
  | duplicateKey (key : String)
  | dataNotFirst
  | dataNotObject
  | dataNotStatic
  | actionNotMapping (key : String)
  | paramsNotObject
  | requiredNotBool (name : String)
  | parameterNotPair (name : String)
  | badDefault (name : String)
  | responseShape
  | mappingNotObject
  | mappingWithoutCall
  | mappingKey (key call : String)
  | ensureNotObject
  | ensureKey (key : String)
  | ensureBoth
  | ensureNeither
  | ensureError
  | ensureCode (raw : Json)
  | ensureMessage (key : String)
  | argumentsShape (call : String) (raw : Json)
  | keywordsShape (call : String) (raw : Json)
  | badSpread (spread : BadSpread)
  | emptyReference (reference : String)
  | badDump (detail : String)

def CompileError.message : CompileError → String
  | .notJson cause => "manifest is not valid JSON: " ++ cause.message
  | .rootNotArray => "manifest root must be a JSON array"
  | .blockNotObject index => "manifest block " ++ toString index ++ " must be an object"
  | .blockNotSingle index =>
    "manifest block " ++ toString index ++ " must contain exactly one key"
  | .unknownKey raw => "invalid manifest key: " ++ raw
  | .badName name raw => "invalid reference name '" ++ name ++ "' in manifest key: " ++ raw
  | .reservedName name raw => "reserved reference name '" ++ name ++ "' in manifest key: " ++ raw
  | .duplicateKey key => "duplicate reference key: " ++ key
  | .dataNotFirst => "__DATA__ must be the first manifest block"
  | .dataNotObject => "__DATA__ must be an object"
  | .dataNotStatic => "__DATA__ must be a static object"
  | .actionNotMapping key => "action '" ++ key ++ "' must be a mapping with a 'call' key"
  | .paramsNotObject => "__PARAMS__ must be an object"
  | .requiredNotBool name => "parameter '" ++ name ++ "': required flag must be a boolean"
  | .parameterNotPair name => "parameter '" ++ name ++ "' must be a [required, default] pair"
  | .badDefault name =>
    "parameter '" ++ name ++ "': default must be null, a literal or a method mapping"
  | .responseShape => "response must be a mapping or a reference"
  | .mappingNotObject => "method mapping must be an object"
  | .mappingWithoutCall => "method mapping requires a string 'call'"
  | .mappingKey key call => "unsupported key '" ++ key ++ "' in mapping for " ++ call
  | .ensureNotObject => "'ensure' must be an object"
  | .ensureKey key => "unsupported key '" ++ key ++ "' in 'ensure'"
  | .ensureBoth => "'ensure' cannot supply both 'value' and 'isnot'"
  | .ensureNeither => "'ensure' requires one of 'value' or 'isnot'"
  | .ensureError => "'ensure.error' must be a string"
  | .ensureCode raw => "'ensure.code' is not a status code: " ++ raw.compact
  | .ensureMessage key => "'ensure." ++ key ++ "' must be a string"
  | .argumentsShape call raw =>
    "args for " ++ call ++ " must be a list or reference, got " ++ raw.compact
  | .keywordsShape call raw =>
    "kwargs for " ++ call ++ " must be a mapping or reference, got " ++ raw.compact
  | .badSpread spread => spread.message
  | .emptyReference reference => "empty reference: #" ++ reference
  | .badDump detail => "invalid compiled manifest: " ++ detail

/-- Why a reference or a capability path leads nowhere. -/
inductive ReferenceError where
  | notCapability (path : String)
  | onlyRoot (path : String)
  | unknownPath (path : String)
  | intoFunction (path : String)
  | missingSegment (path segment : String)
  | notCallable (path : String)
  | noTarget (call : String)
  | notEarlier (reference : String)
  | notExecuted (reference key : String)
  | noAttribute (reference segment : String)
  | noMethod (call : String)
  | notObject (method reference kind : String)
  | argumentsKind (text kind : String)
  | keywordsKind (text kind : String)
  | badArguments (raw : Json)
  | badKeywords (raw : Json)
  | badSpread (spread : BadSpread)

def ReferenceError.message : ReferenceError → String
  | .notCapability path => "'" ++ path ++ "' is not a capability path"
  | .onlyRoot path => "capability path '" ++ path ++ "' names only the root"
  | .unknownPath path => "invalid capability path: " ++ path
  | .intoFunction path => "cannot walk into callable capability: " ++ path
  | .missingSegment path segment =>
    "invalid capability path: " ++ path ++ " (no '" ++ segment ++ "')"
  | .notCallable path => "capability is not callable: " ++ path
  | .noTarget call =>
    "call '" ++ call ++ "' is neither a capability path nor an object method"
  | .notEarlier reference => "#" ++ reference ++ " does not name an earlier manifest block"
  | .notExecuted reference key =>
    "#" ++ reference ++ ": '" ++ key ++ "' is not an executed manifest object"
  | .noAttribute reference segment => "#" ++ reference ++ ": no attribute '" ++ segment ++ "'"
  | .noMethod call => "'" ++ call ++ "' does not name an object method"
  | .notObject method reference kind =>
    "cannot call '" ++ method ++ "' on #" ++ reference ++ " (" ++ kind ++ ")"
  | .argumentsKind text kind => "args '" ++ text ++ "' resolved to " ++ kind ++ ", expected a list"
  | .keywordsKind text kind =>
    "kwargs '" ++ text ++ "' resolved to " ++ kind ++ ", expected a mapping"
  | .badArguments raw => "invalid args: " ++ raw.compact
  | .badKeywords raw => "invalid kwargs: " ++ raw.compact
  | .badSpread spread => spread.message

/-- What is wrong with the request data. -/
inductive DataError where
  | missing (segment reference : String)
  | notObject (kind : String)

def DataError.message : DataError → String
  | .missing segment reference =>
    "missing '" ++ segment ++ "' while resolving #" ++ reference
  | .notObject kind => "request data must be an object, got " ++ kind

/-- Where the request data and the declared parameters differ. -/
inductive ParameterError where
  | unsupported (name : String)
  | missing (name : String)

def ParameterError.message : ParameterError → String
  | .unsupported name => "Supplied unsupported attribute: " ++ name
  | .missing name => "Missing required parameter: " ++ name

inductive ManifestError where
  | compile (cause : CompileError)
  | reference (cause : ReferenceError)
  | requestData (cause : DataError)
  | request (cause : ParameterError)
  /-- A call result did not meet its `ensure` clause. -/
  | ensure (text : String) (code : Nat)
  | capability (path : String) (failure : Failure)
  /-- The dump of an API object in the response failed. -/
  | dumpFailed (typeName : String) (cause : ManifestError)
  /-- The dump of an API object in the response holds an API object. -/
  | dumpNotJson (typeName : String)

namespace ManifestError

def message : ManifestError → String
  | .compile cause => "manifest compile error: " ++ cause.message
  | .reference cause => "unresolved reference: " ++ cause.message
  | .requestData cause => "unresolved request data: " ++ cause.message
  | .request cause => cause.message
  | .ensure text _ => text
  | .capability path failure => "capability " ++ path ++ " failed: " ++ failure.message
  | .dumpFailed typeName cause =>
    "failed to serialize response: cannot dump " ++ typeName ++ ": " ++ cause.message
  | .dumpNotJson typeName =>
    "failed to serialize response: dump of " ++ typeName ++ " is not JSON"

/-- The refusal of access behind a failed call. -/
def access? : ManifestError → Option AccessError
  | .capability _ failure => failure.access?
  | _ => none

/-- A refusal of access behind a failed call keeps its own status. -/
def status : ManifestError → Nat
  | .compile _ | .requestData _ | .request _ => 400
  | .ensure _ code => code
  | .capability _ failure => (failure.access?.map AccessError.status).getD 500
  | .reference _ | .dumpFailed _ _ | .dumpNotJson _ => 500

/-- The texts of the causes behind an error, outermost first. -/
def causes : ManifestError → List String
  | .capability _ failure => failure.causes.map Cause.text
  | _ => []

end ManifestError

end ManifestGate
