import ManifestGate.Access.Decision
import ManifestGate.Capability.Authorization
import ManifestGate.Config
import ManifestGate.Manifest.Execution

/-!
# The gateway

A request finds its handler, passes the access gate and runs the handler's manifest. The gates stand
in a fixed order and the first one that refuses ends the request; nothing is called before all of
them have passed.
-/

namespace ManifestGate

variable {σ : Type}

structure Request where
  path : String
  method : Method
  requester : Requester
  data : Json

inductive GatewayError where
  | access (error : AccessError)
  | manifest (error : ManifestError)

structure Response where
  message : String
  /-- The rendered response of the manifest, `null` if it has none. -/
  data : Json

namespace Response

def ofResult (result : Option Json) : Response :=
  ⟨"Request successful", result.getD .null⟩

def toJson (response : Response) : Json :=
  .object [("message", .string response.message), ("data", response.data)]

end Response

/-- What is told of the causes of an internal error. -/
structure DebugInfo where
  exception : String
  causes : List String
  deriving DecidableEq

structure ErrorPayload where
  /-- What a status code means to the requester. -/
  message : String
  error : String
  code : Nat
  debug : Option DebugInfo
  deriving DecidableEq

namespace ErrorPayload

def toJson (payload : ErrorPayload) : Json :=
  .object ([("message", .string payload.message), ("error", .string payload.error),
    ("code", .number (.integer payload.code))] ++
    match payload.debug with
    | some debug =>
      [("debug", .object [("exception", .string debug.exception),
        ("causes", .array (debug.causes.map .string))])]
    | none => [])

end ErrorPayload

def statusMessage (code : Nat) : String :=
  if code = 401 then "An error occured while authorizing the request"
  else if 500 ≤ code ∧ code ≤ 599 then
    "An internal server error occurred, please contact your administrator"
  else "An error occurred while validating the request"

namespace GatewayError

def status : GatewayError → Nat
  | .access error => error.status
  | .manifest error => error.status

def message : GatewayError → String
  | .access error => error.message
  | .manifest error => error.message

def causes : GatewayError → List String
  | .access _ => []
  | .manifest error => error.causes

/-- What the requester is told first: a refusal of access behind a failed call speaks for itself. -/
def text : GatewayError → String
  | .access error => error.message
  | .manifest error =>
    match error.access? with
    | some refusal => refusal.message
    | none => error.message

/-- The rendered error; causes are told of internal errors in debug mode. -/
def payload (error : GatewayError) (debug : Bool) : ErrorPayload where
  message := statusMessage error.status
  error := error.text
  code := error.status
  debug := if debug ∧ 500 ≤ error.status then some ⟨error.message, error.causes⟩ else none

end GatewayError

/-- The built-in capabilities and those over a directory, for a gateway's registry. -/
def Gateway.capabilities (host : Host σ) (directory : Directory) (config : Config) :
    List (String × Capability σ) :=
  Builtin.capabilities host ++ Authorization.capabilities directory config.acl.adminGroup

structure Gateway (σ : Type) where
  directory : Directory
  engine : Engine σ
  config : Config

namespace Gateway

/-- The handler of a request and the access to it, if every gate passes. -/
def authorize (gateway : Gateway σ) (request : Request) :
    Except AccessError (Handler × AccessContext) :=
  let target := request.method.name ++ " " ++ request.path
  match gateway.directory.handler? request.path request.method with
  | none => .error (.notFound ("no handler for " ++ target))
  | some handler =>
    if !handler.enabled then .error (.handlerDisabled target)
    else if request.requester.isAnonymous && !handler.allowAnonymous then
      .error (.anonymousNotAllowed target)
    else
      (gateway.directory.authorize gateway.config.acl.enabled handler request.requester).map
        fun access => (handler, access)

/-- Runs a request in a scope with an identifier of its own. -/
def handle (gateway : Gateway σ) (request : Request) (progress : Progress σ) :
    Except GatewayError Response × Progress σ :=
  match gateway.authorize request with
  | .error refusal => (.error (.access refusal), progress)
  | .ok (handler, access) =>
    match requestData request.data with
    | .error cause => (.error (.manifest cause), progress)
    | .ok data =>
      let (requestId, state) := gateway.engine.host.newId progress.state
      let scope : Scope := ⟨requestId, request.requester, access⟩
      match gateway.engine.run scope handler.manifest data { progress with state } with
      | (.ok result, progress) => (.ok (.ofResult result), progress)
      | (.error cause, progress) => (.error (.manifest cause), progress)

def respond (gateway : Gateway σ) (request : Request) (progress : Progress σ) :
    Except ErrorPayload Response × Progress σ :=
  match gateway.handle request progress with
  | (.ok response, progress) => (.ok response, progress)
  | (.error error, progress) => (.error (error.payload gateway.config.engine.debug), progress)

end Gateway

end ManifestGate
