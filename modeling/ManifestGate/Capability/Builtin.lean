import ManifestGate.Capability.Registry

/-!
# Built-in capabilities

Log messages, random identifiers, the dump of API objects and what a manifest may know of its
requester. Every one of them answers without looking into the application's state.
-/

namespace ManifestGate.Builtin

variable {σ : Type}

/-- The path of the capability that renders API objects in responses. -/
def dumpPath : String := "OBJECTS.dump"

def dump (value : Value) : Except Failure Value :=
  match value.dump with
  | .ok json => .ok (.ofJson json)
  | .error typeName => .error (.ofMessage (typeName ++ " does not support dump"))

def log (level : Level) : Capability σ :=
  .function fun _ arguments state =>
    match arguments.requireText 0 "msg" with
    | .ok text => ⟨.ok .null, state, [.log level text]⟩
    | .error failure => .pure (.error failure) state

def ofScope (read : Scope → Value) : Capability σ :=
  .function fun scope _ state => .pure (.ok (read scope)) state

def ofText? : Option String → Value
  | some text => .string text
  | none => .null

def uuid4 (host : Host σ) : Capability σ :=
  .function fun _ _ state =>
    let (id, state) := host.newId state
    .pure (.ok (.string id)) state

def dumpObject : Capability σ :=
  .function fun _ arguments state =>
    .pure (do dump (← arguments.require 0 "object")) state

/-- The capabilities that every registry starts with. -/
def capabilities (host : Host σ) : List (String × Capability σ) :=
  [("LOG.debug", log .debug),
   ("LOG.info", log .info),
   ("LOG.warn", log .warn),
   ("LOG.error", log .error),
   ("uuid4", uuid4 host),
   (dumpPath, dumpObject),
   ("REQUEST.id", ofScope fun scope => .string scope.requestId),
   ("REQUEST.user", ofScope fun scope => ofText? scope.requester.user),
   ("REQUEST.group", ofScope fun scope => ofText? scope.requester.group)]

end ManifestGate.Builtin
