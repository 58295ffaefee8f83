import ManifestGate.Access.Permission

/-!
# Capabilities

A capability is a value or a function. A function is given the scope of the request and its
arguments; it answers with a result, may change the state of the application behind it and may
report events. That state, of any type `σ`, is nothing the library looks into.
-/

namespace ManifestGate

structure Arguments where
  positional : List Value
  keyword : Dict Value

inductive Cause where
  | message (text : String)
  | access (error : AccessError)

def Cause.text : Cause → String
  | .message text => text
  | .access error => error.message

/-- Why a call failed: a cause with the causes behind it, the outermost first. -/
structure Failure where
  outermost : Cause
  behind : List Cause

namespace Failure

def ofMessage (text : String) : Failure := ⟨.message text, []⟩

def ofAccess (error : AccessError) : Failure := ⟨.access error, []⟩

def context (failure : Failure) (text : String) : Failure :=
  ⟨.message text, failure.outermost :: failure.behind⟩

def causes (failure : Failure) : List Cause :=
  failure.outermost :: failure.behind

/-- What a failure shows of itself. -/
def message (failure : Failure) : String :=
  failure.outermost.text

/-- The outermost refusal of access among the causes. -/
def access? (failure : Failure) : Option AccessError :=
  failure.causes.findSome? fun
    | .access error => some error
    | .message _ => none

end Failure

namespace Arguments

def none : Arguments := ⟨[], []⟩

/-- An argument by keyword, or else by position. -/
def get? (arguments : Arguments) (index : Nat) (name : String) : Option Value :=
  match Dict.get? arguments.keyword name with
  | some value => some value
  | Option.none => arguments.positional[index]?

def require (arguments : Arguments) (index : Nat) (name : String) : Except Failure Value :=
  match arguments.get? index name with
  | some value => .ok value
  | Option.none => .error (.ofMessage ("missing argument '" ++ name ++ "'"))

def requireText (arguments : Arguments) (index : Nat) (name : String) : Except Failure String := do
  match ← arguments.require index name with
  | .string text => .ok text
  | other =>
    .error (.ofMessage ("argument '" ++ name ++ "' must be a string, got " ++ other.kind))

end Arguments

/-- What a capability may know of the request. -/
structure Scope where
  requestId : String
  requester : Requester
  access : AccessContext

inductive Level where
  | debug
  | info
  | warn
  | error
  deriving DecidableEq

def Level.name : Level → String
  | .debug => "debug"
  | .info => "info"
  | .warn => "warn"
  | .error => "error"

/-- What a function or a method reports of its own accord. -/
inductive Report where
  | log (level : Level) (message : String)
  | permission (rule : PermissionRule)

/-- What a run reports, in order of occurrence. Calls are reported by the caller alone: no function
can report one in its answer. -/
inductive Event where
  | report (report : Report)
  | called (path : String) (scope : Scope) (arguments : Arguments)
  | invoked (api : ApiObject) (method : String) (arguments : Arguments)

namespace Event

@[match_pattern] abbrev log (level : Level) (message : String) : Event :=
  .report (.log level message)

@[match_pattern] abbrev permission (rule : PermissionRule) : Event :=
  .report (.permission rule)

end Event

structure Reply (σ : Type) where
  result : Except Failure Value
  state : σ
  reports : List Report

namespace Reply

variable {σ : Type}

/-- An answer that changes nothing and reports nothing. -/
def pure (result : Except Failure Value) (state : σ) : Reply σ := ⟨result, state, []⟩

end Reply

inductive Capability (σ : Type) where
  | value (value : Value)
  | function (run : Scope → Arguments → σ → Reply σ)

/-- What the application supplies besides its capabilities. -/
structure Host (σ : Type) where
  invoke : ApiObject → (method : String) → Arguments → σ → Reply σ
  /-- A random identifier that was not given out before. -/
  newId : σ → String × σ

/-- What changes during runs: the application's state, and the events so far. -/
structure Progress (σ : Type) where
  state : σ
  events : List Event

namespace Progress

variable {σ : Type}

def start (state : σ) : Progress σ := ⟨state, []⟩

def report (progress : Progress σ) (report : Report) : Progress σ :=
  { progress with events := progress.events ++ [.report report] }

/-- Runs a function or a method: the call itself is reported before what it reports. -/
def perform (progress : Progress σ) (call : Event) (run : σ → Reply σ) :
    Except Failure Value × Progress σ :=
  let reply := run progress.state
  (reply.result, ⟨reply.state, progress.events ++ call :: reply.reports.map .report⟩)

end Progress

end ManifestGate
