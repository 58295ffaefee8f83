import ManifestGate.Manifest.Error

/-!
# Calls

A call mapping names what is called, its arguments and, in an `ensure` clause, what the result has
to meet. Only the form of a mapping is read here; whether its target exists is another matter.
-/

namespace ManifestGate

inductive Predicate where
  | value (expected : Json)
  | isnot (rejected : Json)

/-- Results with API objects are equal to no document. -/
def Predicate.holds (predicate : Predicate) (result : Value) : Bool :=
  let equals (literal : Json) : Bool :=
    match result.toJson? with
    | some json => json.alike literal
    | none => false
  match predicate with
  | .value expected => equals expected
  | .isnot rejected => !equals rejected

structure Ensure where
  predicate : Predicate
  error : String
  code : Nat
  /-- Reported when the predicate holds. -/
  log : Option String
  /-- Reported when the predicate holds, after `log`. -/
  debug : Option String

namespace Ensure

def defaultError : String := "An unknown request error has occurred"

def defaultCode : Nat := 400

def isStatusCode (code : Nat) : Bool :=
  100 ≤ code && code ≤ 599

def keys : List String := ["value", "isnot", "error", "code", "log", "debug"]

def readPredicate (entries : Dict Json) : Except CompileError Predicate :=
  match Dict.get? entries "value", Dict.get? entries "isnot" with
  | some expected, none => .ok (.value expected)
  | none, some rejected => .ok (.isnot rejected)
  | some _, some _ => .error .ensureBoth
  | none, none => .error .ensureNeither

def readError (entries : Dict Json) : Except CompileError String :=
  match Dict.get? entries "error" with
  | none => .ok defaultError
  | some (.string text) => .ok text
  | some _ => .error .ensureError

def readCode (entries : Dict Json) : Except CompileError Nat :=
  match Dict.get? entries "code" with
  | none => .ok defaultCode
  | some raw =>
    match raw with
    | .number n =>
      match n.code? with
      | some code => if isStatusCode code then .ok code else .error (.ensureCode raw)
      | none => .error (.ensureCode raw)
    | _ => .error (.ensureCode raw)

def readMessage (entries : Dict Json) (key : String) : Except CompileError (Option String) :=
  match Dict.get? entries key with
  | none | some .null => .ok none
  | some (.string text) => .ok (some text)
  | some _ => .error (.ensureMessage key)

def parse : Json → Except CompileError Ensure
  | .object entries =>
    match (Dict.keys entries).find? (· ∉ keys) with
    | some key => .error (.ensureKey key)
    | none => do
      let predicate ← readPredicate entries
      let error ← readError entries
      let code ← readCode entries
      let log ← readMessage entries "log"
      let debug ← readMessage entries "debug"
      return ⟨predicate, error, code, log, debug⟩
  | _ => .error .ensureNotObject

end Ensure

/-- A call with its arguments as they stand in the manifest. -/
structure CallSpec where
  /-- A capability path, or a reference and a method. -/
  call : String
  /-- A list, a reference or a spread. -/
  args : Json
  /-- A mapping, a reference or a spread. -/
  kwargs : Json
  ensure : Option Ensure

namespace CallSpec

def keys : List String := ["call", "args", "kwargs", "ensure"]

/-- Whether a document is a call mapping: an object with the key `call`. -/
def isMapping : Json → Bool
  | .object entries => Dict.contains entries "call"
  | _ => false

def readCall (entries : Dict Json) : Except CompileError String :=
  match Dict.get? entries "call" with
  | some (.string call) => .ok call
  | _ => .error .mappingWithoutCall

/-- The clause of a mapping; `null` and `false` stand for none. -/
def readEnsure (entries : Dict Json) : Except CompileError (Option Ensure) :=
  match Dict.get? entries "ensure" with
  | none | some .null | some (.bool false) => .ok none
  | some raw => (Ensure.parse raw).map some

/-- What a mapping says apart from its arguments: what it calls and its clause. -/
def readHead (entries : Dict Json) : Except CompileError (String × Option Ensure) := do
  let call ← readCall entries
  match (Dict.keys entries).find? (· ∉ keys) with
  | some key => .error (.mappingKey key call)
  | none => return (call, ← readEnsure entries)

def parse : Json → Except CompileError CallSpec
  | .object entries => do
    let (call, ensure) ← readHead entries
    return ⟨call, (Dict.get? entries "args").getD (.array []),
      (Dict.get? entries "kwargs").getD (.object []), ensure⟩
  | _ => .error .mappingNotObject

end CallSpec

end ManifestGate
