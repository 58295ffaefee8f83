import ManifestGate.Manifest.Error

/-!
# Blocks of a manifest

A manifest is an array of objects with one key each. The key says what the block is and by which
name later blocks refer to it.
-/

namespace ManifestGate

def dataKey : String := "__DATA__"

def paramsKey : String := "__PARAMS__"

def responseKey : String := "response"

def reservedNames : List String := [dataKey, paramsKey, responseKey]

/-- One or more ASCII letters, digits and underscores. -/
def isBlockName (name : String) : Bool :=
  !name.toList.isEmpty && name.toList.all fun c => c.isAlphanum || c = '_'

inductive BlockKey where
  | data
  | params
  | var (name : String)
  | action (name : String)
  | response
  deriving DecidableEq

namespace BlockKey

/-- The texts before and after the first `#`. -/
def splitHash? (raw : String) : Option (String × String) :=
  match raw.toList.span (· ≠ '#') with
  | (kind, '#' :: name) => some (String.ofList kind, String.ofList name)
  | _ => none

def parse (raw : String) : Except CompileError BlockKey :=
  if raw = dataKey then .ok .data
  else if raw = paramsKey then .ok .params
  else if raw = responseKey then .ok .response
  else
    match splitHash? raw with
    | none => .error (.unknownKey raw)
    | some (kind, name) =>
      if !isBlockName name then .error (.badName name raw)
      else if name ∈ reservedNames then .error (.reservedName name raw)
      else if kind = "var" then .ok (.var name)
      else if kind = "do" then .ok (.action name)
      else .error (.unknownKey raw)

/-- The name that later blocks refer to the block by. -/
def reference : BlockKey → String
  | .data => dataKey
  | .params => paramsKey
  | .response => responseKey
  | .var name | .action name => name

def text : BlockKey → String
  | .var name => "var#" ++ name
  | .action name => "do#" ++ name
  | key => key.reference

end BlockKey

structure Block where
  key : BlockKey
  value : Json

namespace Block

def parse (index : Nat) : Json → Except CompileError Block
  | .object [(raw, value)] => do return ⟨← BlockKey.parse raw, value⟩
  | .object _ => .error (.blockNotSingle index)
  | _ => .error (.blockNotObject index)

/-- The blocks of an array whose first item has the given index. -/
def parseFrom (index : Nat) : List Json → Except CompileError (List Block)
  | [] => .ok []
  | item :: rest => do
    let block ← parse index item
    let more ← parseFrom (index + 1) rest
    return block :: more

def parseAll : Json → Except CompileError (List Block)
  | .array items => parseFrom 0 items
  | _ => .error .rootNotArray

end Block

end ManifestGate
