import ManifestGate.CommandLine.Script
import ManifestGate.Uuid

/-!
# The program

Carries out the script of the command line on the real file system.
-/

open ManifestGate

/-- A host without API objects, whose identifiers come from a random generator. -/
def programHost : Host StdGen where
  invoke api method _ state :=
    .pure (.error (.ofMessage (api.typeName ++ " has no method '" ++ method ++ "'"))) state
  newId state :=
    let (high, state) := randNat state 0 (Nat.pow 2 48 - 1)
    let (middle, state) := randNat state 0 (Nat.pow 2 12 - 1)
    let (low, state) := randNat state 0 (Nat.pow 2 62 - 1)
    (Uuid.ofBits high middle low, state)

def readFileText (path : String) : IO CommandLine.FileText := do
  try
    return .text (← IO.FS.readFile path)
  catch
    | .noFileOrDirectory .. => return .missing
    | error => return .unreadable (toString error)

def makeDirectories (path : String) : IO (Option String) := do
  try
    IO.FS.createDirAll path
    return none
  catch error => return some (toString error)

def carryOut : CommandLine.Script → IO CommandLine.Outcome
  | .finish outcome => return outcome
  | .load path next => do carryOut (next (← readFileText path))
  | .ensureDirectory path next => do carryOut (next (← makeDirectories path))

def main (arguments : List String) : IO UInt32 := do
  let values ← CommandLine.variableNames.mapM fun name => do return (name, ← IO.getEnv name)
  let lookup (name : String) : Option String :=
    ((values.find? fun entry => entry.1 = name).bind Prod.snd)
  let seed ← IO.rand 0 (Nat.pow 2 31)
  let outcome ← carryOut
    (CommandLine.script programHost (mkStdGen seed) "lense" lookup arguments)
  IO.print outcome.stdout
  match outcome.error with
  | some message => IO.eprintln ("Error: " ++ message)
  | none => pure ()
  return outcome.exit.toUInt32
