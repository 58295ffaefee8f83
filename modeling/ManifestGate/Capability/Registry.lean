import ManifestGate.Manifest.Error

/-!
# The capability namespace

A registry holds capabilities under dotted paths below one root. No path lies beneath another, so a
path from outside meets at most one entry; what is left of it walks into the entry's value.
-/

namespace ManifestGate

/-- A letter or underscore, then letters, digits and underscores, all ASCII. -/
def isIdentifier (text : String) : Bool :=
  match text.toList with
  | [] => false
  | c :: rest => (c.isAlpha || c = '_') && rest.all fun d => d.isAlphanum || d = '_'

inductive RegistryError where
  | invalidRoot (root : String)
  | invalidPath (path : String)
  | duplicate (path : String)
  | nested (path parent : String)
  deriving DecidableEq

def RegistryError.message : RegistryError → String
  | .invalidRoot root => "invalid capability root '" ++ root ++ "'"
  | .invalidPath path => "invalid capability path '" ++ path ++ "'"
  | .duplicate path => "capability path '" ++ path ++ "' is already registered"
  | .nested path parent =>
    "capability path '" ++ path ++ "' is nested beneath registered entry '" ++ parent ++ "'"

/-- A root and the capabilities below it, by path relative to the root. -/
structure Registry (σ : Type) where
  root : String
  entries : Dict (Capability σ)

namespace Registry

variable {σ : Type}

/-- Takes in entries one by one; a malformed or repeated path is refused. -/
def collect (known : Dict (Capability σ)) :
    List (String × Capability σ) → Except RegistryError (Dict (Capability σ))
  | [] => .ok known
  | (path, capability) :: rest =>
    if !(Path.segments path).all isIdentifier then .error (.invalidPath path)
    else if known.contains path then .error (.duplicate path)
    else collect (known.insert path capability) rest

/-- The paths that lie properly above a path, the shortest first. -/
def above (path : String) : List String :=
  let parts := Path.segments path
  (List.range (parts.length - 1)).map fun n => Path.join (parts.take (n + 1))

/-- The first path that lies beneath an entry, with that entry. -/
def nested? (entries : Dict (Capability σ)) : Option (String × String) :=
  entries.keys.findSome? fun path =>
    ((above path).find? fun parent => entries.contains parent).map fun parent => (path, parent)

/-- The registry of some entries, given in any order. -/
def build (root : String) (entries : List (String × Capability σ)) :
    Except RegistryError (Registry σ) :=
  if !isIdentifier root then .error (.invalidRoot root)
  else do
    let known ← collect [] entries
    match nested? known with
    | some (path, parent) => .error (.nested path parent)
    | none => return ⟨root, known⟩

def extend (registry : Registry σ) (entries : List (String × Capability σ)) :
    Except RegistryError (Registry σ) :=
  build registry.root (registry.entries ++ entries)

def paths (registry : Registry σ) : List String :=
  registry.entries.keys

/-- Whether a text addresses the namespace: its first segment is the root. -/
def isCapabilityPath (registry : Registry σ) (text : String) : Bool :=
  Path.head text = registry.root

def absolute (registry : Registry σ) (path : String) : String :=
  registry.root ++ "." ++ path

/-- The entry with the longest path among the first `count` and fewer of the segments, and the
segments beyond it. -/
def longest? (entries : Dict (Capability σ)) (parts : List String) :
    (count : Nat) → Option (Capability σ × List String)
  | 0 => none
  | count + 1 =>
    match Dict.get? entries (Path.join (parts.take (count + 1))) with
    | some capability => some (capability, parts.drop (count + 1))
    | none => longest? entries parts count

/-- The entry that a path from outside meets, and the segments left over. -/
def locate (registry : Registry σ) (path : String) :
    Except ReferenceError (Capability σ × List String) :=
  match Path.segments path with
  | [] => .error (.notCapability path)
  | root :: parts =>
    if root ≠ registry.root then .error (.notCapability path)
    else if parts.isEmpty then .error (.onlyRoot path)
    else
      match longest? registry.entries parts parts.length with
      | some found => .ok found
      | none => .error (.unknownPath path)

/-- What a path stands for: a function, or a value reached by walking. -/
inductive Target (σ : Type) where
  | function (run : Scope → Arguments → σ → Reply σ)
  | value (value : Value)

/-- Follows a path to its end. Functions cannot be walked into. -/
def resolve (registry : Registry σ) (path : String) : Except ReferenceError (Target σ) := do
  match ← registry.locate path with
  | (.function run, []) => return .function run
  | (.function _, _ :: _) => .error (.intoFunction path)
  | (.value value, rest) =>
    match value.walk rest with
    | .ok found => return .value found
    | .error segment => .error (.missingSegment path segment)

def check (registry : Registry σ) (path : String) : Except ReferenceError Unit := do
  let _ ← registry.resolve path
  return ()

end Registry

/-- A run that may end early; what it changed and reported before it ended stays. -/
abbrev Action (σ : Type) (α : Type) := ExceptT ManifestError (StateM (Progress σ)) α

namespace Action

variable {σ : Type}

def ofExcept (wrap : ε → ManifestError) : Except ε α → Action σ α
  | .ok value => pure value
  | .error cause => throw (wrap cause)

/-- Calls a function or a method; a failure of it is a failed capability at `path`. -/
def perform (path : String) (call : Event) (run : σ → Reply σ) : Action σ Value :=
  fun progress =>
    match progress.perform call run with
    | (.ok value, progress) => (.ok value, progress)
    | (.error failure, progress) => (.error (.capability path failure), progress)

def callFunction (path : String) (run : Scope → Arguments → σ → Reply σ) (scope : Scope)
    (arguments : Arguments) : Action σ Value :=
  perform path (.called path scope arguments) (run scope arguments)

/-- Calls a method of an API object that `target` leads to. -/
def callMethod (target : String) (host : Host σ) (api : ApiObject) (method : String)
    (arguments : Arguments) : Action σ Value :=
  perform target (.invoked api method arguments) (host.invoke api method arguments)

def report (report : Report) : Action σ Unit :=
  fun progress => (.ok (), progress.report report)

end Action

namespace Registry

variable {σ : Type}

/-- The value at a path; a function is called without arguments. -/
def fetch (registry : Registry σ) (scope : Scope) (path : String) : Action σ Value := do
  match ← Action.ofExcept .reference (registry.resolve path) with
  | .value value => return value
  | .function run => Action.callFunction path run scope .none

def call (registry : Registry σ) (scope : Scope) (path : String) (arguments : Arguments) :
    Action σ Value := do
  match ← Action.ofExcept .reference (registry.locate path) with
  | (.function run, []) => Action.callFunction path run scope arguments
  | _ => throw (.reference (.notCallable path))

end Registry

end ManifestGate
