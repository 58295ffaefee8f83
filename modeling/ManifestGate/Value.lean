import ManifestGate.Json.Basic
import ManifestGate.Path

/-!
# Runtime values

A run works on values: documents that may hold API objects at any depth. An API object is known by
its identity; its attributes and its document form are fixed when it is made.
-/

namespace ManifestGate

mutual

inductive Value where
  | null
  | bool (value : Bool)
  | number (value : Number)
  | string (value : String)
  | list (items : List Value)
  | map (entries : List (String × Value))
  | object (api : ApiObject)

structure ApiObject where
  identity : Nat
  typeName : String
  attributes : List (String × Value)
  /-- The document form, for objects that have one. -/
  json : Option Json

end

instance : Inhabited Value := ⟨.null⟩

/-- Indexes are numbers of 64 bits. -/
def indexLimit : Nat := 18446744073709551616

/-- A list index: decimal digits, perhaps after a plus sign. -/
def listIndex? (segment : String) : Option Nat :=
  let digits := match segment.toList with
    | '+' :: rest => rest
    | chars => chars
  if digits.isEmpty || !digits.all Char.isDigit then none
  else
    let index := digits.foldl (fun n c => n * 10 + (c.toNat - '0'.toNat)) 0
    if index < indexLimit then some index else none

namespace Value

def text? : Value → Option String
  | .string text => some text
  | _ => none

/-- The name of the value's kind; an API object goes by its type name. -/
def kind : Value → String
  | .null => "null"
  | .bool _ => "bool"
  | .number _ => "number"
  | .string _ => "string"
  | .list _ => "list"
  | .map _ => "map"
  | .object api => api.typeName

/-- One step into the value: a key of a map, an index of a list, an attribute of an object. -/
def child? : Value → String → Option Value
  | .map entries, segment => Dict.get? entries segment
  | .list items, segment => (listIndex? segment).bind fun index => items[index]?
  | .object api, segment => Dict.get? api.attributes segment
  | _, _ => none

/-- Steps into the value segment by segment; fails with the first segment that is missing. -/
def walk (value : Value) : List String → Except String Value
  | [] => .ok value
  | segment :: rest =>
    match value.child? segment with
    | some child => child.walk rest
    | none => .error segment

mutual

def ofJson : Json → Value
  | .null => .null
  | .bool b => .bool b
  | .number n => .number n
  | .string s => .string s
  | .array items => .list (ofItems items)
  | .object entries => .map (ofEntries entries)

def ofItems : List Json → List Value
  | [] => []
  | item :: rest => ofJson item :: ofItems rest

def ofEntries : List (String × Json) → List (String × Value)
  | [] => []
  | (key, json) :: rest => (key, ofJson json) :: ofEntries rest

end

mutual

/-- The document of a value without API objects. -/
def toJson? : Value → Option Json
  | .null => some .null
  | .bool b => some (.bool b)
  | .number n => some (.number n)
  | .string s => some (.string s)
  | .list items => (toItems? items).map .array
  | .map entries => (toEntries? entries).map .object
  | .object _ => none

def toItems? : List Value → Option (List Json)
  | [] => some []
  | item :: rest =>
    match item.toJson?, toItems? rest with
    | some json, some more => some (json :: more)
    | _, _ => none

def toEntries? : List (String × Value) → Option (List (String × Json))
  | [] => some []
  | (key, value) :: rest =>
    match value.toJson?, toEntries? rest with
    | some json, some more => some ((key, json) :: more)
    | _, _ => none

end

mutual

/-- Same kind and same content; API objects are the same if they have one identity. -/
def same : Value → Value → Bool
  | .null, .null => true
  | .bool a, .bool b => a = b
  | .number a, .number b => a.same b
  | .string a, .string b => a = b
  | .list a, .list b => sameItems a b
  | .map a, .map b => sameEntries a b
  | .object a, .object b => a.identity = b.identity
  | _, _ => false

def sameItems : List Value → List Value → Bool
  | [], [] => true
  | a :: as, b :: bs => a.same b && sameItems as bs
  | _, _ => false

def sameEntries : List (String × Value) → List (String × Value) → Bool
  | [], [] => true
  | (k, a) :: as, (l, b) :: bs => k = l && a.same b && sameEntries as bs
  | _, _ => false

end

mutual

/-- The document of a value in which every API object stands as its document form; fails with the
type name of the first object that has none. -/
def dump : Value → Except String Json
  | .null => .ok .null
  | .bool b => .ok (.bool b)
  | .number n => .ok (.number n)
  | .string s => .ok (.string s)
  | .list items => (dumpItems items).map .array
  | .map entries => (dumpEntries entries).map .object
  | .object api =>
    match api.json with
    | some json => .ok json
    | none => .error api.typeName

def dumpItems : List Value → Except String (List Json)
  | [] => .ok []
  | item :: rest => do
    let json ← item.dump
    let more ← dumpItems rest
    return json :: more

def dumpEntries : List (String × Value) → Except String (List (String × Json))
  | [] => .ok []
  | (key, value) :: rest => do
    let json ← value.dump
    let more ← dumpEntries rest
    return (key, json) :: more

end

/-- Walking two runs of segments is walking the first and then the second. -/
theorem walk_append (value : Value) (first second : List String) :
    value.walk (first ++ second) = (value.walk first).bind fun found => found.walk second := by
  induction first generalizing value with
  | nil => rfl
  | cons segment rest ih =>
    simp only [List.cons_append, walk]
    cases value.child? segment with
    | none => rfl
    | some child => exact ih child

mutual

theorem toJson?_ofJson : ∀ json : Json, (ofJson json).toJson? = some json
  | .null | .bool _ | .number _ | .string _ => rfl
  | .array items => by simp [ofJson, toJson?, toItems?_ofItems items]
  | .object entries => by simp [ofJson, toJson?, toEntries?_ofEntries entries]

theorem toItems?_ofItems : ∀ items : List Json, toItems? (ofItems items) = some items
  | [] => rfl
  | item :: rest => by simp [ofItems, toItems?, toJson?_ofJson item, toItems?_ofItems rest]

theorem toEntries?_ofEntries :
    ∀ entries : List (String × Json), toEntries? (ofEntries entries) = some entries
  | [] => rfl
  | (key, json) :: rest => by
    simp [ofEntries, toEntries?, toJson?_ofJson json, toEntries?_ofEntries rest]

end

end Value

end ManifestGate
