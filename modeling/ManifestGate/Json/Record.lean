import ManifestGate.Json.Basic

/-!
# Records in documents

A record of known fields is written as an object with the fields as keys or as an array with the
fields in order. Other keys are passed over, a field given twice is not. The formats differ in what
they let pass beyond that. Readers answer `none` for a document of the wrong shape.
-/

namespace ManifestGate

inductive Format where
  | json
  | toml
  deriving DecidableEq

namespace Json

def text? : Json → Option String
  | .string text => some text
  | _ => none

def bool? : Json → Option Bool
  | .bool b => some b
  | _ => none

def nullable? (read : Json → Option α) : Json → Option (Option α)
  | .null => some none
  | json => (read json).map some

def list? (read : Json → Option α) : Json → Option (List α)
  | .array items => items.mapM read
  | _ => none

/-- Reads the entries of an object in turn; of two entries of one key the later stands. -/
def dict? (read : Json → Option α) : Json → Option (Dict α)
  | .object entries =>
    (entries.mapM fun entry => (read entry.2).map fun value => (entry.1, value)).map Dict.ofList
  | _ => none

/-- A case with a name: the name alone, or an object with the name as its only key. -/
def case? : Json → Option (String × Option Json)
  | .string name => some (name, none)
  | .object [(name, json)] => some (name, some json)
  | _ => none

/-- Whether a document can stand under the name of a case that holds nothing. TOML has no `null`,
so an empty table or array stands there. -/
def isNothing (format : Format) : Json → Bool
  | .null => format = .json
  | .object [] | .array [] => format = .toml
  | _ => false

/-- One of some names: the name alone, or as the only key of an object over nothing. -/
def named? (format : Format) (find : String → Option α) (json : Json) : Option α :=
  match json.case? with
  | some (name, none) => find name
  | some (name, some held) => if held.isNothing format then find name else none
  | none => none

end Json

inductive Record where
  | named (entries : List (String × Json))
  | inOrder (items : List Json)

namespace Record

/-- The record with these fields that a document writes. Items past the last field are passed over
in TOML only. -/
def of? (format : Format) (fields : List String) : Json → Option Record
  | .object entries =>
    if fields.all fun name => (entries.filter fun entry => entry.1 = name).length ≤ 1 then
      some (.named entries)
    else none
  | .array items =>
    if format = .toml ∨ items.length ≤ fields.length then some (.inOrder items) else none
  | _ => none

def get? (record : Record) (place : Nat) (name : String) : Option Json :=
  match record with
  | .named entries => Dict.get? entries name
  | .inOrder items => items[place]?

def required (record : Record) (place : Nat) (name : String) (read : Json → Option α) :
    Option α := do
  read (← record.get? place name)

/-- A field with a value of its own where it is absent. -/
def withDefault (record : Record) (place : Nat) (name : String) (read : Json → Option α)
    (default : α) : Option α :=
  match record.get? place name with
  | some json => read json
  | none => some default

/-- A field that is `null`, or absent by name, where there is nothing. -/
def optional (record : Record) (place : Nat) (name : String) (read : Json → Option α) :
    Option (Option α) :=
  match record, record.get? place name with
  | _, some json => json.nullable? read
  | .named _, none => some none
  | .inOrder _, none => none

end Record

end ManifestGate
