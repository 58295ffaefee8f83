import ManifestGate.Dict
import ManifestGate.Number.Basic

/-!
# Documents

A document is kept with its object entries as they stand in the text or in the printed order.
`Json.canonical` turns them into dictionaries; documents that are looked into, compared or run are
canonical.
-/

namespace ManifestGate

inductive Json where
  | null
  | bool (value : Bool)
  | number (value : Number)
  | string (value : String)
  | array (items : List Json)
  | object (entries : List (String × Json))
  deriving Inhabited

namespace Json

mutual

/-- Entries in key order, each key once; of two entries of one key the later stands. -/
def canonical : Json → Json
  | .array items => .array (canonicalItems items)
  | .object entries => .object (Dict.ofList (canonicalEntries entries))
  | scalar => scalar

def canonicalItems : List Json → List Json
  | [] => []
  | item :: rest => item.canonical :: canonicalItems rest

def canonicalEntries : List (String × Json) → List (String × Json)
  | [] => []
  | (key, value) :: rest => (key, value.canonical) :: canonicalEntries rest

end

mutual

/-- The document with `null` in place of the numbers that are beyond the format of doubles. -/
def finite : Json → Json
  | .number (.double x) => if x.isFinite then .number (.double x) else .null
  | .array items => .array (finiteItems items)
  | .object entries => .object (finiteEntries entries)
  | other => other

def finiteItems : List Json → List Json
  | [] => []
  | item :: rest => item.finite :: finiteItems rest

def finiteEntries : List (String × Json) → List (String × Json)
  | [] => []
  | (key, value) :: rest => (key, value.finite) :: finiteEntries rest

end

mutual

def Canonical : Json → Prop
  | .array items => CanonicalItems items
  | .object entries => Dict.Ascending entries ∧ CanonicalEntries entries
  | _ => True

def CanonicalItems : List Json → Prop
  | [] => True
  | item :: rest => item.Canonical ∧ CanonicalItems rest

def CanonicalEntries : List (String × Json) → Prop
  | [] => True
  | (_, value) :: rest => value.Canonical ∧ CanonicalEntries rest

end

theorem canonicalEntries_iff {entries : List (String × Json)} :
    CanonicalEntries entries ↔ ∀ entry ∈ entries, entry.2.Canonical := by
  induction entries with
  | nil => simp [CanonicalEntries]
  | cons entry rest ih => simp [CanonicalEntries, ih]

theorem canonicalEntries_ofList {entries : List (String × Json)}
    (sound : CanonicalEntries entries) : CanonicalEntries (Dict.ofList entries) := by
  have kept : ∀ start : Dict Json, CanonicalEntries start →
      CanonicalEntries (entries.foldl (fun dict entry => Dict.insert dict entry.1 entry.2) start) := by
    induction entries with
    | nil => exact fun _ known => known
    | cons entry rest ih =>
      intro start known
      refine ih sound.2 _ (canonicalEntries_iff.2 fun other member => ?_)
      rcases Dict.mem_insert member with rfl | inside
      · exact sound.1
      · exact canonicalEntries_iff.1 known other inside
  exact kept [] trivial

mutual

theorem canonical_canonical : ∀ json : Json, json.canonical.Canonical
  | .null | .bool _ | .number _ | .string _ => trivial
  | .array items => canonicalItems_canonical items
  | .object entries =>
    ⟨Dict.ascending_ofList _, canonicalEntries_ofList (canonicalEntries_canonical entries)⟩

theorem canonicalItems_canonical : ∀ items : List Json, CanonicalItems (canonicalItems items)
  | [] => trivial
  | item :: rest => ⟨canonical_canonical item, canonicalItems_canonical rest⟩

theorem canonicalEntries_canonical :
    ∀ entries : List (String × Json), CanonicalEntries (canonicalEntries entries)
  | [] => trivial
  | (_, value) :: rest => ⟨canonical_canonical value, canonicalEntries_canonical rest⟩

end

mutual

/-- Same kind and same content; whole numbers and doubles stay apart. -/
def same : Json → Json → Bool
  | .null, .null => true
  | .bool a, .bool b => a = b
  | .number a, .number b => a.same b
  | .string a, .string b => a = b
  | .array a, .array b => sameItems a b
  | .object a, .object b => sameEntries a b
  | _, _ => false

def sameItems : List Json → List Json → Bool
  | [], [] => true
  | a :: as, b :: bs => a.same b && sameItems as bs
  | _, _ => false

def sameEntries : List (String × Json) → List (String × Json) → Bool
  | [], [] => true
  | (k, a) :: as, (l, b) :: bs => k = l && a.same b && sameEntries as bs
  | _, _ => false

end

mutual

/-- Equality of content with numbers compared by value. Two objects are equal if they have equally
many entries and each entry on the left has an equal one under its key on the right. -/
def alike : Json → Json → Bool
  | .null, .null => true
  | .bool a, .bool b => a = b
  | .number a, .number b => a.sameValue b
  | .string a, .string b => a = b
  | .array a, .array b => alikeItems a b
  | .object a, .object b => a.length = b.length && alikeEntries a b
  | _, _ => false

def alikeItems : List Json → List Json → Bool
  | [], [] => true
  | a :: as, b :: bs => a.alike b && alikeItems as bs
  | _, _ => false

def alikeEntries : List (String × Json) → List (String × Json) → Bool
  | [], _ => true
  | (key, a) :: rest, others =>
    (match Dict.get? others key with
      | some b => a.alike b
      | none => false) && alikeEntries rest others

end

mutual

/-- The number of containers around the deepest point of the document. -/
def nesting : Json → Nat
  | .array items => nestingItems items + 1
  | .object entries => nestingEntries entries + 1
  | _ => 0

def nestingItems : List Json → Nat
  | [] => 0
  | item :: rest => max item.nesting (nestingItems rest)

def nestingEntries : List (String × Json) → Nat
  | [] => 0
  | (_, value) :: rest => max value.nesting (nestingEntries rest)

end

def isObject : Json → Bool
  | .object _ => true
  | _ => false

def get? : Json → String → Option Json
  | .object entries, key => Dict.get? entries key
  | _, _ => none

def ofOption (f : α → Json) : Option α → Json
  | none => .null
  | some value => f value

end Json

end ManifestGate
