import ManifestGate.Toml.Scalar

/-!
# TOML documents

A document is built line by line. Headers open tables, keys put values into the open table, and a
table or key that was defined cannot be defined again. The result is a `Json` document.
-/

namespace ManifestGate.Toml

inductive Node where
  | value (json : Json)
  /-- A table; `implicit` until a header names it, `dotted` if a dotted key made it. -/
  | table (implicit dotted : Bool) (entries : List (String × Node))
  /-- An array of tables, the last of them open. -/
  | tables (earlier : List (List (String × Node))) (last : List (String × Node))

abbrev Entries := List (String × Node)

mutual

def Node.toJson : Node → Json
  | .value json => json
  | .table _ _ entries => .object (entriesToJson entries)
  | .tables earlier last => .array (tablesToJson earlier ++ [.object (entriesToJson last)])

def entriesToJson : List (String × Node) → List (String × Json)
  | [] => []
  | (key, node) :: rest => (key, node.toJson) :: entriesToJson rest

def tablesToJson : List (List (String × Node)) → List Json
  | [] => []
  | entries :: rest => .object (entriesToJson entries) :: tablesToJson rest

end

def find? (entries : Entries) (key : String) : Option Node :=
  (entries.find? fun entry => entry.1 = key).map Prod.snd

def put (entries : Entries) (key : String) (node : Node) : Entries :=
  (entries.filter fun entry => entry.1 ≠ key) ++ [(key, node)]

/-- Changes the table at the end of a path. Missing tables on the way are made, as dotted ones
where a dotted key leads; an array of tables is entered at its last table. The change is told
whether the table was made by a dotted key. -/
def within (dotted : Bool) (change : Bool → Entries → Option Entries) :
    List String → Bool → Entries → Option Entries
  | [], made, entries => change made entries
  | key :: path, _, entries =>
    match find? entries key with
    | none => do
      let inner ← within dotted change path dotted []
      return put entries key (.table true dotted inner)
    | some (.value _) => none
    | some (.table implicit made inner) =>
      if dotted ∧ !implicit then none
      else do
        let inner ← within dotted change path made inner
        return put entries key (.table implicit made inner)
    | some (.tables earlier last) => do
      let last ← within dotted change path false last
      return put entries key (.tables earlier last)

def assign (path : List String) (key : String) (json : Json) (entries : Entries) :
    Option Entries :=
  within true (fun made entries =>
    if made = path.isEmpty then none
    else if (find? entries key).isSome then none
    else some (put entries key (.value json))) path false entries

/-- Opens the table that a header names. -/
def openTable (path : List String) (key : String) (root : Entries) : Option Entries :=
  within false (fun _ entries =>
    match find? entries key with
    | none => some (put entries key (.table false false []))
    | some (.table true false inner) => some (put entries key (.table false false inner))
    | some _ => none) path false root

/-- Opens a further table of the array of tables that a header names. -/
def openNext (path : List String) (key : String) (root : Entries) : Option Entries :=
  within false (fun _ entries =>
    match find? entries key with
    | none => some (put entries key (.tables [] []))
    | some (.tables earlier last) => some (put entries key (.tables (earlier ++ [last]) []))
    | some _ => none) path false root

/-- Puts a value into the table that the last header opened. -/
def assignUnder (header path : List String) (key : String) (json : Json) (root : Entries) :
    Option Entries :=
  within false (fun _ entries => assign path key json entries) header false root

/-! ## Values with parts -/

/-- The deepest nesting of arrays and inline tables, and the longest dotted key. -/
def depthLimit : Nat := 79

def key? (text : List Char) : Option (List String × String × List Char) := do
  let (keys, rest) ← dottedKey? (text.length + 1) text
  match keys.getLast? with
  | some last => if keys.length ≤ depthLimit then some (keys.dropLast, last, rest) else none
  | none => none

/-- Blanks, line ends and comments between the items of an array. -/
def skipLines : Nat → List Char → List Char
  | 0, text => text
  | fuel + 1, text =>
    let rest := skipComment (skipSpaces text)
    match newline? rest with
    | some rest => skipLines fuel rest
    | none => skipSpaces text

/-- Skips lines between items. A comment has to end with its line. -/
def skipGap (text : List Char) : List Char :=
  skipLines (text.length + 1) text

/-- Items up to the closing bracket, which is taken too; the last may have a comma. -/
def items? (item : List Char → Option (Json × List Char)) :
    Nat → List Char → Option (List Json × List Char)
  | 0, _ => none
  | fuel + 1, text =>
    match skipGap text with
    | ']' :: rest => some ([], rest)
    | text => do
      let (first, rest) ← item text
      match skipGap rest with
      | ',' :: rest => do
        let (more, rest) ← items? item fuel rest
        return (first :: more, rest)
      | ']' :: rest => return ([first], rest)
      | _ => none

/-- Entries up to the closing brace, which is taken too; there is at least one. -/
def pairs? (item : List Char → Option (Json × List Char)) :
    Nat → Entries → List Char → Option (Entries × List Char)
  | 0, _, _ => none
  | fuel + 1, entries, text => do
    let (path, key, rest) ← key? (skipSpaces text)
    let ('=' :: rest) := skipSpaces rest | none
    let (json, rest) ← item (skipSpaces rest)
    let entries ← assign path key json entries
    match skipSpaces rest with
    | ',' :: rest => pairs? item fuel entries rest
    | '}' :: rest => return (entries, rest)
    | _ => none

/-- A value in which at most `depth` arrays and inline tables nest. -/
def value? : Nat → List Char → Option (Json × List Char)
  | depth, text =>
    match text with
    | '"' :: _ | '\x27' :: _ => (string? text).map fun (s, rest) => (.string s, rest)
    | '[' :: rest =>
      match depth with
      | 0 => none
      | depth + 1 =>
        (items? (value? depth) (rest.length + 1) rest).map
          fun (items, rest) => (.array items, rest)
    | '{' :: rest =>
      match depth with
      | 0 => none
      | depth + 1 =>
        match skipSpaces rest with
        | '}' :: rest => some (.object [], rest)
        | rest =>
          (pairs? (value? depth) (rest.length + 1) [] rest).map
            fun (entries, rest) => (.object (entriesToJson entries), rest)
    | _ => scalar? text

/-! ## Lines -/

structure Progress where
  root : Entries
  header : List String

/-- What follows a header or a value on its line: nothing but a comment. -/
def lineEnd? (text : List Char) : Option (List Char) :=
  match skipComment (skipSpaces text) with
  | [] => some []
  | rest => newline? rest

/-- A header with one or two brackets, after the opening ones. -/
def header? (text : List Char) : Option (List String × String × List Char) :=
  key? (skipSpaces text)

def line? (progress : Progress) (text : List Char) : Option (Progress × List Char) :=
  match skipSpaces text with
  | '[' :: '[' :: rest => do
    let (path, key, rest) ← header? rest
    let (']' :: ']' :: rest) := skipSpaces rest | none
    let rest ← lineEnd? rest
    let root ← openNext path key progress.root
    return (⟨root, path ++ [key]⟩, rest)
  | '[' :: rest => do
    let (path, key, rest) ← header? rest
    let (']' :: rest) := skipSpaces rest | none
    let rest ← lineEnd? rest
    let root ← openTable path key progress.root
    return (⟨root, path ++ [key]⟩, rest)
  | text =>
    match lineEnd? text with
    | some rest => some (progress, rest)
    | none => do
      let (path, key, rest) ← key? text
      let ('=' :: rest) := skipSpaces rest | none
      let (json, rest) ← value? depthLimit (skipSpaces rest)
      let rest ← lineEnd? rest
      let root ← assignUnder progress.header path key json progress.root
      return (⟨root, progress.header⟩, rest)

def lines (progress : Progress) : Nat → List Char → Option Progress
  | _, [] => some progress
  | 0, _ => none
  | fuel + 1, text => do
    let (progress, rest) ← line? progress text
    lines progress fuel rest

/-- The document of a text. A byte order mark may stand before it. -/
def parse (text : String) : Option Json :=
  let chars := match text.toList with
    | '\ufeff' :: rest => rest
    | chars => chars
  (lines ⟨[], []⟩ (chars.length + 1) chars).map fun progress =>
    .object (entriesToJson progress.root)

end ManifestGate.Toml
