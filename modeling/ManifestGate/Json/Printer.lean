import ManifestGate.Json.Basic

/-!
# Texts of documents

The compact text has no blanks. The pretty text has one item on a line, two blanks of indentation
for each container, and empty containers closed at once. Entries are printed as they stand.
-/

namespace ManifestGate.Json

/-- The two lower-case hexadecimal digits of a control character. -/
def hexPair (n : Nat) : String :=
  String.ofList [Nat.digitChar (n / 16), Nat.digitChar (n % 16)]

/-- How a character stands inside quotes: only quotes, backslashes and control characters below the
blank are escaped. -/
def escape (c : Char) : String :=
  if c = '"' then "\\\""
  else if c = '\\' then "\\\\"
  else if c = '\x08' then "\\b"
  else if c = '\x0c' then "\\f"
  else if c = '\n' then "\\n"
  else if c = '\r' then "\\r"
  else if c = '\t' then "\\t"
  else if c.toNat < 32 then "\\u00" ++ hexPair c.toNat
  else String.singleton c

def quoted (text : String) : String :=
  "\"" ++ String.join (text.toList.map escape) ++ "\""

mutual

def compact : Json → String
  | .null => "null"
  | .bool true => "true"
  | .bool false => "false"
  | .number n => n.toText
  | .string text => quoted text
  | .array items => "[" ++ compactItems items ++ "]"
  | .object entries => "\x7b" ++ compactEntries entries ++ "\x7d"

def compactItems : List Json → String
  | [] => ""
  | [item] => item.compact
  | item :: rest => item.compact ++ "," ++ compactItems rest

def compactEntries : List (String × Json) → String
  | [] => ""
  | [(key, value)] => quoted key ++ ":" ++ value.compact
  | (key, value) :: rest => quoted key ++ ":" ++ value.compact ++ "," ++ compactEntries rest

end

def line (depth : Nat) : String :=
  "\n" ++ String.ofList (List.replicate (2 * depth) ' ')

mutual

/-- The pretty text of a document that stands inside `depth` containers. -/
def prettyAt (depth : Nat) : Json → String
  | .array [] => "[]"
  | .array items => "[" ++ prettyItems (depth + 1) items ++ line depth ++ "]"
  | .object [] => "\x7b\x7d"
  | .object entries => "\x7b" ++ prettyEntries (depth + 1) entries ++ line depth ++ "\x7d"
  | .null => "null"
  | .bool true => "true"
  | .bool false => "false"
  | .number n => n.toText
  | .string text => quoted text

def prettyItems (depth : Nat) : List Json → String
  | [] => ""
  | [item] => line depth ++ prettyAt depth item
  | item :: rest => line depth ++ prettyAt depth item ++ "," ++ prettyItems depth rest

def prettyEntries (depth : Nat) : List (String × Json) → String
  | [] => ""
  | [(key, value)] => line depth ++ quoted key ++ ": " ++ prettyAt depth value
  | (key, value) :: rest =>
    line depth ++ quoted key ++ ": " ++ prettyAt depth value ++ "," ++ prettyEntries depth rest

end

def pretty (json : Json) : String :=
  prettyAt 0 json

end ManifestGate.Json
