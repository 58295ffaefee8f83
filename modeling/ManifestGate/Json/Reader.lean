import ManifestGate.Json.Basic

/-!
# Reading documents

The reader takes exactly the texts of the JSON grammar whose containers nest less than 128 deep and
whose numbers a double can hold. `Json.read` keeps entries as they stand in the text, `Json.parse`
gives the canonical document.
-/

namespace ManifestGate.Json

inductive ReadError where
  | unfinished
  | unexpected (c : Char)
  | number
  | escape
  | nesting
  | trailing (c : Char)
  deriving DecidableEq

def ReadError.message : ReadError → String
  | .unfinished => "the text ends too early"
  | .unexpected c => "unexpected character " ++ String.singleton c
  | .number => "number out of range"
  | .escape => "invalid escape"
  | .nesting => "too many nested containers"
  | .trailing c => "unexpected character " ++ String.singleton c ++ " after the document"

def isBlank (c : Char) : Bool :=
  c = ' ' || c = '\n' || c = '\t' || c = '\r'

def skipBlanks (text : List Char) : List Char :=
  text.dropWhile isBlank

/-- The failure at the head of the remaining text. -/
def failAt : List Char → Except ReadError (α × List Char)
  | [] => .error .unfinished
  | c :: _ => .error (.unexpected c)

/-- Takes the given characters and no others. -/
def expect (value : α) : List Char → List Char → Except ReadError (α × List Char)
  | [], text => .ok (value, text)
  | c :: more, d :: text => if c = d then expect value more text else .error (.unexpected d)
  | _ :: _, [] => .error .unfinished

/-! ## Numbers -/

/-- The greatest significand that digits are gathered into: 64 bits, all set. -/
def greatestSignificand : Nat := 18446744073709551615

def digitValue (c : Char) : Nat :=
  c.toNat - '0'.toNat

/-- Appends digits to the significand while it stays in range; also the number of digits left out. -/
def gather (significand : Nat) : List Char → Nat × Nat
  | [] => (significand, 0)
  | c :: rest =>
    let next := significand * 10 + digitValue c
    if greatestSignificand < next then (significand, rest.length + 1) else gather next rest

/-- Scales by a power of ten. A step divides by at most `10 ^ 308`; a result beyond the format
is refused. -/
def scale (x : Double) (power : Int) : Nat → Option Double
  | 0 => some x
  | steps + 1 =>
    if power.natAbs ≤ 308 then
      if 0 ≤ power then
        let product := x.mul (Double.ofDecimal false 1 power)
        if product.isFinite then some product else none
      else some (x.div (Double.ofDecimal false 1 (-power)))
    else if x.significand = 0 then some x
    else if 0 ≤ power then none
    else scale (x.div (Double.ofDecimal false 1 308)) (power + 308) steps

structure Numeral where
  negative : Bool
  whole : List Char
  fractional : Option (List Char)
  power : Option Int

/-- The double of a numeral: the leading digits as a whole number, then scaled. -/
def Numeral.double? (n : Numeral) : Option Double :=
  let (whole, omitted) := gather 0 n.whole
  let fractional := n.fractional.getD []
  let (significand, unread) := gather whole fractional
  let power : Int := omitted - (fractional.length - unread : Nat) + n.power.getD 0
  (scale (Double.nearest false significand 1) power 4).map fun x =>
    if n.negative then x.neg else x

/-- Whole numbers in range stay whole, except for a negative zero. -/
def Numeral.value? (n : Numeral) : Option Number :=
  match n.fractional, n.power with
  | none, none =>
    let magnitude := n.whole.foldl (fun m c => m * 10 + digitValue c) 0
    let value : Int := if n.negative then -(magnitude : Int) else magnitude
    if n.negative ∧ magnitude = 0 then some (.double (Double.zero true))
    else if Number.InRange value then some (.integer value)
    else n.double?.map .double
  | _, _ => n.double?.map .double

def digits1 (text : List Char) : Except ReadError (List Char × List Char) :=
  match text.span Char.isDigit with
  | ([], rest) => failAt rest
  | (found, rest) => .ok (found, rest)

/-- The whole part: a zero alone or digits that do not start with a zero. -/
def readWhole : List Char → Except ReadError (List Char × List Char)
  | '0' :: c :: rest => if c.isDigit then .error (.unexpected c) else .ok (['0'], c :: rest)
  | text => digits1 text

def readFraction : List Char → Except ReadError (Option (List Char) × List Char)
  | '.' :: rest => (digits1 rest).map fun (found, rest) => (some found, rest)
  | text => .ok (none, text)

def readPower : List Char → Except ReadError (Option Int × List Char)
  | c :: rest =>
    if c = 'e' ∨ c = 'E' then
      let (negative, text) := match rest with
        | '-' :: more => (true, more)
        | '+' :: more => (false, more)
        | more => (false, more)
      (digits1 text).map fun (found, rest) =>
        let magnitude := found.foldl (fun m c => m * 10 + digitValue c) 0
        (some (if negative then -(magnitude : Int) else magnitude), rest)
    else .ok (none, c :: rest)
  | [] => .ok (none, [])

def readNumber (text : List Char) : Except ReadError (Json × List Char) := do
  let (negative, text) := match text with
    | '-' :: rest => (true, rest)
    | _ => (false, text)
  let (whole, text) ← readWhole text
  let (fractional, text) ← readFraction text
  let (power, text) ← readPower text
  match Numeral.value? ⟨negative, whole, fractional, power⟩ with
  | some n => .ok (.number n, text)
  | none => .error .number

/-! ## Strings -/

def hexValue? (c : Char) : Option Nat :=
  if c.isDigit then some (c.toNat - '0'.toNat)
  else if 'a' ≤ c ∧ c ≤ 'f' then some (c.toNat - 'a'.toNat + 10)
  else if 'A' ≤ c ∧ c ≤ 'F' then some (c.toNat - 'A'.toNat + 10)
  else none

def readUnit : List Char → Except ReadError (Nat × List Char)
  | a :: b :: c :: d :: rest =>
    match hexValue? a, hexValue? b, hexValue? c, hexValue? d with
    | some a, some b, some c, some d => .ok (((a * 16 + b) * 16 + c) * 16 + d, rest)
    | _, _, _, _ => .error .escape
  | _ => .error .unfinished

/-- The character of an escape, after the backslash. Surrogates come in pairs only. -/
def readEscape : List Char → Except ReadError (Char × List Char)
  | '"' :: rest => .ok ('"', rest)
  | '\\' :: rest => .ok ('\\', rest)
  | '/' :: rest => .ok ('/', rest)
  | 'b' :: rest => .ok ('\x08', rest)
  | 'f' :: rest => .ok ('\x0c', rest)
  | 'n' :: rest => .ok ('\n', rest)
  | 'r' :: rest => .ok ('\r', rest)
  | 't' :: rest => .ok ('\t', rest)
  | 'u' :: rest => do
    let (first, rest) ← readUnit rest
    if 0xD800 ≤ first ∧ first < 0xDC00 then
      match rest with
      | '\\' :: 'u' :: rest => do
        let (second, rest) ← readUnit rest
        if 0xDC00 ≤ second ∧ second < 0xE000 then
          .ok (Char.ofNat (0x10000 + (first - 0xD800) * 0x400 + (second - 0xDC00)), rest)
        else .error .escape
      | _ => .error .escape
    else if 0xDC00 ≤ first ∧ first < 0xE000 then .error .escape
    else .ok (Char.ofNat first, rest)
  | [] => .error .unfinished
  | _ => .error .escape

/-- The characters up to the closing quote, which is taken too. The fuel bounds their number. -/
def readCharacters : Nat → List Char → Except ReadError (List Char × List Char)
  | 0, _ => .error .unfinished
  | _, [] => .error .unfinished
  | fuel + 1, c :: rest =>
    if c = '"' then .ok ([], rest)
    else if c = '\\' then do
      let (found, rest) ← readEscape rest
      let (more, rest) ← readCharacters fuel rest
      .ok (found :: more, rest)
    else if c.toNat < 32 then .error (.unexpected c)
    else do
      let (more, rest) ← readCharacters fuel rest
      .ok (c :: more, rest)

/-- The text of a string, after the opening quote. -/
def readString (text : List Char) : Except ReadError (String × List Char) :=
  (readCharacters (text.length + 1) text).map fun (found, rest) => (String.ofList found, rest)

/-! ## Containers -/

/-- Items up to the closing bracket, which is taken too; there is at least one. -/
def readItems (item : List Char → Except ReadError (Json × List Char)) :
    Nat → List Char → Except ReadError (List Json × List Char)
  | 0, _ => .error .unfinished
  | fuel + 1, text => do
    let (first, rest) ← item text
    match skipBlanks rest with
    | ',' :: rest => do
      let (more, rest) ← readItems item fuel rest
      .ok (first :: more, rest)
    | ']' :: rest => .ok ([first], rest)
    | rest => failAt rest

/-- Entries up to the closing brace, which is taken too; there is at least one. -/
def readEntries (item : List Char → Except ReadError (Json × List Char)) :
    Nat → List Char → Except ReadError (List (String × Json) × List Char)
  | 0, _ => .error .unfinished
  | fuel + 1, text =>
    match skipBlanks text with
    | '"' :: rest => do
      let (key, rest) ← readString rest
      match skipBlanks rest with
      | ':' :: rest => do
        let (value, rest) ← item rest
        match skipBlanks rest with
        | ',' :: rest => do
          let (more, rest) ← readEntries item fuel rest
          .ok ((key, value) :: more, rest)
        | '}' :: rest => .ok ([(key, value)], rest)
        | rest => failAt rest
      | rest => failAt rest
    | rest => failAt rest

/-- A document in which at most `depth` containers nest. -/
def readValue : Nat → List Char → Except ReadError (Json × List Char)
  | depth, text =>
    match skipBlanks text with
    | 'n' :: rest => expect .null "ull".toList rest
    | 't' :: rest => expect (.bool true) "rue".toList rest
    | 'f' :: rest => expect (.bool false) "alse".toList rest
    | '"' :: rest => (readString rest).map fun (found, rest) => (.string found, rest)
    | '[' :: rest =>
      match depth with
      | 0 => .error .nesting
      | depth + 1 =>
        match skipBlanks rest with
        | ']' :: rest => .ok (.array [], rest)
        | rest => (readItems (readValue depth) (rest.length + 1) rest).map
            fun (items, rest) => (.array items, rest)
    | '{' :: rest =>
      match depth with
      | 0 => .error .nesting
      | depth + 1 =>
        match skipBlanks rest with
        | '}' :: rest => .ok (.object [], rest)
        | rest => (readEntries (readValue depth) (rest.length + 1) rest).map
            fun (entries, rest) => (.object entries, rest)
    | c :: rest =>
      if c = '-' ∨ c.isDigit then readNumber (c :: rest) else .error (.unexpected c)
    | [] => .error .unfinished

/-- One more than the deepest nesting of containers that is read. -/
def nestingLimit : Nat := 128

/-- The document of a text, its entries as they stand. -/
def read (text : String) : Except ReadError Json := do
  let (json, rest) ← readValue (nestingLimit - 1) text.toList
  match skipBlanks rest with
  | [] => .ok json
  | c :: _ => .error (.trailing c)

def parse (text : String) : Except ReadError Json :=
  (read text).map canonical

end ManifestGate.Json
