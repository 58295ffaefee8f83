import ManifestGate.Json.Reader

/-!
# Keys and single values of TOML

Strings in their four forms, numbers, booleans, dates and times. Readers take some text and leave
the rest; they answer `none` where the text is not of their form.
-/

namespace ManifestGate.Toml

def isSpace (c : Char) : Bool :=
  c = ' ' || c = '\t'

def skipSpaces (text : List Char) : List Char :=
  text.dropWhile isSpace

/-- Characters that may stand in comments and, up to the delimiters, in strings. -/
def isText (c : Char) : Bool :=
  c = '\t' || (32 ≤ c.toNat && c ≠ '\x7f')

/-- Takes a line feed, perhaps after a carriage return. -/
def newline? : List Char → Option (List Char)
  | '\n' :: rest => some rest
  | '\r' :: '\n' :: rest => some rest
  | _ => none

def skipComment : List Char → List Char
  | '#' :: rest => rest.dropWhile isText
  | text => text

/-! ## Strings -/

def hexChar? (digits : List Char) : Option Char := do
  let values ← digits.mapM Json.hexValue?
  let code := values.foldl (fun n d => n * 16 + d) 0
  if code < 0xD800 ∨ (0xDFFF < code ∧ code < 0x110000) then some (Char.ofNat code) else none

/-- The character of an escape, after the backslash. -/
def escape? : List Char → Option (Char × List Char)
  | 'b' :: rest => some ('\x08', rest)
  | 't' :: rest => some ('\t', rest)
  | 'n' :: rest => some ('\n', rest)
  | 'f' :: rest => some ('\x0c', rest)
  | 'r' :: rest => some ('\r', rest)
  | '"' :: rest => some ('"', rest)
  | '\\' :: rest => some ('\\', rest)
  | 'u' :: rest =>
    if rest.length < 4 then none else (hexChar? (rest.take 4)).map fun c => (c, rest.drop 4)
  | 'U' :: rest =>
    if rest.length < 8 then none else (hexChar? (rest.take 8)).map fun c => (c, rest.drop 8)
  | _ => none

def basic? : Nat → List Char → Option (List Char × List Char)
  | 0, _ => none
  | _, [] => none
  | fuel + 1, c :: rest =>
    if c = '"' then some ([], rest)
    else if c = '\\' then do
      let (found, rest) ← escape? rest
      let (more, rest) ← basic? fuel rest
      return (found :: more, rest)
    else if isText c then do
      let (more, rest) ← basic? fuel rest
      return (c :: more, rest)
    else none

def literal? (text : List Char) : Option (List Char × List Char) :=
  match text.span fun c => isText c && c ≠ '\x27' with
  | (found, '\x27' :: rest) => some (found, rest)
  | _ => none

/-- A run of quotes in or at the end of a string of several lines. Three quotes close it, and up to
two more before them belong to it. -/
def closing? (quote : Char) (text : List Char) : Option (List Char × List Char) :=
  let run := (text.takeWhile (· = quote)).length
  if run < 3 ∨ 5 < run then none else some (List.replicate (run - 3) quote, text.drop run)

/-- Blanks and line ends after a backslash at the end of a line. -/
def skipFolded : Nat → List Char → List Char
  | 0, text => text
  | fuel + 1, text =>
    let text := skipSpaces text
    match newline? text with
    | some rest => skipFolded fuel rest
    | none => text

/-- The characters of a string of several lines, after its opening quotes. -/
def lines? (quote : Char) (escapes : Bool) : Nat → List Char → Option (List Char × List Char)
  | 0, _ => none
  | _, [] => none
  | fuel + 1, c :: rest =>
    if c = quote then
      match closing? quote (c :: rest) with
      | some found => some found
      | none =>
        if (rest.takeWhile (· = quote)).length < 2 then do
          let (more, rest) ← lines? quote escapes fuel rest
          return (c :: more, rest)
        else none
    else if escapes && c = '\\' then
      match newline? (skipSpaces rest) with
      | some folded => lines? quote escapes fuel (skipFolded (folded.length + 1) folded)
      | none => do
        let (found, rest) ← escape? rest
        let (more, rest) ← lines? quote escapes fuel rest
        return (found :: more, rest)
    else
      match newline? (c :: rest) with
      | some rest => do
        let (more, rest) ← lines? quote escapes fuel rest
        return ('\n' :: more, rest)
      | none =>
        if isText c then do
          let (more, rest) ← lines? quote escapes fuel rest
          return (c :: more, rest)
        else none

/-- A line end right after the opening quotes does not count. -/
def skipFirstLine (text : List Char) : List Char :=
  (newline? text).getD text

def simpleString? : List Char → Option (String × List Char)
  | '"' :: rest => (basic? (rest.length + 1) rest).map fun (s, rest) => (String.ofList s, rest)
  | '\x27' :: rest => (literal? rest).map fun (s, rest) => (String.ofList s, rest)
  | _ => none

def string? : List Char → Option (String × List Char)
  | '"' :: '"' :: '"' :: rest =>
    (lines? '"' true (rest.length + 1) (skipFirstLine rest)).map
      fun (s, rest) => (String.ofList s, rest)
  | '\x27' :: '\x27' :: '\x27' :: rest =>
    (lines? '\x27' false (rest.length + 1) (skipFirstLine rest)).map
      fun (s, rest) => (String.ofList s, rest)
  | text => simpleString? text

/-! ## Keys -/

def isBare (c : Char) : Bool :=
  c.isAlphanum || c = '_' || c = '-'

def simpleKey? (text : List Char) : Option (String × List Char) :=
  match text.span isBare with
  | ([], _) => simpleString? text
  | (found, rest) => some (String.ofList found, rest)

/-- Keys with a dot between each two. -/
def dottedKey? : Nat → List Char → Option (List String × List Char)
  | 0, _ => none
  | fuel + 1, text => do
    let (key, rest) ← simpleKey? text
    match skipSpaces rest with
    | '.' :: rest => do
      let (more, rest) ← dottedKey? fuel (skipSpaces rest)
      return (key :: more, rest)
    | rest => return ([key], rest)

/-! ## Numbers -/

/-- Digits with single underscores between them; the underscores are left out. -/
def digits? (isDigit : Char → Bool) : List Char → Option (List Char)
  | [] => none
  | [c] => if isDigit c then some [c] else none
  | c :: '_' :: rest => if isDigit c then (digits? isDigit rest).map (c :: ·) else none
  | c :: rest => if isDigit c then (digits? isDigit rest).map (c :: ·) else none

def valueOf (base : Nat) (digits : List Char) : Nat :=
  digits.foldl (fun n c => n * base + (Json.hexValue? c).getD 0) 0

def signed : List Char → Bool × List Char
  | '-' :: rest => (true, rest)
  | '+' :: rest => (false, rest)
  | text => (false, text)

/-- The least and the greatest whole number of 64 bits with sign. -/
def wholeRange : Int × Int :=
  (-9223372036854775808, 9223372036854775807)

/-- A whole number of 64 bits with sign. -/
def bounded? (n : Int) : Option Json :=
  if wholeRange.1 ≤ n ∧ n ≤ wholeRange.2 then some (.number (.integer n)) else none

def whole? (text : List Char) : Option (List Char) := do
  let digits ← digits? Char.isDigit text
  match digits with
  | '0' :: _ :: _ => none
  | _ => some digits

def integer? (text : List Char) : Option Json :=
  match text with
  | '0' :: 'x' :: rest =>
    (digits? (fun c => (Json.hexValue? c).isSome) rest).bind fun d => bounded? (valueOf 16 d)
  | '0' :: 'o' :: rest =>
    (digits? (fun c => '0' ≤ c && c ≤ '7') rest).bind fun d => bounded? (valueOf 8 d)
  | '0' :: 'b' :: rest =>
    (digits? (fun c => c = '0' || c = '1') rest).bind fun d => bounded? (valueOf 2 d)
  | _ => do
    let (negative, rest) := signed text
    let digits ← whole? rest
    let magnitude := valueOf 10 digits
    bounded? (if negative then -(magnitude : Int) else magnitude)

/-- What stands for the numbers that no document can hold: beyond the format, or not a number. -/
def unbounded (negative : Bool) : Json :=
  .number (.double (Double.beyond negative))

/-- The nearest double. A number beyond the format is refused if positive. -/
def double? (negative : Bool) (digits : List Char) (power : Int) : Option Json :=
  let significand := valueOf 10 digits
  let leading : Int := power + digits.length
  let x :=
    if leading < -400 then Double.zero negative
    else if significand ≠ 0 ∧ power > 400 then Double.beyond negative
    else if significand = 0 then Double.zero negative
    else Double.ofDecimal negative significand power
  if x.isFinite then some (.number (.double x))
  else if negative then some (unbounded true)
  else none

/-- Whole part, fraction and exponent; at least one of the last two. -/
def float? (text : List Char) : Option Json := do
  let (negative, body) := signed text
  match body with
  | ['i', 'n', 'f'] => some (unbounded negative)
  | ['n', 'a', 'n'] => some (unbounded negative)
  | _ =>
    let (mantissa, exponent) := body.span fun c => c ≠ 'e' && c ≠ 'E'
    let (whole, fraction) := mantissa.span (· ≠ '.')
    let whole ← whole? whole
    let fraction ← match fraction with
      | [] => some []
      | _ :: digits => digits? Char.isDigit digits
    let power ← match exponent with
      | [] => some 0
      | _ :: rest =>
        let (below, digits) := signed rest
        (digits? Char.isDigit digits).map fun d =>
          if below then -(valueOf 10 d : Int) else (valueOf 10 d : Int)
    if mantissa.length = body.length ∧ fraction.isEmpty then none
    else double? negative (whole ++ fraction) (power - fraction.length)

/-! ## Dates and times -/

def fixed? (count : Nat) (text : List Char) : Option (Nat × List Char) :=
  let digits := text.take count
  if digits.length = count ∧ digits.all Char.isDigit then
    some (valueOf 10 digits, text.drop count)
  else none

def isLeapYear (year : Nat) : Bool :=
  year % 4 = 0 && (year % 100 ≠ 0 || year % 400 = 0)

def daysIn (year month : Nat) : Nat :=
  if month = 2 then (if isLeapYear year then 29 else 28)
  else if month = 4 ∨ month = 6 ∨ month = 9 ∨ month = 11 then 30
  else 31

def padded (count n : Nat) : List Char :=
  let digits := Nat.toDigits 10 n
  List.replicate (count - digits.length) '0' ++ digits

def date? (text : List Char) : Option (List Char × List Char) := do
  let (year, rest) ← fixed? 4 text
  let ('-' :: rest) := rest | none
  let (month, rest) ← fixed? 2 rest
  let ('-' :: rest) := rest | none
  let (day, rest) ← fixed? 2 rest
  if 1 ≤ month ∧ month ≤ 12 ∧ 1 ≤ day ∧ day ≤ daysIn year month then
    return (padded 4 year ++ '-' :: padded 2 month ++ '-' :: padded 2 day, rest)
  else none

/-- The fraction of a second: nine digits count, and zeros at the end do not. -/
def secondFraction (digits : List Char) : List Char :=
  let kept := ((digits.take 9).reverse.dropWhile (· = '0')).reverse
  if kept.isEmpty then [] else '.' :: kept

def time? (text : List Char) : Option (List Char × List Char) := do
  let (hour, rest) ← fixed? 2 text
  let (':' :: rest) := rest | none
  let (minute, rest) ← fixed? 2 rest
  let (':' :: rest) := rest | none
  let (second, rest) ← fixed? 2 rest
  if hour ≤ 23 ∧ minute ≤ 59 ∧ second ≤ 60 then
    let clock := padded 2 hour ++ ':' :: padded 2 minute ++ ':' :: padded 2 second
    match rest with
    | '.' :: rest =>
      match rest.span Char.isDigit with
      | ([], _) => none
      | (digits, rest) => return (clock ++ secondFraction digits, rest)
    | rest => return (clock, rest)
  else none

/-- The offset of a time in its normal form; nothing for a local time. -/
def offset? (text : List Char) : Option (List Char × List Char) :=
  let numeric (sign : Char) (rest : List Char) : Option (List Char × List Char) := do
    let (hour, rest) ← fixed? 2 rest
    let (':' :: rest) := rest | none
    let (minute, rest) ← fixed? 2 rest
    if hour ≤ 23 ∧ minute ≤ 59 then
      let sign := if hour = 0 ∧ minute = 0 then '+' else sign
      return (sign :: padded 2 hour ++ ':' :: padded 2 minute, rest)
    else none
  match text with
  | 'Z' :: rest | 'z' :: rest => some (['Z'], rest)
  | '+' :: rest => numeric '+' rest
  | '-' :: rest => numeric '-' rest
  | rest => some ([], rest)

def startsTime : List Char → Bool
  | a :: b :: ':' :: _ => a.isDigit && b.isDigit
  | _ => false

/-- The key under which a date or time stands in a document. -/
def dateTimeKey : String := "$__toml_private_datetime"

def dateTime? (text : List Char) : Option (Json × List Char) :=
  let wrap (found : List Char) : Json := .object [(dateTimeKey, .string (String.ofList found))]
  match date? text with
  | some (date, rest) =>
    let timed (rest : List Char) : Option (Json × List Char) := do
      let (time, rest) ← time? rest
      let (offset, rest) ← offset? rest
      return (wrap (date ++ 'T' :: time ++ offset), rest)
    match rest with
    | 'T' :: more | 't' :: more => timed more
    | ' ' :: more => if startsTime more then timed more else some (wrap date, rest)
    | _ => some (wrap date, rest)
  | none => (time? text).map fun (time, rest) => (wrap time, rest)

def isToken (c : Char) : Bool :=
  c.isAlphanum || c = '_' || c = '+' || c = '-' || c = '.'

def scalar? (text : List Char) : Option (Json × List Char) :=
  match dateTime? text with
  | some found => some found
  | none =>
    let (token, rest) := text.span isToken
    if token = "true".toList then some (.bool true, rest)
    else if token = "false".toList then some (.bool false, rest)
    else
      match integer? token with
      | some json => some (json, rest)
      | none => (float? token).map fun json => (json, rest)

end ManifestGate.Toml
