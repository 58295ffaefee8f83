import ManifestGate.Manifest.Call

/-!
# Templates

A document in a position that is filled in at run time is read as a template: texts that start with
`#` are references, texts below the root are capability paths, objects with the key `call` are
calls, and all else stands for itself. Checking, evaluating and counting calls all go by the same
template, so they agree on what is symbolic.
-/

namespace ManifestGate

inductive Symbol where
  | reference (reference : String)
  | capability (path : String)
  | plain (text : String)

def Symbol.ofText (root text : String) : Symbol :=
  match Path.after? "#" text with
  | some rest => .reference rest
  | none => if Path.head text = root then .capability text else .plain text

inductive Spread where
  | reference (reference : String)
  | capability (path : String)
  | invalid (spread : BadSpread)

def Spread.ofText (root : String) (kind : SpreadKind) (text : String) : Spread :=
  match Path.after? "#" text with
  | some rest => .reference rest
  | none =>
    match Path.after? kind.mark text with
    | some path => if Path.head path = root then .capability path else .invalid ⟨text, kind, root⟩
    | none => .invalid ⟨text, kind, root⟩

inductive CallTarget where
  | capability (path : String)
  | method (reference name : String)
  | unknown

/-- A text that is no capability path is a reference, with or without a leading `#`, and a method
behind its last dot. -/
def CallTarget.ofText (root text : String) : CallTarget :=
  if Path.head text = root then .capability text
  else
    match Path.splitLast? ((Path.after? "#" text).getD text) with
    | some (object, name) => .method object name
    | none => .unknown

mutual

inductive Template where
  | literal (value : Value)
  | reference (reference : String)
  | capability (path : String)
  | list (items : List Template)
  | map (entries : List (String × Template))
  | call (target : String) (positional : Positional) (keyword : Keyword) (ensure : Option Ensure)
  /-- An object with the key `call` that is no call mapping. -/
  | malformed (cause : CompileError)

inductive Positional where
  | items (items : List Template)
  | spread (text : String) (spread : Spread)
  | invalid (raw : Json)

inductive Keyword where
  | entries (entries : List (String × Template))
  | spread (text : String) (spread : Spread)
  | invalid (raw : Json)

end

mutual

/-- The template of a document, for capabilities below `root`. -/
def Template.ofJson (root : String) : Json → Template
  | .null => .literal .null
  | .bool b => .literal (.bool b)
  | .number n => .literal (.number n)
  | .string text =>
    match Symbol.ofText root text with
    | .reference name => .reference name
    | .capability path => .capability path
    | .plain text => .literal (.string text)
  | .array items => .list (Template.ofItems root items)
  | .object entries =>
    if Dict.contains entries "call" then
      match CallSpec.readHead entries with
      | .ok (target, ensure) =>
        .call target (Positional.ofEntries root entries) (Keyword.ofEntries root entries) ensure
      | .error cause => .malformed cause
    else .map (Template.ofEntries root entries)

def Template.ofItems (root : String) : List Json → List Template
  | [] => []
  | item :: rest => Template.ofJson root item :: Template.ofItems root rest

def Template.ofEntries (root : String) : List (String × Json) → List (String × Template)
  | [] => []
  | (key, json) :: rest => (key, Template.ofJson root json) :: Template.ofEntries root rest

def Positional.ofJson (root : String) : Json → Positional
  | .null => .items []
  | .array items => .items (Template.ofItems root items)
  | .string text => .spread text (Spread.ofText root .positional text)
  | raw => .invalid raw

/-- The positional arguments among the entries of a call mapping. -/
def Positional.ofEntries (root : String) : List (String × Json) → Positional
  | [] => .items []
  | (key, json) :: rest =>
    if key = "args" then Positional.ofJson root json else Positional.ofEntries root rest

def Keyword.ofJson (root : String) : Json → Keyword
  | .null => .entries []
  | .object entries => .entries (Template.ofEntries root entries)
  | .string text => .spread text (Spread.ofText root .keyword text)
  | raw => .invalid raw

/-- The keyword arguments among the entries of a call mapping. -/
def Keyword.ofEntries (root : String) : List (String × Json) → Keyword
  | [] => .entries []
  | (key, json) :: rest =>
    if key = "kwargs" then Keyword.ofJson root json else Keyword.ofEntries root rest

end

def CallSpec.template (root : String) (spec : CallSpec) : Template :=
  .call spec.call (Positional.ofJson root spec.args) (Keyword.ofJson root spec.kwargs) spec.ensure

theorem Positional.ofEntries_eq (root : String) (entries : List (String × Json)) :
    Positional.ofEntries root entries
      = Positional.ofJson root ((Dict.get? entries "args").getD (.array [])) := by
  induction entries with
  | nil => simp [Positional.ofEntries, Positional.ofJson, Template.ofItems]
  | cons entry rest ih =>
    obtain ⟨key, json⟩ := entry
    by_cases same : key = "args" <;> simp [Positional.ofEntries, Dict.get?, same, ih]

theorem Keyword.ofEntries_eq (root : String) (entries : List (String × Json)) :
    Keyword.ofEntries root entries
      = Keyword.ofJson root ((Dict.get? entries "kwargs").getD (.object [])) := by
  induction entries with
  | nil => simp [Keyword.ofEntries, Keyword.ofJson, Template.ofEntries]
  | cons entry rest ih =>
    obtain ⟨key, json⟩ := entry
    by_cases same : key = "kwargs" <;> simp [Keyword.ofEntries, Dict.get?, same, ih]

/-- A call mapping is read as the template of the call that it spells. -/
theorem Template.ofJson_mapping {root : String} {json : Json} {spec : CallSpec}
    (mapping : CallSpec.isMapping json = true) (parsed : CallSpec.parse json = .ok spec) :
    Template.ofJson root json = spec.template root := by
  match json with
  | .object entries =>
    simp only [CallSpec.isMapping] at mapping
    simp only [CallSpec.parse] at parsed
    cases head : CallSpec.readHead entries with
    | error cause => simp [head, bind, Except.bind] at parsed
    | ok found =>
      obtain ⟨target, ensure⟩ := found
      simp only [head, bind, Except.bind, pure, Except.pure, Except.ok.injEq] at parsed
      subst parsed
      simp [Template.ofJson, mapping, head, CallSpec.template, Positional.ofEntries_eq,
        Keyword.ofEntries_eq]
  | .null | .bool _ | .number _ | .string _ | .array _ => simp [CallSpec.isMapping] at mapping

end ManifestGate
