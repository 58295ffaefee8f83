import ManifestGate.Proofs.Manifest.Avoidance
import ManifestGate.Proofs.Manifest.Blocks

/-!
# Manifests that list, filter and show

The manifests of handlers that list objects: one variable holds what a listing capability answers,
another what a filter leaves of it, and the response shows the filtered list. Nothing but the filter
reads the first variable.
-/

namespace ManifestGate

variable {σ : Type}

/-! ## Documents that read one object -/

mutual

/-- No call mapping stands in the document, and its symbols lead to one object or below it. -/
def Json.ReadsOnly (root name : String) : Json → Prop
  | .null | .bool _ | .number _ => True
  | .string text =>
    (∃ plain, Symbol.ofText root text = .plain plain) ∨ text = "#" ++ name ∨
      ∃ suffix, text = "#" ++ (name ++ "." ++ suffix)
  | .array items => Json.ItemsReadOnly root name items
  | .object entries => Dict.contains entries "call" = false ∧ Json.EntriesReadOnly root name entries

def Json.ItemsReadOnly (root name : String) : List Json → Prop
  | [] => True
  | item :: rest => item.ReadsOnly root name ∧ Json.ItemsReadOnly root name rest

def Json.EntriesReadOnly (root name : String) : List (String × Json) → Prop
  | [] => True
  | (_, json) :: rest => json.ReadsOnly root name ∧ Json.EntriesReadOnly root name rest

end

theorem Symbol.ofText_reference (root name : String) :
    ofText root ("#" ++ name) = .reference name := by
  rw [ofText, Path.after?_append]

section

variable {root path name : String} {keys : List String}

mutual

/-- A document that reads one object keeps clear of all others and of every capability. -/
theorem Json.ReadsOnly.avoids (noDot : '.' ∉ name.toList) (clear : name ∉ keys) :
    ∀ json : Json, json.ReadsOnly root name → (Template.ofJson root json).Avoids root path keys
  | .null, _ => trivial
  | .bool _, _ => trivial
  | .number _, _ => trivial
  | .string text, reads => by
    rcases reads with ⟨plain, isPlain⟩ | rfl | ⟨suffix, rfl⟩
    · simp only [Template.ofJson, isPlain, Template.Avoids]
    · simp only [Template.ofJson, Symbol.ofText_reference, Template.Avoids]
      rwa [Path.head_of_no_dot noDot]
    · simp only [Template.ofJson, Symbol.ofText_reference, Template.Avoids]
      rwa [Path.head_below noDot]
  | .array items, reads => Json.ItemsReadOnly.avoids noDot clear items reads
  | .object entries, ⟨noCall, reads⟩ => by
    rw [Template.ofJson, if_neg (by simp [noCall])]
    exact Json.EntriesReadOnly.avoids noDot clear entries reads

theorem Json.ItemsReadOnly.avoids (noDot : '.' ∉ name.toList) (clear : name ∉ keys) :
    ∀ items : List Json, Json.ItemsReadOnly root name items →
      Template.AvoidsItems root path keys (Template.ofItems root items)
  | [], _ => trivial
  | item :: rest, ⟨reads, readsRest⟩ =>
    ⟨Json.ReadsOnly.avoids noDot clear item reads,
      Json.ItemsReadOnly.avoids noDot clear rest readsRest⟩

theorem Json.EntriesReadOnly.avoids (noDot : '.' ∉ name.toList) (clear : name ∉ keys) :
    ∀ entries : List (String × Json), Json.EntriesReadOnly root name entries →
      Template.AvoidsEntries root path keys (Template.ofEntries root entries)
  | [], _ => trivial
  | (_, json) :: rest, ⟨reads, readsRest⟩ =>
    ⟨Json.ReadsOnly.avoids noDot clear json reads,
      Json.EntriesReadOnly.avoids noDot clear rest readsRest⟩

end

end

/-! ## Paths below the root -/

theorem Path.after?_hash_of_isIdentifier {root : String} (identifier : isIdentifier root = true)
    (rest : String) : after? "#" (root ++ "." ++ rest) = none := by
  have noHash : '#' ∉ root.toList := notMem_of_isIdentifier identifier (by decide)
  cases letters : root.toList with
  | nil => simp [after?, String.toList_append, letters]
  | cons first more =>
    have different : '#' ≠ first := by
      rintro rfl
      simp [letters] at noHash
    simp [after?, String.toList_append, letters, different]

theorem Symbol.ofText_below {root : String} (identifier : isIdentifier root = true)
    (rest : String) : ofText root (root ++ "." ++ rest) = .capability (root ++ "." ++ rest) := by
  rw [ofText, Path.after?_hash_of_isIdentifier identifier]
  dsimp only
  rw [if_pos (Path.head_below (no_dot_of_isIdentifier identifier) rest)]

theorem CallTarget.ofText_below {root : String} (identifier : isIdentifier root = true)
    (rest : String) :
    ofText root (root ++ "." ++ rest) = .capability (root ++ "." ++ rest) := by
  rw [ofText, if_pos (Path.head_below (no_dot_of_isIdentifier identifier) rest)]

/-! ## Manifests -/

/-- Where the filter of object lists stands below the root. -/
def Authorization.objectsPath : String := "AUTH.ACL.objects"

/-- The value of a variable calls the capability at `path`, by the path itself or by a mapping with
the given clause. The arguments of the mapping keep clear of that capability. -/
inductive CallsFor (root path : String) : Option Ensure → Json → Prop where
  | path : CallsFor root path none (.string path)
  | mapping {value : Json} {spec : CallSpec} :
      CallSpec.parse value = .ok spec → spec.call = path →
      (Positional.ofJson root spec.args).Avoids root path [] →
      (Keyword.ofJson root spec.kwargs).Avoids root path [] →
      CallsFor root path spec.ensure value

/-- The call that filters the value of the variable `a`. -/
def filterCall (root a : String) (clause : Option Ensure) : CallSpec where
  call := root ++ "." ++ Authorization.objectsPath
  args := .array [.string ("#" ++ a)]
  kwargs := .object []
  ensure := clause

/-- One variable calls the capability at `path`, another filters the value of the first, and the
response reads the second alone. -/
inductive ShowsFiltered (root path : String) (clause : Option Ensure) : Json → Prop where
  | intro {a b : String} {listing filtering response : Json} {filterClause : Option Ensure} :
      CallsFor root path clause listing →
      CallSpec.parse filtering = .ok (filterCall root a filterClause) →
      response.ReadsOnly root b →
      ShowsFiltered root path clause (.array [.object [("var#" ++ a, listing)],
        .object [("var#" ++ b, filtering)], .object [(responseKey, response)]])

/-- The name of a variable: without dots, and none of the reserved ones. -/
structure NamesVariable (name : String) : Prop where
  noDot : '.' ∉ name.toList
  notData : name ≠ dataKey
  notResponse : name ≠ responseKey

theorem namesVariable_of_free {name : String} (valid : isBlockName name = true)
    (free : name ∉ reservedNames) : NamesVariable name where
  noDot := isBlockName_no_dot valid
  notData same := free (by simp [reservedNames, same])
  notResponse same := free (by simp [reservedNames, same])

/-- After a variable its name leads to its value. -/
theorem NamesVariable.resolve_settle {key : String} (names : NamesVariable key)
    (outcome : Engine.Outcome) (context : Context) :
    (outcome.settle context key).resolve key = .ok outcome.value := by
  simp only [Context.resolve, Path.head_of_no_dot names.noDot, Path.segments_of_no_dot names.noDot,
    names.notData, if_false, Engine.Outcome.settle, Dict.get?_insert_self, List.tail_cons,
    Value.walk, Except.mapError]

/-- The objects of a manifest that shows a filtered list. -/
inductive ShowsFiltered.Objects (registry : Registry σ) (root path : String)
    (clause : Option Ensure) : List CompiledObject → Prop where
  | intro {a b : String} {listing response : Json} {known : CompiledManifest}
      {source : VariableSource} {filterClause : Option Ensure} :
      NamesVariable a → NamesVariable b → a ≠ b →
      CallsFor root path clause listing → compileSource registry known listing = .ok source →
      response.ReadsOnly root b →
      Objects registry root path clause
        [.var a source, .var b (.call (filterCall root a filterClause)), .response response]

theorem ShowsFiltered.objects {root path : String} {clause : Option Ensure} {manifest : Json}
    {registry : Registry σ} {compiled : CompiledManifest}
    (shows : ShowsFiltered root path clause manifest)
    (accepted : compile registry manifest = .ok compiled) :
    Objects registry root path clause compiled.objects := by
  obtain ⟨calls, filters, reads⟩ := shows
  have items := compile_items accepted
  have distinct := compiled.distinct
  generalize compiled.objects = objects at items distinct ⊢
  obtain _ | ⟨first, items⟩ := items
  obtain _ | ⟨second, items⟩ := items
  obtain _ | ⟨third, items⟩ := items
  cases items
  obtain ⟨valid, free, known, source, compiledSource, rfl⟩ := first.var
  obtain ⟨validOther, freeOther, _, otherSource, compiledOther, rfl⟩ := second.var
  obtain rfl := third.response
  rw [compileSource_call filters compiledOther] at distinct ⊢
  refine .intro (namesVariable_of_free valid free) (namesVariable_of_free validOther freeOther) ?_
    calls compiledSource reads
  rintro rfl
  simp [CompiledObject.key] at distinct

end ManifestGate
