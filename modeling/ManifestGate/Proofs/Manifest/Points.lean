import ManifestGate.Proofs.Manifest.CallSites

/-!
# Points

The points of a manifest are all places at which a run can fail, in the order in which it comes to
them: where a value is asked for, with what is demanded of the value, and where something is wrong
by itself. They are read off the compiled manifest like the call sites, which are the points that
call something.
-/

namespace ManifestGate

variable {σ : Type}

/-- What is wrong with a place by itself, whatever a run has done before. -/
inductive Flaw where
  | malformed (cause : CompileError)
  | noMethod (call : String)
  | badSpread (spread : BadSpread)
  | badArguments (raw : Json)
  | badKeywords (raw : Json)
  /-- A field is lacking that is required and has no default. -/
  | missing (name : String)
  /-- The request data have a field that is not declared. -/
  | unsupported (name : String)

def Flaw.error : Flaw → ManifestError
  | .malformed cause => .compile cause
  | .noMethod call => .reference (.noMethod call)
  | .badSpread spread => .reference (.badSpread spread)
  | .badArguments raw => .reference (.badArguments raw)
  | .badKeywords raw => .reference (.badKeywords raw)
  | .missing name => .request (.missing name)
  | .unsupported name => .request (.unsupported name)

/-- Where a value comes from. -/
inductive Question where
  | symbol (reference : String)
  /-- What is at a capability path; a function there gets no arguments. -/
  | fetch (path : String)
  | call (path : String)
  /-- A method of the object that a reference leads to, with the text that addresses it. -/
  | method (target reference name : String)
  | flaw (flaw : Flaw)

/-- What is asked of a value. -/
inductive Demand where
  | anything
  /-- A list or `null`, for the spread of positional arguments in `text`. -/
  | list (text : String)
  /-- A map or `null`, for the spread of keyword arguments in `text`. -/
  | map (text : String)
  | clause (ensure : Ensure)
  /-- A document, for an object in a response. -/
  | document (typeName : String)

namespace Demand

def check : Demand → Value → Except ManifestError Unit
  | .anything, _ => .ok ()
  | .list text, value =>
    match value with
    | .null | .list _ => .ok ()
    | other => .error (.reference (.argumentsKind text other.kind))
  | .map text, value =>
    match value with
    | .null | .map _ => .ok ()
    | other => .error (.reference (.keywordsKind text other.kind))
  | .clause ensure, value =>
    if ensure.predicate.holds value then .ok () else .error (.ensure ensure.error ensure.code)
  | .document typeName, value =>
    match value.toJson? with
    | some _ => .ok ()
    | none => .error (.dumpNotJson typeName)

/-- How a demand that is not met is told. -/
inductive Refuses : Demand → ManifestError → Prop where
  | list {text kind : String} : Refuses (.list text) (.reference (.argumentsKind text kind))
  | map {text kind : String} : Refuses (.map text) (.reference (.keywordsKind text kind))
  | clause {ensure : Ensure} : Refuses (.clause ensure) (.ensure ensure.error ensure.code)
  | document {typeName : String} : Refuses (.document typeName) (.dumpNotJson typeName)

theorem refuses_of_check {demand : Demand} {value : Value} {cause : ManifestError}
    (failed : demand.check value = .error cause) : demand.Refuses cause := by
  cases demand with
  | anything => cases failed
  | list text => cases value <;> cases failed <;> exact .list
  | map text => cases value <;> cases failed <;> exact .map
  | clause ensure =>
    simp only [check] at failed
    split at failed <;> cases failed
    exact .clause
  | document typeName =>
    simp only [check] at failed
    split at failed <;> cases failed
    exact .document

def ofEnsure : Option Ensure → Demand
  | none => .anything
  | some ensure => .clause ensure

end Demand

/-- A place at which a run can fail: it asks for a value and demands something of it. -/
structure Point where
  question : Question
  demand : Demand

namespace Point

/-- The point at which something is wrong. -/
def flawed (flaw : Flaw) : Point := ⟨.flaw flaw, .anything⟩

end Point

/-- The site of a question: one if it calls something. -/
def Question.sites (registry : Registry σ) : Question → List Site
  | .symbol _ => []
  | .fetch path => registry.sites path
  | .call path => [.call path]
  | .method _ reference name => [.method reference name]
  | .flaw _ => []

def Point.sites (registry : Registry σ) (point : Point) : List Site :=
  point.question.sites registry

def Spread.question : Spread → Question
  | .reference name => .symbol name
  | .capability path => .fetch path
  | .invalid spread => .flaw (.badSpread spread)

def CallTarget.question (call : String) : CallTarget → Question
  | .capability path => .call path
  | .method reference name => .method call reference name
  | .unknown => .flaw (.noMethod call)

mutual

/-- The points of a template; the clause of a call belongs to the call itself. -/
def Template.points (root : String) : Template → List Point
  | .literal _ => []
  | .reference name => [⟨.symbol name, .anything⟩]
  | .capability path => [⟨.fetch path, .anything⟩]
  | .list items => Template.pointsOfItems root items
  | .map entries => Template.pointsOfEntries root entries
  | .call target positional keyword ensure =>
    positional.points root ++ (keyword.points root ++
      [⟨(CallTarget.ofText root target).question target, .ofEnsure ensure⟩])
  | .malformed cause => [.flawed (.malformed cause)]

def Template.pointsOfItems (root : String) : List Template → List Point
  | [] => []
  | item :: rest => item.points root ++ Template.pointsOfItems root rest

def Template.pointsOfEntries (root : String) : List (String × Template) → List Point
  | [] => []
  | (_, template) :: rest => template.points root ++ Template.pointsOfEntries root rest

def Positional.points (root : String) : Positional → List Point
  | .items items => Template.pointsOfItems root items
  | .spread text source => [⟨source.question, .list text⟩]
  | .invalid raw => [.flawed (.badArguments raw)]

def Keyword.points (root : String) : Keyword → List Point
  | .entries entries => Template.pointsOfEntries root entries
  | .spread text source => [⟨source.question, .map text⟩]
  | .invalid raw => [.flawed (.badKeywords raw)]

end

def CallSpec.points (root : String) (spec : CallSpec) : List Point :=
  (spec.template root).points root

def VariableSource.points (root : String) : VariableSource → List Point
  | .static _ => []
  | .reference name => [⟨.symbol name, .anything⟩]
  | .call spec => spec.points root
  | .fetch path => [⟨.fetch path, .anything⟩]

/-- The points of a field that is not among the request data. -/
def ParamField.points (root name : String) (field : ParamField) : List Point :=
  match field.default with
  | .none => if field.required then [.flawed (.missing name)] else []
  | .literal _ => []
  | .fetch path => [⟨.fetch path, .anything⟩]
  | .call spec => spec.points root

def defaultPoints (root : String) (present : List String) :
    List (String × ParamField) → List Point
  | [] => []
  | (name, field) :: rest =>
    if name ∈ present then defaultPoints root present rest
    else field.points root name ++ defaultPoints root present rest

/-- The points of parameters: a name that is not declared ends them before any default. -/
def parameterPoints (root : String) (present : List String) (fields : Dict ParamField) :
    List Point :=
  match present.find? fun name => !Dict.contains fields name with
  | some name => .flawed (.unsupported name) :: defaultPoints root present fields
  | none => defaultPoints root present fields

/-- The points of an object that runs on request data of the present names. -/
def CompiledObject.points (root : String) (present : List String) : CompiledObject → List Point
  | .var key source =>
    if key = dataKey then
      match source with
      | .static (.object _) => []
      | _ => [.flawed (.malformed .dataNotStatic)]
    else source.points root
  | .action _ spec => spec.points root
  | .params fields => parameterPoints root present fields
  | .response kwargs => (Template.ofJson root kwargs).points root

/-! ## The sites among the points -/

section Sites

variable {registry : Registry σ}

theorem Spread.sites_question (source : Spread) :
    source.question.sites registry = source.sites registry := by
  cases source <;> rfl

theorem CallTarget.sites_question (call : String) (target : CallTarget) :
    (target.question call).sites registry = target.sites := by
  cases target <;> rfl

mutual

theorem Template.sites_points : ∀ template : Template,
    (template.points registry.root).flatMap (Point.sites registry) = template.sites registry
  | .literal _ | .reference _ | .malformed _ => rfl
  | .capability _ => List.flatMap_singleton _ _
  | .list items => Template.sites_pointsOfItems items
  | .map entries => Template.sites_pointsOfEntries entries
  | .call target positional keyword _ => by
    rw [Template.points, List.flatMap_append, List.flatMap_append, List.flatMap_singleton,
      Positional.sites_points positional, Keyword.sites_points keyword, Point.sites,
      CallTarget.sites_question, Template.sites]

theorem Template.sites_pointsOfItems : ∀ items : List Template,
    (Template.pointsOfItems registry.root items).flatMap (Point.sites registry) =
      Template.sitesOfItems registry items
  | [] => rfl
  | item :: rest => by
    rw [Template.pointsOfItems, List.flatMap_append, Template.sites_points item,
      Template.sites_pointsOfItems rest, Template.sitesOfItems]

theorem Template.sites_pointsOfEntries : ∀ entries : List (String × Template),
    (Template.pointsOfEntries registry.root entries).flatMap (Point.sites registry) =
      Template.sitesOfEntries registry entries
  | [] => rfl
  | (_, template) :: rest => by
    rw [Template.pointsOfEntries, List.flatMap_append, Template.sites_points template,
      Template.sites_pointsOfEntries rest, Template.sitesOfEntries]

theorem Positional.sites_points : ∀ positional : Positional,
    (positional.points registry.root).flatMap (Point.sites registry) = positional.sites registry
  | .items items => Template.sites_pointsOfItems items
  | .spread _ source => (List.flatMap_singleton _ _).trans source.sites_question
  | .invalid _ => rfl

theorem Keyword.sites_points : ∀ keyword : Keyword,
    (keyword.points registry.root).flatMap (Point.sites registry) = keyword.sites registry
  | .entries entries => Template.sites_pointsOfEntries entries
  | .spread _ source => (List.flatMap_singleton _ _).trans source.sites_question
  | .invalid _ => rfl

end

theorem CallSpec.sites_points (spec : CallSpec) :
    (spec.points registry.root).flatMap (Point.sites registry) = spec.sites registry :=
  Template.sites_points _

theorem ParamField.sites_points (name : String) (field : ParamField) :
    (field.points registry.root name).flatMap (Point.sites registry) =
      field.default.sites registry := by
  unfold ParamField.points
  cases field.default with
  | none => cases field.required <;> rfl
  | literal _ => rfl
  | fetch path => exact List.flatMap_singleton _ _
  | call spec => exact spec.sites_points

theorem sites_defaultPoints (present : List String) (fields : List (String × ParamField)) :
    (defaultPoints registry.root present fields).flatMap (Point.sites registry) =
      defaultSites registry present fields := by
  induction fields with
  | nil => rfl
  | cons entry rest ih =>
    obtain ⟨name, field⟩ := entry
    unfold defaultPoints defaultSites
    split
    · exact ih
    · rw [List.flatMap_append, field.sites_points, ih]

theorem sites_parameterPoints (present : List String) (fields : Dict ParamField) :
    (parameterPoints registry.root present fields).flatMap (Point.sites registry) =
      defaultSites registry present fields := by
  unfold parameterPoints
  split <;> exact sites_defaultPoints present fields

/-- The sites of an object are those of its points. -/
theorem CompiledObject.sites_points (present : List String) (object : CompiledObject) :
    (object.points registry.root present).flatMap (Point.sites registry) =
      object.sites registry present := by
  cases object with
  | var key source =>
    by_cases isData : key = dataKey
    · simp only [CompiledObject.points, CompiledObject.sites, isData, if_true]
      split <;> rfl
    · simp only [CompiledObject.points, CompiledObject.sites, isData, if_false]
      cases source with
      | static _ | reference _ => rfl
      | call spec => exact spec.sites_points
      | fetch path => exact List.flatMap_singleton _ _
  | action key spec => exact spec.sites_points
  | params fields => exact sites_parameterPoints present fields
  | response kwargs => exact Template.sites_points _

end Sites

end ManifestGate
