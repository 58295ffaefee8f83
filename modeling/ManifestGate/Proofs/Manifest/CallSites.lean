import ManifestGate.Manifest.Execution

/-!
# Call sites

The places of a manifest at which a run may make a call, in the order in which it comes to them. They
are read off the compiled manifest. Of the request data only the names count, and of those only
the declared ones: a default is reached if its field is absent.
-/

namespace ManifestGate

variable {σ : Type}

/-- A place at which a call is made. -/
inductive Site where
  /-- A capability path in value position; it leads to a function, which gets no arguments. -/
  | fetch (path : String)
  /-- A call mapping that addresses a capability. -/
  | call (path : String)
  /-- A call mapping that addresses a method of the object a reference leads to. -/
  | method (reference name : String)
  deriving DecidableEq

/-- The event is the call of the site, made in `scope` and resolved in `context`. -/
def Site.Yields (scope : Scope) (context : Context) : Site → Event → Prop
  | .fetch path, event => event = .called path scope .none
  | .call path, event => ∃ arguments, event = .called path scope arguments
  | .method reference name, event => ∃ api arguments,
      context.resolve reference = .ok (.object api) ∧ event = .invoked api name arguments

/-- The site of a path in value position: one if it leads to a function. -/
def Registry.sites (registry : Registry σ) (path : String) : List Site :=
  match registry.resolve path with
  | .ok (.function _) => [.fetch path]
  | _ => []

def Spread.sites (registry : Registry σ) : Spread → List Site
  | .reference _ => []
  | .capability path => registry.sites path
  | .invalid _ => []

def CallTarget.sites : CallTarget → List Site
  | .capability path => [.call path]
  | .method reference name => [.method reference name]
  | .unknown => []

mutual

/-- The sites of a template: arguments before the call that takes them, positional ones first. -/
def Template.sites (registry : Registry σ) : Template → List Site
  | .literal _ => []
  | .reference _ => []
  | .capability path => registry.sites path
  | .list items => Template.sitesOfItems registry items
  | .map entries => Template.sitesOfEntries registry entries
  | .call target positional keyword _ =>
    positional.sites registry ++
      (keyword.sites registry ++ (CallTarget.ofText registry.root target).sites)
  | .malformed _ => []

def Template.sitesOfItems (registry : Registry σ) : List Template → List Site
  | [] => []
  | item :: rest => item.sites registry ++ Template.sitesOfItems registry rest

def Template.sitesOfEntries (registry : Registry σ) : List (String × Template) → List Site
  | [] => []
  | (_, template) :: rest => template.sites registry ++ Template.sitesOfEntries registry rest

def Positional.sites (registry : Registry σ) : Positional → List Site
  | .items items => Template.sitesOfItems registry items
  | .spread _ source => source.sites registry
  | .invalid _ => []

def Keyword.sites (registry : Registry σ) : Keyword → List Site
  | .entries entries => Template.sitesOfEntries registry entries
  | .spread _ source => source.sites registry
  | .invalid _ => []

end

def CallSpec.sites (registry : Registry σ) (spec : CallSpec) : List Site :=
  (spec.template registry.root).sites registry

def VariableSource.sites (registry : Registry σ) : VariableSource → List Site
  | .static _ => []
  | .reference _ => []
  | .call spec => spec.sites registry
  | .fetch path => registry.sites path

def ParamDefault.sites (registry : Registry σ) : ParamDefault → List Site
  | .none => []
  | .literal _ => []
  | .fetch path => registry.sites path
  | .call spec => spec.sites registry

/-- Whether a value stands in for the parameter when it is absent. -/
def ParamField.hasDefault (field : ParamField) : Bool :=
  match field.default with
  | .none => false
  | _ => true

/-- The sites of the defaults of the fields that are not among the present names. -/
def defaultSites (registry : Registry σ) (present : List String) :
    List (String × ParamField) → List Site
  | [] => []
  | (name, field) :: rest =>
    if name ∈ present then defaultSites registry present rest
    else field.default.sites registry ++ defaultSites registry present rest

namespace CompiledObject

/-- The sites of an object that runs on request data of the present names. -/
def sites (registry : Registry σ) (present : List String) : CompiledObject → List Site
  | .var key source => if key = dataKey then [] else source.sites registry
  | .action _ spec => spec.sites registry
  | .params fields => defaultSites registry present fields
  | .response kwargs => (Template.ofJson registry.root kwargs).sites registry

/-- The names in the request data after an object that ran on data of the present names. -/
def names (present : List String) : CompiledObject → List String
  | .var key source =>
    match source with
    | .static (.object entries) => if key = dataKey then Dict.keys entries else present
    | _ => present
  | .params fields => present ++ Dict.keys (fields.filter fun entry => entry.2.hasDefault)
  | _ => present

/-- The parameters that the object declares. -/
def declared : CompiledObject → List String
  | .params fields => Dict.keys fields
  | _ => []

end CompiledObject

/-- The sites of objects in their order, from request data of the present names on. -/
def sitesFrom (registry : Registry σ) (present : List String) :
    List CompiledObject → List Site
  | [] => []
  | object :: rest =>
    object.sites registry present ++ sitesFrom registry (object.names present) rest

namespace CompiledManifest

/-- The sites of a manifest that runs on request data of the present names. -/
def sites (registry : Registry σ) (present : List String) (manifest : CompiledManifest) :
    List Site :=
  sitesFrom registry present manifest.objects

/-- The parameters that the manifest declares. -/
def declared (manifest : CompiledManifest) : List String :=
  manifest.objects.flatMap CompiledObject.declared

end CompiledManifest

theorem defaultSites_congr (registry : Registry σ) {present other : List String}
    (fields : List (String × ParamField))
    (agree : ∀ name ∈ Dict.keys fields, (name ∈ present ↔ name ∈ other)) :
    defaultSites registry present fields = defaultSites registry other fields := by
  induction fields with
  | nil => rfl
  | cons entry rest ih =>
    obtain ⟨name, field⟩ := entry
    have first : name ∈ present ↔ name ∈ other := agree name List.mem_cons_self
    have later := ih fun name member => agree name (List.mem_cons_of_mem _ member)
    by_cases supplied : name ∈ present
    · simp only [defaultSites, supplied, first.mp supplied, if_true, later]
    · have absent : name ∉ other := fun member => supplied (first.mpr member)
      simp only [defaultSites, supplied, absent, if_false, later]

theorem CompiledObject.sites_congr (registry : Registry σ) {present other : List String}
    (object : CompiledObject)
    (agree : ∀ name ∈ object.declared, (name ∈ present ↔ name ∈ other)) :
    object.sites registry present = object.sites registry other := by
  cases object with
  | params fields => exact defaultSites_congr registry fields agree
  | var key source => rfl
  | action key spec => rfl
  | response kwargs => rfl

theorem CompiledObject.mem_names_congr {present other : List String} (object : CompiledObject)
    {name : String} (agree : name ∈ present ↔ name ∈ other) :
    name ∈ object.names present ↔ name ∈ object.names other := by
  cases object with
  | var key source =>
    simp only [names]
    split
    · split
      · exact Iff.rfl
      · exact agree
    · exact agree
  | action key spec => exact agree
  | params fields => simp only [names, List.mem_append, agree]
  | response kwargs => exact agree

/-- The sites depend on the request data only through the absence of declared parameters. -/
theorem sitesFrom_congr (registry : Registry σ) {present other : List String}
    (objects : List CompiledObject)
    (agree : ∀ name ∈ objects.flatMap CompiledObject.declared,
      (name ∈ present ↔ name ∈ other)) :
    sitesFrom registry present objects = sitesFrom registry other objects := by
  induction objects generalizing present other with
  | nil => rfl
  | cons object rest ih =>
    rw [List.flatMap_cons] at agree
    have first := object.sites_congr registry fun name member =>
      agree name (List.mem_append_left _ member)
    have later := ih fun name member =>
      object.mem_names_congr (agree name (List.mem_append_right _ member))
    rw [sitesFrom, sitesFrom, first, later]

/-- The registries have one root and functions at the same paths, whatever the functions answer. -/
structure Registry.SameFunctions {τ : Type} (registry : Registry σ) (other : Registry τ) : Prop where
  root : registry.root = other.root
  functions (path : String) :
    (∃ run, registry.resolve path = .ok (.function run)) ↔
      ∃ run, other.resolve path = .ok (.function run)

theorem Registry.sites_eq_nil {registry : Registry σ} {path : String}
    (none : ¬∃ run, registry.resolve path = .ok (.function run)) : registry.sites path = [] := by
  unfold Registry.sites
  split
  · exact absurd ⟨_, ‹_›⟩ none
  · rfl

namespace Registry.SameFunctions

variable {τ : Type} {registry : Registry σ} {other : Registry τ}

theorem sites_eq (same : registry.SameFunctions other) (path : String) :
    registry.sites path = other.sites path := by
  by_cases leads : ∃ run, registry.resolve path = .ok (.function run)
  · obtain ⟨otherRun, otherFound⟩ := (same.functions path).mp leads
    obtain ⟨run, found⟩ := leads
    simp only [Registry.sites, found, otherFound]
  · have otherNone := fun otherLeads => leads ((same.functions path).mpr otherLeads)
    rw [sites_eq_nil leads, sites_eq_nil otherNone]

theorem spread_eq (same : registry.SameFunctions other) (source : Spread) :
    source.sites registry = source.sites other := by
  cases source with
  | reference name => rfl
  | capability path => exact same.sites_eq path
  | invalid text => rfl

mutual

theorem template_eq (same : registry.SameFunctions other) : ∀ template : Template,
    template.sites registry = template.sites other
  | .literal _ => rfl
  | .reference _ => rfl
  | .capability path => same.sites_eq path
  | .list items => items_eq same items
  | .map entries => entries_eq same entries
  | .call target positional keyword _ => by
    have before := positional_eq same positional
    have middle := keyword_eq same keyword
    simp only [Template.sites, before, middle, same.root]
  | .malformed _ => rfl

theorem items_eq (same : registry.SameFunctions other) : ∀ items : List Template,
    Template.sitesOfItems registry items = Template.sitesOfItems other items
  | [] => rfl
  | item :: rest => by
    have first := template_eq same item
    have later := items_eq same rest
    simp only [Template.sitesOfItems, first, later]

theorem entries_eq (same : registry.SameFunctions other) : ∀ entries : List (String × Template),
    Template.sitesOfEntries registry entries = Template.sitesOfEntries other entries
  | [] => rfl
  | (_, template) :: rest => by
    have first := template_eq same template
    have later := entries_eq same rest
    simp only [Template.sitesOfEntries, first, later]

theorem positional_eq (same : registry.SameFunctions other) : ∀ positional : Positional,
    positional.sites registry = positional.sites other
  | .items items => items_eq same items
  | .spread _ source => same.spread_eq source
  | .invalid _ => rfl

theorem keyword_eq (same : registry.SameFunctions other) : ∀ keyword : Keyword,
    keyword.sites registry = keyword.sites other
  | .entries entries => entries_eq same entries
  | .spread _ source => same.spread_eq source
  | .invalid _ => rfl

end

theorem spec_eq (same : registry.SameFunctions other) (spec : CallSpec) :
    spec.sites registry = spec.sites other := by
  rw [CallSpec.sites, CallSpec.sites, ← same.root]
  exact same.template_eq _

theorem defaults_eq (same : registry.SameFunctions other) (present : List String)
    (fields : List (String × ParamField)) :
    defaultSites registry present fields = defaultSites other present fields := by
  induction fields with
  | nil => rfl
  | cons entry rest ih =>
    obtain ⟨name, field⟩ := entry
    have own : field.default.sites registry = field.default.sites other := by
      cases field.default with
      | none => rfl
      | literal json => rfl
      | fetch path => exact same.sites_eq path
      | call spec => exact same.spec_eq spec
    simp only [defaultSites, own, ih]

theorem object_eq (same : registry.SameFunctions other) (present : List String)
    (object : CompiledObject) : object.sites registry present = object.sites other present := by
  cases object with
  | var key source =>
    have own : source.sites registry = source.sites other := by
      cases source with
      | static json => rfl
      | reference name => rfl
      | call spec => exact same.spec_eq spec
      | fetch path => exact same.sites_eq path
    simp only [CompiledObject.sites, own]
  | action key spec => exact same.spec_eq spec
  | params fields => exact same.defaults_eq present fields
  | response kwargs =>
    simp only [CompiledObject.sites, ← same.root]
    exact same.template_eq _

/-- What the functions answer has no part in the sites. -/
theorem sitesFrom_eq (same : registry.SameFunctions other) (present : List String)
    (objects : List CompiledObject) :
    sitesFrom registry present objects = sitesFrom other present objects := by
  induction objects generalizing present with
  | nil => rfl
  | cons object rest ih =>
    rw [sitesFrom, sitesFrom, same.object_eq, ih]

end Registry.SameFunctions

end ManifestGate
