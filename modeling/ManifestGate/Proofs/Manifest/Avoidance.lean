import ManifestGate.Manifest.Execution
import ManifestGate.Proofs.Capability.Exchange
import ManifestGate.Proofs.Manifest.Trail
import ManifestGate.Proofs.TwoRuns

/-!
# What a template keeps clear of

A template that goes neither to a certain capability nor to certain objects is evaluated alike
whatever that capability answers and whatever values those objects have.
-/

namespace ManifestGate

variable {σ : Type}

section

variable (root path : String) (keys : List String)

def CallTarget.Avoids : CallTarget → Prop
  | .capability text => text ≠ path
  | .method reference _ => Path.head reference ∉ keys
  | .unknown => True

def Spread.Avoids : Spread → Prop
  | .reference name => Path.head name ∉ keys
  | .capability text => text ≠ path
  | .invalid _ => True

mutual

/-- No symbol of the template stands for the capability at `path` or for an object of `keys`. -/
def Template.Avoids : Template → Prop
  | .literal _ => True
  | .reference name => Path.head name ∉ keys
  | .capability text => text ≠ path
  | .list items => Template.AvoidsItems items
  | .map entries => Template.AvoidsEntries entries
  | .call target positional keyword _ =>
    (CallTarget.ofText root target).Avoids path keys ∧ positional.Avoids ∧ keyword.Avoids
  | .malformed _ => True

def Template.AvoidsItems : List Template → Prop
  | [] => True
  | item :: rest => item.Avoids ∧ Template.AvoidsItems rest

def Template.AvoidsEntries : List (String × Template) → Prop
  | [] => True
  | (_, template) :: rest => template.Avoids ∧ Template.AvoidsEntries rest

def Positional.Avoids : Positional → Prop
  | .items items => Template.AvoidsItems items
  | .spread _ source => source.Avoids path keys
  | .invalid _ => True

def Keyword.Avoids : Keyword → Prop
  | .entries entries => Template.AvoidsEntries entries
  | .spread _ source => source.Avoids path keys
  | .invalid _ => True

end

end

/-! ## Evaluation -/

namespace Registry.SameButAt

variable {path text : String} {one other : Registry σ} {scope : Scope}

theorem fetch_alike (same : SameButAt path one other) (clear : text ≠ path) :
    Action.Alike (one.fetch scope text) (other.fetch scope text) := by
  rw [fetch, fetch, same.resolve text clear]
  apply Action.Alike.bind (.ofExcept _ _)
  intro target
  cases target with
  | function run => exact .perform _ _ _
  | value value => exact .pure value

theorem call_alike (same : SameButAt path one other) (clear : text ≠ path)
    (arguments : Arguments) :
    Action.Alike (one.call scope text arguments) (other.call scope text arguments) := by
  rw [call_eq, call_eq, same.callee text clear]
  apply Action.Alike.bind (.ofExcept _ _)
  intro run
  exact .perform _ _ _

end Registry.SameButAt

/-- A clause that holds of both results or of neither treats them alike. -/
theorem Ensure.enforce_alike (ensure : Ensure) {result other : Value}
    (verdict : ensure.predicate.holds result = ensure.predicate.holds other) :
    Action.Alike (ensure.enforce result : Action σ Unit) (ensure.enforce other) := by
  unfold enforce
  rw [verdict]
  split
  · cases ensure.log with
    | none =>
      cases ensure.debug with
      | none => exact .pure ()
      | some text => exact .report _
    | some text =>
      apply Action.Alike.bind (.report _)
      intro _
      cases ensure.debug with
      | none => exact .pure ()
      | some text => exact .report _
  · apply Action.Alike.bind (.report _)
    intro _
    exact .throw _

namespace Engine

/-- Engines and contexts that differ in one capability and in the values of some objects. -/
structure Twins (path : String) (keys : List String) (one other : Engine σ)
    (first second : Context) : Prop where
  registry : one.registry.SameButAt path other.registry
  host : one.host = other.host
  data : first.data = second.data
  results (name : String) :
    name ∉ keys → Dict.get? first.results name = Dict.get? second.results name

namespace Twins

variable {path : String} {keys : List String} {one other : Engine σ} {first second : Context}
  {scope : Scope}

section

variable (twins : Twins path keys one other first second)

include twins

theorem resolve_eq {reference : String} (clear : Path.head reference ∉ keys) :
    first.resolve reference = second.resolve reference := by
  simp only [Context.resolve, twins.data, twins.results _ clear]

theorem reference_alike {name : String} (clear : Path.head name ∉ keys) :
    Action.Alike (reference first name : Action σ Value) (reference second name) := by
  rw [reference, reference, twins.resolve_eq clear]
  exact .ofExcept id _

theorem callTarget_alike {target : String}
    (clear : (CallTarget.ofText one.registry.root target).Avoids path keys)
    (arguments : Arguments) :
    Action.Alike (one.callTarget scope first target arguments)
      (other.callTarget scope second target arguments) := by
  unfold callTarget
  rw [← twins.registry.root]
  cases target : CallTarget.ofText one.registry.root target with
  | capability text =>
    rw [target] at clear
    exact twins.registry.call_alike clear arguments
  | method object name =>
    rw [target] at clear
    apply Action.Alike.bind (twins.reference_alike clear)
    intro value
    rw [← twins.host]
    cases value with
    | object api => exact .perform _ _ _
    | _ => exact .throw _
  | unknown => exact .throw _

theorem spread_alike {source : Spread} (clear : source.Avoids path keys) :
    Action.Alike (one.spread scope first source) (other.spread scope second source) := by
  cases source with
  | reference name => exact twins.reference_alike clear
  | capability text => exact twins.registry.fetch_alike clear
  | invalid spread => exact .throw _

end

mutual

theorem evaluate_alike (twins : Twins path keys one other first second) :
    ∀ template : Template, template.Avoids one.registry.root path keys →
      Action.Alike (one.evaluate scope first template) (other.evaluate scope second template)
  | .literal value, _ => .pure value
  | .reference _, clear => twins.reference_alike clear
  | .capability _, clear => twins.registry.fetch_alike clear
  | .list items, clear => by
    apply Action.Alike.bind (evaluateItems_alike twins items clear)
    intro values
    exact .pure _
  | .map entries, clear => by
    apply Action.Alike.bind (evaluateEntries_alike twins entries clear)
    intro values
    exact .pure _
  | .call target positional keyword ensure, ⟨clear, before, after⟩ => by
    apply Action.Alike.bind (evaluatePositional_alike twins positional before)
    intro arguments
    apply Action.Alike.bind (evaluateKeyword_alike twins keyword after)
    intro keywords
    apply Action.Alike.bind (twins.callTarget_alike clear _)
    intro result
    cases ensure with
    | none => exact .pure result
    | some clause =>
      apply Action.Alike.bind (clause.enforce_alike rfl)
      intro _
      exact .pure result
  | .malformed _, _ => .throw _

theorem evaluateItems_alike (twins : Twins path keys one other first second) :
    ∀ items : List Template, Template.AvoidsItems one.registry.root path keys items →
      Action.Alike (one.evaluateItems scope first items) (other.evaluateItems scope second items)
  | [], _ => .pure []
  | item :: rest, ⟨clear, clearRest⟩ => by
    apply Action.Alike.bind (evaluate_alike twins item clear)
    intro value
    apply Action.Alike.bind (evaluateItems_alike twins rest clearRest)
    intro more
    exact .pure _

theorem evaluateEntries_alike (twins : Twins path keys one other first second) :
    ∀ entries : List (String × Template),
      Template.AvoidsEntries one.registry.root path keys entries →
        Action.Alike (one.evaluateEntries scope first entries)
          (other.evaluateEntries scope second entries)
  | [], _ => .pure []
  | (_, template) :: rest, ⟨clear, clearRest⟩ => by
    apply Action.Alike.bind (evaluate_alike twins template clear)
    intro value
    apply Action.Alike.bind (evaluateEntries_alike twins rest clearRest)
    intro more
    exact .pure _

theorem evaluatePositional_alike (twins : Twins path keys one other first second) :
    ∀ positional : Positional, positional.Avoids one.registry.root path keys →
      Action.Alike (one.evaluatePositional scope first positional)
        (other.evaluatePositional scope second positional)
  | .items items, clear => evaluateItems_alike twins items clear
  | .spread text source, clear => by
    apply Action.Alike.bind (twins.spread_alike clear)
    intro value
    cases value with
    | null => exact .pure _
    | list items => exact .pure _
    | _ => exact .throw _
  | .invalid _, _ => .throw _

theorem evaluateKeyword_alike (twins : Twins path keys one other first second) :
    ∀ keyword : Keyword, keyword.Avoids one.registry.root path keys →
      Action.Alike (one.evaluateKeyword scope first keyword)
        (other.evaluateKeyword scope second keyword)
  | .entries entries, clear => evaluateEntries_alike twins entries clear
  | .spread text source, clear => by
    apply Action.Alike.bind (twins.spread_alike clear)
    intro value
    cases value with
    | null => exact .pure _
    | map entries => exact .pure _
    | _ => exact .throw _
  | .invalid _, _ => .throw _

end

/-- Contexts with the same data that agree apart from some objects agree so after one more object,
if its value is the same or it is one of those. -/
theorem settle {key : String} (twins : Twins path keys one other first second)
    {outcome otherOutcome : Outcome}
    (data : outcome.data = otherOutcome.data)
    (value : key ∉ keys → outcome.value = otherOutcome.value) :
    Twins path keys one other (outcome.settle first key) (otherOutcome.settle second key) where
  registry := twins.registry
  host := twins.host
  data := data
  results name clear := by
    simp only [Outcome.settle]
    by_cases same : key = name
    · subst same
      rw [Dict.get?_insert_self, Dict.get?_insert_self, value clear]
    · rw [Dict.get?_insert_of_ne _ _ same, Dict.get?_insert_of_ne _ _ same]
      exact twins.results name clear

/-! ## Rendering -/

section

variable (same : one.registry.SameButAt path other.registry)
  (clear : one.registry.absolute Builtin.dumpPath ≠ path)

include same clear

theorem renderObject_alike (api : ApiObject) :
    Action.Alike (one.renderObject scope api) (other.renderObject scope api) := by
  have paths : other.registry.absolute Builtin.dumpPath =
      one.registry.absolute Builtin.dumpPath := by
    rw [Registry.absolute, Registry.absolute, same.root]
  unfold renderObject
  rw [paths]
  apply Action.Alike.bind (Action.Related.adapt _ (same.call_alike clear _))
  intro dumped
  cases dumped.toJson? with
  | some json => exact .pure json
  | none => exact .throw _

end

mutual

theorem render_alike (same : one.registry.SameButAt path other.registry)
    (clear : one.registry.absolute Builtin.dumpPath ≠ path) : ∀ value : Value,
      Action.Alike (one.render scope value) (other.render scope value)
  | .null => .pure _
  | .bool _ => .pure _
  | .number _ => .pure _
  | .string _ => .pure _
  | .list items => by
    apply Action.Alike.bind (renderItems_alike same clear items)
    intro rendered
    exact .pure _
  | .map entries => by
    apply Action.Alike.bind (renderEntries_alike same clear entries)
    intro rendered
    exact .pure _
  | .object api => renderObject_alike same clear api

theorem renderItems_alike (same : one.registry.SameButAt path other.registry)
    (clear : one.registry.absolute Builtin.dumpPath ≠ path) : ∀ items : List Value,
      Action.Alike (one.renderItems scope items) (other.renderItems scope items)
  | [] => .pure []
  | item :: rest => by
    apply Action.Alike.bind (render_alike same clear item)
    intro json
    apply Action.Alike.bind (renderItems_alike same clear rest)
    intro more
    exact .pure _

theorem renderEntries_alike (same : one.registry.SameButAt path other.registry)
    (clear : one.registry.absolute Builtin.dumpPath ≠ path) : ∀ entries : List (String × Value),
      Action.Alike (one.renderEntries scope entries) (other.renderEntries scope entries)
  | [] => .pure []
  | (_, value) :: rest => by
    apply Action.Alike.bind (render_alike same clear value)
    intro json
    apply Action.Alike.bind (renderEntries_alike same clear rest)
    intro more
    exact .pure _

end

theorem response?_alike (same : one.registry.SameButAt path other.registry)
    (clear : one.registry.absolute Builtin.dumpPath ≠ path)
    (answer : Dict.get? first.results responseKey = Dict.get? second.results responseKey) :
    Action.Alike (one.response? scope first) (other.response? scope second) := by
  unfold response?
  rw [answer]
  cases Dict.get? second.results responseKey with
  | none => exact .pure none
  | some value =>
    apply Action.Alike.bind (render_alike same clear value)
    intro json
    exact .pure _

end Twins

/-! ## Steps -/

/-- Outcomes with the same data and with related values. -/
structure Outcome.Related (values : Value → Value → Prop) (one other : Outcome) : Prop where
  data : one.data = other.data
  value : values one.value other.value

theorem step_var_related {one other : Engine σ} {scope : Scope} {values : Value → Value → Prop}
    {first second : Context} {key : String} {source : VariableSource} (named : key ≠ dataKey)
    (data : first.data = second.data)
    (related : Action.Related values (one.sourceValue scope first source)
      (other.sourceValue scope second source)) :
    Action.Related (Outcome.Related values) (one.step scope first (.var key source))
      (other.step scope second (.var key source)) := by
  simp only [step, named, if_false]
  apply related.bind
  intro value otherValue holds
  exact .pure ⟨data, holds⟩

theorem Twins.step_response_related {path : String} {keys : List String} {one other : Engine σ}
    {first second : Context} {scope : Scope} (twins : Twins path keys one other first second)
    {document : Json} (clear :
      (Template.ofJson one.registry.root document).Avoids one.registry.root path keys) :
    Action.Related (Outcome.Related Eq) (one.step scope first (.response document))
      (other.step scope second (.response document)) := by
  simp only [step, ← twins.registry.root]
  apply (twins.evaluate_alike _ clear).followed
  intro value
  exact .pure ⟨twins.data, rfl⟩

/-! ## Runs -/

section

variable (engine : Engine σ) (scope : Scope)

/-- The objects of a run as one action, which returns the context that they leave. -/
def settleAll : List CompiledObject → Context → Action σ Context
  | [], context => pure context
  | object :: rest, context =>
    if Dict.contains context.results object.key then settleAll rest context
    else do
      let outcome ← engine.step scope context object
      settleAll rest (outcome.settle context object.key)

theorem settleAll_apply (objects : List CompiledObject) (context : Context)
    (progress : Progress σ) :
    engine.settleAll scope objects context progress =
      match engine.runObjects scope objects context progress with
      | (.ok _, after, later) => (.ok after, later)
      | (.error cause, _, later) => (.error cause, later) := by
  induction objects generalizing context progress with
  | nil => rfl
  | cons object rest ih =>
    unfold settleAll runObjects
    by_cases executed : Dict.contains context.results object.key = true
    · rw [if_pos executed, if_pos executed]
      exact ih context progress
    · rw [if_neg executed, if_neg executed, Action.bind_apply]
      rcases engine.step scope context object progress with ⟨result, later⟩
      cases result with
      | error cause => rfl
      | ok outcome => exact ih _ later

theorem settleAll_cons {object : CompiledObject}
    {rest : List CompiledObject} {context : Context} (pending : Pending context (object :: rest)) :
    engine.settleAll scope (object :: rest) context = (do
      let outcome ← engine.step scope context object
      engine.settleAll scope rest (outcome.settle context object.key)) := by
  rw [settleAll, if_neg (by simp [pending.head])]

/-- A run compiles, settles all objects and renders the response. -/
theorem run_eq (manifest : Json) (data : Dict Value) :
    engine.run scope manifest data = (do
      let compiled ← Action.ofExcept id (compile engine.registry manifest)
      let context ← engine.settleAll scope compiled.objects (.start data)
      engine.response? scope context) := by
  unfold run
  congr 1
  funext compiled progress
  rw [Action.bind_apply, settleAll_apply]
  simp only [execute]
  rcases engine.runObjects scope compiled.objects (.start data) progress with
    ⟨result, after, later⟩
  cases result <;> rfl

end

end Engine

end ManifestGate
