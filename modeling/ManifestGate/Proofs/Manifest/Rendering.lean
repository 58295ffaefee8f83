import ManifestGate.Manifest.Execution
import ManifestGate.Proofs.Capability.Entries
import ManifestGate.Proofs.Manifest.Listing
import ManifestGate.Proofs.Manifest.Trail
import ManifestGate.Proofs.Value

/-!
# Rendering responses

A response is rendered by a walk of its own that calls the dump capability at each API object. Where
that capability is the built-in one, the calls change nothing, and the rendering gives what a dump
of the whole value gives. The invariant of the walk is that every action on it is steady: its result
is the same in every state, and the state stays.
-/

namespace ManifestGate

variable {σ : Type} {α β : Type}

/-! ## Steady actions -/

/-- The action ends with this result and leaves the state as it is, whatever the state. -/
def Action.Steady (action : Action σ α) (result : Except ManifestError α) : Prop :=
  action.Meets fun start given _ final => given = result ∧ final = start

namespace Action.Steady

variable {action : Action σ α} {result : Except ManifestError α}

theorem pure (value : α) : Steady (Pure.pure value : Action σ α) (.ok value) :=
  Meets.pure fun _ => ⟨rfl, rfl⟩

theorem throw (cause : ManifestError) :
    Steady (MonadExcept.throw cause : Action σ α) (.error cause) :=
  Meets.throw fun _ => ⟨rfl, rfl⟩

theorem bind {next : α → Action σ β} {following : α → Except ManifestError β}
    (before : action.Steady result) (after : ∀ value, (next value).Steady (following value)) :
    (action >>= next).Steady (result >>= following) := by
  apply Meets.bind before
  · rintro start cause events final ⟨rfl, kept⟩
    exact ⟨rfl, kept⟩
  · rintro start value events middle ⟨rfl, rfl⟩
    apply Meets.weaken (after value)
    rintro begun result more final ⟨rfl, rfl⟩ rfl
    exact ⟨rfl, rfl⟩

theorem adapt (steady : action.Steady result) (wrap : ManifestError → ManifestError) :
    Steady (ExceptT.adapt wrap action : Action σ α) (result.mapError wrap) := by
  apply Meets.adapt
  apply Meets.weaken steady
  rintro start given events final ⟨rfl, kept⟩
  exact ⟨rfl, kept⟩

theorem ofExcept (result : Except ManifestError α) :
    Steady (Action.ofExcept id result : Action σ α) result := by
  cases result with
  | ok value => exact pure value
  | error cause => exact throw cause

theorem result_eq (steady : action.Steady result) (progress : Progress σ) :
    (action progress).1 = result := by
  obtain ⟨_, _, same, _⟩ := steady progress
  exact same

end Action.Steady

/-! ## The built-in dump -/

/-- The registry has the built-in dump capability in its place. -/
def Registry.Dumps (registry : Registry σ) : Prop :=
  registry.locate (registry.absolute Builtin.dumpPath) = .ok (Builtin.dumpObject, [])

theorem Registry.dumps_of_build {root : String} {entries : List (String × Capability σ)}
    {registry : Registry σ} (built : build root entries = .ok registry)
    (included : (Builtin.dumpPath, Builtin.dumpObject) ∈ entries) : registry.Dumps :=
  (holds_of_build built).locate_absolute included

theorem Builtin.dump_eq_ok_iff {value dumped : Value} :
    Builtin.dump value = .ok dumped ↔ ∃ json, value.dump = .ok json ∧ .ofJson json = dumped := by
  unfold Builtin.dump
  cases value.dump <;> simp

theorem Builtin.exists_dump_iff {value : Value} :
    (∃ dumped, Builtin.dump value = .ok dumped) ↔ ∃ json, value.dump = .ok json := by
  unfold Builtin.dump
  cases value.dump <;> simp

namespace Engine

variable {engine : Engine σ} {scope : Scope} {context : Context}

/-- The failed call of the dump capability. -/
def dumpCallFailed (engine : Engine σ) : Failure → ManifestError :=
  .capability (engine.registry.absolute Builtin.dumpPath)

/-- A call of the dump capability answers with the dump of its argument. -/
theorem call_dump_steady (dumps : engine.registry.Dumps) (value : Value) :
    (engine.registry.call scope (engine.registry.absolute Builtin.dumpPath) ⟨[value], []⟩).Steady
      ((Builtin.dump value).mapError engine.dumpCallFailed) := by
  rw [Registry.call, dumps]
  exact Action.Meets.perform fun _ => ⟨rfl, rfl⟩

/-- How the rendering fails at an object without a document form. -/
def dumpRefused (engine : Engine σ) (typeName : String) : ManifestError :=
  .dumpFailed typeName (engine.dumpCallFailed (.ofMessage (typeName ++ " does not support dump")))

theorem renderObject_steady (dumps : engine.registry.Dumps) (api : ApiObject) :
    (engine.renderObject scope api).Steady
      ((Value.dump (.object api)).mapError engine.dumpRefused) := by
  let shown (dumped : Value) : Except ManifestError Json :=
    dumped.toJson?.elim (.error (.dumpNotJson api.typeName)) .ok
  have same : (Value.dump (.object api)).mapError engine.dumpRefused =
      ((Builtin.dump (.object api)).mapError engine.dumpCallFailed).mapError
        (.dumpFailed api.typeName) >>= shown := by
    cases form : api.json with
    | none => simp [Builtin.dump, Value.dump, form, dumpRefused, Except.mapError, bind, Except.bind]
    | some json =>
      simp [Builtin.dump, Value.dump, form, Except.mapError, bind, Except.bind, shown,
        Value.toJson?_ofJson]
  rw [same]
  apply Action.Steady.bind ((call_dump_steady dumps (.object api)).adapt _)
  intro dumped
  dsimp only [shown]
  cases dumped.toJson? with
  | none => exact Action.Steady.throw _
  | some json => exact Action.Steady.pure json

mutual

/-- The rendering of a value is its dump. -/
theorem render_steady (dumps : engine.registry.Dumps) : ∀ value : Value,
    (engine.render scope value).Steady
      (value.dump.mapError engine.dumpRefused)
  | .null | .bool _ | .number _ | .string _ => Action.Steady.pure _
  | .list items => by
    rw [Value.dump, Except.mapError_map]
    apply (renderItems_steady dumps items).bind
    intro jsons
    exact Action.Steady.pure _
  | .map entries => by
    rw [Value.dump, Except.mapError_map]
    apply (renderEntries_steady dumps entries).bind
    intro jsons
    exact Action.Steady.pure _
  | .object api => renderObject_steady dumps api

theorem renderItems_steady (dumps : engine.registry.Dumps) : ∀ items : List Value,
    (engine.renderItems scope items).Steady
      ((Value.dumpItems items).mapError engine.dumpRefused)
  | [] => Action.Steady.pure []
  | item :: rest => by
    rw [Value.dumpItems, Except.mapError_bind]
    apply (render_steady dumps item).bind
    intro json
    rw [Except.mapError_bind]
    apply (renderItems_steady dumps rest).bind
    intro more
    exact Action.Steady.pure _

theorem renderEntries_steady (dumps : engine.registry.Dumps) : ∀ entries : List (String × Value),
    (engine.renderEntries scope entries).Steady
      ((Value.dumpEntries entries).mapError engine.dumpRefused)
  | [] => Action.Steady.pure []
  | (key, value) :: rest => by
    rw [Value.dumpEntries, Except.mapError_bind]
    apply (render_steady dumps value).bind
    intro json
    rw [Except.mapError_bind]
    apply (renderEntries_steady dumps rest).bind
    intro more
    exact Action.Steady.pure _

end

theorem render_eq_ok_iff (dumps : engine.registry.Dumps) (value : Value) (progress : Progress σ)
    (json : Json) : (engine.render scope value progress).1 = .ok json ↔ value.dump = .ok json := by
  rw [(render_steady dumps value).result_eq, Except.mapError_eq_ok_iff]

/-! ## Responses -/

/-- What a response block shows: its document is filled in, and the value is rendered. -/
def respond (engine : Engine σ) (scope : Scope) (context : Context) (template : Json) :
    Action σ Json := do
  let value ← engine.evaluate scope context (Template.ofJson engine.registry.root template)
  engine.render scope value

/-- Once all other objects have run, a run shows what the response block shows. -/
theorem execute_response {manifest : CompiledManifest} {earlier : List CompiledObject}
    {template : Json} (objects : manifest.objects = earlier ++ [.response template])
    (executed : ∀ object ∈ earlier, Dict.contains context.results object.key = true)
    (pending : Dict.contains context.results responseKey = false) (progress : Progress σ) :
    (engine.execute scope manifest context progress).1 =
      (engine.respond scope context template progress).1.map some := by
  have isPending : ¬Dict.contains context.results responseKey = true := by
    rw [pending]
    exact Bool.false_ne_true
  unfold execute respond
  rw [objects, engine.runObjects_skip scope executed, runObjects, CompiledObject.key,
    if_neg isPending, Action.bind_apply]
  rcases evaluated : engine.evaluate scope context (Template.ofJson engine.registry.root template)
    progress with ⟨result, later⟩
  cases result with
  | error cause =>
    have stopped : engine.step scope context (.response template) progress =
        (.error cause, later) := by
      rw [step, Action.bind_apply, evaluated]
    rw [stopped]
    rfl
  | ok value =>
    have stepped : engine.step scope context (.response template) progress =
        (.ok ⟨value, context.data⟩, later) := by
      rw [step, Action.bind_apply, evaluated]
      rfl
    have found : Dict.get? (Dict.insert context.results responseKey value) responseKey =
        some value := Dict.get?_insert_self ..
    rw [stepped]
    simp only [runObjects, response?, Outcome.settle, found, Action.bind_apply]
    rcases engine.render scope value later with ⟨rendered, final⟩
    cases rendered <;> rfl

theorem reference_steady (name : String) :
    (reference context name : Action σ Value).Steady (context.resolve name) :=
  Action.Steady.ofExcept _

/-- The mapping that calls the dump capability on the value of an object. -/
def dumpMapping (root name : String) : Json :=
  .object [("args", .array [.string ("#" ++ name)]),
    ("call", .string (root ++ "." ++ Builtin.dumpPath))]

theorem template_dumpMapping (root name : String) :
    Template.ofJson root (dumpMapping root name) =
      .call (root ++ "." ++ Builtin.dumpPath) (.items [.reference name]) (.entries []) none := by
  have parsed : CallSpec.parse (dumpMapping root name) =
      .ok ⟨root ++ "." ++ Builtin.dumpPath, .array [.string ("#" ++ name)], .object [], none⟩ := rfl
  rw [Template.ofJson_mapping rfl parsed]
  simp [CallSpec.template, Positional.ofJson, Keyword.ofJson, Template.ofItems, Template.ofEntries,
    Template.ofJson, Symbol.ofText_reference]

theorem evaluate_dumpMapping (identifier : isIdentifier engine.registry.root = true)
    (name : String) :
    engine.evaluate scope context
        (Template.ofJson engine.registry.root (dumpMapping engine.registry.root name)) =
      reference context name >>= fun value =>
        engine.registry.call scope (engine.registry.absolute Builtin.dumpPath) ⟨[value], []⟩ := by
  rw [template_dumpMapping]
  simp [evaluate, evaluatePositional, evaluateKeyword, evaluateItems, evaluateEntries, callTarget,
    CallTarget.ofText_below identifier, Registry.absolute]

theorem respond_reference_steady (dumps : engine.registry.Dumps) (name : String) :
    (engine.respond scope context (.string ("#" ++ name))).Steady
      (context.resolve name >>= fun value => value.dump.mapError engine.dumpRefused) := by
  have resolved : engine.evaluate scope context
      (Template.ofJson engine.registry.root (.string ("#" ++ name))) = reference context name := by
    simp only [Template.ofJson, Symbol.ofText_reference, evaluate]
  unfold respond
  rw [resolved]
  exact (reference_steady name).bind (render_steady dumps)

theorem respond_dumpMapping_steady (dumps : engine.registry.Dumps)
    (identifier : isIdentifier engine.registry.root = true) (name : String) :
    (engine.respond scope context (dumpMapping engine.registry.root name)).Steady
      ((context.resolve name >>= fun value =>
        (Builtin.dump value).mapError engine.dumpCallFailed) >>= fun dumped =>
          dumped.dump.mapError engine.dumpRefused) := by
  unfold respond
  rw [evaluate_dumpMapping identifier]
  exact ((reference_steady name).bind (call_dump_steady dumps)).bind (render_steady dumps)

end Engine

/-- The rendering of a response and the dump capability agree: each succeeds where the other does,
with one document, and fails for the values in which an API object without a document form stands.
So a response may as well show an object as call the dump on it. What a dump gives holds no API
object, and a second dump changes nothing. -/
theorem rendering_agrees_with_dump {engine : Engine σ} {entries : List (String × Capability σ)}
    (built : Registry.build engine.registry.root entries = .ok engine.registry)
    (included : (Builtin.dumpPath, Builtin.dumpObject) ∈ entries) (scope : Scope) :
    (∀ value progress json, (engine.render scope value progress).1 = .ok json ↔
      Builtin.dump value = .ok (.ofJson json)) ∧
    (∀ value progress, (engine.render scope value progress).1.isOk = false ↔
      value.HoldsFormless) ∧
    (∀ value, (Builtin.dump value).isOk = false ↔ value.HoldsFormless) ∧
    (∀ context name progress,
      (engine.respond scope context (.string ("#" ++ name)) progress).1.toOption =
        (engine.respond scope context (Engine.dumpMapping engine.registry.root name)
          progress).1.toOption) ∧
    ∀ value dumped, Builtin.dump value = .ok dumped →
      (∀ api, ¬dumped.Holds api) ∧ Builtin.dump dumped = .ok dumped := by
  have dumps := Registry.dumps_of_build built included
  have identifier := (Registry.holds_of_build built).identifier
  refine ⟨?_, ?_, ?_, ?_, ?_⟩
  · intro value progress json
    rw [Engine.render_eq_ok_iff dumps, Builtin.dump_eq_ok_iff]
    constructor
    · intro dumped
      exact ⟨json, dumped, rfl⟩
    · rintro ⟨other, dumped, same⟩
      rwa [← Value.ofJson_injective same]
  · intro value progress
    simp only [Except.isOk_eq_false_iff, Engine.render_eq_ok_iff dumps, Value.exists_dump_iff,
      not_not]
  · intro value
    simp only [Except.isOk_eq_false_iff, Builtin.exists_dump_iff, Value.exists_dump_iff, not_not]
  · intro context name progress
    rw [(Engine.respond_reference_steady dumps name).result_eq,
      (Engine.respond_dumpMapping_steady dumps identifier name).result_eq]
    cases context.resolve name with
    | error cause => rfl
    | ok value =>
      cases dumped : value.dump with
      | error typeName =>
        simp [Builtin.dump, dumped, Except.mapError, bind, Except.bind, Except.toOption]
      | ok json =>
        simp [Builtin.dump, dumped, Except.mapError, bind, Except.bind, Except.toOption,
          Value.dump_ofJson]
  · intro value dumped given
    obtain ⟨json, _, rfl⟩ := Builtin.dump_eq_ok_iff.mp given
    exact ⟨fun api => Value.not_holds_ofJson api json,
      Builtin.dump_eq_ok_iff.mpr ⟨json, Value.dump_ofJson json, rfl⟩⟩

/-- An engine that has nothing but the dump capability. -/
def dumpingEngine : Engine Unit where
  registry := ⟨"R", [(Builtin.dumpPath, Builtin.dumpObject)]⟩
  host := ⟨fun _ _ _ state => .pure (.ok .null) state, fun state => ("", state)⟩

/-- An object that has a document form, with one that has none after it. -/
def mixedValues : Value :=
  .list [.object ⟨0, "T", [], some (.string "#a")⟩, .object ⟨1, "U", [], none⟩]

/-- The list cannot be shown for lack of one form, neither by itself nor by its dump. -/
theorem mixed_values_not_rendered :
    let scope : Scope := ⟨"", .anonymous, .bypass⟩
    (dumpingEngine.render scope mixedValues (.start ())).1.isOk = false ∧
      (Builtin.dump mixedValues).isOk = false := by
  intro scope
  have formless : mixedValues.HoldsFormless :=
    ⟨⟨1, "U", [], none⟩, .item (List.mem_cons_of_mem _ List.mem_cons_self) .object, rfl⟩
  have built : Registry.build dumpingEngine.registry.root dumpingEngine.registry.entries =
      .ok dumpingEngine.registry := rfl
  obtain ⟨_, rendering, dump, _⟩ := rendering_agrees_with_dump built List.mem_cons_self scope
  exact ⟨(rendering _ _).mpr formless, (dump _).mpr formless⟩

end ManifestGate
