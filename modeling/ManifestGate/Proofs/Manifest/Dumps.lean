import ManifestGate.Proofs.Manifest.CallOrder
import ManifestGate.Proofs.Manifest.Trail

/-!
# Dumps in a response

Rendering a response calls the dump capability at each API object that it comes to, and nothing
else. A dump that fails ends it, and the error tells of a failed dump. This is the one induction
over the rendering: what it calls, how it fails and that its calls break off where it fails follow
from it.
-/

namespace ManifestGate

variable {σ : Type} {α β : Type}

namespace Engine

/-- The call that renders an API object. -/
def dumpCall (engine : Engine σ) (scope : Scope) (api : ApiObject) : Event :=
  .called (engine.registry.absolute Builtin.dumpPath) scope ⟨[.object api], []⟩

/-- The stop at which an API object is rendered; no reference is looked up there. -/
def dumpStop (engine : Engine σ) (api : ApiObject) : Stop :=
  ⟨.start [], .call (engine.registry.absolute Builtin.dumpPath), .document api.typeName⟩

/-- What a rendering makes of the verdict of its stops: a failed call is told as a failed dump. -/
inductive ToldAs : Except ManifestError Unit → Except ManifestError α → Prop where
  | rendered (value : α) : ToldAs (.ok ()) (.ok value)
  | failed (typeName : String) (cause : ManifestError) :
      ToldAs (.error cause) (.error (.dumpFailed typeName cause))
  | notJson (typeName : String) :
      ToldAs (.error (.dumpNotJson typeName)) (.error (.dumpNotJson typeName))

/-- Objects are dumped one after the other, up to the first that cannot be. -/
def Renders (engine : Engine σ) (scope : Scope) : Action.Condition σ α :=
  fun start result events final =>
    (∀ event ∈ calls events, ∃ api, event = engine.dumpCall scope api) ∧
    ∃ (objects : List ApiObject) (verdict : Except ManifestError Unit),
      engine.Visits scope (objects.map engine.dumpStop) start verdict (calls events) final ∧
      ToldAs verdict result

variable {engine : Engine σ} {scope : Scope}

namespace Renders

theorem pure {value : α} :
    Action.Meets (Pure.pure value : Action σ α) (Renders engine scope) :=
  Action.Meets.pure fun _ => ⟨List.forall_mem_nil _, [], _, .done, .rendered value⟩

theorem bind {action : Action σ α} {next : α → Action σ β}
    (before : action.Meets (Renders engine scope))
    (after : ∀ value, (next value).Meets (Renders engine scope)) :
    (action >>= next).Meets (Renders engine scope) := by
  apply before.bind
  · intro start cause events final failed
    obtain ⟨dumps, objects, verdict, visits, told⟩ := failed
    refine ⟨dumps, objects, verdict, visits, ?_⟩
    cases told with
    | failed typeName cause => exact .failed typeName cause
    | notJson typeName => exact .notJson typeName
  · intro start value events middle passed
    obtain ⟨dumps, objects, verdict, visits, told⟩ := passed
    cases told
    apply (after value).weaken
    intro begun result more final renders begins
    obtain ⟨dumpsMore, others, verdict, visitsMore, told⟩ := renders
    rw [begins] at visitsMore
    refine ⟨?_, objects ++ others, verdict, ?_, told⟩
    · rw [calls_append]
      exact List.forall_mem_append.mpr ⟨dumps, dumpsMore⟩
    · rw [calls_append, List.map_append]
      exact visits.append visitsMore

end Renders

/-- A call of a path makes that call or none. -/
theorem registryCall_calls (engine : Engine σ) (scope : Scope) (path : String)
    (arguments : Arguments) :
    (engine.registry.call scope path arguments).Meets fun _ _ events _ =>
      ∀ event ∈ calls events, event = .called path scope arguments := by
  rw [Registry.call_eq, Action.ofExcept_bind]
  cases engine.registry.callee path with
  | error fault => exact Action.Meets.throw fun _ => List.forall_mem_nil _
  | ok run =>
    apply Action.Meets.perform
    intro state event member
    rw [calls_call rfl] at member
    exact List.mem_singleton.mp member

variable (engine scope)

theorem renderObject_renders (api : ApiObject) :
    (engine.renderObject scope api).Meets (Renders engine scope) := by
  let path := engine.registry.absolute Builtin.dumpPath
  have answers : (engine.registry.call scope path ⟨[.object api], []⟩).Meets
      (Answers engine scope (.start []) (.call path)) :=
    engine.registryCall_answers path ⟨[.object api], []⟩
  have called := answers.and (engine.registryCall_calls scope path ⟨[.object api], []⟩)
  have dumped : Action.Meets
      (ExceptT.adapt (ManifestError.dumpFailed api.typeName)
        (engine.registry.call scope path ⟨[.object api], []⟩) : Action σ Value)
      fun start result events final =>
        (∀ event ∈ calls events, ∃ api, event = engine.dumpCall scope api) ∧
        ∃ answer, (Question.call path).Answered engine scope (.start []) start answer (calls events)
            final ∧
          result = answer.mapError (.dumpFailed api.typeName) := by
    apply Action.Meets.adapt
    apply called.weaken
    intro start answer events final both
    obtain ⟨answered, only⟩ := both
    exact ⟨fun event member => ⟨api, only event member⟩, answer, answered, rfl⟩
  apply dumped.bind
  · intro start cause events final failing
    obtain ⟨dumps, answer, answered, failed⟩ := failing
    obtain ⟨inner, rfl, rfl⟩ := Except.mapError_eq_error_iff.mp failed.symm
    exact ⟨dumps, [api], .error inner, .single ⟨_, answered, rfl⟩, .failed api.typeName inner⟩
  · intro start value events middle passing
    obtain ⟨dumps, answer, answered, passed⟩ := passing
    have same := Except.mapError_eq_ok_iff.mp passed.symm
    rw [same] at answered
    cases document : value.toJson? with
    | some json =>
      apply Action.Meets.pure
      intro state begins
      rw [List.append_nil, begins]
      refine ⟨dumps, [api], .ok (), .single ⟨_, answered, ?_⟩, .rendered json⟩
      simp only [dumpStop, Demand.check, document, bind, Except.bind]
    | none =>
      apply Action.Meets.throw
      intro state begins
      rw [List.append_nil, begins]
      refine ⟨dumps, [api], .error (.dumpNotJson api.typeName), .single ⟨_, answered, ?_⟩,
        .notJson api.typeName⟩
      simp only [dumpStop, Demand.check, document, bind, Except.bind]

mutual

theorem render_renders : ∀ value : Value,
    (engine.render scope value).Meets (Renders engine scope)
  | .null | .bool _ | .number _ | .string _ => Renders.pure
  | .list items => Renders.bind (renderItems_renders items) fun _ => Renders.pure
  | .map entries => Renders.bind (renderEntries_renders entries) fun _ => Renders.pure
  | .object api => engine.renderObject_renders scope api

theorem renderItems_renders : ∀ items : List Value,
    (engine.renderItems scope items).Meets (Renders engine scope)
  | [] => Renders.pure
  | item :: rest => Renders.bind (render_renders item) fun _ =>
    Renders.bind (renderItems_renders rest) fun _ => Renders.pure

theorem renderEntries_renders : ∀ entries : List (String × Value),
    (engine.renderEntries scope entries).Meets (Renders engine scope)
  | [] => Renders.pure
  | (_, value) :: rest => Renders.bind (render_renders value) fun _ =>
    Renders.bind (renderEntries_renders rest) fun _ => Renders.pure

end

theorem response?_renders (context : Context) :
    (engine.response? scope context).Meets (Renders engine scope) := by
  unfold response?
  split
  · exact Renders.bind (engine.render_renders scope _) fun _ => Renders.pure
  · exact Renders.pure

/-- What follows the objects in a run: if they fail, nothing, and otherwise dumps. -/
theorem execute_events (manifest : CompiledManifest) (context : Context) (progress : Progress σ) :
    ∃ events,
      (engine.execute scope manifest context progress).2.2.events =
          (engine.runObjects scope manifest.objects context progress).2.2.events ++ events ∧
        (∀ event ∈ calls events, ∃ api, event = engine.dumpCall scope api) ∧
        (∀ cause, (engine.runObjects scope manifest.objects context progress).1 = .error cause →
          events = [] ∧ (engine.execute scope manifest context progress).1 = .error cause) := by
  rcases ran : engine.runObjects scope manifest.objects context progress with ⟨ended, after, later⟩
  rcases engine.execute_cases scope manifest context progress ran with
    ⟨cause, rfl, whole⟩ | ⟨rfl, result, final, rendered, whole⟩
  · rw [whole]
    refine ⟨[], (List.append_nil _).symm, List.forall_mem_nil _, ?_⟩
    rintro other ⟨⟩
    exact ⟨rfl, rfl⟩
  · obtain ⟨events, appended, dumps, _⟩ := engine.response?_renders scope after later
    rw [rendered] at appended
    rw [whole]
    exact ⟨events, appended, dumps, fun _ impossible => (nomatch impossible)⟩

end Engine

end ManifestGate
