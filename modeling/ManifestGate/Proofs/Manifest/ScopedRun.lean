import ManifestGate.Proofs.Manifest.RunOrder
import ManifestGate.Proofs.Manifest.Scoping

/-!
# Runs of scoped manifests

What compiling has checked does not go wrong in a run: when an object runs, all blocks that it may
refer to are executed, and its paths lead where they led when they were checked. What is left to go
wrong is up to the data and to the calls.
-/

namespace ManifestGate

variable {σ : Type}

/-- The faults that a check finds. The others are up to the values that a run comes across. -/
def ReferenceError.RuledOut : ReferenceError → Prop
  | .notCapability _ | .onlyRoot _ | .unknownPath _ | .intoFunction _ | .missingSegment _ _ => True
  | .noTarget _ | .notEarlier _ | .notExecuted _ _ | .noMethod _ => True
  | .badArguments _ | .badKeywords _ | .badSpread _ => True
  | .notCallable _ | .noAttribute _ _ | .notObject _ _ _ => False
  | .argumentsKind _ _ | .keywordsKind _ _ => False

def ManifestError.RuledOut : ManifestError → Prop
  | .compile _ => True
  | .reference cause => cause.RuledOut
  | _ => False

/-- The blocks with the given keys are executed. -/
def Context.Has (context : Context) (seen : List String) : Prop :=
  ∀ key ∈ seen, Dict.contains context.results key = true

theorem Context.Has.settle {context : Context} {seen : List String} (has : context.Has seen)
    (outcome : Engine.Outcome) (key : String) :
    (outcome.settle context key).Has (seen ++ [key]) := by
  intro other member
  rw [Engine.Outcome.settle, Dict.contains_insert]
  cases List.mem_append.mp member with
  | inl early => exact .inr (has other early)
  | inr last => exact .inl (List.mem_singleton.mp last)

/-! ## Scoped points -/

/-- Whether the flaw is one of the request data, which no check of a manifest can tell. -/
def Flaw.OfData : Flaw → Prop
  | .missing _ | .unsupported _ => True
  | .malformed _ | .noMethod _ | .badSpread _ | .badArguments _ | .badKeywords _ => False

/-- What is asked for has a meaning after blocks with the given keys. -/
def Question.Scoped (registry : Registry σ) (seen : List String) : Question → Prop
  | .symbol reference => Reaches seen reference
  | .fetch path => registry.Offers path
  | .call path => registry.Offers path
  | .method _ reference _ => Reaches seen reference
  | .flaw found => found.OfData

section Points

variable {registry : Registry σ} {seen : List String}

theorem CallTarget.Scoped.question {target : CallTarget} (valid : target.Scoped registry seen)
    (call : String) : (target.question call).Scoped registry seen := by
  cases target with
  | capability path => exact valid
  | method reference name => exact valid
  | unknown => exact valid.elim

theorem Spread.Scoped.question {source : Spread} (valid : source.Scoped registry seen) :
    source.question.Scoped registry seen := by
  cases source with
  | reference name => exact valid
  | capability path => exact valid
  | invalid spread => exact valid.elim

mutual

/-- The points of a template that passes its check ask for what has a meaning. -/
theorem Template.Scoped.points : ∀ {template : Template}, template.Scoped registry seen →
    ∀ point ∈ template.points registry.root, point.question.Scoped registry seen
  | .literal _, _ => List.forall_mem_nil _
  | .reference _, valid | .capability _, valid => List.forall_mem_singleton.mpr valid
  | .list _, valid => Template.ScopedItems.points valid
  | .map _, valid => Template.ScopedEntries.points valid
  | .call call _ _ _, ⟨target, positional, keyword⟩ =>
    List.forall_mem_append.mpr ⟨Positional.Scoped.points positional,
      List.forall_mem_append.mpr ⟨Keyword.Scoped.points keyword,
        List.forall_mem_singleton.mpr (target.question call)⟩⟩
  | .malformed _, valid => valid.elim

theorem Template.ScopedItems.points : ∀ {items : List Template},
    Template.ScopedItems registry seen items →
      ∀ point ∈ Template.pointsOfItems registry.root items, point.question.Scoped registry seen
  | [], _ => List.forall_mem_nil _
  | _ :: _, ⟨first, others⟩ => List.forall_mem_append.mpr
    ⟨Template.Scoped.points first, Template.ScopedItems.points others⟩

theorem Template.ScopedEntries.points : ∀ {entries : List (String × Template)},
    Template.ScopedEntries registry seen entries →
      ∀ point ∈ Template.pointsOfEntries registry.root entries, point.question.Scoped registry seen
  | [], _ => List.forall_mem_nil _
  | (_, _) :: _, ⟨first, others⟩ => List.forall_mem_append.mpr
    ⟨Template.Scoped.points first, Template.ScopedEntries.points others⟩

theorem Positional.Scoped.points : ∀ {positional : Positional},
    positional.Scoped registry seen →
      ∀ point ∈ positional.points registry.root, point.question.Scoped registry seen
  | .items _, valid => Template.ScopedItems.points valid
  | .spread _ _, valid => List.forall_mem_singleton.mpr (Spread.Scoped.question valid)
  | .invalid _, valid => valid.elim

theorem Keyword.Scoped.points : ∀ {keyword : Keyword}, keyword.Scoped registry seen →
    ∀ point ∈ keyword.points registry.root, point.question.Scoped registry seen
  | .entries _, valid => Template.ScopedEntries.points valid
  | .spread _ _, valid => List.forall_mem_singleton.mpr (Spread.Scoped.question valid)
  | .invalid _, valid => valid.elim

end

theorem ParamField.scoped_points {field : ParamField} (valid : field.default.Scoped registry seen)
    (name : String) :
    ∀ point ∈ field.points registry.root name, point.question.Scoped registry seen := by
  unfold ParamField.points
  cases given : field.default with
  | none =>
    cases field.required with
    | true => exact List.forall_mem_singleton.mpr trivial
    | false => exact List.forall_mem_nil _
  | literal json => exact List.forall_mem_nil _
  | fetch path =>
    rw [given] at valid
    exact List.forall_mem_singleton.mpr valid
  | call spec =>
    rw [given] at valid
    exact Template.Scoped.points valid

theorem scoped_defaultPoints (present : List String) {fields : List (String × ParamField)}
    (valid : ∀ entry ∈ fields, entry.2.default.Scoped registry seen) :
    ∀ point ∈ defaultPoints registry.root present fields, point.question.Scoped registry seen := by
  induction fields with
  | nil => exact List.forall_mem_nil _
  | cons entry rest ih =>
    obtain ⟨name, field⟩ := entry
    obtain ⟨first, others⟩ := List.forall_mem_cons.mp valid
    unfold defaultPoints
    split
    · exact ih others
    · exact List.forall_mem_append.mpr ⟨ParamField.scoped_points first name, ih others⟩

/-- The points of an object that passes its check ask for what has a meaning, whatever the names of
the request data are. -/
theorem CompiledObject.Scoped.points {object : CompiledObject}
    (valid : object.Scoped registry seen) (present : List String) :
    ∀ point ∈ object.points registry.root present, point.question.Scoped registry seen := by
  cases object with
  | var key source =>
    by_cases isData : key = dataKey
    · simp only [CompiledObject.Scoped, isData, if_true] at valid
      obtain ⟨entries, rfl⟩ := valid
      simp only [CompiledObject.points, isData, if_true]
      exact List.forall_mem_nil _
    · simp only [CompiledObject.Scoped, isData, if_false] at valid
      simp only [CompiledObject.points, isData, if_false]
      cases source with
      | static json => exact List.forall_mem_nil _
      | reference name => exact List.forall_mem_singleton.mpr valid
      | call spec => exact Template.Scoped.points valid
      | fetch path => exact List.forall_mem_singleton.mpr valid
  | action key spec => exact Template.Scoped.points valid
  | params fields =>
    unfold CompiledObject.Scoped at valid
    unfold CompiledObject.points parameterPoints
    dsimp only
    split
    · exact List.forall_mem_cons.mpr ⟨trivial, scoped_defaultPoints present valid⟩
    · exact scoped_defaultPoints present valid
  | response kwargs => exact Template.Scoped.points valid

end Points

/-! ## Visits of scoped points -/

section Visiting

variable {engine : Engine σ} {scope : Scope} {context : Context} {seen : List String}
  {cause : ManifestError}

theorem Context.resolve_sound (has : context.Has seen) {reference : String}
    (reaches : Reaches seen reference) (failed : context.resolve reference = .error cause) :
    ¬cause.RuledOut := by
  unfold resolve at failed
  by_cases isData : Path.head reference = dataKey
  · simp only [isData, if_true] at failed
    obtain ⟨segment, _, rfl⟩ := Except.mapError_eq_error_iff.mp failed
    exact id
  · have executed := has _ (reaches.2.resolve_left isData)
    obtain ⟨value, found⟩ := Option.isSome_iff_exists.mp executed
    simp only [isData, if_false, found] at failed
    obtain ⟨segment, _, rfl⟩ := Except.mapError_eq_error_iff.mp failed
    exact id

/-- What is found at the path is then no function. -/
theorem Registry.callee_error_of_offers {registry : Registry σ} {path : String}
    {fault : ReferenceError} (offers : registry.Offers path)
    (failed : registry.callee path = .error fault) : fault = .notCallable path := by
  obtain ⟨target, resolved⟩ := offers
  unfold Registry.resolve at resolved
  obtain ⟨found, located, _⟩ := Except.bind_eq_ok_iff.mp resolved
  unfold callee at failed
  rw [located] at failed
  split at failed
  · cases failed
  · cases failed
    rfl
  · next same => cases same

theorem Question.Answered.sound (has : context.Has seen) {question : Question} {start final : σ}
    {made : List Event} (valid : question.Scoped engine.registry seen)
    (answered : question.Answered engine scope context start (.error cause) made final) :
    ¬cause.RuledOut := by
  have capability {path : String} {result : Except Failure Value}
      (failed : (.error cause : Except ManifestError Value) = result.mapError (.capability path)) :
      ¬cause.RuledOut := by
    obtain ⟨failure, _, rfl⟩ := Except.mapError_eq_error_iff.mp failed.symm
    exact id
  generalize failed : (.error cause : Except ManifestError Value) = answer at answered
  cases answered with
  | symbol => exact context.resolve_sound has valid failed.symm
  | value => cases failed
  | lost resolved =>
    obtain ⟨target, found⟩ := valid
    rw [found] at resolved
    cases resolved
  | fetched => exact capability failed
  | called => exact capability failed
  | uncalled found =>
    cases failed
    rw [Registry.callee_error_of_offers valid found]
    exact id
  | invoked => exact capability failed
  | unresolved resolved =>
    cases failed
    exact context.resolve_sound has valid resolved
  | notObject =>
    cases failed
    exact id
  | @flaw found _ =>
    cases failed
    cases found with
    | missing name | unsupported name => exact id
    | _ => exact valid.elim

theorem Stop.Visited.sound {stop : Stop} {start final : σ} {made : List Event}
    (has : stop.context.Has seen) (valid : stop.point.question.Scoped engine.registry seen)
    (visited : stop.Visited engine scope start (.error cause) made final) : ¬cause.RuledOut := by
  obtain ⟨answer, answered, same⟩ := visited
  cases answer with
  | error other =>
    cases same
    exact answered.sound has valid
  | ok value =>
    -- a demand that is not met is up to the value
    have refuses := Demand.refuses_of_check same.symm
    generalize stop.point.demand = demand at refuses
    cases refuses <;> exact id

end Visiting

namespace Engine

variable (engine : Engine σ) (scope : Scope)

/-- Each step of a run of scoped objects finds all blocks executed that its object may refer to. -/
theorem trail_scoped {objects : List CompiledObject} {context : Context} {seen : List String}
    (has : context.Has seen) (valid : ScopedAfter engine.registry seen objects)
    (progress : Progress σ) :
    ∀ step ∈ engine.trail scope objects context progress, ∃ seen,
      step.object.Scoped engine.registry seen ∧ step.context.Has seen := by
  induction objects generalizing context seen progress with
  | nil => exact List.forall_mem_nil _
  | cons object rest ih =>
    obtain ⟨first, others⟩ := valid
    unfold trail
    split
    · next executed =>
      refine ih ?_ others progress
      exact List.forall_mem_append.mpr ⟨has, List.forall_mem_singleton.mpr executed⟩
    · split
      · next outcome later _ =>
        exact List.forall_mem_cons.mpr
          ⟨⟨seen, first, has⟩, ih (has.settle outcome object.key) others later⟩
      · exact List.forall_mem_singleton.mpr ⟨seen, first, has⟩

/-- A run of scoped objects does not fail with what a check rules out. -/
theorem runObjects_sound {objects : List CompiledObject} {context : Context} {seen : List String}
    (has : context.Has seen) (valid : ScopedAfter engine.registry seen objects)
    {progress : Progress σ} {cause : ManifestError}
    (failed : (engine.runObjects scope objects context progress).1 = .error cause) :
    ¬cause.RuledOut := by
  obtain ⟨step, taken, stop, inside, start, made, final, visited⟩ :=
    engine.exists_failed_stop scope failed
  obtain ⟨before, checked, executed⟩ := engine.trail_scoped scope has valid progress step taken
  obtain ⟨same, among⟩ := RunStep.mem_stops_iff.mp inside
  rw [← same] at executed
  exact visited.sound executed (checked.points _ stop.point among)

theorem execute_sound {manifest : CompiledManifest} {context : Context}
    (valid : ScopedAfter engine.registry [] manifest.objects) (progress : Progress σ)
    {cause : ManifestError}
    (failed : (engine.execute scope manifest context progress).1 = .error cause) :
    ¬cause.RuledOut := by
  have nothing : context.Has [] := List.forall_mem_nil _
  rcases ran : engine.runObjects scope manifest.objects context progress with ⟨ended, after, later⟩
  rcases engine.execute_cases scope manifest context progress ran with
    ⟨other, rfl, whole⟩ | ⟨rfl, result, final, rendered, whole⟩
  · rw [whole] at failed
    cases failed
    exact engine.runObjects_sound scope nothing valid (congrArg Prod.fst ran)
  · obtain ⟨_, _, _, _, _, _, told⟩ := engine.response?_renders scope after later
    rw [whole] at failed
    rw [rendered, failed] at told
    cases told with
    | failed typeName inner => exact id
    | notJson typeName => exact id

end Engine

theorem Registry.locate_error {registry : Registry σ} {path : String} {fault : ReferenceError}
    (failed : registry.locate path = .error fault) : fault.RuledOut := by
  unfold locate at failed
  split at failed
  · cases failed
    trivial
  · split at failed
    · cases failed
      trivial
    · split at failed
      · cases failed
        trivial
      · split at failed
        · cases failed
        · cases failed
          trivial

/-- A path that leads nowhere is found by a check. -/
theorem Registry.resolve_error {registry : Registry σ} {path : String} {fault : ReferenceError}
    (failed : registry.resolve path = .error fault) : fault.RuledOut := by
  unfold resolve at failed
  cases located : registry.locate path with
  | error cause =>
    rw [located] at failed
    cases failed
    exact Registry.locate_error located
  | ok found =>
    obtain ⟨capability, rest⟩ := found
    rw [located] at failed
    cases capability with
    | function run =>
      cases rest with
      | nil => cases failed
      | cons segment more =>
        cases failed
        trivial
    | value value =>
      dsimp only [bind, Except.bind] at failed
      cases walked : value.walk rest with
      | ok found =>
        rw [walked] at failed
        cases failed
      | error segment =>
        rw [walked] at failed
        cases failed
        trivial

/-- A manifest that compiles runs within its scope, on any data and from any state of its execution.
It fails with no compile error, with no reference to a block that is not executed and with no error
of a capability path in value position; every object that runs finds the request data and executed
blocks behind its references, and values or functions at its paths. -/
theorem compiled_runs_in_scope (engine : Engine σ) {manifest : Json} {compiled : CompiledManifest}
    (accepted : compile engine.registry manifest = .ok compiled) (scope : Scope) (context : Context)
    (progress : Progress σ) :
    (∀ cause, (engine.execute scope compiled context progress).1 = .error cause →
      (∀ fault, cause ≠ .compile fault) ∧
      (∀ reference key, cause ≠ .reference (.notExecuted reference key)) ∧
      ∀ path fault, engine.registry.resolve path = .error fault → cause ≠ .reference fault) ∧
    ∀ step ∈ engine.trail scope compiled.objects context progress, ∃ seen,
      step.object.Scoped engine.registry seen ∧
        ∀ key ∈ seen, Dict.contains step.context.results key = true := by
  have valid := compile_scoped accepted
  refine ⟨?_, ?_⟩
  · intro cause failed
    have sound := engine.execute_sound scope valid progress failed
    refine ⟨?_, ?_, ?_⟩
    · rintro fault rfl
      exact sound trivial
    · rintro reference key rfl
      exact sound trivial
    · rintro path fault unresolved rfl
      exact sound (Registry.resolve_error unresolved)
  · have nothing : context.Has [] := List.forall_mem_nil _
    exact engine.trail_scoped scope nothing valid progress

/-- A request whose field `a` is given to a function that sends its arguments back. -/
def echoManifest : Json :=
  .array [.object [("var#a", .string "#__DATA__.a")],
    .object [("do#b", .object [("args", .array [.string "#a"]), ("call", .string "R.F")])],
    .object [("response", .string "#b")]]

def echoEngine : Engine Unit where
  registry := ⟨"R", [("F", .function fun _ arguments state =>
    .pure (.ok (.list arguments.positional)) state)]⟩
  host := ⟨fun _ _ _ state => .pure (.ok .null) state, fun state => ("", state)⟩

theorem echo_runs_in_scope : ∃ compiled,
    compile echoEngine.registry echoManifest = .ok compiled ∧
      ∀ (scope : Scope) (data : Dict Value) (cause : ManifestError),
        (echoEngine.execute scope compiled (.start data) (.start ())).1 = .error cause →
          ∀ reference key, cause ≠ .reference (.notExecuted reference key) := by
  have accepted : (compile echoEngine.registry echoManifest).isOk = true := by decide +kernel
  cases compiles : compile echoEngine.registry echoManifest with
  | error cause =>
    rw [compiles] at accepted
    cases accepted
  | ok compiled =>
    refine ⟨compiled, rfl, ?_⟩
    intro scope data cause failed
    have inScope := compiled_runs_in_scope echoEngine compiles scope (.start data) (.start ())
    exact (inScope.1 cause failed).2.1

end ManifestGate
