import ManifestGate.Proofs.Manifest.RunOrder
import ManifestGate.Proofs.Manifest.ScopedRun

/-!
# What calls need

A call needs a function at the end of its path. The compiler only checks that the path leads
somewhere, so a manifest may call a value: it compiles, and the call fails whenever a run comes to
it. Nothing else fails as not callable, and an object succeeds only if all the calls it makes are of
functions.
-/

namespace ManifestGate

variable {σ : Type}

/-- The path names a function, with no segment left over. -/
def Registry.Callable (registry : Registry σ) (path : String) : Prop :=
  ∃ run, registry.locate path = .ok (.function run, [])

/-- What a path leads to is a function or a value. -/
theorem Registry.Offers.callable_or_value {registry : Registry σ} {path : String}
    (offers : registry.Offers path) :
    registry.Callable path ∨ ∃ value, registry.resolve path = .ok (.value value) := by
  obtain ⟨target, resolved⟩ := offers
  cases target with
  | function run => exact .inl ⟨run, Registry.locate_of_resolve resolved⟩
  | value value => exact .inr ⟨value, resolved⟩

theorem Registry.callable_of_callee {registry : Registry σ} {path : String}
    {run : Scope → Arguments → σ → Reply σ} (found : registry.callee path = .ok run) :
    registry.Callable path :=
  ⟨run, Registry.locate_of_callee found⟩

/-- A path that is called and leads nowhere fails as a path; only what is no function fails as not
callable. -/
theorem Registry.notCallable_of_callee {registry : Registry σ} {path called : String}
    (failed : registry.callee called = .error (.notCallable path)) :
    called = path ∧ ¬registry.Callable path := by
  unfold callee at failed
  split at failed
  · cases failed
  · next found notFunction located =>
    cases failed
    refine ⟨rfl, ?_⟩
    rintro ⟨run, callable⟩
    exact notFunction run (Except.ok.inj (located.symm.trans callable))
  · next fault located =>
    cases failed
    exact (Registry.locate_error located).elim

theorem Context.resolve_ne_notCallable {context : Context} {reference : String}
    {cause : ManifestError} (failed : context.resolve reference = .error cause) (path : String) :
    cause ≠ .reference (.notCallable path) := by
  rintro rfl
  unfold resolve at failed
  dsimp only at failed
  split at failed
  · obtain ⟨segment, _, same⟩ := Except.mapError_eq_error_iff.mp failed
    cases same
  · split at failed
    · cases failed
    · obtain ⟨segment, _, same⟩ := Except.mapError_eq_error_iff.mp failed
      cases same

/-! ## Stops that call -/

section Visiting

variable {engine : Engine σ} {scope : Scope} {context : Context} {question : Question} {stop : Stop}
  {start final : σ} {made : List Event} {path : String}

theorem Question.Answered.not_callable
    (answered : question.Answered engine scope context start
      (.error (.reference (.notCallable path))) made final) :
    question = .call path ∧ ¬engine.registry.Callable path := by
  generalize failed :
    (.error (.reference (.notCallable path)) : Except ManifestError Value) = answer at answered
  have notCapability {name : String} {result : Except Failure Value} :
      (.error (.reference (.notCallable path)) : Except ManifestError Value) ≠
        result.mapError (.capability name) := by
    cases result <;> exact fun impossible => nomatch impossible
  cases answered with
  | symbol => exact absurd rfl (context.resolve_ne_notCallable failed.symm path)
  | value => cases failed
  | lost resolved =>
    cases failed
    exact (Registry.resolve_error resolved).elim
  | fetched => exact absurd failed notCapability
  | called => exact absurd failed notCapability
  | uncalled found =>
    cases failed
    obtain ⟨rfl, notFunction⟩ := Registry.notCallable_of_callee found
    exact ⟨rfl, notFunction⟩
  | invoked => exact absurd failed notCapability
  | unresolved resolved =>
    cases failed
    exact absurd rfl (context.resolve_ne_notCallable resolved path)
  | notObject => cases failed
  | @flaw found _ => cases found <;> cases failed

/-- A stop that fails as not callable asks for the call of a path that names no function. -/
theorem Stop.Visited.not_callable
    (visited : stop.Visited engine scope start (.error (.reference (.notCallable path))) made
      final) :
    stop.point.question = .call path ∧ ¬engine.registry.Callable path := by
  obtain ⟨answer, answered, same⟩ := visited
  cases answer with
  | error cause =>
    cases same
    exact answered.not_callable
  | ok value =>
    have refuses := Demand.refuses_of_check same.symm
    generalize stop.point.demand = demand at refuses
    cases refuses

/-- A call that passes is of a function. -/
theorem Stop.Visited.callable (visited : stop.Visited engine scope start (.ok ()) made final)
    (calling : stop.point.question = .call path) : engine.registry.Callable path := by
  obtain ⟨answer, answered, same⟩ := visited
  rw [calling] at answered
  cases answered with
  | called found => exact Registry.callable_of_callee found
  | uncalled => cases same

end Visiting

/-! ## Sites of calls -/

section Sites

variable {registry : Registry σ} {seen : List String} {path : String}

theorem Registry.call_notMem_sites (other : String) : .call path ∉ registry.sites other := by
  unfold Registry.sites
  split
  · simp
  · exact List.not_mem_nil

/-- A path is called at a site of an object exactly if one of its points asks for the call. -/
theorem CompiledObject.call_mem_sites_iff {object : CompiledObject} {present : List String} :
    .call path ∈ object.sites registry present ↔
      ∃ point ∈ object.points registry.root present, point.question = .call path := by
  rw [← object.sites_points, List.mem_flatMap]
  apply exists_congr
  intro point
  apply and_congr_right
  intro _
  unfold Point.sites
  cases point.question with
  | symbol reference => simp [Question.sites]
  | fetch other => simp [Question.sites, Registry.call_notMem_sites]
  | call other => simp [Question.sites, eq_comm]
  | method target reference name => simp [Question.sites]
  | flaw found => simp [Question.sites]

theorem defaultSites_subset (present : List String) (fields : List (String × ParamField)) :
    defaultSites registry present fields ⊆ defaultSites registry [] fields := by
  induction fields with
  | nil => exact List.Subset.refl _
  | cons entry rest ih =>
    obtain ⟨name, field⟩ := entry
    unfold defaultSites
    rw [if_neg List.not_mem_nil]
    split
    -- a present field has no need of its default, whose calls are sites all the same
    · exact List.Subset.trans ih (List.subset_append_right _ _)
    · exact List.append_subset.mpr ⟨List.subset_append_left _ _,
        List.Subset.trans ih (List.subset_append_right _ _)⟩

theorem CompiledObject.sites_subset (object : CompiledObject) (present : List String) :
    object.sites registry present ⊆ object.sites registry [] := by
  cases object with
  | params fields => exact defaultSites_subset present fields
  | var key source => exact List.Subset.refl _
  | action key spec => exact List.Subset.refl _
  | response kwargs => exact List.Subset.refl _

/-- The paths that an object calls lead somewhere if it passes its check. -/
theorem CompiledObject.Scoped.offers {object : CompiledObject} {present : List String}
    (valid : object.Scoped registry seen) (member : .call path ∈ object.sites registry present) :
    registry.Offers path := by
  obtain ⟨point, inside, calling⟩ := CompiledObject.call_mem_sites_iff.mp member
  have checked := valid.points present point inside
  rwa [calling] at checked

theorem ScopedAfter.exists_scoped {objects : List CompiledObject}
    (valid : ScopedAfter registry seen objects) :
    ∀ object ∈ objects, ∃ seen, object.Scoped registry seen := by
  induction objects generalizing seen with
  | nil => exact List.forall_mem_nil _
  | cons object rest ih => exact List.forall_mem_cons.mpr ⟨⟨seen, valid.1⟩, ih valid.2⟩

end Sites

/-! ## Runs -/

namespace Engine

variable (engine : Engine σ) {scope : Scope} {context : Context}

/-- An object that succeeds has made all its calls, and each was of a function. -/
theorem step_callable {object : CompiledObject} {progress later : Progress σ} {outcome : Outcome}
    (ran : engine.step scope context object progress = (.ok outcome, later)) {path : String}
    (member : .call path ∈ object.sites engine.registry (Dict.keys context.data)) :
    engine.registry.Callable path := by
  obtain ⟨_, _, visits⟩ := RunStep.visits ⟨object, context, .ok outcome⟩ ran
  obtain ⟨point, inside, calling⟩ := CompiledObject.call_mem_sites_iff.mp member
  have stops : ⟨context, point⟩ ∈
      RunStep.stops engine.registry.root ⟨object, context, .ok outcome⟩ :=
    RunStep.mem_stops_iff.mpr ⟨rfl, inside⟩
  obtain ⟨_, _, _, visited⟩ := Visits.passes visits _ stops
  exact visited.callable calling

/-- A run fails as not callable only by a call of one of its objects. -/
theorem execute_not_callable {manifest : CompiledManifest} {progress : Progress σ} {path : String}
    (failed : (engine.execute scope manifest context progress).1 =
      .error (.reference (.notCallable path))) :
    ∃ object ∈ manifest.objects,
      .call path ∈ object.sites engine.registry [] ∧ ¬engine.registry.Callable path := by
  rcases ran : engine.runObjects scope manifest.objects context progress with ⟨ended, after, later⟩
  rcases engine.execute_cases scope manifest context progress ran with
    ⟨cause, rfl, whole⟩ | ⟨rfl, result, final, rendered, whole⟩
  · rw [whole] at failed
    cases failed
    obtain ⟨step, taken, stop, inside, _, _, _, visited⟩ :=
      engine.exists_failed_stop scope (congrArg Prod.fst ran)
    obtain ⟨calling, notFunction⟩ := visited.not_callable
    have called := CompiledObject.call_mem_sites_iff.mpr
      ⟨stop.point, (RunStep.mem_stops_iff.mp inside).2, calling⟩
    exact ⟨step.object, engine.mem_of_mem_trail scope taken, step.object.sites_subset _ called,
      notFunction⟩
  · obtain ⟨_, _, _, _, _, _, told⟩ := engine.response?_renders scope after later
    rw [whole] at failed
    rw [rendered, failed] at told
    cases told

end Engine

/-- Of a manifest that compiles, every path that is called names a function or leads to a value. A
run fails as not callable only by a call of a value, and an object that makes such a call never
succeeds. -/
theorem compiled_calls_lead_somewhere (engine : Engine σ) {manifest : Json}
    {compiled : CompiledManifest} (accepted : compile engine.registry manifest = .ok compiled) :
    (∀ object ∈ compiled.objects, ∀ path, .call path ∈ object.sites engine.registry [] →
      engine.registry.Callable path ∨ ∃ value, engine.registry.resolve path = .ok (.value value)) ∧
    (∀ scope context progress path, (engine.execute scope compiled context progress).1 =
        .error (.reference (.notCallable path)) →
      ∃ object ∈ compiled.objects, .call path ∈ object.sites engine.registry [] ∧
        ∃ value, engine.registry.resolve path = .ok (.value value)) ∧
    ∀ object ∈ compiled.objects, ∀ scope context progress outcome later,
      engine.step scope context object progress = (.ok outcome, later) →
        ∀ path, .call path ∈ object.sites engine.registry (Dict.keys context.data) →
          engine.registry.Callable path := by
  have valid := compile_scoped accepted
  have somewhere : ∀ object ∈ compiled.objects, ∀ path,
      .call path ∈ object.sites engine.registry [] → engine.registry.Callable path ∨
        ∃ value, engine.registry.resolve path = .ok (.value value) := by
    intro object member path called
    obtain ⟨seen, checked⟩ := valid.exists_scoped object member
    exact (checked.offers called).callable_or_value
  refine ⟨somewhere, ?_, ?_⟩
  · intro scope context progress path failed
    obtain ⟨object, member, called, notCallable⟩ := engine.execute_not_callable failed
    exact ⟨object, member, called, (somewhere object member path called).resolve_left notCallable⟩
  · intro object _ scope context progress outcome later ran path called
    exact engine.step_callable ran called

/-! A call of a capability that is a value -/

def valueEngine : Engine Unit where
  registry := ⟨"R", [("V", .value (.number (.integer 1)))]⟩
  host := ⟨fun _ _ _ state => .pure (.ok .null) state, fun state => ("", state)⟩

def valueCall : CompiledObject :=
  .action "a" ⟨"R.V", .array [], .object [], none⟩

def valueManifest : Json :=
  .array [.object [("do#a", .object [("call", .string "R.V")])]]

def valueCompiled : CompiledManifest where
  objects := [valueCall]
  distinct := by decide
  dataFirst := by decide

theorem valueCall_never_succeeds :
    compile valueEngine.registry valueManifest = .ok valueCompiled ∧
      ∀ scope context progress outcome later,
        valueEngine.step scope context valueCall progress ≠ (.ok outcome, later) := by
  have accepted : compile valueEngine.registry valueManifest = .ok valueCompiled := rfl
  refine ⟨accepted, ?_⟩
  intro scope context progress outcome later ran
  have called : .call "R.V" ∈ valueCall.sites valueEngine.registry (Dict.keys context.data) :=
    List.mem_singleton.mpr rfl
  obtain ⟨run, located⟩ := (compiled_calls_lead_somewhere valueEngine accepted).2.2 valueCall
    List.mem_cons_self scope context progress outcome later ran "R.V" called
  have value : valueEngine.registry.locate "R.V" = .ok (.value (.number (.integer 1)), []) := rfl
  rw [value] at located
  cases located

/-- The manifest compiles, and its run fails at the call. -/
theorem valueManifest_not_callable :
    compile valueEngine.registry valueManifest = .ok valueCompiled ∧
      (valueEngine.execute ⟨"", .anonymous, .bypass⟩ valueCompiled (.start []) (.start ())).1 =
        .error (.reference (.notCallable "R.V")) :=
  ⟨rfl, rfl⟩

end ManifestGate
