import ManifestGate.Proofs.Manifest.Dumps

/-!
# The calls of a run

The run of a manifest visits the points of its objects, step by step and in the order of the
objects, so that it makes the calls of its sites up to the place where it fails. What it calls after
that renders the response, and only a run that has succeeded comes so far.
-/

namespace ManifestGate

variable {σ : Type}

/-- The calls of a site stay its calls when the context grows. -/
theorem Site.Yields.extend {scope : Scope} {later earlier : Context} (grown : later.Extends earlier)
    {site : Site} {event : Event} (yielded : site.Yields scope earlier event) :
    site.Yields scope later event := by
  cases site with
  | fetch path => exact yielded
  | call path => exact yielded
  | method reference name =>
    obtain ⟨api, arguments, resolved, same⟩ := yielded
    exact ⟨api, arguments, grown.resolve_object resolved, same⟩

/-- If the event is the call of a function, it is made in the scope. -/
def Event.InScope (scope : Scope) : Event → Prop
  | .report _ => True
  | .called _ given _ => given = scope
  | .invoked _ _ _ => True

theorem Site.Yields.inScope {scope : Scope} {context : Context} {site : Site} {event : Event}
    (yielded : site.Yields scope context event) : event.InScope scope := by
  cases site with
  | fetch path =>
    rw [yielded]
    rfl
  | call path =>
    obtain ⟨arguments, rfl⟩ := yielded
    rfl
  | method reference name =>
    obtain ⟨api, arguments, _, rfl⟩ := yielded
    trivial

/-- The stops of a step: the points of its object, in the context that it found. -/
def RunStep.stops (root : String) (step : RunStep) : List Stop :=
  (step.object.points root (Dict.keys step.context.data)).map (Stop.mk step.context)

theorem RunStep.mem_stops_iff {root : String} {step : RunStep} {stop : Stop} :
    stop ∈ step.stops root ↔ stop.context = step.context ∧
      stop.point ∈ step.object.points root (Dict.keys step.context.data) := by
  rw [RunStep.stops, List.mem_map]
  constructor
  · intro visited
    obtain ⟨point, member, rfl⟩ := visited
    exact ⟨rfl, member⟩
  · intro found
    obtain ⟨same, member⟩ := found
    refine ⟨stop.point, member, ?_⟩
    rw [← same]

theorem RunStep.sites_stops (registry : Registry σ) (step : RunStep) :
    (step.stops registry.root).flatMap (Stop.sites registry) =
      step.object.sites registry (Dict.keys step.context.data) := by
  rw [RunStep.stops, List.flatMap_map]
  exact step.object.sites_points _

/-- A step visits its stops. -/
theorem RunStep.visits {engine : Engine σ} {scope : Scope} {progress later : Progress σ}
    (step : RunStep)
    (made : engine.step scope step.context step.object progress = (step.result, later)) :
    ∃ events, later.events = progress.events ++ events ∧
      engine.Visits scope (step.stops engine.registry.root) progress.state
        (step.result.map fun _ => ()) (calls events) later.state := by
  have follows : (engine.step scope step.context step.object).Meets
      (Follows engine scope step.context _) := engine.step_follows step.object
  obtain ⟨events, appended, visits⟩ := follows progress
  rw [made] at appended visits
  exact ⟨events, appended, visits⟩

/-- The steps of a run visit their stops one after the other. -/
theorem Engine.Takes.visits {engine : Engine σ} {scope : Scope} {context final : Context}
    {progress later : Progress σ} {steps : List RunStep} {result : Except ManifestError Unit}
    (takes : engine.Takes scope context progress steps result final later) :
    ∃ events, later.events = progress.events ++ events ∧
      engine.Visits scope (steps.flatMap (RunStep.stops engine.registry.root)) progress.state result
        (calls events) later.state := by
  induction takes with
  | done => exact ⟨[], (List.append_nil _).symm, .done⟩
  | @failed object context progress later cause made =>
    rw [List.flatMap_singleton]
    exact RunStep.visits ⟨object, context, .error cause⟩ made
  | @step object context final progress middle later outcome rest result made _ ih =>
    obtain ⟨events, appended, visits⟩ := RunStep.visits ⟨object, context, .ok outcome⟩ made
    obtain ⟨more, appendedMore, visitsMore⟩ := ih
    refine ⟨events ++ more, ?_, ?_⟩
    · rw [appendedMore, appended, List.append_assoc]
    · rw [List.flatMap_cons, calls_append]
      exact Engine.Visits.append visits visitsMore

namespace Engine

variable (engine : Engine σ) (scope : Scope)

/-- Apart from the object that replaces the request data, a run loses nothing. -/
theorem runObjects_extends {objects : List CompiledObject} {context : Context}
    (pending : Pending context objects)
    (notData : ∀ object ∈ objects, ∀ source, object ≠ .var dataKey source)
    (progress : Progress σ) :
    (engine.runObjects scope objects context progress).2.1.Extends context := by
  induction objects generalizing context progress with
  | nil => exact .refl context
  | cons object rest ih =>
    rw [engine.runObjects_cons scope pending]
    rcases ran : engine.step scope context object progress with ⟨result, later⟩
    cases result with
    | error cause => exact .refl context
    | ok outcome =>
      have first := settle_extends ran (notData object List.mem_cons_self) pending.head
      have others := ih (pending.settle outcome)
        (fun other member => notData other (List.mem_cons_of_mem _ member)) later
      exact others.trans first

/-- Where a step has called something, everything that it found is still there at the end. -/
theorem extends_of_mem_trail {objects : List CompiledObject} {context : Context}
    (pending : Pending context objects) (dataFirst : ∀ object ∈ objects.tail, object.key ≠ dataKey)
    {progress : Progress σ} {step : RunStep}
    (member : step ∈ engine.trail scope objects context progress)
    (notData : ∀ source, step.object ≠ .var dataKey source) :
    (engine.runObjects scope objects context progress).2.1.Extends step.context := by
  induction objects generalizing context progress with
  | nil => cases member
  | cons object rest ih =>
    have fresh := pending.head
    have laterNotData : ∀ other ∈ rest, ∀ source, other ≠ .var dataKey source := by
      intro other inside source same
      exact dataFirst other inside (by rw [same]; rfl)
    rw [trail, if_neg (by simp [fresh])] at member
    rw [engine.runObjects_cons scope pending]
    rcases ran : engine.step scope context object progress with ⟨result, later⟩
    rw [ran] at member
    cases result with
    | error cause =>
      rw [List.mem_singleton.mp member]
      exact .refl context
    | ok outcome =>
      cases member with
      | head =>
        have first := settle_extends ran notData fresh
        have others := engine.runObjects_extends scope (pending.settle outcome) laterNotData later
        exact others.trans first
      | tail _ inside =>
        exact ih (pending.settle outcome)
          (fun other member => dataFirst other (List.mem_of_mem_tail member)) inside

/-- What a stop has called counts as the call of its site at the end of the run, too. -/
theorem yields_at_end {objects : List CompiledObject} {context : Context}
    (pending : Pending context objects) (dataFirst : ∀ object ∈ objects.tail, object.key ≠ dataKey)
    {progress : Progress σ} {stop : Stop}
    (member : stop ∈ (engine.trail scope objects context progress).flatMap
      (RunStep.stops engine.registry.root)) :
    ∀ site ∈ stop.sites engine.registry, ∀ event, site.Yields scope stop.context event →
      site.Yields scope (engine.runObjects scope objects context progress).2.1 event := by
  intro site inside event yielded
  obtain ⟨step, taken, visited⟩ := List.mem_flatMap.mp member
  rw [(RunStep.mem_stops_iff.mp visited).1] at yielded
  refine yielded.extend (engine.extends_of_mem_trail scope pending dataFirst taken ?_)
  -- the block of the request data has no sites
  intro source isData
  have among : site ∈ (step.stops engine.registry.root).flatMap (Stop.sites engine.registry) :=
    List.mem_flatMap.mpr ⟨stop, visited, inside⟩
  rw [step.sites_stops, isData, CompiledObject.sites, if_pos rfl] at among
  cases among

/-- A run that fails does so at a stop of one of its steps. -/
theorem exists_failed_stop {objects : List CompiledObject} {context : Context}
    {progress : Progress σ} {cause : ManifestError}
    (failed : (engine.runObjects scope objects context progress).1 = .error cause) :
    ∃ step ∈ engine.trail scope objects context progress,
      ∃ stop ∈ step.stops engine.registry.root, ∃ start made final,
        stop.Visited engine scope start (.error cause) made final := by
  obtain ⟨events, _, visits⟩ := (engine.trail_takes scope objects context progress).visits
  rw [failed] at visits
  obtain ⟨front, stop, behind, parts, _, own, middle, _, _, visited⟩ := Visits.error_iff.mp visits
  have member : stop ∈ front ++ stop :: behind := List.mem_append_right _ List.mem_cons_self
  rw [← parts] at member
  obtain ⟨step, taken, inside⟩ := List.mem_flatMap.mp member
  exact ⟨step, taken, stop, inside, middle, own, _, visited⟩

/-- The sites of the stops are the first of the objects' sites, and all of them if the run
succeeds. -/
theorem sites_trail {objects : List CompiledObject} {context : Context}
    (pending : Pending context objects) (progress : Progress σ) :
    ∃ unvisited, sitesFrom engine.registry (Dict.keys context.data) objects =
        ((engine.trail scope objects context progress).flatMap
          (RunStep.stops engine.registry.root)).flatMap (Stop.sites engine.registry) ++ unvisited ∧
      ((engine.runObjects scope objects context progress).1 = .ok () → unvisited = []) := by
  induction objects generalizing context progress with
  | nil => exact ⟨[], rfl, fun _ => rfl⟩
  | cons object rest ih =>
    rw [trail, if_neg (by simp [pending.head]), engine.runObjects_cons scope pending, sitesFrom]
    rcases ran : engine.step scope context object progress with ⟨result, later⟩
    cases result with
    | error cause =>
      refine ⟨sitesFrom engine.registry (object.names (Dict.keys context.data)) rest, ?_, ?_⟩
      · dsimp only
        rw [List.flatMap_singleton, RunStep.sites_stops]
      · intro impossible
        cases impossible
    | ok outcome =>
      obtain ⟨unvisited, split, complete⟩ := ih (pending.settle outcome) later
      have sameSites : sitesFrom engine.registry
            (Dict.keys (outcome.settle context object.key).data) rest =
          sitesFrom engine.registry (object.names (Dict.keys context.data)) rest :=
        sitesFrom_congr engine.registry rest fun name _ => mem_keys_step ran name
      refine ⟨unvisited, ?_, complete⟩
      dsimp only
      rw [List.flatMap_cons, List.flatMap_append, RunStep.sites_stops, ← sameSites, split,
        List.append_assoc]

/-- Every function that a request's run calls is given the scope of the request. -/
theorem run_inScope (manifest : Json) (data : Dict Value) :
    (engine.run scope manifest data).Meets fun _ _ events _ =>
      ∀ event ∈ calls events, event.InScope scope := by
  unfold run
  rw [Action.ofExcept_bind]
  cases compile engine.registry manifest with
  | error cause => exact Action.Meets.throw fun _ => List.forall_mem_nil _
  | ok compiled =>
    intro progress
    have takes := engine.trail_takes scope compiled.objects (.start data) progress
    obtain ⟨made, appended, visits⟩ := takes.visits
    obtain ⟨more, appendedMore, dumps, _⟩ :=
      engine.execute_events scope compiled (.start data) progress
    refine ⟨made ++ more, ?_, ?_⟩
    · rw [← List.append_assoc, ← appended, ← appendedMore]
    · intro event member
      rw [calls_append, List.mem_append] at member
      cases member with
      | inl early =>
        obtain ⟨_, _, site, _, yielded⟩ := visits.exists_stop early
        exact yielded.inScope
      | inr late =>
        obtain ⟨api, rfl⟩ := dumps event late
        rfl

end Engine

/-- A run visits the stops of its steps in order: it looks each symbol and each path up, makes each
call and holds each value against its clause or its spread, and at the first of these that fails it
ends with that error. Nothing behind is visited. So up to the rendering of the response its calls
are those of the manifest's sites, in their order: all of them if every object succeeds, and
otherwise those of the stops in front of the failing one, with its own call if it came to that. Of
the request data the sites depend on nothing but the absence of declared parameters, and of the
registry on nothing but the paths that lead to functions: no answer of a function, a method or a
host has a part in them. -/
theorem calls_follow_sites (engine : Engine σ) (scope : Scope) (manifest : CompiledManifest)
    (data : Dict Value) (progress : Progress σ) :
    let run := engine.runObjects scope manifest.objects (.start data) progress
    let whole := engine.execute scope manifest (.start data) progress
    let stops := (engine.trail scope manifest.objects (.start data) progress).flatMap
      (RunStep.stops engine.registry.root)
    (∃ events, run.2.2.events = progress.events ++ events ∧
      engine.Visits scope stops progress.state run.1 (calls events) run.2.2.state ∧
      ∃ reached missed,
        manifest.sites engine.registry (Dict.keys data) = reached ++ missed ∧
        List.Forall₂ (Site.Yields scope run.2.1) reached (calls events) ∧
        (run.1 = .ok () → missed = []) ∧
        ∀ cause, run.1 = .error cause → ∃ front stop behind last,
          stops = front ++ stop :: behind ∧
          engine.FailsAt scope front stop progress.state cause (calls events) run.2.2.state ∧
          reached = front.flatMap (Stop.sites engine.registry) ++ last ∧
          (last = [] ∨ last = stop.sites engine.registry)) ∧
    (∃ events, whole.2.2.events = run.2.2.events ++ events ∧
      (∀ event ∈ calls events, ∃ api, event = engine.dumpCall scope api) ∧
      ∀ cause, run.1 = .error cause → events = [] ∧ whole.1 = .error cause) ∧
    ∀ {τ : Type} (registry : Registry τ) (other : Dict Value),
      engine.registry.SameFunctions registry →
      (∀ name ∈ manifest.declared, (name ∈ Dict.keys data ↔ name ∈ Dict.keys other)) →
        manifest.sites registry (Dict.keys other) =
          manifest.sites engine.registry (Dict.keys data) := by
  intro run whole stops
  have pending : Pending (.start data) manifest.objects := .start data manifest
  have yields : ∀ stop ∈ stops, ∀ site ∈ stop.sites engine.registry, ∀ event,
      site.Yields scope stop.context event → site.Yields scope run.2.1 event :=
    fun _ member => engine.yields_at_end scope pending manifest.dataFirst member
  refine ⟨?_, ?_, ?_⟩
  · have takes := engine.trail_takes scope manifest.objects (.start data) progress
    obtain ⟨events, appended, visits⟩ := takes.visits
    obtain ⟨unvisited, split, complete⟩ := engine.sites_trail scope pending progress
    obtain ⟨reached, missed, parts, made, all, fails⟩ := visits.reaches yields
    refine ⟨events, appended, visits, reached, missed ++ unvisited, ?_, made, ?_, fails⟩
    · rw [← List.append_assoc, ← parts]
      exact split
    · intro succeeded
      rw [all succeeded, complete succeeded]
      rfl
  · exact engine.execute_events scope manifest (.start data) progress
  · intro τ registry other same agree
    have byData := sitesFrom_congr engine.registry manifest.objects agree
    have byRegistry := same.sitesFrom_eq (Dict.keys other) manifest.objects
    rw [CompiledManifest.sites, CompiledManifest.sites, byData, byRegistry]

end ManifestGate
