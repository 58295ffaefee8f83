import Mathlib.Data.List.Forall2
import ManifestGate.Proofs.Action
import ManifestGate.Proofs.Capability.Exchange
import ManifestGate.Proofs.Manifest.Points

/-!
# Visiting points

A run visits points one after the other. What it does at a point is settled by the point, by the
context and by the state of the application, up to the arguments of the call that it may make there.
It goes on to the next point only if this one gives a value that meets its demand; behind a point
that fails, be it at a symbol, a path, a call, a clause or a spread, nothing is visited and so
nothing is called.
-/

namespace ManifestGate

variable {σ : Type}

/-- The answer to a call in a state: that of the function at its path, or of the host. -/
def Engine.reply? (engine : Engine σ) (state : σ) : Event → Option (Reply σ)
  | .report _ => none
  | .called path scope arguments =>
    match engine.registry.locate path with
    | .ok (.function run, []) => some (run scope arguments state)
    | _ => none
  | .invoked api method arguments => some (engine.host.invoke api method arguments state)

theorem Engine.reply?_called {engine : Engine σ} {path : String}
    {run : Scope → Arguments → σ → Reply σ} (found : engine.registry.callee path = .ok run)
    (scope : Scope) (arguments : Arguments) (state : σ) :
    engine.reply? state (.called path scope arguments) = some (run scope arguments state) := by
  have located : engine.registry.locate path = .ok (.function run, []) :=
    Registry.locate_of_callee found
  simp only [reply?, located]

/-- What a question makes of a state: the answer, the call if there is one, and the state after. -/
inductive Question.Answered (engine : Engine σ) (scope : Scope) (context : Context) :
    Question → σ → Except ManifestError Value → List Event → σ → Prop where
  | symbol {reference : String} {state : σ} :
      Answered engine scope context (.symbol reference) state (context.resolve reference) [] state
  | value {path : String} {value : Value} {state : σ} :
      engine.registry.resolve path = .ok (.value value) →
      Answered engine scope context (.fetch path) state (.ok value) [] state
  | lost {path : String} {fault : ReferenceError} {state : σ} :
      engine.registry.resolve path = .error fault →
      Answered engine scope context (.fetch path) state (.error (.reference fault)) [] state
  | fetched {path : String} {run : Scope → Arguments → σ → Reply σ} {state : σ} :
      engine.registry.resolve path = .ok (.function run) →
      Answered engine scope context (.fetch path) state
        ((run scope .none state).result.mapError (.capability path))
        [.called path scope .none] (run scope .none state).state
  | called {path : String} {run : Scope → Arguments → σ → Reply σ} {arguments : Arguments}
      {state : σ} : engine.registry.callee path = .ok run →
      Answered engine scope context (.call path) state
        ((run scope arguments state).result.mapError (.capability path))
        [.called path scope arguments] (run scope arguments state).state
  | uncalled {path : String} {fault : ReferenceError} {state : σ} :
      engine.registry.callee path = .error fault →
      Answered engine scope context (.call path) state (.error (.reference fault)) [] state
  | invoked {target reference name : String} {api : ApiObject} {arguments : Arguments} {state : σ} :
      context.resolve reference = .ok (.object api) →
      Answered engine scope context (.method target reference name) state
        ((engine.host.invoke api name arguments state).result.mapError (.capability target))
        [.invoked api name arguments] (engine.host.invoke api name arguments state).state
  | unresolved {target reference name : String} {cause : ManifestError} {state : σ} :
      context.resolve reference = .error cause →
      Answered engine scope context (.method target reference name) state (.error cause) [] state
  | notObject {target reference name : String} {value : Value} {state : σ} :
      context.resolve reference = .ok value → (∀ api, value ≠ .object api) →
      Answered engine scope context (.method target reference name) state
        (.error (.reference (.notObject name reference value.kind))) [] state
  | flaw {flaw : Flaw} {state : σ} :
      Answered engine scope context (.flaw flaw) state (.error flaw.error) [] state

/-- What asking comes to: the one call of the question's site, whose reply is the answer, or no call
and no change of the state; the question then has no site or fails. -/
inductive Question.Asked (engine : Engine σ) (scope : Scope) (context : Context)
    (question : Question) (start : σ) : Except ManifestError Value → List Event → σ → Prop where
  | called {site : Site} {event : Event} {reply : Reply σ} (path : String) :
      question.sites engine.registry = [site] → site.Yields scope context event →
      engine.reply? start event = some reply →
      Asked engine scope context question start (reply.result.mapError (.capability path)) [event]
        reply.state
  | noSite {answer : Except ManifestError Value} :
      question.sites engine.registry = [] →
      Asked engine scope context question start answer [] start
  | failed (cause : ManifestError) :
      Asked engine scope context question start (.error cause) [] start

/-- A point with the context in which a run comes to it. -/
structure Stop where
  context : Context
  point : Point

def Stop.sites (registry : Registry σ) (stop : Stop) : List Site :=
  stop.point.sites registry

/-- The question of the stop is answered, and what it gives is held against the demand. -/
def Stop.Visited (engine : Engine σ) (scope : Scope) (stop : Stop) (start : σ)
    (verdict : Except ManifestError Unit) (made : List Event) (final : σ) : Prop :=
  ∃ answer, stop.point.question.Answered engine scope stop.context start answer made final ∧
    verdict = answer >>= stop.point.demand.check

/-- The stops are visited in order, each in the state that the one before has left. The first that
fails ends the visit with its error, and those behind it are not visited. -/
inductive Engine.Visits (engine : Engine σ) (scope : Scope) :
    List Stop → σ → Except ManifestError Unit → List Event → σ → Prop where
  | done {state : σ} : Visits engine scope [] state (.ok ()) [] state
  | failed {stop : Stop} {behind : List Stop} {start final : σ} {cause : ManifestError}
      {made : List Event} : stop.Visited engine scope start (.error cause) made final →
      Visits engine scope (stop :: behind) start (.error cause) made final
  | passed {stop : Stop} {rest : List Stop} {start middle final : σ}
      {verdict : Except ManifestError Unit} {made more : List Event} :
      stop.Visited engine scope start (.ok ()) made middle →
      Visits engine scope rest middle verdict more final →
      Visits engine scope (stop :: rest) start verdict (made ++ more) final

/-- The stops in front have all passed and the visit ends at the next, which fails: whatever it has
called itself is called last. -/
def Engine.FailsAt (engine : Engine σ) (scope : Scope) (front : List Stop) (stop : Stop) (start : σ)
    (cause : ManifestError) (made : List Event) (final : σ) : Prop :=
  ∃ early own middle, made = early ++ own ∧ engine.Visits scope front start (.ok ()) early middle ∧
    stop.Visited engine scope middle (.error cause) own final

section Questions

variable {engine : Engine σ} {scope : Scope} {context : Context} {question : Question}
  {start final : σ} {answer : Except ManifestError Value} {made : List Event}

theorem Question.Answered.asked
    (answered : question.Answered engine scope context start answer made final) :
    question.Asked engine scope context start answer made final := by
  cases answered with
  | symbol => exact .noSite rfl
  | value resolved =>
    apply Question.Asked.noSite
    simp only [Question.sites, Registry.sites, resolved]
  | lost resolved => exact .failed _
  | @fetched path run _ resolved =>
    have found := Registry.callee_of_locate (Registry.locate_of_resolve resolved)
    have site : (Question.fetch path).sites engine.registry = [.fetch path] := by
      simp only [Question.sites, Registry.sites, resolved]
    exact .called path site rfl (Engine.reply?_called found scope .none start)
  | @called path run arguments _ found =>
    have yielded : (Site.call path).Yields scope context (.called path scope arguments) :=
      ⟨arguments, rfl⟩
    exact .called path rfl yielded (Engine.reply?_called found scope arguments start)
  | uncalled => exact .failed _
  | @invoked target reference name api arguments _ resolved =>
    have yielded : (Site.method reference name).Yields scope context
        (.invoked api name arguments) := ⟨api, arguments, resolved, rfl⟩
    exact .called target rfl yielded rfl
  | unresolved => exact .failed _
  | notObject => exact .failed _
  | flaw => exact .failed _

/-- A stop that makes a call makes that of its site; one that passes has made it. -/
theorem Stop.Visited.reaches {stop : Stop} {verdict : Except ManifestError Unit}
    (visited : stop.Visited engine scope start verdict made final) {yields : Site → Event → Prop}
    (implies : ∀ site ∈ stop.sites engine.registry, ∀ event,
      site.Yields scope stop.context event → yields site event) :
    List.Forall₂ yields (stop.sites engine.registry) made ∨
      (made = [] ∧ ∃ cause, verdict = .error cause) := by
  obtain ⟨answer, answered, same⟩ := visited
  have sites : stop.sites engine.registry = stop.point.question.sites engine.registry := rfl
  rw [sites] at implies ⊢
  cases answered.asked with
  | called path only yielded =>
    rw [only] at implies ⊢
    exact .inl (.cons (implies _ List.mem_cons_self _ yielded) .nil)
  | noSite none =>
    rw [none]
    exact .inl .nil
  | failed cause => exact .inr ⟨rfl, cause, same⟩

end Questions

namespace Engine

variable {engine : Engine σ} {scope : Scope} {first second stops front : List Stop} {stop : Stop}
  {start middle final : σ} {verdict : Except ManifestError Unit} {cause : ManifestError}
  {made more : List Event}

namespace Visits

theorem single (visited : stop.Visited engine scope start verdict made final) :
    engine.Visits scope [stop] start verdict made final := by
  cases verdict with
  | ok value =>
    have alone : engine.Visits scope [stop] start (.ok value) (made ++ []) final :=
      passed visited done
    rwa [List.append_nil] at alone
  | error cause => exact failed visited

theorem append (before : engine.Visits scope first start (.ok ()) made middle)
    (after : engine.Visits scope second middle verdict more final) :
    engine.Visits scope (first ++ second) start verdict (made ++ more) final := by
  generalize same : (.ok () : Except ManifestError Unit) = succeeded at before
  induction before with
  | done => exact after
  | failed => cases same
  | passed visited _ ih =>
    rw [List.append_assoc]
    exact passed visited (ih after same)

/-- A visit that has failed stays as it is when more stops come behind. -/
theorem leave (before : engine.Visits scope first start (.error cause) made final) :
    engine.Visits scope (first ++ second) start (.error cause) made final := by
  generalize same : (.error cause : Except ManifestError Unit) = ended at before
  induction before with
  | done => cases same
  | failed visited => exact failed visited
  | passed visited _ ih => exact passed visited (ih same)

/-- A visit fails at one of the stops: those in front of it pass, and those behind are left out. -/
theorem error_iff :
    engine.Visits scope stops start (.error cause) made final ↔
      ∃ front stop behind, stops = front ++ stop :: behind ∧
        engine.FailsAt scope front stop start cause made final := by
  constructor
  · intro visits
    generalize same : (.error cause : Except ManifestError Unit) = ended at visits
    induction visits with
    | done => cases same
    | @failed stop behind _ _ _ _ visited =>
      cases same
      exact ⟨[], stop, behind, rfl, [], _, _, rfl, .done, visited⟩
    | @passed first _ _ _ _ _ made _ visited _ ih =>
      obtain ⟨front, stop, behind, rfl, early, own, middle, rfl, before, failing⟩ := ih same
      refine ⟨first :: front, stop, behind, rfl, made ++ early, own, middle, ?_, ?_, failing⟩
      · rw [List.append_assoc]
      · exact .passed visited before
  · intro found
    obtain ⟨front, stop, behind, rfl, early, own, middle, rfl, before, failing⟩ := found
    exact before.append (.failed failing)

/-- A visit that succeeds makes the calls of all its sites. -/
theorem reaches_all (visits : engine.Visits scope stops start (.ok ()) made final)
    {yields : Site → Event → Prop}
    (implies : ∀ stop ∈ stops, ∀ site ∈ stop.sites engine.registry, ∀ event,
      site.Yields scope stop.context event → yields site event) :
    List.Forall₂ yields (stops.flatMap (Stop.sites engine.registry)) made := by
  generalize same : (.ok () : Except ManifestError Unit) = succeeded at visits
  induction visits with
  | done => exact .nil
  | failed => cases same
  | passed visited _ ih =>
    obtain ⟨impliesFirst, impliesRest⟩ := List.forall_mem_cons.mp implies
    rw [List.flatMap_cons]
    rcases visited.reaches impliesFirst with reached | ⟨_, cause, impossible⟩
    · exact List.rel_append reached (ih impliesRest same)
    · cases impossible

/-- Where a visit succeeds, every stop passes. -/
theorem passes (visits : engine.Visits scope stops start (.ok ()) made final) :
    ∀ stop ∈ stops, ∃ start made final, stop.Visited engine scope start (.ok ()) made final := by
  generalize same : (.ok () : Except ManifestError Unit) = succeeded at visits
  induction visits with
  | done => exact List.forall_mem_nil _
  | failed => cases same
  | passed visited _ ih =>
    cases same
    exact List.forall_mem_cons.mpr ⟨⟨_, _, _, visited⟩, ih rfl⟩

/-- The calls of a visit are made one after the other, each by one of the stops. -/
theorem exists_stop (visits : engine.Visits scope stops start verdict made final) {event : Event}
    (member : event ∈ made) :
    ∃ stop ∈ stops, ∃ site ∈ stop.sites engine.registry, site.Yields scope stop.context event := by
  have own {stop : Stop} {start final : σ} {verdict : Except ManifestError Unit}
      {made : List Event} (visited : stop.Visited engine scope start verdict made final)
      (member : event ∈ made) :
      ∃ site ∈ stop.sites engine.registry, site.Yields scope stop.context event := by
    obtain ⟨answer, answered, _⟩ := visited
    cases answered.asked with
    | @called site _ _ path only yielded =>
      rw [List.mem_singleton.mp member]
      have inside : site ∈ stop.point.question.sites engine.registry := by
        rw [only]
        exact List.mem_cons_self
      exact ⟨site, inside, yielded⟩
    | noSite => cases member
    | failed => cases member
  induction visits with
  | done => cases member
  | failed visited => exact ⟨_, List.mem_cons_self, own visited member⟩
  | passed visited _ ih =>
    rcases List.mem_append.mp member with early | late
    · exact ⟨_, List.mem_cons_self, own visited early⟩
    · obtain ⟨stop, inside, found⟩ := ih late
      exact ⟨stop, List.mem_cons_of_mem _ inside, found⟩

end Visits

/-- The sites whose calls are made when a visit fails: all of the stops that have passed, and that
of the failing one or none of it. -/
theorem FailsAt.reaches (fails : engine.FailsAt scope front stop start cause made final)
    {yields : Site → Event → Prop}
    (implies : ∀ other ∈ front ++ [stop], ∀ site ∈ other.sites engine.registry, ∀ event,
      site.Yields scope other.context event → yields site event) :
    ∃ last, (last = [] ∨ last = stop.sites engine.registry) ∧
      List.Forall₂ yields (front.flatMap (Stop.sites engine.registry) ++ last) made := by
  obtain ⟨early, own, middle, rfl, before, failing⟩ := fails
  obtain ⟨impliesFront, impliesLast⟩ := List.forall_mem_append.mp implies
  have reached := before.reaches_all impliesFront
  rcases failing.reaches (impliesLast stop List.mem_cons_self) with called | ⟨rfl, _⟩
  · exact ⟨_, .inr rfl, List.rel_append reached called⟩
  · exact ⟨[], .inl rfl, List.rel_append reached .nil⟩

/-- What a visit calls are the sites of its first stops, in order: those of all stops if it
succeeds, and otherwise those in front of the failing stop, with or without its own. -/
theorem Visits.reaches (visits : engine.Visits scope stops start verdict made final)
    {yields : Site → Event → Prop}
    (implies : ∀ stop ∈ stops, ∀ site ∈ stop.sites engine.registry, ∀ event,
      site.Yields scope stop.context event → yields site event) :
    ∃ reached missed, stops.flatMap (Stop.sites engine.registry) = reached ++ missed ∧
      List.Forall₂ yields reached made ∧ (verdict = .ok () → missed = []) ∧
      ∀ cause, verdict = .error cause → ∃ front stop behind last,
        stops = front ++ stop :: behind ∧
        engine.FailsAt scope front stop start cause made final ∧
        reached = front.flatMap (Stop.sites engine.registry) ++ last ∧
        (last = [] ∨ last = stop.sites engine.registry) := by
  cases verdict with
  | ok done =>
    refine ⟨_, [], (List.append_nil _).symm, visits.reaches_all implies, fun _ => rfl, ?_⟩
    intro cause impossible
    cases impossible
  | error cause =>
    obtain ⟨front, stop, behind, rfl, fails⟩ := error_iff.mp visits
    obtain ⟨last, own, called⟩ := fails.reaches fun other member => implies other (by
      rw [List.append_cons]
      exact List.mem_append_left _ member)
    have others : ∃ others, stop.sites engine.registry = last ++ others := by
      rcases own with rfl | rfl
      · exact ⟨_, rfl⟩
      · exact ⟨[], (List.append_nil _).symm⟩
    obtain ⟨others, parts⟩ := others
    refine ⟨_, others ++ behind.flatMap (Stop.sites engine.registry), ?_, called,
      fun impossible => (nomatch impossible), ?_⟩
    · rw [List.flatMap_append, List.flatMap_cons, parts]
      simp only [List.append_assoc]
    · rintro other ⟨⟩
      exact ⟨front, stop, behind, last, rfl, fails, rfl, own⟩

end Engine

end ManifestGate
