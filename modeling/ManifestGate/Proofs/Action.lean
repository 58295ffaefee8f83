import ManifestGate.Capability.Registry

/-!
# What actions return and report

An action meets a condition if, whatever came before, it only appends events, and the condition
holds of the state before, of what it returns, of what it appended and of the state after. The rules
below take an action apart along its steps, so that a condition of the interpreter is an induction
on the template and nothing about states.
-/

namespace ManifestGate

variable {σ : Type} {α β : Type}

namespace Event

/-- Whether the event is a call of a function or a method. -/
def isCall : Event → Bool
  | .report _ => false
  | .called _ _ _ => true
  | .invoked _ _ _ => true

end Event

/-- The calls among some events. -/
def calls (events : List Event) : List Event :=
  events.filter Event.isCall

@[simp] theorem calls_append (first second : List Event) :
    calls (first ++ second) = calls first ++ calls second :=
  List.filter_append first second

@[simp] theorem calls_reports (reports : List Report) : calls (reports.map .report) = [] := by
  rw [calls, List.filter_eq_nil_iff]
  intro event member
  obtain ⟨report, _, rfl⟩ := List.mem_map.mp member
  simp [Event.isCall]

/-- A call that reports something is still one call. -/
theorem calls_call {call : Event} (isCall : call.isCall = true) (reports : List Report) :
    calls (call :: reports.map .report) = [call] := by
  have only : calls [call] = [call] := List.filter_cons_of_pos isCall
  rw [← List.singleton_append, calls_append, calls_reports, only]
  rfl

namespace Action

/-- A condition on the state before, the result, the events appended and the state after. -/
abbrev Condition (σ α : Type) :=
  σ → Except ManifestError α → List Event → σ → Prop

/-- The action only appends events, and the condition holds of every run of it. -/
def Meets (action : Action σ α) (post : Condition σ α) : Prop :=
  ∀ progress, ∃ events, (action progress).2.events = progress.events ++ events ∧
    post progress.state (action progress).1 events (action progress).2.state

variable {action : Action σ α} {post : Condition σ α}

theorem Meets.weaken {weaker : Condition σ α} (met : action.Meets post)
    (weakens : ∀ start result events final,
      post start result events final → weaker start result events final) :
    action.Meets weaker := by
  intro progress
  obtain ⟨events, appended, holds⟩ := met progress
  exact ⟨events, appended, weakens _ _ _ _ holds⟩

theorem Meets.and {other : Condition σ α} (met : action.Meets post)
    (metOther : action.Meets other) :
    action.Meets fun start result events final =>
      post start result events final ∧ other start result events final := by
  intro progress
  obtain ⟨events, appended, holds⟩ := met progress
  obtain ⟨more, appendedMore, holdsMore⟩ := metOther progress
  have same : events = more := List.append_cancel_left (appended.symm.trans appendedMore)
  rw [← same] at holdsMore
  exact ⟨events, appended, holds, holdsMore⟩

theorem Meets.pure {value : α} (holds : ∀ state, post state (.ok value) [] state) :
    Meets (Pure.pure value : Action σ α) post :=
  fun progress => ⟨[], (List.append_nil progress.events).symm, holds progress.state⟩

theorem Meets.throw {cause : ManifestError} (holds : ∀ state, post state (.error cause) [] state) :
    Meets (MonadExcept.throw cause : Action σ α) post :=
  fun progress => ⟨[], (List.append_nil progress.events).symm, holds progress.state⟩

theorem Meets.report {report : Report} {post : Condition σ Unit}
    (holds : ∀ state, post state (.ok ()) [.report report] state) :
    (Action.report report : Action σ Unit).Meets post :=
  fun progress => ⟨[.report report], rfl, holds progress.state⟩

theorem bind_apply (action : Action σ α) (next : α → Action σ β) (progress : Progress σ) :
    (action >>= next) progress =
      match action progress with
      | (.ok value, later) => next value later
      | (.error cause, later) => (.error cause, later) := by
  change StateT.bind action (ExceptT.bindCont next) progress = _
  simp only [StateT.bind]
  rcases action progress with ⟨result, later⟩
  cases result <;> rfl

/-- A sequence succeeds if both of its actions do. -/
theorem bind_eq_ok_iff {action : Action σ α} {next : α → Action σ β} {value : β}
    {progress later : Progress σ} :
    (action >>= next) progress = (.ok value, later) ↔
      ∃ middle between, action progress = (.ok middle, between) ∧
        next middle between = (.ok value, later) := by
  rw [bind_apply]
  rcases action progress with ⟨result, between⟩
  cases result with
  | error cause =>
    refine ⟨fun impossible => ?_, ?_⟩
    · cases impossible
    · rintro ⟨_, _, impossible, _⟩
      cases impossible
  | ok middle =>
    refine ⟨fun succeeded => ⟨middle, between, rfl, succeeded⟩, ?_⟩
    rintro ⟨_, _, same, succeeded⟩
    cases same
    exact succeeded

/-- A sequence that ends on what its action gives succeeds where the action does. -/
theorem bind_pure_eq_ok_iff {action : Action σ α} {result : α → β} {value : β}
    {progress later : Progress σ} :
    (action >>= fun given => pure (result given)) progress = (.ok value, later) ↔
      ∃ given, action progress = (.ok given, later) ∧ result given = value := by
  rw [bind_eq_ok_iff]
  constructor
  · intro ⟨given, _, succeeded, same⟩
    cases same
    exact ⟨given, succeeded, rfl⟩
  · intro ⟨given, succeeded, same⟩
    rw [← same]
    exact ⟨given, later, succeeded, rfl⟩

theorem ofExcept_bind {ε : Type} (wrap : ε → ManifestError) (result : Except ε α)
    (next : α → Action σ β) :
    (ofExcept wrap result >>= next) =
      match result with
      | .ok value => next value
      | .error cause => MonadExcept.throw (wrap cause) := by
  cases result <;> rfl

/-- A failing step ends the action; after a successful one the rest goes on with its value. -/
theorem Meets.bind {next : α → Action σ β} {first : Condition σ α} {post : Condition σ β}
    (before : action.Meets first)
    (failed : ∀ start cause events final,
      first start (.error cause) events final → post start (.error cause) events final)
    (after : ∀ start value events middle, first start (.ok value) events middle →
      (next value).Meets fun begun result more final =>
        begun = middle → post start result (events ++ more) final) :
    (action >>= next).Meets post := by
  intro progress
  obtain ⟨events, appended, holds⟩ := before progress
  rw [bind_apply]
  rcases outcome : action progress with ⟨result, later⟩
  rw [outcome] at appended holds
  cases result with
  | ok value =>
    obtain ⟨more, appendedMore, holdsMore⟩ := after _ value events _ holds later
    refine ⟨events ++ more, ?_, holdsMore rfl⟩
    rw [appendedMore, appended, List.append_assoc]
  | error cause => exact ⟨events, appended, failed _ cause events _ holds⟩

/-- Another wording of the error changes nothing else. -/
theorem Meets.adapt {wrap : ManifestError → ManifestError}
    (met : action.Meets fun start result events final =>
      post start (result.mapError wrap) events final) :
    Meets (ExceptT.adapt wrap action : Action σ α) post := by
  intro progress
  obtain ⟨events, appended, holds⟩ := met progress
  have step : (ExceptT.adapt wrap action : Action σ α) progress =
      ((action progress).1.mapError wrap, (action progress).2) := rfl
  rw [step]
  exact ⟨events, appended, holds⟩

/-- A call is reported first and then what it reports of its own accord. -/
theorem Meets.perform {path : String} {call : Event} {run : σ → Reply σ} {post : Condition σ Value}
    (holds : ∀ state, post state ((run state).result.mapError (.capability path))
      (call :: (run state).reports.map .report) (run state).state) :
    (Action.perform path call run).Meets post := by
  intro progress
  have answered := holds progress.state
  refine ⟨call :: (run progress.state).reports.map .report, ?_, ?_⟩
  · simp only [Action.perform, Progress.perform]
    cases (run progress.state).result <;> rfl
  · simp only [Action.perform, Progress.perform]
    cases result : (run progress.state).result <;> rw [result] at answered <;> exact answered

end Action

end ManifestGate
