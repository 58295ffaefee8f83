import ManifestGate.Proofs.Manifest.RunOrder

/-!
# Refusals behind failing calls

A call that fails ends the run. Whichever object made it, the error of the run is the failed call
itself, and a refusal of access behind the failure keeps its status. The rendering of the response
wraps what it fails with, so that a refusal there is told in the text alone.
-/

namespace ManifestGate

variable {σ α : Type}

namespace Failure

/-- A refusal is the outermost among the causes: only texts stand before it. -/
def Carries (failure : Failure) (refusal : AccessError) : Prop :=
  ∃ (texts : List String) (behind : List Cause),
    failure.causes = texts.map .message ++ .access refusal :: behind

theorem access?_eq_some_iff {failure : Failure} {refusal : AccessError} :
    failure.access? = some refusal ↔ failure.Carries refusal := by
  unfold access? Carries
  generalize failure.causes = causes
  induction causes with
  | nil => simp
  | cons cause rest ih =>
    cases cause with
    | access error =>
      constructor
      · intro found
        cases found
        exact ⟨[], rest, rfl⟩
      · rintro ⟨texts, behind, same⟩
        cases texts with
        | nil =>
          cases same
          rfl
        | cons text more => cases same
    | message text =>
      rw [List.findSome?_cons, ih]
      constructor
      · rintro ⟨texts, behind, rfl⟩
        exact ⟨text :: texts, behind, rfl⟩
      · rintro ⟨texts, behind, same⟩
        cases texts with
        | nil => cases same
        | cons first more =>
          cases same
          exact ⟨more, behind, rfl⟩

end Failure

namespace Engine

/-- From a state on the calls are answered one after the other, and the last of them fails. -/
inductive BreaksOff (engine : Engine σ) : σ → List Event → Failure → Prop where
  | failed {state : σ} {call : Event} {reply : Reply σ} {failure : Failure} :
      engine.reply? state call = some reply → reply.result = .error failure →
      BreaksOff engine state [call] failure
  | passed {state : σ} {call : Event} {rest : List Event} {reply : Reply σ} {value : Value}
      {failure : Failure} :
      engine.reply? state call = some reply → reply.result = .ok value →
      BreaksOff engine reply.state rest failure → BreaksOff engine state (call :: rest) failure

/-- The first of the calls fails and is the last, or else the others break off after it. -/
theorem BreaksOff.cons_cases {engine : Engine σ} {start : σ} {call : Event} {rest : List Event}
    {failure : Failure} {reply : Reply σ} (broken : engine.BreaksOff start (call :: rest) failure)
    (answered : engine.reply? start call = some reply) :
    reply.result = .error failure ∨
      (∃ value, reply.result = .ok value) ∧ engine.BreaksOff reply.state rest failure := by
  cases broken with
  | failed otherAnswered failed =>
    rw [answered] at otherAnswered
    cases otherAnswered
    exact .inl failed
  | passed otherAnswered passed others =>
    rw [answered] at otherAnswered
    cases otherAnswered
    exact .inr ⟨⟨_, passed⟩, others⟩

/-- A visit whose calls break off fails with the call that did. -/
theorem BreaksOff.error_of_visits {engine : Engine σ} {scope : Scope} {stops : List Stop}
    {start final : σ} {verdict : Except ManifestError Unit} {made : List Event} {failure : Failure}
    (broken : engine.BreaksOff start made failure)
    (visits : engine.Visits scope stops start verdict made final) :
    ∃ path, verdict = .error (.capability path failure) := by
  induction visits with
  | done => cases broken
  | failed visited =>
    obtain ⟨answer, answered, same⟩ := visited
    cases answered.asked with
    | called path _ _ replied =>
      rcases broken.cons_cases replied with failed | ⟨_, nothing⟩
      · refine ⟨path, ?_⟩
        rw [same, failed]
        rfl
      · cases nothing
    | noSite => cases broken
    | failed => cases broken
  | passed visited _ ih =>
    obtain ⟨answer, answered, same⟩ := visited
    cases answered.asked with
    | called path _ _ replied =>
      rcases broken.cons_cases replied with failed | ⟨_, others⟩
      · rw [failed] at same
        cases same
      · exact ih others
    | noSite => exact ih broken
    | failed => cases same

variable (engine : Engine σ) (scope : Scope)

/-- The verdict of the objects, that of the whole run and its result. -/
inductive EndsAs :
    Except ManifestError Unit → Except ManifestError Unit → Except ManifestError α → Prop where
  | stopped (cause : ManifestError) : EndsAs (.error cause) (.error cause) (.error cause)
  | rendered {verdict : Except ManifestError Unit} {result : Except ManifestError α} :
      ToldAs verdict result → EndsAs (.ok ()) verdict result

/-- A whole run visits the stops of its steps and then, if these pass, those of its dumps. -/
theorem execute_visits (manifest : CompiledManifest) (context : Context) (progress : Progress σ) :
    ∃ events stops verdict,
      (engine.execute scope manifest context progress).2.2.events = progress.events ++ events ∧
        engine.Visits scope stops progress.state verdict (calls events)
          (engine.execute scope manifest context progress).2.2.state ∧
        EndsAs (engine.runObjects scope manifest.objects context progress).1 verdict
          (engine.execute scope manifest context progress).1 := by
  let stops := (engine.trail scope manifest.objects context progress).flatMap
    (RunStep.stops engine.registry.root)
  have takes := engine.trail_takes scope manifest.objects context progress
  obtain ⟨made, appended, visits⟩ := takes.visits
  rcases ran : engine.runObjects scope manifest.objects context progress with ⟨ended, after, later⟩
  rw [ran] at appended visits
  rcases engine.execute_cases scope manifest context progress ran with
    ⟨cause, rfl, whole⟩ | ⟨rfl, result, final, rendered, whole⟩
  · rw [whole]
    exact ⟨made, stops, _, appended, visits, .stopped cause⟩
  · obtain ⟨more, appendedMore, _, objects, verdict, dumps, told⟩ :=
      engine.response?_renders scope after later
    rw [rendered] at appendedMore dumps told
    rw [whole]
    refine ⟨made ++ more, stops ++ objects.map engine.dumpStop, verdict, ?_, ?_, .rendered told⟩
    · rw [appendedMore, appended, List.append_assoc]
    · rw [calls_append]
      exact visits.append dumps

end Engine

/-- The outermost refusal behind a call that fails is that of the run if an object made the call: a
variable, an action, a parameter default, an argument of another call or the mapping of the
response. A call that renders the response loses it. -/
theorem refusal_kept_until_rendering (engine : Engine σ) (scope : Scope)
    (manifest : CompiledManifest) (context : Context) (progress : Progress σ) :
    let run := engine.runObjects scope manifest.objects context progress
    let whole := engine.execute scope manifest context progress
    ∃ events, whole.2.2.events = progress.events ++ events ∧
      ∀ failure refusal, engine.BreaksOff progress.state (calls events) failure →
        failure.Carries refusal → ∃ error, whole.1 = .error error ∧
          ((run.1 = .error error ∧ error.access? = some refusal ∧ error.status = refusal.status) ∨
            (run.1 = .ok () ∧ error.access? = none ∧ error.status = 500)) := by
  intro run whole
  obtain ⟨events, stops, verdict, appended, visits, endsAs⟩ :=
    engine.execute_visits scope manifest context progress
  refine ⟨events, appended, ?_⟩
  intro failure refusal broken carries
  obtain ⟨path, same⟩ := broken.error_of_visits visits
  change Engine.EndsAs run.1 verdict whole.1 at endsAs
  revert endsAs
  generalize run.1 = ended, whole.1 = answer
  intro endsAs
  cases endsAs with
  | stopped cause =>
    cases same
    have found := Failure.access?_eq_some_iff.mpr carries
    refine ⟨.capability path failure, rfl, .inl ⟨rfl, found, ?_⟩⟩
    rw [ManifestError.status, found]
    rfl
  | rendered told =>
    cases same
    cases told with
    | failed typeName => exact ⟨_, rfl, .inr ⟨rfl, rfl, rfl⟩⟩

/-- An object is returned, and its dump is refused. -/
def refusingDump : Engine Unit where
  registry := ⟨"R",
    [("F", .function fun _ _ state => .pure (.ok (.object ⟨0, "T", [], none⟩)) state),
      (Builtin.dumpPath,
        .function fun _ _ state => .pure (.error (.ofAccess (.denied "no"))) state)]⟩
  host := ⟨fun _ _ _ state => .pure (.ok .null) state, fun state => ("", state)⟩

def objectManifest : Json :=
  .array [.object [("response", .object [("x", .string "R.F")])]]

/-- A refusal with the status 401 is told as an internal error, from which it cannot be read. -/
theorem refusingDump_loses_refusal :
    let scope : Scope := ⟨"", .anonymous, .bypass⟩
    ∃ compiled, compile refusingDump.registry objectManifest = .ok compiled ∧
      refusingDump.BreaksOff ()
        (refusingDump.execute scope compiled (.start []) (.start ())).2.2.events
        (.ofAccess (.denied "no")) ∧
      ∃ error, (refusingDump.execute scope compiled (.start []) (.start ())).1 = .error error ∧
        error.access? = none ∧ error.status = 500 ∧ (AccessError.denied "no").status = 401 := by
  refine ⟨⟨[.response (.object [("x", .string "R.F")])], by decide, by decide⟩, rfl, ?_, ?_⟩
  · exact .passed rfl rfl (.failed rfl rfl)
  · exact ⟨_, rfl, rfl, rfl, rfl⟩

end ManifestGate
