import ManifestGate.Proofs.Manifest.Dumps

/-!
# Sessions

A session is a sequence of attempts to execute one manifest on one context. Each attempt takes up
where the one before stopped, so that over a whole session the objects succeed in their order and
each of them once. Apart from the steps that are told of it, an attempt only renders.
-/

namespace ManifestGate

variable {σ : Type}

/-- An attempt to execute a manifest; attempts need not agree on anything but the manifest. -/
structure Attempt (σ : Type) where
  engine : Engine σ
  scope : Scope
  progress : Progress σ

namespace Attempt

variable (attempt : Attempt σ) (manifest : CompiledManifest) (context : Context)

def result : Except ManifestError (Option Json) :=
  (attempt.engine.execute attempt.scope manifest context attempt.progress).1

/-- The context that the attempt leaves. -/
def after : Context :=
  (attempt.engine.execute attempt.scope manifest context attempt.progress).2.1

/-- The progress that the attempt leaves. -/
def final : Progress σ :=
  (attempt.engine.execute attempt.scope manifest context attempt.progress).2.2

def trail : List RunStep :=
  attempt.engine.trail attempt.scope manifest.objects context attempt.progress

/-- Everything that the attempt does, from its own progress to the one that it leaves: it makes the
steps of its trail, and if they succeed, it renders the response. -/
inductive Accounted : Prop where
  | stopped {cause : ManifestError} :
      attempt.engine.Takes attempt.scope context attempt.progress (attempt.trail manifest context)
        (.error cause) (attempt.after manifest context) (attempt.final manifest context) →
      attempt.result manifest context = .error cause → Accounted
  | rendered {middle : Progress σ} {events : List Event} :
      attempt.engine.Takes attempt.scope context attempt.progress (attempt.trail manifest context)
        (.ok ()) (attempt.after manifest context) middle →
      attempt.engine.response? attempt.scope (attempt.after manifest context) middle =
        (attempt.result manifest context, attempt.final manifest context) →
      (attempt.final manifest context).events = middle.events ++ events →
      (∀ event ∈ calls events, ∃ api, event = attempt.engine.dumpCall attempt.scope api) →
      Accounted

/-- What an attempt makes of a context in which exactly the first `n` objects are executed: it
leaves one in which exactly the first `m` are. -/
structure Advances (n m : Nat) : Prop where
  forward : n ≤ m
  bounded : m ≤ manifest.objects.length
  executed : Executed (manifest.objects.take m) (attempt.after manifest context)
  kept : ∀ key value, Dict.get? context.results key = some value →
    Dict.get? (attempt.after manifest context).results key = some value
  /-- The first step is that of the first object that is not executed. -/
  resumed : (attempt.trail manifest context).head?.map RunStep.object = manifest.objects[n]?
  succeeded : stepped (attempt.trail manifest context) = (manifest.objects.drop n).take (m - n)
  inOrder : ∀ step ∈ attempt.trail manifest context, ∃ earlier later,
    manifest.objects = earlier ++ step.object :: later ∧ Executed earlier step.context
  left : attempt.after manifest context = settled context (attempt.trail manifest context)
  /-- An attempt that does not come to the end has failed at the next object, and the context is the
  one that the failing step found. -/
  failed : m < manifest.objects.length → ∃ cause, attempt.result manifest context = .error cause ∧
    ∃ step ∈ attempt.trail manifest context, step.result = .error cause ∧
      manifest.objects[m]? = some step.object ∧ step.context = attempt.after manifest context

end Attempt

namespace CompiledManifest

/-- The context after a session. -/
def session (manifest : CompiledManifest) (context : Context) : List (Attempt σ) → Context
  | [] => context
  | attempt :: rest => manifest.session (attempt.after manifest context) rest

/-- The steps of a session. -/
def sessionTrail (manifest : CompiledManifest) (context : Context) : List (Attempt σ) → List RunStep
  | [] => []
  | attempt :: rest =>
    attempt.trail manifest context ++ manifest.sessionTrail (attempt.after manifest context) rest

variable (manifest : CompiledManifest)

theorem session_append (context : Context) (first second : List (Attempt σ)) :
    manifest.session context (first ++ second) =
      manifest.session (manifest.session context first) second := by
  induction first generalizing context with
  | nil => rfl
  | cons attempt rest ih => exact ih (attempt.after manifest context)

/-- No key stands on both sides of a cut. -/
theorem key_ne_of_take_drop {n : Nat} {early late : CompiledObject}
    (before : early ∈ manifest.objects.take n) (behind : late ∈ manifest.objects.drop n) :
    early.key ≠ late.key := by
  have distinct := manifest.distinct
  rw [← List.take_append_drop n manifest.objects, List.map_append, List.nodup_append] at distinct
  obtain ⟨_, _, apart⟩ := distinct
  exact apart _ (List.mem_map_of_mem before) _ (List.mem_map_of_mem behind)

/-- Where the first objects are executed, the others are still to run. -/
theorem pending_drop {n : Nat} {context : Context}
    (executed : Executed (manifest.objects.take n) context) :
    Pending context (manifest.objects.drop n) := by
  refine ⟨manifest.distinct.sublist ((List.drop_sublist n _).map _), ?_⟩
  intro object member
  rw [Bool.eq_false_iff]
  intro present
  obtain ⟨early, before, same⟩ := List.mem_map.mp ((executed object.key).mp present)
  exact manifest.key_ne_of_take_drop before member same

end CompiledManifest

theorem Engine.execute_context (engine : Engine σ) (scope : Scope) (manifest : CompiledManifest)
    (context : Context) (progress : Progress σ) :
    (engine.execute scope manifest context progress).2.1 =
      (engine.runObjects scope manifest.objects context progress).2.1 := by
  rcases ran : engine.runObjects scope manifest.objects context progress with ⟨ended, after, later⟩
  rcases engine.execute_cases scope manifest context progress ran with
    ⟨_, _, whole⟩ | ⟨_, _, _, _, whole⟩ <;> rw [whole]

theorem Engine.execute_error (engine : Engine σ) (scope : Scope) (manifest : CompiledManifest)
    (context : Context) (progress : Progress σ) {cause : ManifestError}
    (failed : (engine.runObjects scope manifest.objects context progress).1 = .error cause) :
    (engine.execute scope manifest context progress).1 = .error cause := by
  obtain ⟨_, _, _, stops⟩ := engine.execute_events scope manifest context progress
  exact (stops cause failed).2

theorem Attempt.accounted (attempt : Attempt σ) (manifest : CompiledManifest) (context : Context) :
    attempt.Accounted manifest context := by
  have takes := attempt.engine.trail_takes attempt.scope manifest.objects context attempt.progress
  rcases ran : attempt.engine.runObjects attempt.scope manifest.objects context attempt.progress
    with ⟨ended, after, later⟩
  rw [ran] at takes
  rcases attempt.engine.execute_cases attempt.scope manifest context attempt.progress ran with
    ⟨cause, rfl, whole⟩ | ⟨rfl, result, final, rendered, whole⟩
  · have same : attempt.result manifest context = .error cause := by
      rw [Attempt.result, whole]
    refine .stopped ?_ same
    rw [Attempt.after, Attempt.final, whole]
    exact takes
  · obtain ⟨events, appended, dumps, _⟩ :=
      attempt.engine.response?_renders attempt.scope after later
    rw [rendered] at appended
    have made : (attempt.final manifest context).events = later.events ++ events := by
      rw [Attempt.final, whole]
      exact appended
    refine .rendered ?_ ?_ made dumps
    · rw [Attempt.after, whole]
      exact takes
    · rw [Attempt.after, Attempt.result, Attempt.final, whole]
      exact rendered

/-- An attempt runs the objects that are not executed. -/
theorem Attempt.runs (attempt : Attempt σ) {manifest : CompiledManifest} {context : Context}
    {n : Nat} (executed : Executed (manifest.objects.take n) context) :
    Runs (manifest.objects.drop n) context (attempt.trail manifest context)
      (attempt.engine.runObjects attempt.scope manifest.objects context attempt.progress).1
      (attempt.after manifest context) := by
  have first : ∀ object ∈ manifest.objects.take n,
      Dict.contains context.results object.key = true := by
    intro object member
    exact (executed object.key).mpr (List.mem_map_of_mem member)
  have runs := attempt.engine.runs attempt.scope (manifest.pending_drop executed) attempt.progress
  rw [← attempt.engine.runObjects_skip attempt.scope first,
    ← attempt.engine.trail_skip attempt.scope first, List.take_append_drop] at runs
  rw [Attempt.after, Engine.execute_context]
  exact runs

/-- The steps of a session lead from its first context to its last, also where one attempt has
stopped and the next one takes up. -/
theorem CompiledManifest.session_connected (manifest : CompiledManifest) (context : Context)
    (attempts : List (Attempt σ)) :
    Connected context (manifest.sessionTrail context attempts)
      (manifest.session context attempts) := by
  induction attempts generalizing context with
  | nil => exact .done
  | cons attempt rest ih =>
    have takes := attempt.engine.trail_takes attempt.scope manifest.objects context attempt.progress
    rw [← Engine.execute_context] at takes
    exact takes.connected.append (ih (attempt.after manifest context))

theorem CompiledManifest.session_ran (manifest : CompiledManifest) {context : Context}
    {attempts : List (Attempt σ)} {step : RunStep} {outcome : Engine.Outcome}
    (member : step ∈ manifest.sessionTrail context attempts)
    (succeeded : step.result = .ok outcome) :
    ∃ (engine : Engine σ) (scope : Scope) (before after : Progress σ),
      engine.step scope step.context step.object before = (.ok outcome, after) := by
  induction attempts generalizing context with
  | nil => cases member
  | cons attempt rest ih =>
    rcases List.mem_append.mp member with early | late
    · have takes := attempt.engine.trail_takes attempt.scope manifest.objects context
        attempt.progress
      rw [← succeeded]
      exact ⟨attempt.engine, attempt.scope, takes.ran early⟩
    · exact ih late

/-- Where the first `n` objects are executed, an attempt advances by its successful steps. -/
theorem Attempt.advances (attempt : Attempt σ) {manifest : CompiledManifest} {context : Context}
    {n : Nat} (bounded : n ≤ manifest.objects.length)
    (executed : Executed (manifest.objects.take n) context) :
    attempt.Advances manifest context n
      (n + (stepped (attempt.trail manifest context)).length) := by
  have runs := attempt.runs executed
  obtain ⟨rest, same, complete, failing⟩ := runs.split
  have first : manifest.objects.take (n + (stepped (attempt.trail manifest context)).length) =
      manifest.objects.take n ++ stepped (attempt.trail manifest context) := by
    rw [List.take_add, same, List.take_left']
    rfl
  have others : manifest.objects.drop (n + (stepped (attempt.trail manifest context)).length) =
      rest := by
    rw [← List.drop_drop, same, List.drop_left']
    rfl
  refine ⟨Nat.le_add_right _ _, ?_, ?_, ?_, ?_, ?_, ?_, runs.settled_eq, ?_⟩
  · have total := congrArg List.length same
    rw [List.length_drop, List.length_append] at total
    omega
  · rw [first]
    exact runs.executed executed
  · intro key value stored
    exact runs.keeps (manifest.pending_drop executed) stored
  · rw [runs.head, List.head?_drop]
  · rw [Nat.add_sub_cancel_left, same, List.take_left']
    rfl
  · intro step member
    obtain ⟨earlier, later, found, before⟩ := runs.inOrder executed member
    rw [List.take_append_drop] at found
    exact ⟨earlier, later, found, before⟩
  · intro early
    have unfinished : rest ≠ [] := by
      rw [← others]
      intro none
      exact absurd (List.drop_eq_nil_iff.mp none) (Nat.not_le_of_lt early)
    cases ran : (attempt.engine.runObjects attempt.scope manifest.objects context
        attempt.progress).1 with
    | ok value => exact absurd (complete ran) unfinished
    | error cause =>
      obtain ⟨step, member, failed, next, unchanged⟩ := failing cause ran
      refine ⟨cause, attempt.engine.execute_error _ _ _ _ ran, step, member, failed, ?_, unchanged⟩
      rw [← next, ← others, List.head?_drop]

/-- A session takes the executed objects from the first `n` to the first `m`; each object in between
succeeds once, and nothing that is stored changes. -/
theorem CompiledManifest.session_executed (manifest : CompiledManifest) {context : Context}
    {n : Nat} (bounded : n ≤ manifest.objects.length)
    (executed : Executed (manifest.objects.take n) context) (attempts : List (Attempt σ)) :
    ∃ m, n ≤ m ∧ m ≤ manifest.objects.length ∧
      Executed (manifest.objects.take m) (manifest.session context attempts) ∧
      stepped (manifest.sessionTrail context attempts) = (manifest.objects.drop n).take (m - n) ∧
      (∀ key value, Dict.get? context.results key = some value →
        Dict.get? (manifest.session context attempts).results key = some value) ∧
      ∀ step ∈ manifest.sessionTrail context attempts, ∃ earlier later,
        manifest.objects = earlier ++ step.object :: later ∧ Executed earlier step.context := by
  induction attempts generalizing context n with
  | nil =>
    refine ⟨n, Nat.le_refl n, bounded, executed, ?_, fun _ _ stored => stored, ?_⟩
    · rw [Nat.sub_self]
      rfl
    · intro step member
      cases member
  | cons attempt rest ih =>
    have advances := attempt.advances bounded executed
    generalize n + (stepped (attempt.trail manifest context)).length = middle at advances
    obtain ⟨m, further, limit, after, succeeded, kept, inOrder⟩ :=
      ih advances.bounded advances.executed
    refine ⟨m, Nat.le_trans advances.forward further, limit, after, ?_, ?_, ?_⟩
    · have both : stepped (manifest.sessionTrail context (attempt :: rest)) =
          stepped (attempt.trail manifest context) ++
            stepped (manifest.sessionTrail (attempt.after manifest context) rest) := by
        simp [sessionTrail, stepped]
      have apart : m - n = (middle - n) + (m - middle) := by
        have forward := advances.forward
        omega
      have joined : n + (middle - n) = middle := Nat.add_sub_cancel' advances.forward
      rw [both, advances.succeeded, succeeded, apart, List.take_add, List.drop_drop, joined]
    · intro key value stored
      exact kept key value (advances.kept key value stored)
    · intro step member
      cases List.mem_append.mp member with
      | inl early => exact advances.inOrder step early
      | inr late => exact inOrder step late

/-- An attempt that finds nothing to run leaves everything as it is and renders. -/
theorem Attempt.only_renders (attempt : Attempt σ) {manifest : CompiledManifest} {context : Context}
    (nothing : attempt.trail manifest context = []) :
    attempt.engine.runObjects attempt.scope manifest.objects context attempt.progress =
        (.ok (), context, attempt.progress) ∧
      ∃ events, (attempt.final manifest context).events = attempt.progress.events ++ events ∧
        ∀ event ∈ calls events, ∃ api, event = attempt.engine.dumpCall attempt.scope api := by
  have takes := attempt.engine.trail_takes attempt.scope manifest.objects context attempt.progress
  change attempt.engine.Takes _ _ _ (attempt.trail manifest context) _ _ _ at takes
  rw [nothing] at takes
  obtain ⟨succeeded, unchanged, still⟩ := takes.of_nil
  obtain ⟨events, appended, dumps, _⟩ :=
    attempt.engine.execute_events attempt.scope manifest context attempt.progress
  rw [still] at appended
  exact ⟨Prod.ext succeeded (Prod.ext unchanged still), events, appended, dumps⟩

/-- Whatever its context is, an attempt does what the steps of its trail do, one after the other,
and after them it only renders. So over a whole session the objects of a manifest succeed in their
order, each of them once, and what they have stored stays. A further attempt takes up where the
session has stopped and leaves the context as its last successful step left it; after the last
object no step is left to run. -/
theorem session_resumes (manifest : CompiledManifest) (data : Dict Value)
    (attempts : List (Attempt σ)) :
    let context := manifest.session (.start data) attempts
    (∀ (attempt : Attempt σ) (found : Context), attempt.Accounted manifest found) ∧
    ∃ n, n ≤ manifest.objects.length ∧ Executed (manifest.objects.take n) context ∧
      stepped (manifest.sessionTrail (.start data) attempts) = manifest.objects.take n ∧
      (∀ step ∈ manifest.sessionTrail (.start data) attempts, ∃ earlier later,
        manifest.objects = earlier ++ step.object :: later ∧ Executed earlier step.context) ∧
      (∀ more : List (Attempt σ), ∃ m, n ≤ m ∧ m ≤ manifest.objects.length ∧
        Executed (manifest.objects.take m) (manifest.session (.start data) (attempts ++ more)) ∧
        ∀ key value, Dict.get? context.results key = some value →
          Dict.get? (manifest.session (.start data) (attempts ++ more)).results key = some value) ∧
      ∀ next : Attempt σ,
        (∃ m, next.Advances manifest context n m ∧ ∀ again : Attempt σ,
          (again.trail manifest (next.after manifest context)).head?.map RunStep.object =
            manifest.objects[m]?) ∧
        (n = manifest.objects.length →
          next.trail manifest context = [] ∧ next.after manifest context = context ∧
          next.engine.runObjects next.scope manifest.objects context next.progress =
            (.ok (), context, next.progress) ∧
          ∃ events, (next.final manifest context).events = next.progress.events ++ events ∧
            ∀ event ∈ calls events, ∃ api, event = next.engine.dumpCall next.scope api) := by
  intro context
  have none : Executed (manifest.objects.take 0) (.start data) := by
    intro key
    exact iff_of_false Bool.false_ne_true List.not_mem_nil
  obtain ⟨n, _, bounded, executed, succeeded, _, inOrder⟩ :=
    manifest.session_executed (Nat.zero_le _) none attempts
  refine ⟨fun attempt found => attempt.accounted manifest found, n, bounded, executed, succeeded,
    inOrder, ?_, ?_⟩
  · intro more
    obtain ⟨m, forward, limit, after, _, kept, _⟩ :=
      manifest.session_executed bounded executed more
    rw [manifest.session_append]
    exact ⟨m, forward, limit, after, kept⟩
  · intro next
    have advances := next.advances bounded executed
    refine ⟨⟨_, advances, ?_⟩, ?_⟩
    · intro again
      exact (again.advances advances.bounded advances.executed).resumed
    · intro all
      have runs := next.runs executed
      rw [all, List.drop_length] at runs
      obtain ⟨nothing, unchanged⟩ := runs.of_nil
      exact ⟨nothing, unchanged, next.only_renders nothing⟩

end ManifestGate
