import Mathlib.Data.List.Forall2
import ManifestGate.Proofs.Capability.Exchange
import ManifestGate.Proofs.Manifest.Trail
import ManifestGate.Proofs.TwoRuns

/-!
# Applications that answer alike

Two applications mirror each other if related states of theirs give every call the same answer and
stay related by it. Neither their states nor their functions need be the same: one may count its
calls where the other does not. A run cannot tell such applications apart. On both it makes the same
calls, comes to the same end and leaves the same context.
-/

namespace ManifestGate

variable {σ τ : Type} {α β : Type} {related : σ → τ → Prop}

/-! ## Actions -/

/-- What two runs have in common, from the progress that each starts with: the result, the calls
that they make, and that their states are still related. -/
structure Mirrored (related : σ → τ → Prop) (first : Progress σ) (second : Progress τ)
    (ran : α × Progress σ) (otherRan : α × Progress τ) : Prop where
  result : otherRan.1 = ran.1
  state : related ran.2.state otherRan.2.state
  events : ∃ made otherMade, ran.2.events = first.events ++ made ∧
    otherRan.2.events = second.events ++ otherMade ∧ calls otherMade = calls made

/-- A run that goes on from the end of another has the calls of both. -/
theorem Mirrored.trans {first : Progress σ} {second : Progress τ} {ran : α × Progress σ}
    {otherRan : α × Progress τ} {later : β × Progress σ} {otherLater : β × Progress τ}
    (before : Mirrored related first second ran otherRan)
    (after : Mirrored related ran.2 otherRan.2 later otherLater) :
    Mirrored related first second later otherLater := by
  obtain ⟨made, otherMade, appended, otherAppended, same⟩ := before.events
  obtain ⟨more, otherMore, appendedMore, otherAppendedMore, sameMore⟩ := after.events
  refine ⟨after.result, after.state, made ++ more, otherMade ++ otherMore, ?_, ?_, ?_⟩
  · rw [appendedMore, appended, List.append_assoc]
  · rw [otherAppendedMore, otherAppended, List.append_assoc]
  · rw [calls_append, calls_append, same, sameMore]

theorem Mirrored.refl {first : Progress σ} {second : Progress τ}
    (same : related first.state second.state) (result : α) :
    Mirrored related first second (result, first) (result, second) :=
  ⟨rfl, same, [], [], (List.append_nil _).symm, (List.append_nil _).symm, rfl⟩

/-- From related states both actions make the same calls and come to the same end. -/
def Action.Mirrors (related : σ → τ → Prop) (one : Action σ α) (other : Action τ α) : Prop :=
  ∀ first second, related first.state second.state →
    Mirrored related first second (one first) (other second)

namespace Action.Mirrors

theorem pure (value : α) :
    Action.Mirrors related (Pure.pure value : Action σ α) (Pure.pure value) :=
  fun _ _ same => .refl same _

theorem throw (cause : ManifestError) :
    Action.Mirrors related (MonadExcept.throw cause : Action σ α) (MonadExcept.throw cause) :=
  fun _ _ same => .refl same _

theorem ofExcept {ε : Type} (wrap : ε → ManifestError) (result : Except ε α) :
    Action.Mirrors related (Action.ofExcept wrap result : Action σ α)
      (Action.ofExcept wrap result) := by
  cases result with
  | ok value => exact .pure value
  | error cause => exact .throw (wrap cause)

theorem bind {one : Action σ α} {other : Action τ α} {next : α → Action σ β}
    {otherNext : α → Action τ β} (before : Action.Mirrors related one other)
    (after : ∀ value, Action.Mirrors related (next value) (otherNext value)) :
    Action.Mirrors related (one >>= next) (other >>= otherNext) := by
  intro first second same
  have ran := before first second same
  rw [bind_apply, bind_apply]
  generalize one first = run, other second = otherRun at ran ⊢
  obtain ⟨result, later⟩ := run
  obtain ⟨otherResult, otherLater⟩ := otherRun
  obtain rfl : otherResult = result := ran.result
  cases otherResult with
  | ok value => exact ran.trans (after value later otherLater ran.state)
  | error cause => exact ran.trans (.refl ran.state _)

/-- Nothing but another wording of the result comes after. -/
theorem thenPure {one : Action σ α} {other : Action τ α}
    (before : Action.Mirrors related one other) (f : α → β) :
    Action.Mirrors related (one >>= fun value => Pure.pure (f value))
      (other >>= fun value => Pure.pure (f value)) :=
  before.bind fun value => .pure (f value)

theorem report (report : Report) :
    Action.Mirrors related (Action.report report : Action σ Unit) (Action.report report) :=
  fun _ _ same => ⟨rfl, same, [.report report], [.report report], rfl, rfl, rfl⟩

end Action.Mirrors

/-! ## Applications -/

/-- The answers have one result and leave related states. -/
structure Reply.Mirrors (related : σ → τ → Prop) (one : Reply σ) (other : Reply τ) : Prop where
  result : other.result = one.result
  state : related one.state other.state

/-- What the two functions report of their own accord plays no part. -/
theorem Action.Mirrors.perform {path : String} {call : Event} {run : σ → Reply σ}
    {otherRun : τ → Reply τ}
    (answers : ∀ state otherState, related state otherState →
      (run state).Mirrors related (otherRun otherState)) :
    Action.Mirrors related (Action.perform path call run) (Action.perform path call otherRun) := by
  intro first second same
  have answered := answers first.state second.state same
  have alone (reports : List Report) : calls (call :: reports.map .report) = calls [call] := by
    rw [← List.singleton_append, calls_append, calls_reports, List.append_nil]
  have appended : calls (call :: (otherRun second.state).reports.map .report) =
      calls (call :: (run first.state).reports.map .report) := by
    rw [alone, alone]
  simp only [Action.perform, Progress.perform, answered.result]
  cases (run first.state).result with
  | ok value => exact ⟨rfl, answered.state, _, _, rfl, rfl, appended⟩
  | error failure => exact ⟨rfl, answered.state, _, _, rfl, rfl, appended⟩

/-- The same value, or functions that answer alike whatever they are called with. -/
inductive Capability.Mirrors (related : σ → τ → Prop) : Capability σ → Capability τ → Prop where
  | value (value : Value) : Mirrors related (.value value) (.value value)
  | function {run : Scope → Arguments → σ → Reply σ} {otherRun : Scope → Arguments → τ → Reply τ} :
      (∀ scope arguments state otherState, related state otherState →
        (run scope arguments state).Mirrors related (otherRun scope arguments otherState)) →
      Mirrors related (.function run) (.function otherRun)

namespace Registry

/-- Entries at one path. -/
structure EntryMirrors (related : σ → τ → Prop) (entry : String × Capability σ)
    (otherEntry : String × Capability τ) : Prop where
  path : otherEntry.1 = entry.1
  capability : entry.2.Mirrors related otherEntry.2

/-- What one path meets in both, with the same segments left over. -/
structure MetMirrors (related : σ → τ → Prop) (met : Capability σ × List String)
    (otherMet : Capability τ × List String) : Prop where
  capability : met.1.Mirrors related otherMet.1
  rest : otherMet.2 = met.2

end Registry

/-- Every path meets the same in both registries, and methods of API objects answer alike. -/
structure Engine.Mirrors (related : σ → τ → Prop) (one : Engine σ) (other : Engine τ) : Prop where
  root : other.registry.root = one.registry.root
  locate : ∀ path, Except.Related (Registry.MetMirrors related) (one.registry.locate path)
    (other.registry.locate path)
  invoke : ∀ api method arguments state otherState, related state otherState →
    (one.host.invoke api method arguments state).Mirrors related
      (other.host.invoke api method arguments otherState)

namespace Registry

section

variable {entries : Dict (Capability σ)} {otherEntries : Dict (Capability τ)}
  (alike : List.Forall₂ (EntryMirrors related) entries otherEntries)

include alike

theorem get?_mirrors (path : String) :
    Option.Rel (Capability.Mirrors related) (Dict.get? entries path)
      (Dict.get? otherEntries path) := by
  induction alike with
  | nil => exact .none
  | @cons entry otherEntry rest otherRest both _ ih =>
    obtain ⟨key, capability⟩ := entry
    obtain ⟨otherKey, otherCapability⟩ := otherEntry
    obtain ⟨rfl, mirrors⟩ := both
    simp only [Dict.get?]
    split
    · exact .some mirrors
    · exact ih

theorem longest?_mirrors (parts : List String) (count : Nat) :
    Option.Rel (MetMirrors related) (longest? entries parts count)
      (longest? otherEntries parts count) := by
  induction count with
  | zero => exact .none
  | succ count ih =>
    unfold longest?
    have met := get?_mirrors alike (Path.join (parts.take (count + 1)))
    generalize Dict.get? entries (Path.join (parts.take (count + 1))) = found,
      Dict.get? otherEntries (Path.join (parts.take (count + 1))) = otherFound at met ⊢
    cases met with
    | some mirrors => exact .some ⟨mirrors, rfl⟩
    | none => exact ih

end

/-- It is enough that the entries answer alike, one by one. -/
theorem locate_mirrors {one : Registry σ} {other : Registry τ} (rooted : other.root = one.root)
    (alike : List.Forall₂ (EntryMirrors related) one.entries other.entries) (path : String) :
    Except.Related (MetMirrors related) (one.locate path) (other.locate path) := by
  unfold locate
  cases Path.segments path with
  | nil => exact .error _
  | cons head parts =>
    simp only [rooted]
    split
    · exact .error _
    · split
      · exact .error _
      · have met := longest?_mirrors alike parts parts.length
        generalize longest? one.entries parts parts.length = found,
          longest? other.entries parts parts.length = otherFound at met ⊢
        cases met with
        | none => exact .error _
        | some both => exact .ok both

end Registry

/-- A path gives a value by the walk that is left, or by a call of the function that it meets. -/
theorem Registry.fetch_eq (registry : Registry σ) (scope : Scope) (path : String) :
    registry.fetch scope path =
      match registry.locate path with
      | .ok (.value value, rest) =>
        Action.ofExcept .reference ((value.walk rest).mapError (.missingSegment path))
      | .ok (.function run, []) => Action.callFunction path run scope .none
      | .ok (.function _, _ :: _) => throw (.reference (.intoFunction path))
      | .error cause => throw (.reference cause) := by
  unfold fetch resolve
  cases registry.locate path with
  | error cause => rfl
  | ok found =>
    obtain ⟨capability, rest⟩ := found
    cases capability with
    | value value =>
      cases walked : value.walk rest <;> simp [walked, Except.mapError, bind, Except.bind] <;> rfl
    | function run => cases rest <;> rfl

/-- A clause reports and fails alike. -/
theorem Ensure.enforce_mirrors (ensure : Ensure) (result : Value) :
    Action.Mirrors related (ensure.enforce result : Action σ Unit) (ensure.enforce result) := by
  unfold enforce
  split
  · cases ensure.log with
    | none =>
      cases ensure.debug with
      | none => exact .pure ()
      | some text => exact .report _
    | some text =>
      apply Action.Mirrors.bind (.report _)
      intro _
      cases ensure.debug with
      | none => exact .pure ()
      | some text => exact .report _
  · apply Action.Mirrors.bind (.report _)
    intro _
    exact .throw _

namespace Engine.Mirrors

variable {one : Engine σ} {other : Engine τ} {scope : Scope} {context : Context}

section

variable (mirrors : one.Mirrors related other)

include mirrors

theorem fetch (path : String) :
    Action.Mirrors related (one.registry.fetch scope path) (other.registry.fetch scope path) := by
  have met := mirrors.locate path
  rw [Registry.fetch_eq, Registry.fetch_eq]
  generalize one.registry.locate path = found, other.registry.locate path = otherFound at met ⊢
  cases met with
  | error cause => exact .throw _
  | @ok found otherFound both =>
    obtain ⟨capability, rest⟩ := found
    obtain ⟨otherCapability, otherRest⟩ := otherFound
    obtain ⟨alike, rfl⟩ := both
    cases alike with
    | value value => exact .ofExcept _ _
    | function answers =>
      cases otherRest with
      | nil => exact .perform (answers scope .none)
      | cons segment more => exact .throw _

theorem call (path : String) (arguments : Arguments) :
    Action.Mirrors related (one.registry.call scope path arguments)
      (other.registry.call scope path arguments) := by
  have met := mirrors.locate path
  rw [Registry.call_eq, Registry.call_eq, Registry.callee, Registry.callee]
  generalize one.registry.locate path = found, other.registry.locate path = otherFound at met ⊢
  cases met with
  | error cause => exact .throw _
  | @ok found otherFound both =>
    obtain ⟨capability, rest⟩ := found
    obtain ⟨otherCapability, otherRest⟩ := otherFound
    obtain ⟨alike, rfl⟩ := both
    cases alike with
    | value value => exact .throw _
    | function answers =>
      cases otherRest with
      | nil => exact .perform (answers scope arguments)
      | cons segment more => exact .throw _

theorem callTarget (target : String) (arguments : Arguments) :
    Action.Mirrors related (one.callTarget scope context target arguments)
      (other.callTarget scope context target arguments) := by
  unfold Engine.callTarget
  rw [mirrors.root]
  cases CallTarget.ofText one.registry.root target with
  | capability path => exact mirrors.call path arguments
  | method object name =>
    apply Action.Mirrors.bind (.ofExcept id _)
    intro value
    cases value with
    | object api => exact .perform (mirrors.invoke api name arguments)
    | _ => exact .throw _
  | unknown => exact .throw _

theorem spread (source : Spread) :
    Action.Mirrors related (one.spread scope context source)
      (other.spread scope context source) := by
  cases source with
  | reference name => exact .ofExcept id _
  | capability path => exact mirrors.fetch path
  | invalid text => exact .throw _

end

mutual

theorem evaluate (mirrors : one.Mirrors related other) : ∀ template : Template,
    Action.Mirrors related (one.evaluate scope context template)
      (other.evaluate scope context template)
  | .literal value => .pure value
  | .reference _ => .ofExcept id _
  | .capability path => mirrors.fetch path
  | .list items => (evaluateItems mirrors items).thenPure _
  | .map entries => (evaluateEntries mirrors entries).thenPure _
  | .call target positional keyword ensure => by
    apply Action.Mirrors.bind (evaluatePositional mirrors positional)
    intro arguments
    apply Action.Mirrors.bind (evaluateKeyword mirrors keyword)
    intro keywords
    apply Action.Mirrors.bind (mirrors.callTarget target _)
    intro result
    cases ensure with
    | none => exact .pure result
    | some clause => exact (clause.enforce_mirrors result).thenPure _
  | .malformed _ => .throw _

theorem evaluateItems (mirrors : one.Mirrors related other) : ∀ items : List Template,
    Action.Mirrors related (one.evaluateItems scope context items)
      (other.evaluateItems scope context items)
  | [] => .pure []
  | item :: rest => by
    apply Action.Mirrors.bind (evaluate mirrors item)
    intro value
    exact (evaluateItems mirrors rest).thenPure _

theorem evaluateEntries (mirrors : one.Mirrors related other) :
    ∀ entries : List (String × Template),
      Action.Mirrors related (one.evaluateEntries scope context entries)
        (other.evaluateEntries scope context entries)
  | [] => .pure []
  | (_, template) :: rest => by
    apply Action.Mirrors.bind (evaluate mirrors template)
    intro value
    exact (evaluateEntries mirrors rest).thenPure _

theorem evaluatePositional (mirrors : one.Mirrors related other) : ∀ positional : Positional,
    Action.Mirrors related (one.evaluatePositional scope context positional)
      (other.evaluatePositional scope context positional)
  | .items items => evaluateItems mirrors items
  | .spread text source => by
    apply Action.Mirrors.bind (mirrors.spread source)
    intro value
    cases value with
    | null => exact .pure _
    | list items => exact .pure _
    | _ => exact .throw _
  | .invalid _ => .throw _

theorem evaluateKeyword (mirrors : one.Mirrors related other) : ∀ keyword : Keyword,
    Action.Mirrors related (one.evaluateKeyword scope context keyword)
      (other.evaluateKeyword scope context keyword)
  | .entries entries => evaluateEntries mirrors entries
  | .spread text source => by
    apply Action.Mirrors.bind (mirrors.spread source)
    intro value
    cases value with
    | null => exact .pure _
    | map entries => exact .pure _
    | _ => exact .throw _
  | .invalid _ => .throw _

end

/-! ## Runs -/

section

variable (mirrors : one.Mirrors related other)

include mirrors

theorem callSpec (spec : CallSpec) :
    Action.Mirrors related (one.call scope context spec) (other.call scope context spec) := by
  unfold Engine.call
  rw [mirrors.root]
  exact mirrors.evaluate _

theorem defaultValue (name : String) (field : ParamField) :
    Action.Mirrors related (one.defaultValue scope context name field)
      (other.defaultValue scope context name field) := by
  unfold Engine.defaultValue
  cases field.default with
  | none =>
    dsimp only
    split
    · exact .throw _
    · exact .pure _
  | literal value => exact .pure _
  | fetch path => exact (mirrors.fetch path).thenPure _
  | call spec => exact (mirrors.callSpec spec).thenPure _

theorem defaults (fields : List (String × ParamField)) :
    Action.Mirrors related (one.defaults scope context fields)
      (other.defaults scope context fields) := by
  induction fields with
  | nil => exact .pure _
  | cons entry rest ih =>
    obtain ⟨name, field⟩ := entry
    unfold Engine.defaults
    split
    · exact ih
    · apply Action.Mirrors.bind (mirrors.defaultValue name field)
      intro found
      cases found with
      | none => exact ih
      | some value => exact ih.thenPure _

theorem applyParameters (fields : Dict ParamField) :
    Action.Mirrors related (one.applyParameters scope context fields)
      (other.applyParameters scope context fields) := by
  unfold Engine.applyParameters
  split
  · exact .throw _
  · exact (mirrors.defaults fields).thenPure _

theorem sourceValue (source : VariableSource) :
    Action.Mirrors related (one.sourceValue scope context source)
      (other.sourceValue scope context source) := by
  cases source with
  | static json => exact .pure _
  | reference name => exact .ofExcept id _
  | call spec => exact mirrors.callSpec spec
  | fetch path => exact mirrors.fetch path

theorem step (object : CompiledObject) :
    Action.Mirrors related (one.step scope context object) (other.step scope context object) := by
  cases object with
  | var key source =>
    unfold Engine.step
    dsimp only
    split
    · split
      · exact .pure _
      · exact .throw _
    · exact (mirrors.sourceValue source).thenPure _
  | action key spec => exact (mirrors.callSpec spec).thenPure _
  | params fields => exact (mirrors.applyParameters fields).thenPure _
  | response kwargs =>
    unfold Engine.step
    rw [mirrors.root]
    exact (mirrors.evaluate _).thenPure _

/-- Runs of the same objects on applications that answer alike take the same steps and end in the
same context. -/
theorem runObjects (objects : List CompiledObject) (scope : Scope) (context : Context)
    {first : Progress σ} {second : Progress τ} (same : related first.state second.state) :
    let ran := one.runObjects scope objects context first
    let otherRan := other.runObjects scope objects context second
    Mirrored related first second ((ran.1, ran.2.1), ran.2.2)
        ((otherRan.1, otherRan.2.1), otherRan.2.2) ∧
      other.trail scope objects context second = one.trail scope objects context first := by
  induction objects generalizing context first second with
  | nil => exact ⟨.refl same _, rfl⟩
  | cons object rest ih =>
    simp only [Engine.runObjects, Engine.trail]
    split
    · exact ih context same
    · have stepped : Mirrored related first second (one.step scope context object first)
          (other.step scope context object second) := mirrors.step object first second same
      generalize one.step scope context object first = ran,
        other.step scope context object second = otherRan at stepped ⊢
      obtain ⟨result, later⟩ := ran
      obtain ⟨otherResult, otherLater⟩ := otherRan
      obtain rfl : otherResult = result := stepped.result
      cases otherResult with
      | error cause => exact ⟨stepped.trans (.refl stepped.state _), rfl⟩
      | ok outcome =>
        obtain ⟨others, sameTrail⟩ := ih (outcome.settle context object.key) stepped.state
        exact ⟨stepped.trans others, congrArg _ sameTrail⟩

end

end Engine.Mirrors

end ManifestGate
