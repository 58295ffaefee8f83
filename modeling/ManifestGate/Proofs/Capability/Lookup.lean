import ManifestGate.Proofs.Capability.Exchange
import ManifestGate.Proofs.Capability.Namespace
import ManifestGate.Proofs.Manifest.Scoping

/-!
# Checking, fetching and calling a path

What a path comes to is told by the entries of a registry alone: by the entry that it starts with and
by the segments that are left over. Checking asks no more than that, so it tells of every fetch, with
any scope and in any state, whether it will fail before something is called.
-/

namespace ManifestGate

variable {σ : Type}

/-- What a text comes to below the root of some entries. -/
inductive Registry.ComesTo (root : String) (entries : List (String × Capability σ)) (text : String) :
    Except ReferenceError (Registry.Target σ) → Prop where
  | foreign : Path.head text ≠ root → ComesTo root entries text (.error (.notCapability text))
  | root : Path.segments text = [root] → ComesTo root entries text (.error (.onlyRoot text))
  | beside {parts : List String} : Path.segments text = root :: parts → parts ≠ [] →
      (∀ entry ∈ entries, ¬Path.segments entry.1 <+: parts) →
      ComesTo root entries text (.error (.unknownPath text))
  | function {path : String} {run : Scope → Arguments → σ → Reply σ} :
      (path, .function run) ∈ entries → Path.segments text = root :: Path.segments path →
      ComesTo root entries text (.ok (.function run))
  | intoFunction {path segment : String} {rest : List String}
      {run : Scope → Arguments → σ → Reply σ} : (path, .function run) ∈ entries →
      Path.segments text = root :: (Path.segments path ++ segment :: rest) →
      ComesTo root entries text (.error (.intoFunction text))
  | value {path : String} {rest : List String} {value found : Value} :
      (path, .value value) ∈ entries →
      Path.segments text = root :: (Path.segments path ++ rest) → value.walk rest = .ok found →
      ComesTo root entries text (.ok (.value found))
  | missing {path segment : String} {rest : List String} {value : Value} :
      (path, .value value) ∈ entries →
      Path.segments text = root :: (Path.segments path ++ rest) → value.walk rest = .error segment →
      ComesTo root entries text (.error (.missingSegment text segment))

namespace Registry

variable {registry : Registry σ} {root text path : String} {entries : List (String × Capability σ)}
  {scope : Scope} {run : Scope → Arguments → σ → Reply σ}

theorem resolve_of_locate_error {fault : ReferenceError}
    (located : registry.locate text = .error fault) : registry.resolve text = .error fault := by
  rw [resolve, located]
  rfl

theorem resolve_below (built : build root entries = .ok registry) {capability : Capability σ}
    {rest : List String} (member : (path, capability) ∈ entries)
    (segments : Path.segments text = root :: (Path.segments path ++ rest)) :
    ComesTo root entries text (registry.resolve text) := by
  have located := locate_below built member segments
  rw [resolve, located]
  cases capability with
  | function run =>
    cases rest with
    | nil =>
      rw [List.append_nil] at segments
      exact .function member segments
    | cons segment more => exact .intoFunction member segments
  | value value =>
    dsimp only [bind, Except.bind]
    cases walked : value.walk rest with
    | ok found => exact .value member segments walked
    | error segment => exact .missing member segments walked

theorem comesTo_resolve (built : build root entries = .ok registry) (text : String) :
    ComesTo root entries text (registry.resolve text) := by
  have holds := holds_of_build built
  obtain ⟨head, parts, segments⟩ := List.exists_cons_of_ne_nil (Path.segments_ne_nil text)
  by_cases rooted : head = root
  · rw [rooted] at segments
    by_cases nonempty : parts = []
    · rw [nonempty] at segments
      have located : registry.locate text = .error (.onlyRoot text) :=
        locate_root (holds.rooted ▸ segments)
      rw [resolve_of_locate_error located]
      exact .root segments
    · by_cases beside : ∀ entry ∈ entries, ¬Path.segments entry.1 <+: parts
      · rw [resolve_of_locate_error (locate_beside built segments nonempty beside)]
        exact .beside segments nonempty beside
      · push Not at beside
        obtain ⟨⟨path, capability⟩, member, rest, same⟩ := beside
        exact resolve_below built member (same ▸ segments)
  · have foreign : registry.locate text = .error (.notCapability text) := by
      rw [locate, segments, holds.rooted]
      simp [rooted]
    rw [resolve_of_locate_error foreign]
    refine .foreign ?_
    rwa [Path.head, segments]

/-! ## What the three questions make of it -/

theorem checkPath_eq_error_iff {cause : ManifestError} :
    registry.checkPath path = .error cause ↔
      ∃ fault, registry.resolve path = .error fault ∧ cause = .reference fault := by
  rw [checkPath, check]
  cases registry.resolve path with
  | ok target =>
    refine iff_of_false ?_ (by simp)
    intro refused
    cases refused
  | error fault =>
    constructor
    · intro refused
      cases refused
      exact ⟨fault, rfl, rfl⟩
    · intro found
      obtain ⟨other, same, refused⟩ := found
      cases same
      rw [refused]
      rfl

theorem fetch_of_value {value : Value} (resolved : registry.resolve path = .ok (.value value))
    (progress : Progress σ) : registry.fetch scope path progress = (.ok value, progress) := by
  rw [fetch, resolved]
  rfl

theorem fetch_of_function (resolved : registry.resolve path = .ok (.function run)) :
    registry.fetch scope path = Action.callFunction path run scope .none := by
  rw [fetch, resolved]
  rfl

theorem fetch_of_error {fault : ReferenceError} (resolved : registry.resolve path = .error fault)
    (progress : Progress σ) :
    registry.fetch scope path progress = (.error (.reference fault), progress) := by
  rw [fetch, resolved]
  rfl

theorem call_of_callee {arguments : Arguments} (found : registry.callee path = .ok run) :
    registry.call scope path arguments = Action.callFunction path run scope arguments := by
  rw [call_eq, found]
  rfl

theorem call_of_error {arguments : Arguments} {fault : ReferenceError}
    (found : registry.callee path = .error fault) (progress : Progress σ) :
    registry.call scope path arguments progress = (.error (.reference fault), progress) := by
  rw [call_eq, found]
  rfl

/-- A call runs the functions among the entries, each at its own path, and nothing else. -/
theorem callee_eq_ok_iff (built : build root entries = .ok registry) :
    registry.callee text = .ok run ↔
      ∃ path, (path, .function run) ∈ entries ∧ text = registry.absolute path := by
  have holds := holds_of_build built
  constructor
  · intro found
    have comes := comesTo_resolve built text
    rw [resolve_of_locate (locate_of_callee found)] at comes
    cases comes with
    | function member segments =>
      refine ⟨_, member, ?_⟩
      rw [← holds.rooted, ← holds.segments_absolute] at segments
      rw [← Path.join_segments text, segments, Path.join_segments]
  · intro ⟨path, member, same⟩
    rw [same]
    exact callee_of_locate (holds.locate_absolute member)

end Registry

theorem Action.callFunction_result (path : String) (run : Scope → Arguments → σ → Reply σ)
    (scope : Scope) (arguments : Arguments) (progress : Progress σ) :
    (Action.callFunction path run scope arguments progress).1 =
      (run scope arguments progress.state).result.mapError (.capability path) := by
  simp only [Action.callFunction, Action.perform, Progress.perform]
  cases (run scope arguments progress.state).result <;> rfl

namespace Registry

variable {registry : Registry σ} {root path : String} {entries : List (String × Capability σ)}

/-- What is fetched at an accepted path is a value, or what the function there answers. -/
theorem checkPath_ok_iff_fetch (built : build root entries = .ok registry) (scope : Scope)
    (progress : Progress σ) :
    registry.checkPath path = .ok () ↔
      (∃ value, (registry.fetch scope path progress).1 = .ok value) ∨
        ∃ place run failure, (place, .function run) ∈ entries ∧
          path = registry.absolute place ∧
          (run scope .none progress.state).result = .error failure ∧
          (registry.fetch scope path progress).1 = .error (.capability path failure) := by
  rw [checkPath_ok_iff, Offers]
  cases resolved : registry.resolve path with
  | error fault =>
    rw [fetch_of_error resolved]
    simp
  | ok target =>
    refine iff_of_true ⟨target, rfl⟩ ?_
    cases target with
    | value value => exact .inl ⟨value, by rw [fetch_of_value resolved]⟩
    | function run =>
      obtain ⟨place, member, same⟩ :=
        (callee_eq_ok_iff built).mp (callee_of_locate (locate_of_resolve resolved))
      rw [fetch_of_function resolved, Action.callFunction_result]
      cases answer : (run scope .none progress.state).result with
      | ok value => exact .inl ⟨value, rfl⟩
      | error failure => exact .inr ⟨place, run, failure, member, same, answer, rfl⟩

/-- A check of a path tells what every fetch will come to, whatever the scope and the state are. Of an
accepted path only the function at its end can fail to give a value; a refused path fails alike when
it is fetched, and nothing is called. Calls agree with fetches where a function stands, and fail
without calling anything at every other path. -/
theorem check_predicts_fetch (built : build root entries = .ok registry) (scope : Scope)
    (path : String) (progress : Progress σ) :
    (registry.checkPath path = .ok () → ∃ target, ComesTo root entries path (.ok target)) ∧
    (registry.checkPath path = .ok () ↔
      (∃ value, (registry.fetch scope path progress).1 = .ok value) ∨
        ∃ place run failure, (place, .function run) ∈ entries ∧
          path = registry.absolute place ∧
          (run scope .none progress.state).result = .error failure ∧
          (registry.fetch scope path progress).1 = .error (.capability path failure)) ∧
    (∀ cause, registry.checkPath path = .error cause →
      registry.fetch scope path progress = (.error cause, progress) ∧
        ∃ fault, cause = .reference fault ∧ ComesTo root entries path (.error fault)) ∧
    (∀ place run, (place, .function run) ∈ entries → path = registry.absolute place →
      registry.fetch scope path = registry.call scope path .none ∧
        registry.fetch scope path = Action.callFunction path run scope .none) ∧
    ∀ arguments, (∀ place run, (place, .function run) ∈ entries → path ≠ registry.absolute place) →
      ∃ fault, registry.call scope path arguments progress = (.error (.reference fault), progress) := by
  have comes := comesTo_resolve built path
  refine ⟨?_, checkPath_ok_iff_fetch built scope progress, ?_, ?_, ?_⟩
  · intro accepted
    obtain ⟨target, resolved⟩ := checkPath_ok_iff.mp accepted
    exact ⟨target, resolved ▸ comes⟩
  · intro cause refused
    obtain ⟨fault, resolved, rfl⟩ := checkPath_eq_error_iff.mp refused
    exact ⟨fetch_of_error resolved progress, fault, rfl, resolved ▸ comes⟩
  · intro place run member same
    have located : registry.locate path = .ok (.function run, []) := by
      rw [same]
      exact (holds_of_build built).locate_absolute member
    have fetched : registry.fetch scope path = Action.callFunction path run scope .none :=
      fetch_of_function (resolve_of_locate located)
    exact ⟨fetched.trans (call_of_callee (callee_of_locate located)).symm, fetched⟩
  · intro arguments elsewhere
    cases found : registry.callee path with
    | error fault => exact ⟨fault, call_of_error found progress⟩
    | ok run =>
      obtain ⟨place, member, same⟩ := (callee_eq_ok_iff built).mp found
      exact absurd same (elsewhere place run member)

/-- A list whose second item has a name, and a door that does not open. -/
def vaultEntries : List (String × Capability Unit) :=
  [("ITEMS", .value (.list [.null, .map [("name", .string "lamp")]])),
    ("DOOR.open", .function fun _ _ state => .pure (.error (.ofMessage "locked")) state)]

/-- The door passes its check and fails when it is opened; what lies behind it is refused at once. -/
theorem vault_check_predicts : ∃ registry, build "R" vaultEntries = .ok registry ∧
    registry.checkPath "R.ITEMS.1.name" = .ok () ∧ registry.checkPath "R.DOOR.open" = .ok () ∧
    ∀ scope progress,
      (∃ place run failure, (place, .function run) ∈ vaultEntries ∧
        (run scope .none progress.state).result = .error failure ∧
        (registry.fetch scope "R.DOOR.open" progress).1 = .error (.capability "R.DOOR.open" failure)) ∧
      registry.fetch scope "R.DOOR.open.key" progress =
        (.error (.reference (.intoFunction "R.DOOR.open.key")), progress) := by
  have built : build "R" vaultEntries =
      .ok ⟨"R", [vaultEntries[1], vaultEntries[0]]⟩ := rfl
  refine ⟨_, built, rfl, rfl, ?_⟩
  intro scope progress
  obtain ⟨_, accepted, _⟩ := check_predicts_fetch built scope "R.DOOR.open" progress
  obtain ⟨_, _, refused, _⟩ := check_predicts_fetch built scope "R.DOOR.open.key" progress
  constructor
  · cases accepted.mp rfl with
    | inl given =>
      obtain ⟨value, given⟩ := given
      cases given
    | inr failed =>
      obtain ⟨place, run, failure, member, _, answer, failed⟩ := failed
      exact ⟨place, run, failure, member, answer, failed⟩
  · exact (refused _ rfl).1

end Registry

end ManifestGate
