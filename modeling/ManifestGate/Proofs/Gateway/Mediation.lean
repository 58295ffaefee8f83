import ManifestGate.Gateway
import ManifestGate.Access.Store
import ManifestGate.Proofs.Access.Decision
import ManifestGate.Proofs.Manifest.RunOrder

/-!
# The gateway mediates every call

A request comes to five gates. The first that is shut ends it with an error of its own and leaves
everything as it was; only behind the last one is anything called, and then with the requester of the
request and the access that its group has.
-/

namespace ManifestGate

variable {σ : Type}

/-- The gates of a request, in the order in which it comes to them. -/
inductive Gate where
  | handler
  | enabled
  | user
  | access
  | data
  deriving DecidableEq

namespace Gate

/-- The place of a gate in the order. -/
def place : Gate → Nat
  | .handler => 0
  | .enabled => 1
  | .user => 2
  | .access => 3
  | .data => 4

/-- The status code that a shut gate ends a request with. -/
def status : Gate → Nat
  | .handler | .enabled => 404
  | .user | .access => 401
  | .data => 400

/-- What a gate asks of a request and its handler. -/
def Admits (gateway : Gateway σ) (request : Request) (handler : Handler) : Gate → Prop
  | .handler => True
  | .enabled => handler.enabled = true
  | .user => request.requester.isAnonymous = false ∨ handler.allowAnonymous = true
  | .access =>
    gateway.directory.Permits gateway.config.acl.enabled handler request.requester
  | .data => (∃ entries, request.data = .object entries) ∨ request.data = .null

/-- The request has a handler and the gate admits both. -/
def Open (gateway : Gateway σ) (request : Request) (gate : Gate) : Prop :=
  ∃ handler, gateway.directory.handler? request.path request.method = some handler ∧
    gate.Admits gateway request handler

/-- The error is one of those that the gate refuses a request with. -/
def Refuses (request : Request) : Gate → GatewayError → Prop
  | .handler, error =>
    error = .access (.notFound ("no handler for " ++ (request.method.name ++ " " ++ request.path)))
  | .enabled, error =>
    error = .access (.handlerDisabled (request.method.name ++ " " ++ request.path))
  | .user, error =>
    error = .access (.anonymousNotAllowed (request.method.name ++ " " ++ request.path))
  | .access, error => ∃ reason, error = .access (.denied reason)
  | .data, error => ∃ kind, error = .manifest (.requestData (.notObject kind))

theorem Refuses.status_eq {request : Request} {gate : Gate} {error : GatewayError}
    (refuses : gate.Refuses request error) : error.status = gate.status := by
  cases gate with
  | handler | enabled | user =>
    rw [refuses]
    rfl
  | access | data =>
    obtain ⟨_, rfl⟩ := refuses
    rfl

/-- The gate is the first one that is shut. -/
def Stops (gateway : Gateway σ) (request : Request) (gate : Gate) : Prop :=
  ¬gate.Open gateway request ∧
    ∀ other : Gate, other.place < gate.place → other.Open gateway request

section

variable {gateway : Gateway σ} {request : Request} {handler : Handler} {gate : Gate}

theorem open_iff (found : gateway.directory.handler? request.path request.method = some handler) :
    gate.Open gateway request ↔ gate.Admits gateway request handler := by
  constructor
  · rintro ⟨other, same, admits⟩
    rw [found] at same
    cases same
    exact admits
  · intro admits
    exact ⟨handler, found, admits⟩

theorem stops_of_found
    (found : gateway.directory.handler? request.path request.method = some handler)
    (shut : ¬gate.Admits gateway request handler)
    (earlier : ∀ other : Gate, other.place < gate.place → other.Admits gateway request handler) :
    gate.Stops gateway request := by
  refine ⟨?_, ?_⟩
  · rwa [open_iff found]
  · intro other before
    exact (open_iff found).mpr (earlier other before)

theorem handler_stops (missing : gateway.directory.handler? request.path request.method = none) :
    Gate.handler.Stops gateway request := by
  refine ⟨?_, fun _ before => nomatch before⟩
  rintro ⟨handler, found, _⟩
  rw [missing] at found
  cases found

theorem enabled_stops
    (found : gateway.directory.handler? request.path request.method = some handler)
    (disabled : ¬Gate.enabled.Admits gateway request handler) :
    Gate.enabled.Stops gateway request := by
  apply stops_of_found found disabled
  intro other before
  cases other with
  | handler => trivial
  | enabled | user | access | data => exact absurd before (by decide)

theorem user_stops
    (found : gateway.directory.handler? request.path request.method = some handler)
    (enabled : Gate.enabled.Admits gateway request handler)
    (anonymous : ¬Gate.user.Admits gateway request handler) :
    Gate.user.Stops gateway request := by
  apply stops_of_found found anonymous
  intro other before
  cases other with
  | handler => trivial
  | enabled => exact enabled
  | user | access | data => exact absurd before (by decide)

theorem access_stops
    (found : gateway.directory.handler? request.path request.method = some handler)
    (enabled : Gate.enabled.Admits gateway request handler)
    (user : Gate.user.Admits gateway request handler)
    (denied : ¬Gate.access.Admits gateway request handler) :
    Gate.access.Stops gateway request := by
  apply stops_of_found found denied
  intro other before
  cases other with
  | handler => trivial
  | enabled => exact enabled
  | user => exact user
  | access | data => exact absurd before (by decide)

theorem place_injective {first second : Gate} (same : first.place = second.place) :
    first = second := by
  cases first <;> cases second <;> first | rfl | cases same

theorem Stops.unique {other : Gate} (first : gate.Stops gateway request)
    (second : other.Stops gateway request) : gate = other := by
  rcases Nat.lt_trichotomy gate.place other.place with before | same | after
  · exact absurd (second.2 gate before) first.1
  · exact place_injective same
  · exact absurd (first.2 other after) second.1

end

end Gate

theorem requestData_ok {json : Json} {data : Dict Value} (read : requestData json = .ok data) :
    (∃ entries, json = .object entries) ∨ json = .null := by
  cases json with
  | object entries => exact .inl ⟨entries, rfl⟩
  | null => exact .inr rfl
  | _ => cases read

theorem requestData_error {json : Json} (shut : ¬((∃ entries, json = .object entries) ∨ json = .null)) :
    ∃ kind, requestData json = .error (.requestData (.notObject kind)) := by
  cases json with
  | object entries => exact absurd (.inl ⟨entries, rfl⟩) shut
  | null => exact absurd (.inr rfl) shut
  | _ => exact ⟨_, rfl⟩

namespace Gateway

variable (gateway : Gateway σ) (request : Request)

/-- Authorization passes the first four gates or refuses at the first that is shut. -/
theorem authorize_spec :
    match gateway.authorize request with
    | .ok (handler, access) =>
      gateway.directory.handler? request.path request.method = some handler ∧
        (∀ gate : Gate, gate ≠ .data → gate.Admits gateway request handler) ∧
        gateway.directory.Grants gateway.config.acl.enabled handler request.requester access
    | .error refusal =>
      ∃ gate : Gate, gate.Stops gateway request ∧ gate.Refuses request (.access refusal) := by
  unfold authorize
  cases found : gateway.directory.handler? request.path request.method with
  | none => exact ⟨.handler, Gate.handler_stops found, rfl⟩
  | some handler =>
    dsimp only
    by_cases enabled : Gate.enabled.Admits gateway request handler
    · have passes : ¬(!handler.enabled) = true := by
        simpa [Gate.Admits] using enabled
      rw [if_neg passes]
      by_cases user : Gate.user.Admits gateway request handler
      · have passes : ¬(request.requester.isAnonymous && !handler.allowAnonymous) = true := by
          simpa [Gate.Admits, or_iff_not_imp_left] using user
        rw [if_neg passes]
        have decided := gateway.directory.authorize_spec gateway.config.acl.enabled handler
          request.requester
        cases decision : gateway.directory.authorize gateway.config.acl.enabled handler
            request.requester with
        | ok access =>
          rw [decision] at decided
          refine ⟨rfl, ?_, decided.2⟩
          intro gate notData
          cases gate with
          | handler => trivial
          | enabled => exact enabled
          | user => exact user
          | access => exact decided.1
          | data => exact absurd rfl notData
        | error refusal =>
          rw [decision] at decided
          obtain ⟨shut, reason, denied⟩ := decided
          exact ⟨.access, Gate.access_stops found enabled user shut, reason, by rw [denied]⟩
      · have refused : (request.requester.isAnonymous && !handler.allowAnonymous) = true := by
          simpa [Gate.Admits] using user
        rw [if_pos refused]
        exact ⟨.user, Gate.user_stops found enabled user, rfl⟩
    · have refused : (!handler.enabled) = true := by
        simpa [Gate.Admits] using enabled
      rw [if_pos refused]
      exact ⟨.enabled, Gate.enabled_stops found enabled, rfl⟩

variable {gateway request}

/-- The first shut gate ends the request, and nothing has changed. -/
theorem handle_refused {gate : Gate} (stops : gate.Stops gateway request)
    (progress : Progress σ) :
    ∃ error, gateway.handle request progress = (.error error, progress) ∧
      gate.Refuses request error := by
  have spec := gateway.authorize_spec request
  cases passed : gateway.authorize request with
  | error refusal =>
    rw [passed] at spec
    obtain ⟨other, alsoStops, refuses⟩ := spec
    rw [← stops.unique alsoStops] at refuses
    exact ⟨_, by simp only [handle, passed], refuses⟩
  | ok entry =>
    obtain ⟨handler, access⟩ := entry
    rw [passed] at spec
    obtain ⟨found, admits, _⟩ := spec
    have shut : ¬gate.Admits gateway request handler := by
      rw [← Gate.open_iff found]
      exact stops.1
    obtain rfl : gate = .data := by
      by_contra other
      exact shut (admits gate other)
    obtain ⟨kind, refused⟩ := requestData_error shut
    exact ⟨_, by simp only [handle, passed, refused], kind, rfl⟩

/-- What is called during a request is called behind all gates. -/
theorem handle_calls (progress : Progress σ) :
    ∃ events, (gateway.handle request progress).2.events = progress.events ++ events ∧
      ∀ event ∈ calls events, (∀ gate : Gate, gate.Open gateway request) ∧
        ∃ handler scope,
          gateway.directory.handler? request.path request.method = some handler ∧
          scope.requester = request.requester ∧
          gateway.directory.Grants gateway.config.acl.enabled handler request.requester
            scope.access ∧
          event.InScope scope := by
  have spec := gateway.authorize_spec request
  unfold handle
  cases passed : gateway.authorize request with
  | error refusal => exact ⟨[], (List.append_nil _).symm, fun _ member => nomatch member⟩
  | ok entry =>
    obtain ⟨handler, access⟩ := entry
    rw [passed] at spec
    obtain ⟨found, admits, grants⟩ := spec
    cases read : requestData request.data with
    | error cause => exact ⟨[], (List.append_nil _).symm, fun _ member => nomatch member⟩
    | ok data =>
      rcases gateway.engine.host.newId progress.state with ⟨requestId, state⟩
      have openGates : ∀ gate : Gate, gate.Open gateway request := by
        intro gate
        rw [Gate.open_iff found]
        by_cases isData : gate = .data
        · rw [isData]
          exact requestData_ok read
        · exact admits gate isData
      obtain ⟨events, appended, inScope⟩ := gateway.engine.run_inScope
        ⟨requestId, request.requester, access⟩ handler.manifest data { progress with state }
      refine ⟨events, ?_, ?_⟩
      · rw [← appended]
        dsimp only
        rcases gateway.engine.run ⟨requestId, request.requester, access⟩ handler.manifest data
          { progress with state } with ⟨result, later⟩
        cases result <;> rfl
      · intro event member
        exact ⟨openGates, handler, _, found, rfl, grants, inScope event member⟩

end Gateway

/-- Complete mediation. Whatever is called during a request is called while all five gates are open,
and every function gets the requester of the request and the access that its group has. A request
that comes to a shut gate ends at the first one, with the error of that gate and without a trace. -/
theorem gateway_mediates (store : Store) (engine : Engine σ) (config : Config) (request : Request)
    (progress : Progress σ) :
    let gateway : Gateway σ := ⟨store.directory, engine, config⟩
    let outcome := gateway.handle request progress
    (∃ events, outcome.2.events = progress.events ++ events ∧
      ∀ event ∈ calls events, (∀ gate : Gate, gate.Open gateway request) ∧
        ∃ handler scope,
          store.handlers.get? (normalizePath request.path, request.method) = some handler ∧
          scope.requester = request.requester ∧
          store.directory.Grants config.acl.enabled handler request.requester scope.access ∧
          event.InScope scope) ∧
    ∀ gate : Gate, gate.Stops gateway request →
      ∃ error, outcome = (.error error, progress) ∧ gate.Refuses request error ∧
        error.status = gate.status := by
  intro gateway outcome
  refine ⟨gateway.handle_calls progress, ?_⟩
  intro gate stops
  obtain ⟨error, ended, refuses⟩ := gateway.handle_refused stops progress
  exact ⟨error, ended, refuses, refuses.status_eq⟩

end ManifestGate
