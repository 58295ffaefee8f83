import ManifestGate.CommandLine.Script
import ManifestGate.Proofs.Access.Decision

/-!
# The report of a decision

The command `authorize` prints the decision about a group and a handler, the command `request` puts a
user who acts as that group through the gate. The report goes by the pools alone. The gate asks first
whether decisions are enforced; where they are not, the two agree only if the pools themselves give
global access.
-/

namespace ManifestGate

/-- A report is granted at a tier exactly if the gate grants that tier, and is not granted exactly if
the gate denies. -/
structure AccessContext.AgreesWith (report : AccessContext)
    (gate : Except AccessError AccessContext) : Prop where
  granted (tier : AccessType) : report.granted = true ∧ report.accessType = tier ↔
    ∃ access, gate = .ok access ∧ access.granted = true ∧ access.accessType = tier
  denied : report.granted = false ↔ ∃ refusal, gate = .error refusal

namespace AccessContext.AgreesWith

variable {report access : AccessContext}

theorem of_granted (granted : access.granted = true) :
    report.AgreesWith (.ok access) ↔
      report.granted = true ∧ report.accessType = access.accessType := by
  constructor
  · intro agrees
    exact (agrees.granted access.accessType).mpr ⟨access, rfl, granted, rfl⟩
  · rintro ⟨reported, tier⟩
    refine ⟨fun other => ?_, ?_⟩
    · rw [tier]
      constructor
      · rintro ⟨_, same⟩
        exact ⟨access, rfl, granted, same⟩
      · rintro ⟨_, given, _, same⟩
        cases given
        exact ⟨reported, same⟩
    · simp [reported]

theorem of_denied {refusal : AccessError} :
    report.AgreesWith (.error refusal) ↔ report.granted = false := by
  constructor
  · intro agrees
    exact agrees.denied.mpr ⟨refusal, rfl⟩
  · intro refused
    refine ⟨fun tier => ?_, ?_⟩
    · simp [refused]
    · simp [refused]

end AccessContext.AgreesWith

namespace CommandLine

/-- What a script comes to on the given files, where every directory can be made. -/
def Script.outcome (files : String → FileText) : Script → Outcome
  | .finish outcome => outcome
  | .load path next => (next (files path)).outcome files
  | .ensureDirectory _ next => (next none).outcome files

/-- The decision that a request of a user who acts as a group meets at a handler. -/
def gate (config : Config) (store : Store) (handler : Handler) (user group : String) :
    Except AccessError AccessContext :=
  store.directory.authorize config.acl.enabled handler (requesterOf (some user) (some group))

section

variable {σ : Type} {config : Config} {store : Store} {path : String} {method : Method}
  {handler : Handler} {groupId : String} {group : Group}

/-- Behind an enabled handler the gateway of the command `request` decides by the gate. -/
theorem authorize_eq_gate (engine : Engine σ) (user : String) (data : Json)
    (found : store.directory.handler? path method = some handler) (enabled : handler.enabled = true) :
    Gateway.authorize ⟨store.directory, engine, config⟩
        ⟨path, method, requesterOf (some user) (some groupId), data⟩ =
      (gate config store handler user groupId).map fun access => (handler, access) := by
  have known : (requesterOf (some user) (some groupId)).isAnonymous = false := rfl
  simp only [Gateway.authorize, found, enabled, known, gate]
  rfl

theorem gate_agrees_iff (user : String) (known : store.directory.group? groupId = some group) :
    (decideAccess handler group).AgreesWith (gate config store handler user groupId) ↔
      config.acl.enabled = true ∨ Shares .global handler group := by
  have acting : store.directory.actingGroup? (requesterOf (some user) (some groupId)) = some group :=
    known
  have named : (requesterOf (some user) (some groupId)).isAnonymous = false := rfl
  unfold gate
  cases enforced : config.acl.enabled with
  | true =>
    refine iff_of_true ?_ (.inl rfl)
    cases decided : (decideAccess handler group).granted with
    | true =>
      rw [Directory.authorize_granted rfl named acting decided]
      exact (AccessContext.AgreesWith.of_granted decided).mpr ⟨decided, rfl⟩
    | false =>
      have refused : ∀ other, store.directory.actingGroup?
          (requesterOf (some user) (some groupId)) = some other →
          (decideAccess handler other).granted = false := by
        intro other same
        rw [acting] at same
        cases same
        exact decided
      obtain ⟨reason, denied⟩ := Directory.authorize_denied rfl named refused
      rw [denied]
      exact AccessContext.AgreesWith.of_denied.mpr decided
  | false =>
    obtain ⟨access, bypassed, granted, tier⟩ : ∃ access, store.directory.authorize false handler
        (requesterOf (some user) (some groupId)) = .ok access ∧ access.granted = true ∧
          access.accessType = .global := ⟨_, rfl, rfl, rfl⟩
    rw [bypassed, AccessContext.AgreesWith.of_granted granted, tier, decideAccess_granted_iff,
      decideAccess_global_iff]
    constructor
    · rintro ⟨_, shared⟩
      exact .inr shared
    · rintro (impossible | shared)
      · cases impossible
      · exact ⟨.inl shared, shared⟩

end

/-- The command `authorize` prints the decision of the pools, whatever is configured. It agrees with
the gate of the command `request` exactly if decisions are enforced or the global pools share a
key. -/
theorem report_agrees_iff_enforced_or_global {σ : Type} (host : Host σ) (state : σ) (config : Config)
    (files : String → FileText) {source contents : String} {store : Store} {path : String}
    {method : Method} {handler : Handler} {groupId : String} {group : Group} (user : String)
    (readable : files source = .text contents) (parsed : Store.ofToml contents = .ok store)
    (found : store.directory.handler? path method = some handler)
    (known : store.directory.group? groupId = some group) :
    (commandScript host state config (.authorize source path method groupId)).outcome files =
        printed (decideAccess handler group).toJson ∧
      ((decideAccess handler group).AgreesWith (gate config store handler user groupId) ↔
        config.acl.enabled = true ∨ Shares .global handler group) ∧
      ∀ (engine : Engine σ) (data : Json), handler.enabled = true →
        Gateway.authorize ⟨store.directory, engine, config⟩
            ⟨path, method, requesterOf (some user) (some groupId), data⟩ =
          (gate config store handler user groupId).map fun access => (handler, access) := by
  refine ⟨?_, gate_agrees_iff user known, ?_⟩
  · simp only [commandScript, authorizeScript, readStore, Script.outcome, readable, Script.andThen,
      parsed, found, Directory.decideFor, known]
  · intro engine data enabled
    exact authorize_eq_gate engine user data found enabled

/-- A store with a group and a handler that have no key. -/
def keylessText : String :=
  "[[groups]]\nid = \"g\"\n[[handlers]]\nid = \"h\"\npath = \"a\"\nmethod = \"GET\"\n"

def keylessFiles (path : String) : FileText :=
  if path = "store.toml" then .text keylessText else .missing

/-- Whether the pools refuse the group at the handler. -/
def refusesKeyless (store : Store) : Bool :=
  match store.directory.handler? "a" .get, store.directory.group? "g" with
  | some handler, some group => !(decideAccess handler group).granted
  | _, _ => false

theorem keyless_read : ∃ store handler group, Store.ofToml keylessText = .ok store ∧
    store.directory.handler? "a" .get = some handler ∧
    store.directory.group? "g" = some group ∧ (decideAccess handler group).granted = false := by
  have evaluated : (Store.ofToml keylessText).toOption.map refusesKeyless = some true := by
    decide +kernel
  cases parsed : Store.ofToml keylessText with
  | error cause =>
    rw [parsed] at evaluated
    cases evaluated
  | ok store =>
    rw [parsed] at evaluated
    have refuses : refusesKeyless store = true := Option.some.inj evaluated
    unfold refusesKeyless at refuses
    split at refuses
    · next handler group found known =>
      exact ⟨store, handler, group, rfl, found, known, by simpa using refuses⟩
    · cases refuses

/-- Where decisions are enforced, the report of a refusal is what the gate does. -/
theorem keyless_report_agrees : ∃ store handler group, Store.ofToml keylessText = .ok store ∧
    store.directory.handler? "a" .get = some handler ∧
    store.directory.group? "g" = some group ∧
    (decideAccess handler group).AgreesWith (gate .default store handler "u" "g") := by
  obtain ⟨store, handler, group, parsed, found, known, _⟩ := keyless_read
  have host : Host Unit := ⟨fun _ _ _ state => .pure (.ok .null) state, fun state => ("", state)⟩
  refine ⟨store, handler, group, parsed, found, known, ?_⟩
  have readable : keylessFiles "store.toml" = .text keylessText := rfl
  have agrees := (report_agrees_iff_enforced_or_global host () .default keylessFiles "u" readable
    parsed found known).2.1
  exact agrees.mpr (.inl rfl)

def unenforced : Config :=
  { Config.default with acl := { AclConfig.default with enabled := false } }

/-- Where decisions are not enforced, the command `authorize` reports that a group has no access, and
the gate grants a user of that group global access. -/
theorem unenforced_report_disagrees : ∃ store handler,
    ∃ report : AccessContext, Store.ofToml keylessText = .ok store ∧
    store.directory.handler? "a" .get = some handler ∧
    (store.directory.group? "g").isSome = true ∧
    (authorizeScript "store.toml" "a" .get "g").outcome keylessFiles = printed report.toJson ∧
    report.granted = false ∧
    ∃ access, gate unenforced store handler "u" "g" = .ok access ∧ access.granted = true ∧
      access.accessType = .global := by
  obtain ⟨store, handler, group, parsed, found, known, refused⟩ := keyless_read
  refine ⟨store, handler, decideAccess handler group, parsed, found, ?_, ?_, refused, _, rfl, rfl, rfl⟩
  · rw [known]
    rfl
  · have readable : keylessFiles "store.toml" = .text keylessText := rfl
    simp only [authorizeScript, readStore, Script.outcome, readable, Script.andThen, parsed, found,
      Directory.decideFor, known]

end CommandLine

end ManifestGate
