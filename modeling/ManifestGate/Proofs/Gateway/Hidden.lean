import ManifestGate.Gateway
import ManifestGate.Proofs.Access.Decision
import ManifestGate.Proofs.Access.Screening
import ManifestGate.Proofs.Manifest.Listing

/-!
# Hidden objects

A handler lists objects, filters the list and shows what is left. A requester with object access is
told nothing of the objects that no grant clears: whether they are listed, how many they are and
what they hold has no part in the answer. Two runs that differ in them alone are followed step by
step.

A clause on the listing call is the one way past the filter. It is put to the whole list, and a
request that fails it is told so.
-/

namespace ManifestGate

variable {σ : Type}

/-! ## Answers that are alike -/

/-- Two lists of which the same is visible. -/
def ListsAlike (visible : Value → Bool) (one other : Value) : Prop :=
  ∃ items others, one = .list items ∧ other = .list others ∧
    items.filter visible = others.filter visible

/-- The clause, if there is one, holds of both values or of neither. -/
def SameVerdict (clause : Option Ensure) (one other : Value) : Prop :=
  ∀ ensure, clause = some ensure → ensure.predicate.holds one = ensure.predicate.holds other

theorem sameVerdict_none (one other : Value) : SameVerdict none one other := by
  intro ensure given
  cases given

/-- The answers leave one state and are alike, or fail alike. -/
structure Reply.Alike (alike : Value → Value → Prop) (one other : Reply σ) : Prop where
  state : one.state = other.state
  result : Except.Related alike one.result other.result

/-- Whatever they are called with, the functions answer alike. -/
def AnswerAlike (alike : Value → Value → Prop) (first second : Scope → Arguments → σ → Reply σ) :
    Prop :=
  ∀ scope arguments state, (first scope arguments state).Alike alike (second scope arguments state)

theorem AnswerAlike.callFunction {alike : Value → Value → Prop}
    {first second : Scope → Arguments → σ → Reply σ} (answers : AnswerAlike alike first second)
    (path : String) (scope : Scope) (arguments : Arguments) :
    Action.Related alike (Action.callFunction path first scope arguments)
      (Action.callFunction path second scope arguments) := by
  apply Action.Related.perform
  intro state
  have ⟨same, results⟩ := answers scope arguments state
  exact ⟨same, results⟩

/-- The same of both lists is visible in the context, and the clause tells them not apart. -/
def Directory.ShowsAlike (directory : Directory) (access : AccessContext) (clause : Option Ensure)
    (one other : Value) : Prop :=
  ListsAlike (directory.Cleared access ·) one other ∧ SameVerdict clause one other

/-! ## The two runs -/

/-- Engines that differ in the function at one place below the root, whose answers are alike. The
filter and the dump of API objects stand at other places of both. -/
structure Engine.Counterparts (directory : Directory) (root place : String)
    (alike : Value → Value → Prop) (one other : Engine σ) : Prop where
  identifier : isIdentifier root = true
  rooted : one.registry.root = root
  registry : one.registry.SameButAt (root ++ "." ++ place) other.registry
  host : one.host = other.host
  answers : ∃ first second,
    one.registry.locate (root ++ "." ++ place) = .ok (.function first, []) ∧
      other.registry.locate (root ++ "." ++ place) = .ok (.function second, []) ∧
      AnswerAlike alike first second
  filters : one.registry.locate (root ++ "." ++ Authorization.objectsPath) =
    .ok (Authorization.objects directory, [])
  notFilter : root ++ "." ++ Authorization.objectsPath ≠ root ++ "." ++ place
  notDump : root ++ "." ++ Builtin.dumpPath ≠ root ++ "." ++ place

namespace Engine.Counterparts

section

variable {directory : Directory} {root place : String} {alike : Value → Value → Prop}
  {one other : Engine σ} {scope : Scope}

variable (pair : Counterparts directory root place alike one other)

include pair

theorem twins (keys : List String) (context : Context) :
    Twins (root ++ "." ++ place) keys one other context context :=
  ⟨pair.registry, pair.host, rfl, fun _ _ => rfl⟩

theorem otherRooted : other.registry.root = root := by
  rw [← pair.registry.root, pair.rooted]

/-! ### The listing call -/

theorem fetch_related : Action.Related alike
    (one.registry.fetch scope (root ++ "." ++ place))
    (other.registry.fetch scope (root ++ "." ++ place)) := by
  obtain ⟨first, second, located, locatedOther, answers⟩ := pair.answers
  rw [Registry.fetch, Registry.fetch, Registry.resolve_of_locate located,
    Registry.resolve_of_locate locatedOther, Action.ofExcept_bind, Action.ofExcept_bind]
  exact answers.callFunction _ scope .none

theorem call_related (arguments : Arguments) : Action.Related alike
    (one.registry.call scope (root ++ "." ++ place) arguments)
    (other.registry.call scope (root ++ "." ++ place) arguments) := by
  obtain ⟨first, second, located, locatedOther, answers⟩ := pair.answers
  rw [Registry.call_eq, Registry.call_eq, Registry.callee_of_locate located,
    Registry.callee_of_locate locatedOther, Action.ofExcept_bind, Action.ofExcept_bind]
  exact answers.callFunction _ scope arguments

/-- A variable that calls the listing capability has alike values in both runs, if the clause of the
call tells answers that are alike not apart. -/
theorem listing_related {clause : Option Ensure} {known : CompiledManifest} {listing : Json}
    {source : VariableSource} (calls : CallsFor root (root ++ "." ++ place) clause listing)
    (compiled : compileSource one.registry known listing = .ok source)
    (verdict : ∀ value otherValue, alike value otherValue → SameVerdict clause value otherValue)
    (context : Context) :
    Action.Related alike (one.sourceValue scope context source)
      (other.sourceValue scope context source) := by
  cases calls with
  | path =>
    have symbol : Symbol.ofText one.registry.root (root ++ "." ++ place) =
        .capability (root ++ "." ++ place) := by
      rw [pair.rooted]
      exact Symbol.ofText_below pair.identifier place
    simp only [compileSource, CallSpec.isMapping, Bool.false_eq_true, if_false, symbol] at compiled
    obtain ⟨_, _, same⟩ := Except.bind_eq_ok_iff.mp compiled
    cases same
    exact pair.fetch_related
  | @mapping _ spec parsed target clear clearKeywords =>
    rw [compileSource_call parsed compiled]
    have targets : CallTarget.ofText root spec.call = .capability (root ++ "." ++ place) := by
      rw [target]
      exact CallTarget.ofText_below pair.identifier place
    simp only [sourceValue, call, pair.otherRooted, pair.rooted, CallSpec.template, evaluate]
    apply ((pair.twins [] context).evaluatePositional_alike _ (by rwa [pair.rooted])).followed
    intro positional
    apply ((pair.twins [] context).evaluateKeyword_alike _ (by rwa [pair.rooted])).followed
    intro keyword
    have called : Action.Related alike
        (one.callTarget scope context spec.call ⟨positional, keyword⟩)
        (other.callTarget scope context spec.call ⟨positional, keyword⟩) := by
      simp only [callTarget, pair.otherRooted, pair.rooted, targets]
      exact pair.call_related _
    apply called.bind
    intro answer otherAnswer answersAlike
    cases given : spec.ensure with
    | none => exact .pure answersAlike
    | some ensure =>
      apply (ensure.enforce_alike (verdict _ _ answersAlike ensure given)).followed
      intro _
      exact .pure answersAlike

/-! ### The filter -/

/-- The variable that filters has one value in both runs. -/
theorem filtering_alike {first second : Context} {a : String} {value otherValue : Value}
    {clause : Option Ensure} (tier : scope.access.accessType = .object)
    (leads : first.resolve a = .ok value) (leadsOther : second.resolve a = .ok otherValue)
    (same : ListsAlike (directory.Cleared scope.access ·) value otherValue) :
    Action.Alike (one.sourceValue scope first (.call (filterCall root a clause)))
      (other.sourceValue scope second (.call (filterCall root a clause))) := by
  obtain ⟨items, others, rfl, rfl, visible⟩ := same
  have target := CallTarget.ofText_below pair.identifier Authorization.objectsPath
  have callee := Registry.callee_of_locate pair.filters
  have calleeOther := (pair.registry.callee _ pair.notFilter).symm.trans callee
  have kept :
      directory.keepVisible scope.access items = directory.keepVisible scope.access others := by
    rw [Directory.keepVisible_eq_filter tier, Directory.keepVisible_eq_filter tier, visible]
  -- The one argument is the value of the first variable, so the call and its clause are left.
  simp only [sourceValue, call, filterCall, pair.otherRooted, pair.rooted, CallSpec.template,
    Positional.ofJson, Template.ofItems, Template.ofJson, Symbol.ofText_reference, Keyword.ofJson,
    Template.ofEntries, evaluate, evaluatePositional, evaluateItems, evaluateKeyword,
    evaluateEntries, reference, leads, leadsOther, Action.ofExcept, pure_bind, callTarget, target,
    Registry.call_eq, callee, calleeOther]
  apply Action.Alike.bind
  · apply Action.Related.perform
    intro state
    refine ⟨rfl, ?_⟩
    change Except.Related Eq
      (Except.ok (Value.list (directory.keepVisible scope.access items)) : Except Failure Value)
      (Except.ok (Value.list (directory.keepVisible scope.access others)))
    rw [kept]
    exact .refl _
  · intro answer
    cases clause with
    | none => exact .pure answer
    | some ensure =>
      apply Action.Alike.bind (ensure.enforce_alike rfl)
      intro _
      exact .pure answer

end

/-! ### Whole runs -/

section

variable {directory : Directory} {root place : String} {one other : Engine σ} {scope : Scope}
  {clause : Option Ensure}

variable (pair : Counterparts directory root place (directory.ShowsAlike scope.access clause) one
    other)
  (tier : scope.access.accessType = .object)

include pair tier

/-- The objects of the manifest leave one response in both runs. -/
theorem settleAll_related {objects : List CompiledObject} (data : Dict Value)
    (pending : Pending (.start data) objects)
    (shown : ShowsFiltered.Objects one.registry root (root ++ "." ++ place) clause objects) :
    Action.Related (fun first second =>
        Dict.get? first.results responseKey = Dict.get? second.results responseKey)
      (one.settleAll scope objects (.start data))
      (other.settleAll scope objects (.start data)) := by
  obtain @⟨a, b, _, response, _, _, _, namesA, namesB, different, calls, compiled, reads⟩ := shown
  rw [settleAll_cons _ _ pending, settleAll_cons _ _ pending]
  apply (step_var_related namesA.notData rfl
    (pair.listing_related calls compiled (fun _ _ alike => alike.2) (.start data))).bind
  intro outcome otherOutcome listed
  -- From here on the contexts differ in the first variable.
  have twins : Twins (root ++ "." ++ place) [a] one other (outcome.settle (.start data) a)
      (otherOutcome.settle (.start data) a) :=
    (pair.twins [a] (.start data)).settle listed.data fun clear => absurd List.mem_cons_self clear
  rw [settleAll_cons _ _ (pending.settle outcome), settleAll_cons _ _ (pending.settle otherOutcome)]
  apply (step_var_related namesB.notData twins.data
    (pair.filtering_alike tier (namesA.resolve_settle outcome _)
      (namesA.resolve_settle otherOutcome _) listed.value.1)).bind
  intro shown otherShown same
  have twinsAfter : Twins (root ++ "." ++ place) [a] one other
      (shown.settle (outcome.settle (.start data) a) b)
      (otherShown.settle (otherOutcome.settle (.start data) a) b) :=
    twins.settle same.data fun _ => same.value
  rw [settleAll_cons _ _ ((pending.settle outcome).settle shown),
    settleAll_cons _ _ ((pending.settle otherOutcome).settle otherShown)]
  have clear : (Template.ofJson one.registry.root response).Avoids one.registry.root
      (root ++ "." ++ place) [a] := by
    rw [pair.rooted]
    exact Json.ReadsOnly.avoids namesB.noDot (by simpa using different.symm) response reads
  apply (twinsAfter.step_response_related clear).bind
  intro final otherFinal response
  apply Action.Related.pure
  simp only [Outcome.settle, CompiledObject.key, Dict.get?_insert_self, response.value]

theorem run_alike {manifest : Json}
    (shows : ShowsFiltered root (root ++ "." ++ place) clause manifest) (data : Dict Value) :
    Action.Alike (one.run scope manifest data) (other.run scope manifest data) := by
  rw [run_eq, run_eq, ← pair.registry.toChecksAs.compile_eq manifest, Action.ofExcept_bind,
    Action.ofExcept_bind]
  cases accepted : compile one.registry manifest with
  | error cause => exact .throw cause
  | ok compiled =>
    apply (pair.settleAll_related tier data (.start data compiled) (shows.objects accepted)).bind
    intro first second answer
    apply Twins.response?_alike pair.registry _ answer
    rw [Registry.absolute, pair.rooted]
    exact pair.notDump

end

end Engine.Counterparts

/-! ## Requests -/

/-- The request is authenticated and made as a group that only the object pools let in to its
handler. -/
structure ReachesByObject (directory : Directory) (config : Config) (request : Request)
    (handler : Handler) (group : Group) : Prop where
  routed : directory.handler? request.path request.method = some handler
  enforced : config.acl.enabled = true
  known : request.requester.isAnonymous = false
  acting : directory.actingGroup? request.requester = some group
  apart : ¬Shares .global handler group
  shared : Shares .object handler group

namespace ReachesByObject

variable {directory : Directory} {config : Config} {request : Request} {handler : Handler}
  {group : Group}

theorem tier (reaches : ReachesByObject directory config request handler group) :
    (decideAccess handler group).accessType = .object :=
  decideAccess_object_iff.mpr ⟨reaches.apart, reaches.shared⟩

/-- The gates before the access gate may refuse, with either engine alike; access is decided for the
group. -/
theorem authorize_eq (reaches : ReachesByObject directory config request handler group)
    (engine : Engine σ) :
    Gateway.authorize ⟨directory, engine, config⟩ request =
      if handler.enabled then .ok (handler, decideAccess handler group)
      else .error (.handlerDisabled (request.method.name ++ " " ++ request.path)) := by
  have granted : (decideAccess handler group).granted = true :=
    decideAccess_granted_iff.mpr (.inr reaches.shared)
  have decided := Directory.authorize_granted reaches.enforced reaches.known reaches.acting granted
  simp only [Gateway.authorize, reaches.routed, reaches.known, decided]
  cases handler.enabled <;> rfl

end ReachesByObject

section

variable {directory : Directory} {config : Config} {host : Host σ} {place : String}
  {first second : Scope → Arguments → σ → Reply σ} {before after : List (String × Capability σ)}
  {one other : Registry σ}

/-- The capabilities of the gateway itself stand at other places than one that is added to them. -/
theorem Gateway.below_ne {root path : String}
    (distinct : ((capabilities host directory config ++ before ++
      (place, .function first) :: after).map Prod.fst).Nodup)
    (member : path ∈ (capabilities host directory config).map Prod.fst) :
    root ++ "." ++ path ≠ root ++ "." ++ place := by
  intro same
  have equal : path = place := by
    apply String.toList_injective
    simpa [String.toList_append] using congrArg String.toList same
  rw [List.map_append, List.nodup_append, List.map_append] at distinct
  exact distinct.2.2 path (List.mem_append_left _ member) place (by simp) equal

/-- Gateways that are built from the same entries up to one function have engines that are
counterparts. -/
theorem Gateway.counterparts {alike : Value → Value → Prop}
    (built : Registry.build config.engine.capabilityRoot
      (capabilities host directory config ++ before ++ (place, .function first) :: after) = .ok one)
    (builtOther : Registry.build config.engine.capabilityRoot
      (capabilities host directory config ++ before ++ (place, .function second) :: after) =
        .ok other)
    (answers : AnswerAlike alike first second) :
    Engine.Counterparts directory config.engine.capabilityRoot place alike ⟨one, host⟩
      ⟨other, host⟩ := by
  have holds := Registry.holds_of_build built
  have holdsOther := Registry.holds_of_build builtOther
  have offered : (Authorization.objectsPath, Authorization.objects directory) ∈
      capabilities host directory config := by
    simp [capabilities, Authorization.capabilities, Authorization.objectsPath]
  have dumps : Builtin.dumpPath ∈ (capabilities host directory config).map Prod.fst := by
    simp [capabilities, Builtin.capabilities]
  have located : one.locate (one.absolute place) = .ok (.function first, []) :=
    holds.locate_absolute (by simp)
  have locatedOther : other.locate (other.absolute place) = .ok (.function second, []) :=
    holdsOther.locate_absolute (by simp)
  have filters := holds.locate_absolute
    (List.mem_append_left _ (List.mem_append_left before offered))
  have same := Registry.sameButAt_of_holds holds holdsOther
  rw [Registry.absolute, holds.rooted] at located filters same
  rw [Registry.absolute, holdsOther.rooted] at locatedOther
  exact {
    identifier := holds.identifier
    rooted := holds.rooted
    registry := same
    host := rfl
    answers := ⟨first, second, located, locatedOther, answers⟩
    filters := filters
    notFilter := below_ne holds.distinct (List.mem_map_of_mem offered)
    notDump := below_ne holds.distinct dumps }

end

/-- Behind the gates a request is answered with the response of the run, or with its error. -/
theorem Gateway.handle_run {gateway : Gateway σ} {request : Request} {handler : Handler}
    {access : AccessContext} {data : Dict Value}
    (authorized : gateway.authorize request = .ok (handler, access))
    (given : requestData request.data = .ok data) (progress : Progress σ) :
    (gateway.handle request progress).1 =
      ((gateway.engine.run ⟨(gateway.engine.host.newId progress.state).1, request.requester, access⟩
        handler.manifest data
        { progress with state := (gateway.engine.host.newId progress.state).2 }).1.map
          Response.ofResult).mapError .manifest := by
  simp only [handle, authorized, given]
  generalize gateway.engine.run _ handler.manifest data _ = ran
  obtain ⟨result, later⟩ := ran
  cases result <;> rfl

/-- With object access a request is told nothing of the objects that its group holds no allowing
grant for. A handler lists objects, filters the list and shows what is left; two runs in which the
listing capability gives two lists of the same visible objects answer with one response or one
error, unless a clause on the listing call tells the lists apart. -/
theorem hidden_objects_stay_hidden {directory : Directory} {config : Config} {host : Host σ}
    {request : Request} {handler : Handler} {group : Group} {place : String}
    {first second : Scope → Arguments → σ → Reply σ} {before after : List (String × Capability σ)}
    {one other : Registry σ} {clause : Option Ensure}
    (reaches : ReachesByObject directory config request handler group)
    (built : Registry.build config.engine.capabilityRoot
      (Gateway.capabilities host directory config ++ before ++ (place, .function first) :: after) =
        .ok one)
    (builtOther : Registry.build config.engine.capabilityRoot
      (Gateway.capabilities host directory config ++ before ++ (place, .function second) :: after) =
        .ok other)
    (answers : AnswerAlike (directory.ShowsAlike (decideAccess handler group) clause) first second)
    (shows : ShowsFiltered config.engine.capabilityRoot
      (config.engine.capabilityRoot ++ "." ++ place) clause handler.manifest)
    (progress : Progress σ) :
    (Gateway.handle ⟨directory, ⟨one, host⟩, config⟩ request progress).1 =
      (Gateway.handle ⟨directory, ⟨other, host⟩, config⟩ request progress).1 := by
  have pair := Gateway.counterparts built builtOther answers
  by_cases enabled : handler.enabled = true
  · have authorized : ∀ registry : Registry σ,
        Gateway.authorize ⟨directory, ⟨registry, host⟩, config⟩ request =
          .ok (handler, decideAccess handler group) := by
      intro registry
      rw [reaches.authorize_eq, if_pos enabled]
    cases given : requestData request.data with
    | error cause => simp only [Gateway.handle, authorized, given]
    | ok data =>
      have alike : Action.Alike
          (Engine.run ⟨one, host⟩ ⟨(host.newId progress.state).1, request.requester,
            decideAccess handler group⟩ handler.manifest data)
          (Engine.run ⟨other, host⟩ ⟨(host.newId progress.state).1, request.requester,
            decideAccess handler group⟩ handler.manifest data) :=
        pair.run_alike reaches.tier shows data
      rw [Gateway.handle_run (authorized one) given, Gateway.handle_run (authorized other) given,
        alike.result_eq rfl]
  · simp only [Gateway.handle, reaches.authorize_eq, if_neg enabled]

/-! A group may see the first of two documents, and the handler shows what it may see. -/

def docsGroup : Group := ⟨"g", "Readers", [], [⟨"read", true⟩]⟩

def docsManifest (listing : Json) : Json :=
  .array [.object [("var#" ++ "a", listing)],
    .object [("var#" ++ "b", .object [("args", .array [.string ("#" ++ "a")]),
      ("call", .string ("LENSE" ++ "." ++ "AUTH.ACL.objects"))])],
    .object [("response", .object [("docs", .string ("#" ++ "b"))])]]

def docsHandler (listing : Json) : Handler :=
  ⟨"h", "Documents", "docs", .get, docsManifest listing, some "doc", none, [], ["read"], false,
    true⟩

def docsDirectory (listing : Json) : Directory where
  handler? _ _ := some (docsHandler listing)
  aclKey? _ := none
  group? id := if id = "g" then some docsGroup else none
  objectGrant? objectType id group :=
    if (objectType, id, group) = ("doc", "1", "g") then some ⟨"doc", "1", "g", true⟩ else none
  permissionRecords _ := []

def quietHost : Host Unit :=
  ⟨fun _ _ _ state => .pure (.ok .null) state, fun state => ("", state)⟩

def document (id : String) : Value := .map [("uuid", .string id)]

def lister (items : List Value) : Scope → Arguments → Unit → Reply Unit :=
  fun _ _ state => .pure (.ok (.list items)) state

def docsRegistry (listing : Json) (items : List Value) : Except RegistryError (Registry Unit) :=
  Registry.build "LENSE"
    (Gateway.capabilities quietHost (docsDirectory listing) .default ++ [] ++
      [("LIST", .function (lister items))])

def docsRequest : Request := ⟨"docs", .get, .ofUser "u" "User" "g", .null⟩

def docsAnswer (listing : Json) (registry : Registry Unit) : Except GatewayError Response :=
  (Gateway.handle ⟨docsDirectory listing, ⟨registry, quietHost⟩, .default⟩ docsRequest
    (.start ())).1

theorem docs_reachesByObject (listing : Json) :
    ReachesByObject (docsDirectory listing) .default docsRequest (docsHandler listing)
      docsGroup := by
  refine ⟨rfl, rfl, rfl, rfl, ?_, "read", by simp [Handler.acls, docsHandler], by decide⟩
  rintro ⟨key, member, _⟩
  cases member

theorem docs_showsFiltered {listing : Json} {clause : Option Ensure}
    (calls : CallsFor "LENSE" ("LENSE" ++ "." ++ "LIST") clause listing) :
    ShowsFiltered "LENSE" ("LENSE" ++ "." ++ "LIST") clause (docsManifest listing) := by
  have filters : CallSpec.parse (.object [("args", .array [.string ("#" ++ "a")]),
      ("call", .string ("LENSE" ++ "." ++ "AUTH.ACL.objects"))]) =
        .ok (filterCall "LENSE" "a" none) := rfl
  exact .intro calls filters ⟨rfl, .inr (.inl rfl), trivial⟩

def plainListing : Json := .string ("LENSE" ++ "." ++ "LIST")

/-- The second document in the list, or two others around the first, make no difference. -/
theorem other_documents_stay_hidden :
    ∃ one other, docsRegistry plainListing [document "1", document "2"] = .ok one ∧
      docsRegistry plainListing [document "3", document "1", document "4"] = .ok other ∧
      docsAnswer plainListing one = docsAnswer plainListing other := by
  have builds : (docsRegistry plainListing [document "1", document "2"]).isOk = true := by
    decide +kernel
  have buildsOther :
      (docsRegistry plainListing [document "3", document "1", document "4"]).isOk = true := by
    decide +kernel
  obtain ⟨one, built⟩ := Except.exists_of_isOk builds
  obtain ⟨other, builtOther⟩ := Except.exists_of_isOk buildsOther
  refine ⟨one, other, built, builtOther, ?_⟩
  unfold docsAnswer
  apply hidden_objects_stay_hidden (docs_reachesByObject plainListing) built builtOther
  · intro scope arguments state
    exact ⟨rfl, .ok ⟨⟨_, _, rfl, rfl, rfl⟩, sameVerdict_none _ _⟩⟩
  · exact docs_showsFiltered .path

/-- The listing call is to give more than the empty list. -/
def nonemptyListing : Json :=
  .object [("call", .string ("LENSE" ++ "." ++ "LIST")),
    ("ensure", .object [("isnot", .array [])])]

/-- A clause on the listing call is put to the whole list, so that the request is told whether there
are any objects, hidden ones included. -/
theorem listing_clause_tells_of_hidden :
    ∃ one other clause, docsRegistry nonemptyListing [] = .ok one ∧
      docsRegistry nonemptyListing [document "2"] = .ok other ∧
      ReachesByObject (docsDirectory nonemptyListing) .default docsRequest
        (docsHandler nonemptyListing) docsGroup ∧
      ShowsFiltered "LENSE" ("LENSE" ++ "." ++ "LIST") clause
        (docsHandler nonemptyListing).manifest ∧
      AnswerAlike (ListsAlike ((docsDirectory nonemptyListing).Cleared
          (decideAccess (docsHandler nonemptyListing) docsGroup) ·))
        (lister []) (lister [document "2"]) ∧
      docsAnswer nonemptyListing one ≠ docsAnswer nonemptyListing other := by
  have refused : (docsRegistry nonemptyListing []).map
      (fun registry => (docsAnswer nonemptyListing registry).isOk) = .ok false := by
    decide +kernel
  have answered : (docsRegistry nonemptyListing [document "2"]).map
      (fun registry => (docsAnswer nonemptyListing registry).isOk) = .ok true := by
    decide +kernel
  obtain ⟨one, built, fails⟩ := Except.map_eq_ok_iff.mp refused
  obtain ⟨other, builtOther, succeeds⟩ := Except.map_eq_ok_iff.mp answered
  refine ⟨one, other, _, built, builtOther, docs_reachesByObject _,
    docs_showsFiltered (.mapping rfl rfl trivial trivial), ?_, ?_⟩
  · intro scope arguments state
    exact ⟨rfl, .ok ⟨_, _, rfl, rfl, rfl⟩⟩
  · intro same
    rw [same, succeeds] at fails
    cases fails

end ManifestGate
