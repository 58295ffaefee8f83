import Mathlib.Data.List.Basic
import ManifestGate.Proofs.Access.Permission
import ManifestGate.Proofs.Access.Pools

/-!
# Loading store files

A file is taken in as a history of writes, its keys before all else. No write after them changes a
key, so every group and every handler is held against the keys that stand at the end of their
section, whether or not a later entry takes its place. The first entry with a fault ends the loading
with its first fault; without one all writes are taken, and of each key the last entry stands.
-/

namespace ManifestGate

/-! ## Consistent files -/

namespace StoreFile

/-- Of the keys under an id the last. -/
def lastKey? (file : StoreFile) (id : String) : Option AclKey :=
  (file.aclKeys.filter fun key => key.id = id).getLast?

/-- The last key under the id may be used in the pool. -/
def Allows (file : StoreFile) (pool : Pool) (id : String) : Prop :=
  ∃ key, file.lastKey? id = some key ∧ key.isOf pool = true

/-- Every manifest that is given as text is a document, and every key that is named may be used in
the pool that names it. This goes for each entry, also for one that a later entry replaces. -/
structure Consistent (file : StoreFile) : Prop where
  manifests : ∀ handler ∈ file.handlers, ∀ text, handler.manifest = .string text →
    ∃ document, Json.parse text = .ok document
  groups : ∀ group ∈ file.groups, ∀ pool, ∀ acl ∈ group.acls pool, file.Allows pool acl
  handlers : ∀ handler ∈ file.handlers, ∀ pool, ∀ acl ∈ handler.acls pool, file.Allows pool acl

/-- What is wrong with a key that an owner names in a pool. -/
def keyFault? (file : StoreFile) (owner : KeyOwner) (pool : Pool) (acl : String) :
    Option StoreError :=
  match file.lastKey? acl with
  | none => some (.unknownKey owner acl)
  | some key => if key.isOf pool then none else some (.poolMismatch owner acl pool)

/-- The faults of the keys that an owner names, the global pool before the object pool and each pool
in its own order. -/
def poolFaults (file : StoreFile) (owner : KeyOwner) (acls : Pool → List String) :
    List StoreError :=
  (acls .global).filterMap (file.keyFault? owner .global) ++
    (acls .object).filterMap (file.keyFault? owner .object)

end StoreFile

/-- What is wrong with the text of a manifest. -/
def Handler.manifestFault? (handler : Handler) : Option StoreError :=
  match handler.manifest with
  | .string text =>
    match Json.parse text with
    | .ok _ => none
    | .error cause => some (.invalidManifest handler.id cause)
  | _ => none

namespace StoreFile

/-- The faults of an entry. Only groups and handlers can have any. -/
def faultsOf (file : StoreFile) : Store.Write → List StoreError
  | .group group => file.poolFaults (.group group.id) group.acls
  | .handler handler =>
    handler.manifestFault?.toList ++ file.poolFaults (.handler handler.id) handler.acls
  | _ => []

/-- The faults of a file: those of its groups and then those of its handlers, both in file order. -/
def faults (file : StoreFile) : List StoreError :=
  (file.groups.flatMap fun group => file.faultsOf (.group group)) ++
    file.handlers.flatMap fun handler => file.faultsOf (.handler handler)

variable {file : StoreFile}

theorem keyFault?_eq_none_iff {owner : KeyOwner} {pool : Pool} {acl : String} :
    file.keyFault? owner pool acl = none ↔ file.Allows pool acl := by
  unfold keyFault? Allows
  cases file.lastKey? acl with
  | none => simp
  | some key => simp

theorem poolFaults_eq_nil_iff {owner : KeyOwner} {acls : Pool → List String} :
    file.poolFaults owner acls = [] ↔ ∀ pool, ∀ acl ∈ acls pool, file.Allows pool acl := by
  rw [poolFaults, List.append_eq_nil_iff, List.filterMap_eq_nil_iff, List.filterMap_eq_nil_iff]
  simp only [keyFault?_eq_none_iff]
  constructor
  · rintro ⟨global, object⟩ pool
    cases pool with
    | global => exact global
    | object => exact object
  · intro all
    exact ⟨all .global, all .object⟩

end StoreFile

theorem Handler.manifestFault?_eq_none_iff {handler : Handler} :
    handler.manifestFault? = none ↔
      ∀ text, handler.manifest = .string text → ∃ document, Json.parse text = .ok document := by
  unfold manifestFault?
  cases handler.manifest with
  | string text => cases parsed : Json.parse text <;> simp [parsed]
  | _ => simp

namespace StoreFile

theorem faults_eq_nil_iff {file : StoreFile} : file.faults = [] ↔ file.Consistent := by
  rw [faults, List.append_eq_nil_iff, List.flatMap_eq_nil_iff, List.flatMap_eq_nil_iff]
  simp only [faultsOf, List.append_eq_nil_iff, Option.toList_eq_nil_iff, poolFaults_eq_nil_iff,
    Handler.manifestFault?_eq_none_iff]
  constructor
  · rintro ⟨groups, handlers⟩
    exact ⟨fun handler member => (handlers handler member).1, groups,
      fun handler member => (handlers handler member).2⟩
  · rintro ⟨manifests, groups, handlers⟩
    exact ⟨groups, fun handler member => ⟨manifests handler member, handlers handler member⟩⟩

end StoreFile

/-! ## Loading as a history -/

theorem filterMap_if {α : Type} (condition : α → Prop) [DecidablePred condition] (items : List α) :
    (items.filterMap fun item => if condition item then some item else none) =
      items.filter (condition ·) := by
  rw [← List.filterMap_eq_filter]
  simp only [Option.guard, decide_eq_true_eq]

namespace StoreFile

/-- The writes after those of the keys. -/
def entries (file : StoreFile) : List Store.Write :=
  file.groups.map .group ++ (file.handlers.map .handler ++
    (file.objectGrants.map .grant ++ file.permissions.map .permission))

/-- The writes that a file is taken in by. -/
def writes (file : StoreFile) : List Store.Write :=
  file.aclKeys.map .aclKey ++ file.entries

/-- What is selected from the writes of a file stands in the order of its sections. -/
theorem filterMap_writes {α : Type} (file : StoreFile) (select : Store.Write → Option α) :
    file.writes.filterMap select =
      file.aclKeys.filterMap (fun key => select (.aclKey key)) ++
        (file.groups.filterMap (fun group => select (.group group)) ++
          (file.handlers.filterMap (fun handler => select (.handler handler)) ++
            (file.objectGrants.filterMap (fun grant => select (.grant grant)) ++
              file.permissions.filterMap (fun record => select (.permission record))))) := by
  simp only [writes, entries, List.filterMap_append, List.filterMap_map, Function.comp_def]

theorem flatMap_faultsOf_entries (file : StoreFile) :
    file.entries.flatMap file.faultsOf = file.faults := by
  have grants : (file.objectGrants.map Store.Write.grant).flatMap file.faultsOf = [] := by
    simp [faultsOf]
  have permissions : (file.permissions.map Store.Write.permission).flatMap file.faultsOf = [] := by
    simp [faultsOf]
  rw [entries, List.flatMap_append, List.flatMap_append, List.flatMap_append, grants, permissions,
    List.append_nil, List.append_nil, List.flatMap_map, List.flatMap_map]
  rfl

end StoreFile

namespace Store

/-- Writes that cannot fail are taken as they come. -/
theorem foldlM_sure {α : Type} {entry : α → Write} {put : Store → α → Store}
    (sure : ∀ (store : Store) item, store.write (entry item) = .ok (put store item))
    (items : List α) (store : Store) :
    (items.map entry).foldlM write store = .ok (items.foldl put store) := by
  induction items generalizing store with
  | nil => rfl
  | cons item rest ih =>
    rw [List.map_cons, List.foldlM_cons, sure]
    exact ih (put store item)

theorem foldlM_aclKeys (file : StoreFile) :
    (file.aclKeys.map Write.aclKey).foldlM write empty =
      .ok (file.aclKeys.foldl insertAclKey empty) :=
  foldlM_sure (fun _ _ => rfl) file.aclKeys empty

theorem ofFile_eq (file : StoreFile) :
    ofFile file = file.entries.foldlM write (file.aclKeys.foldl insertAclKey empty) := by
  have grants (store : Store) : (file.objectGrants.map Write.grant).foldlM write store =
      .ok (file.objectGrants.foldl grantObject store) := foldlM_sure (fun _ _ => rfl) _ store
  have permissions (store : Store) : (file.permissions.map Write.permission).foldlM write store =
      .ok (file.permissions.foldl setPermission store) := foldlM_sure (fun _ _ => rfl) _ store
  unfold ofFile StoreFile.entries
  simp only [List.foldlM_append, grants, permissions]
  simp only [List.foldlM_map]
  rfl

theorem foldlM_writes (file : StoreFile) : file.writes.foldlM write empty = ofFile file := by
  rw [StoreFile.writes, List.foldlM_append, foldlM_aclKeys, ofFile_eq]
  rfl

/-- Of a history that is taken whole all is in the log. -/
theorem takenFrom_of_ok {history : List Write} {store next : Store}
    (ran : history.foldlM write store = .ok next) :
    takenFrom store history = history ∧ history.foldl after store = next := by
  induction history generalizing store with
  | nil =>
    cases ran
    exact ⟨rfl, rfl⟩
  | cons entry rest ih =>
    rw [List.foldlM_cons] at ran
    obtain ⟨middle, first, others⟩ := Except.bind_eq_ok_iff.mp ran
    obtain ⟨log, reaches⟩ := ih others
    constructor
    · rw [takenFrom, first]
      exact congrArg (entry :: ·) log
    · rw [List.foldl_cons, after_of_ok first]
      exact reaches

/-! ## What each entry is held against -/

/-- The keys are those of the file, and the pools are right. -/
structure Ready (file : StoreFile) (store : Store) : Prop where
  keys : ∀ id, store.aclKeys.get? id = file.lastKey? id
  pools : store.PoolSound

theorem names_foldl_insertAclKey (keys : List AclKey) (store : Store) (pool : Pool) (id : String) :
    (keys.foldl insertAclKey store).Names pool id ↔ store.Names pool id := by
  induction keys generalizing store with
  | nil => exact Iff.rfl
  | cons key rest ih => exact ih (store.insertAclKey key)

theorem ready_aclKeys (file : StoreFile) : Ready file (file.aclKeys.foldl insertAclKey empty) where
  keys id := by
    obtain ⟨log, reaches⟩ := takenFrom_of_ok (foldlM_aclKeys file)
    have last := (tracks_aclKey id).last_eq rfl (file.aclKeys.map .aclKey)
    rw [reached, reaches, taken, log, List.filterMap_map] at last
    rw [last, StoreFile.lastKey?, ← filterMap_if]
    rfl
  pools pool id named := by
    rw [names_foldl_insertAclKey] at named
    exact absurd named (not_names_empty pool id)

section

variable {file : StoreFile} {store : Store}

/-- All writes but those of keys keep a store ready. -/
theorem Ready.after (ready : Ready file store) {entry : Write}
    (notKey : ∀ key, entry ≠ .aclKey key) : Ready file (store.after entry) := by
  rcases store.after_cases entry with ⟨key, same⟩ | ⟨kept, sameKeys, _⟩
  · exact absurd same (notKey key)
  · refine ⟨fun id => ?_, (ready.pools.after_iff entry).mpr kept⟩
    rw [sameKeys]
    exact ready.keys id

theorem Ready.checkPool (ready : Ready file store) (owner : KeyOwner) (pool : Pool)
    (acls : List String) :
    Except.SettledBy (fun _ => True) (acls.filterMap (file.keyFault? owner pool))
      (store.checkPool owner pool acls) := by
  induction acls with
  | nil => exact .passed trivial
  | cons acl rest ih =>
    rw [Store.checkPool, ready.keys acl, List.filterMap_cons, StoreFile.keyFault?]
    cases file.lastKey? acl with
    | none => exact .failed _ _
    | some key =>
      by_cases fits : key.isOf pool = true
      · simpa only [fits, if_true] using ih
      · simpa only [fits] using .failed _ _

theorem Ready.checkPools (ready : Ready file store) (owner : KeyOwner) (acls : Pool → List String)
    (next : Store) :
    Except.SettledBy (fun _ => True) (file.poolFaults owner acls)
      (do
        store.checkPool owner .global (acls .global)
        store.checkPool owner .object (acls .object)
        return next) := by
  apply (ready.checkPool owner .global (acls .global)).bind
  intro _ _
  apply (ready.checkPool owner .object (acls .object)).thenOk
  intro _ _
  trivial

theorem prepare_settled (handler : Handler) :
    Except.SettledBy
      (fun prepared => prepared.id = handler.id ∧ prepared.globalAcls = handler.globalAcls ∧
        prepared.objectAcls = handler.objectAcls)
      handler.manifestFault?.toList (prepare handler) := by
  unfold prepare Handler.manifestFault?
  cases handler.manifest with
  | string text =>
    dsimp only
    cases Json.parse text with
    | error cause => exact .failed _ _
    | ok document => exact .passed ⟨rfl, rfl, rfl⟩
  | _ => exact .passed ⟨rfl, rfl, rfl⟩

/-- An entry is taken in, or it is refused for the first of its faults. -/
theorem Ready.write (ready : Ready file store) {entry : Write}
    (notKey : ∀ key, entry ≠ .aclKey key) :
    Except.SettledBy (Ready file) (file.faultsOf entry) (store.write entry) := by
  -- the checks tell which fault comes first; what they leave ready is known of every such write
  have settled : Except.SettledBy (fun _ => True) (file.faultsOf entry) (store.write entry) := by
    cases entry with
    | aclKey key => exact absurd rfl (notKey key)
    | group group => exact ready.checkPools _ _ _
    | handler handler =>
      apply (prepare_settled handler).bind
      intro prepared ⟨sameId, sameGlobal, sameObject⟩
      have sameAcls : prepared.acls = handler.acls := by
        funext pool
        cases pool with
        | global => exact sameGlobal
        | object => exact sameObject
      rw [sameId, sameAcls]
      exact ready.checkPools _ _ _
    | grant grant => exact .passed trivial
    | permission record => exact .passed trivial
  apply settled.weaken
  intro next written
  rw [← after_of_ok written]
  exact ready.after notKey

end

theorem ofFile_settled (file : StoreFile) :
    Except.SettledBy (Ready file) file.faults (ofFile file) := by
  rw [ofFile_eq, ← file.flatMap_faultsOf_entries]
  apply Except.SettledBy.foldlM _ (ready_aclKeys file)
  intro entry member store ready
  apply ready.write
  rintro key rfl
  simp [StoreFile.entries] at member

/-! ## The last entries -/

/-- For each key of each section the store has the last entry of the file. Handlers are kept by
their method and their path between the slashes at its ends, permission records by their object,
owner and group. -/
structure ShowsLast (store : Store) (file : StoreFile) : Prop where
  aclKey : ∀ id, store.directory.aclKey? id =
    (file.aclKeys.filter fun key => key.id = id).getLast?
  group : ∀ id, store.directory.group? id =
    (file.groups.filter fun group => group.id = id).getLast?
  handler : ∀ path method, Option.Rel Handler.KeptAs
    (file.handlers.filter fun handler =>
      normalizePath handler.path = normalizePath path ∧ handler.method = method).getLast?
    (store.directory.handler? path method)
  grant : ∀ objectType objectId forGroup,
    store.directory.objectGrant? objectType objectId forGroup =
      (file.objectGrants.filter fun grant =>
        grant.objectType = objectType ∧ grant.objectId = objectId ∧
          grant.group = forGroup).getLast?
  permission : ∀ objectUuid record, record ∈ store.directory.permissionRecords objectUuid ↔
    (file.permissions.filter fun other =>
      other.objectUuid = objectUuid ∧ other.owner = record.owner ∧
        other.group = record.group).getLast? = some record
  onePermission : ∀ objectUuid, (store.directory.permissionRecords objectUuid).Pairwise
    fun a b => ¬(a.owner = b.owner ∧ a.group = b.group)

theorem showsLast_of_ofFile {file : StoreFile} {store : Store} (loaded : ofFile file = .ok store) :
    store.ShowsLast file := by
  rw [← foldlM_writes] at loaded
  obtain ⟨log, reaches⟩ := takenFrom_of_ok loaded
  change taken file.writes = file.writes at log
  change reached file.writes = store at reaches
  subst reaches
  refine ⟨?_, ?_, ?_, ?_, ?_, ?_⟩
  · intro id
    have last := (tracks_aclKey id).last_eq rfl file.writes
    rw [log, file.filterMap_writes] at last
    simp only [Write.aclKey?, List.filterMap_none, List.append_nil, filterMap_if] at last
    exact last
  · intro id
    have last := (tracks_group id).last_eq rfl file.writes
    rw [log, file.filterMap_writes] at last
    simp only [Write.group?, List.filterMap_none, List.append_nil, List.nil_append,
      filterMap_if] at last
    exact last
  · intro path method
    have last := (tracks_handler path method).last rfl file.writes
    rw [log, file.filterMap_writes] at last
    simp only [Write.handler?, List.filterMap_none, List.append_nil, List.nil_append,
      filterMap_if] at last
    exact last
  · intro objectType objectId forGroup
    have last := (tracks_grant objectType objectId forGroup).last_eq rfl file.writes
    rw [log, file.filterMap_writes] at last
    simp only [Write.grant?, List.filterMap_none, List.append_nil, List.nil_append,
      filterMap_if] at last
    exact last
  · intro objectUuid record
    rw [permissionRecords_reached, log, file.filterMap_writes, mem_standing_iff]
    simp only [Write.record?, List.filterMap_none, List.nil_append, filterMap_if,
      List.filter_filter, Bool.decide_and, Bool.and_comm]
  · intro objectUuid
    rw [permissionRecords_reached]
    exact standing_pairwise _

end Store

/-- A file is loaded exactly if it is consistent. Then the pools are right and of each key the last
entry stands. Otherwise the error is the first fault: groups come before handlers, in a handler the
text of the manifest before the keys, and in both the global pool before the object pool. -/
theorem file_loaded_iff_consistent (file : StoreFile) :
    ((∃ store, Store.ofFile file = .ok store) ↔ file.Consistent) ∧
    (∀ store, Store.ofFile file = .ok store → store.PoolSound ∧ store.ShowsLast file) ∧
    ∀ cause, Store.ofFile file = .error cause ↔ file.faults.head? = some cause := by
  have settled := Store.ofFile_settled file
  refine ⟨?_, ?_, ?_⟩
  · rw [settled.exists_ok_iff]
    exact StoreFile.faults_eq_nil_iff
  · intro store loaded
    exact ⟨(settled.holds_of_ok loaded).pools, Store.showsLast_of_ofFile loaded⟩
  · intro cause
    exact settled.eq_error_iff

/-- Keys, groups and handlers that are written twice. A key is for the global pool by its last entry
alone, and a handler is given at two spellings of its path, first with a text for a manifest. -/
def rewritingFile : StoreFile where
  aclKeys := [⟨"k", "old", "", false, true⟩, ⟨"k", "new", "", true, false⟩]
  groups := [⟨"g", "", [⟨"k", true⟩], []⟩, ⟨"g", "", [], []⟩]
  handlers :=
    [⟨"h1", "", "/a/", .get, .string "[]", none, none, ["k"], [], false, true⟩,
      ⟨"h2", "", "a", .get, .array [], none, none, [], [], false, true⟩]
  objectGrants := []
  permissions :=
    [⟨"o", "u", "g", .none, .none, .none⟩,
      ⟨"o", "u", "g", ⟨true, false, false, false⟩, .none, .none⟩]

theorem rewritingFile_loaded :
    ∃ store, Store.ofFile rewritingFile = .ok store ∧ store.PoolSound ∧
      store.ShowsLast rewritingFile :=
  ⟨_, rfl, (file_loaded_iff_consistent rewritingFile).2.1 _ rfl⟩

/-- With the keys the other way round the first of the groups is at fault, although replaced. -/
example : Store.ofFile { rewritingFile with aclKeys := rewritingFile.aclKeys.reverse } =
    .error (.poolMismatch (.group "g") "k" .global) := rfl

end ManifestGate
