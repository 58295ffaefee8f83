import Mathlib.Data.List.Induction
import ManifestGate.Access.Store
import ManifestGate.Proofs.Result

/-!
# Write histories

A store is reached by writes from the empty one. A write that fails leaves the store as it was, so a
history is any sequence of writes, and what holds after it is shown one write at a time.
-/

namespace ManifestGate.Store

/-- A write to a store. -/
inductive Write where
  | aclKey (key : AclKey)
  | group (group : Group)
  | handler (handler : Handler)
  | grant (grant : ObjectGrant)
  | permission (record : PermissionRecord)

def write (store : Store) : Write → Except StoreError Store
  | .aclKey key => .ok (store.insertAclKey key)
  | .group group => store.insertGroup group
  | .handler handler => store.insertHandler handler
  | .grant grant => .ok (store.grantObject grant)
  | .permission record => .ok (store.setPermission record)

/-- The store after a write, whether it succeeds or fails. -/
def after (store : Store) (write : Write) : Store :=
  match store.write write with
  | .ok next => next
  | .error _ => store

theorem after_of_ok {store next : Store} {write : Write} (written : store.write write = .ok next) :
    store.after write = next := by
  rw [after, written]

theorem after_of_error {store : Store} {write : Write} {cause : StoreError}
    (refused : store.write write = .error cause) : store.after write = store := by
  rw [after, refused]

/-- The store after a history of writes. -/
def reached (history : List Write) : Store :=
  history.foldl after empty

theorem reached_append_singleton (history : List Write) (write : Write) :
    reached (history ++ [write]) = (reached history).after write := by
  rw [reached, List.foldl_append]
  rfl

/-- What holds of the empty store and is kept by each write holds after every history. -/
theorem reached_induction {holds : Store → Prop} (start : holds empty)
    (step : ∀ store write, holds store → holds (store.after write)) (history : List Write) :
    holds (reached history) := by
  induction history using List.reverseRecOn with
  | nil => exact start
  | append_singleton history write ih =>
    rw [reached_append_singleton]
    exact step _ write ih

/-- The store has a key under the id that may be used in the pool. -/
def Holds (store : Store) (pool : Pool) (id : String) : Prop :=
  ∃ key, store.aclKeys.get? id = some key ∧ key.isOf pool = true

theorem checkPool_ok_iff {store : Store} {owner : KeyOwner} {pool : Pool} {acls : List String} :
    store.checkPool owner pool acls = .ok () ↔ ∀ acl ∈ acls, store.Holds pool acl := by
  induction acls with
  | nil => simp [checkPool]
  | cons acl rest ih =>
    rw [List.forall_mem_cons, ← ih, checkPool]
    split
    · next absent => simp [Holds, absent]
    · next key present =>
      by_cases fits : key.isOf pool = true
      · simp [Holds, present, fits]
      · simp [Holds, present, fits]

/-- A group that is taken in names keys of the right pools only. -/
theorem insertGroup_ok {store next : Store} {group : Group}
    (written : store.insertGroup group = .ok next) :
    next = { store with groups := store.groups.put group.id group } ∧
      ∀ pool, ∀ acl ∈ group.acls pool, store.Holds pool acl := by
  unfold insertGroup at written
  obtain ⟨_, global, written⟩ := Except.bind_eq_ok_iff.mp written
  obtain ⟨_, object, written⟩ := Except.bind_eq_ok_iff.mp written
  cases written
  refine ⟨rfl, fun pool => ?_⟩
  cases pool with
  | global => exact checkPool_ok_iff.mp global
  | object => exact checkPool_ok_iff.mp object

/-- A handler that is taken in names keys of the right pools only. -/
theorem insertHandler_ok {store next : Store} {handler : Handler}
    (written : store.insertHandler handler = .ok next) :
    ∃ prepared, prepare handler = .ok prepared ∧
      next = { store with
        handlers := store.handlers.put (prepared.path, prepared.method) prepared } ∧
      ∀ pool, ∀ acl ∈ prepared.acls pool, store.Holds pool acl := by
  unfold insertHandler at written
  obtain ⟨prepared, accepted, written⟩ := Except.bind_eq_ok_iff.mp written
  obtain ⟨_, global, written⟩ := Except.bind_eq_ok_iff.mp written
  obtain ⟨_, object, written⟩ := Except.bind_eq_ok_iff.mp written
  cases written
  refine ⟨prepared, accepted, rfl, fun pool => ?_⟩
  cases pool with
  | global => exact checkPool_ok_iff.mp global
  | object => exact checkPool_ok_iff.mp object

end ManifestGate.Store
