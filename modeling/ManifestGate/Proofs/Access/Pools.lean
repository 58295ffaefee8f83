import ManifestGate.Proofs.Access.History

/-!
# Pools of ACL keys

Groups and handlers are taken in only if the store has each key that they name and its flags fit the
pool. The other direction is open: a key is written without a look at who names it, so a later write
can clear the flag of a key in use. Such writes are the only ones that break the pools; the keys
themselves stay.
-/

namespace ManifestGate.Store

/-- A stored group or handler names the key in the pool. -/
def Names (store : Store) (pool : Pool) (id : String) : Prop :=
  (∃ name group, store.groups.get? name = some group ∧ id ∈ group.acls pool) ∨
    ∃ place handler, store.handlers.get? place = some handler ∧ id ∈ handler.acls pool

/-- Every key that is named in a pool is present and may be used there. -/
def PoolSound (store : Store) : Prop :=
  ∀ pool id, store.Names pool id → store.Holds pool id

/-- Every key that is named is present. -/
def NamesPresent (store : Store) : Prop :=
  ∀ pool id, store.Names pool id → ∃ key, store.aclKeys.get? id = some key

/-- The write clears no flag of a key that is named in the pool of the flag. -/
def Keeps (store : Store) : Write → Prop
  | .aclKey key => ∀ pool, store.Names pool key.id → key.isOf pool = true
  | _ => True

end ManifestGate.Store

namespace ManifestGate

theorem Table.get?_put {κ : Type} {α : Type} [DecidableEq κ] {table : Table κ α} {key other : κ}
    {value found : α} (present : (table.put key value).get? other = some found) :
    found = value ∨ table.get? other = some found := by
  by_cases same : key = other
  · subst same
    rw [Table.get?_put_self] at present
    exact .inl (Option.some.inj present).symm
  · rw [Table.get?_put_of_ne table value same] at present
    exact .inr present

namespace Store

/-- A write sets a key, or it leaves the keys, and then what is named after it was named before or is
checked. -/
theorem after_cases (store : Store) (write : Write) :
    (∃ key, write = .aclKey key) ∨
      (store.Keeps write ∧ (store.after write).aclKeys = store.aclKeys ∧
        ∀ pool id, (store.after write).Names pool id →
          store.Names pool id ∨ store.Holds pool id) := by
  cases write with
  | aclKey key => exact .inl ⟨key, rfl⟩
  | group group =>
    refine .inr ⟨trivial, ?_⟩
    cases written : store.write (.group group) with
    | error cause =>
      rw [after_of_error written]
      exact ⟨rfl, fun _ _ named => .inl named⟩
    | ok next =>
      rw [after_of_ok written]
      obtain ⟨rfl, fitting⟩ := insertGroup_ok written
      refine ⟨rfl, ?_⟩
      rintro pool id (⟨name, found, present, inside⟩ | named)
      · rcases Table.get?_put present with rfl | before
        · exact .inr (fitting pool id inside)
        · exact .inl (.inl ⟨name, found, before, inside⟩)
      · exact .inl (.inr named)
  | handler handler =>
    refine .inr ⟨trivial, ?_⟩
    cases written : store.write (.handler handler) with
    | error cause =>
      rw [after_of_error written]
      exact ⟨rfl, fun _ _ named => .inl named⟩
    | ok next =>
      rw [after_of_ok written]
      obtain ⟨prepared, _, rfl, fitting⟩ := insertHandler_ok written
      refine ⟨rfl, ?_⟩
      rintro pool id (named | ⟨place, found, present, inside⟩)
      · exact .inl (.inl named)
      · rcases Table.get?_put present with rfl | before
        · exact .inr (fitting pool id inside)
        · exact .inl (.inr ⟨place, found, before, inside⟩)
  | grant grant => exact .inr ⟨trivial, rfl, fun _ _ named => .inl named⟩
  | permission record => exact .inr ⟨trivial, rfl, fun _ _ named => .inl named⟩

theorem holds_insertAclKey_of_ne {store : Store} {key : AclKey} {pool : Pool} {id : String}
    (different : key.id ≠ id) : (store.insertAclKey key).Holds pool id ↔ store.Holds pool id := by
  unfold Holds insertAclKey
  rw [Table.get?_put_of_ne store.aclKeys key different]

theorem holds_insertAclKey_self (store : Store) (key : AclKey) (pool : Pool) :
    (store.insertAclKey key).Holds pool key.id ↔ key.isOf pool = true := by
  simp [Holds, insertAclKey]

/-- A write keeps the pools exactly if it clears no flag of a key in use. -/
theorem PoolSound.after_iff {store : Store} (sound : store.PoolSound) (write : Write) :
    (store.after write).PoolSound ↔ store.Keeps write := by
  rcases store.after_cases write with ⟨key, rfl⟩ | ⟨kept, sameKeys, named⟩
  · constructor
    · intro soundAfter pool present
      exact (holds_insertAclKey_self store key pool).mp (soundAfter pool key.id present)
    · intro kept pool id present
      by_cases same : key.id = id
      · subst same
        exact (holds_insertAclKey_self store key pool).mpr (kept pool present)
      · exact (holds_insertAclKey_of_ne same).mpr (sound pool id present)
  · refine iff_of_true ?_ kept
    intro pool id present
    have before : store.Holds pool id :=
      (named pool id present).elim (sound pool id) fun checked => checked
    rwa [Holds, sameKeys]

theorem not_names_empty (pool : Pool) (id : String) : ¬empty.Names pool id := by
  rintro (⟨_, _, none, _⟩ | ⟨_, _, none, _⟩) <;> cases none

/-- No write takes a key away. -/
theorem NamesPresent.after {store : Store} (present : store.NamesPresent) (write : Write) :
    (store.after write).NamesPresent := by
  rcases store.after_cases write with ⟨key, rfl⟩ | ⟨_, sameKeys, named⟩
  · intro pool id inside
    by_cases same : key.id = id
    · exact ⟨key, same ▸ Table.get?_put_self store.aclKeys key.id key⟩
    · obtain ⟨known, found⟩ := present pool id inside
      exact ⟨known, (Table.get?_put_of_ne store.aclKeys key same).trans found⟩
  · intro pool id inside
    rw [sameKeys]
    rcases named pool id inside with before | ⟨key, checked, _⟩
    · exact present pool id before
    · exact ⟨key, checked⟩

theorem poolSound_empty : PoolSound empty :=
  fun pool id named => absurd named (not_names_empty pool id)

theorem reached_namesPresent (history : List Write) : (reached history).NamesPresent :=
  reached_induction (fun pool id named => absurd named (not_names_empty pool id))
    (fun _ write present => present.after write) history

end Store

/-- Every key that a stored group or handler names is present after every history. The pools are right
all along the history exactly if none of its writes clears a flag of a key in use. -/
theorem pools_sound_iff_kept (history : List Store.Write) :
    (Store.reached history).NamesPresent ∧
    ((∀ earlier, earlier <+: history → (Store.reached earlier).PoolSound) ↔
      ∀ earlier write, earlier ++ [write] <+: history → (Store.reached earlier).Keeps write) := by
  refine ⟨Store.reached_namesPresent history, ?_, ?_⟩
  · intro sound earlier write inside
    have before := sound earlier ((List.prefix_append earlier [write]).trans inside)
    have later := sound _ inside
    rw [Store.reached_append_singleton] at later
    exact (before.after_iff write).mp later
  · intro kept earlier inside
    induction earlier using List.reverseRecOn with
    | nil => exact Store.poolSound_empty
    | append_singleton earlier write ih =>
      have before := ih ((List.prefix_append earlier [write]).trans inside)
      rw [Store.reached_append_singleton]
      exact (before.after_iff write).mpr (kept earlier write inside)

/-- A key, a group that holds a grant of it in the global pool, and the key again without its flag. -/
def clearedFlag : List Store.Write :=
  [.aclKey ⟨"k1", "k1", "", true, false⟩, .group ⟨"g1", "", [⟨"k1", true⟩], []⟩,
    .aclKey ⟨"k1", "k1", "", false, false⟩]

theorem clearedFlag_not_sound : ¬(Store.reached clearedFlag).PoolSound := by
  intro sound
  have named : (Store.reached clearedFlag).Names .global "k1" :=
    .inl ⟨"g1", ⟨"g1", "", [⟨"k1", true⟩], []⟩, rfl, List.mem_cons_self⟩
  obtain ⟨key, present, fits⟩ := sound .global "k1" named
  have stored : (Store.reached clearedFlag).aclKeys.get? "k1" =
      some ⟨"k1", "k1", "", false, false⟩ := rfl
  rw [stored] at present
  cases present
  cases fits

end ManifestGate
