import ManifestGate.Proofs.Access.Decision

/-!
# The tiers of a decision

A decision grants at the highest tier whose pools meet, and names the least key that they share.
It sees the keys of a pool as a set, so more keys on either side never lower the tier. Authorization
passes the decision for the acting group on; nothing else of a requester plays a part in it.
-/

namespace ManifestGate

namespace AccessType

/-- From no access to access to all objects. -/
def rank : AccessType → Nat
  | .none => 0
  | .object => 1
  | .global => 2

end AccessType

/-- The tier at which a shared key of the pool grants. -/
def Pool.tier : Pool → AccessType
  | .global => .global
  | .object => .object

/-- The least key that handler and group have in common in a pool. -/
structure LeastShared (pool : Pool) (handler : Handler) (group : Group) (key : String) : Prop where
  ofHandler : key ∈ handler.acls pool
  ofGroup : key ∈ group.acls pool
  least : ∀ other, other ∈ handler.acls pool → other ∈ group.acls pool → key ≤ other

theorem smallest?_eq_some {texts : List String} {text : String}
    (found : smallest? texts = some text) : text ∈ texts ∧ ∀ other ∈ texts, text ≤ other := by
  induction texts generalizing text with
  | nil => cases found
  | cons first rest ih =>
    unfold smallest? at found
    cases smallestRest : smallest? rest with
    | none =>
      rw [smallestRest] at found
      cases found
      rw [smallest?_eq_none_iff.mp smallestRest]
      simp
    | some last =>
      obtain ⟨member, least⟩ := ih smallestRest
      rw [smallestRest] at found
      by_cases before : last < first
      · simp only [if_pos before, Option.some.injEq] at found
        subst found
        refine ⟨List.mem_cons_of_mem first member, ?_⟩
        simpa using And.intro (Std.le_of_lt before) least
      · simp only [if_neg before, Option.some.injEq] at found
        subst found
        have lower : first ≤ last := String.not_lt.mp before
        refine ⟨List.mem_cons_self, ?_⟩
        intro other inside
        cases inside with
        | head => exact String.le_refl first
        | tail _ inside => exact String.le_trans lower (least other inside)

theorem sharedKey?_eq_some {pool : Pool} {handler : Handler} {group : Group} {key : String}
    (found : sharedKey? pool handler group = some key) : LeastShared pool handler group key := by
  obtain ⟨member, least⟩ := smallest?_eq_some found
  simp only [List.mem_filter, decide_eq_true_eq] at member least
  exact ⟨member.1, member.2, fun other ofHandler ofGroup => least other ⟨ofHandler, ofGroup⟩⟩

section Tiers

variable {handler wideHandler : Handler} {group wideGroup : Group}

/-- A decision that grants does so by the least key of the pool that its tier belongs to. -/
theorem decideAccess_names_least (granted : (decideAccess handler group).granted = true) :
    ∃ (pool : Pool) (key : String), (decideAccess handler group).accessType = pool.tier ∧
      (decideAccess handler group).acl = some key ∧ LeastShared pool handler group key := by
  unfold decideAccess at granted ⊢
  cases global : sharedKey? .global handler group with
  | some key => exact ⟨.global, key, rfl, rfl, sharedKey?_eq_some global⟩
  | none =>
    cases object : sharedKey? .object handler group with
    | some key => exact ⟨.object, key, rfl, rfl, sharedKey?_eq_some object⟩
    | none =>
      rw [global, object] at granted
      cases granted

theorem decideAccess_apart (noGlobal : ¬Shares .global handler group)
    (noObject : ¬Shares .object handler group) :
    decideAccess handler group =
      ⟨false, .none, none, some group.id, handler.objectType, handler.objectKey⟩ := by
  unfold decideAccess
  rw [sharedKey?_eq_none_iff.mpr noGlobal, sharedKey?_eq_none_iff.mpr noObject]

/-- Only the identifier of a group and its sets of keys matter. -/
theorem decideAccess_congr {other : Group} (sameId : other.id = group.id)
    (sameKeys : ∀ pool key, key ∈ other.acls pool ↔ key ∈ group.acls pool) :
    decideAccess handler other = decideAccess handler group := by
  have sameShared (pool : Pool) :
      sharedKey? pool handler other = sharedKey? pool handler group := by
    simp only [sharedKey?, sameKeys]
  rw [decideAccess, sameShared, sameShared, sameId]
  rfl

theorem Shares.mono {pool : Pool} (shared : Shares pool handler group)
    (moreKeys : handler.acls pool ⊆ wideHandler.acls pool)
    (moreGrants : group.acls pool ⊆ wideGroup.acls pool) :
    Shares pool wideHandler wideGroup := by
  obtain ⟨key, ofHandler, ofGroup⟩ := shared
  exact ⟨key, moreKeys ofHandler, moreGrants ofGroup⟩

theorem rank_decideAccess_mono
    (moreKeys : ∀ pool, handler.acls pool ⊆ wideHandler.acls pool)
    (moreGrants : ∀ pool, group.acls pool ⊆ wideGroup.acls pool) :
    (decideAccess handler group).accessType.rank ≤
      (decideAccess wideHandler wideGroup).accessType.rank := by
  have shared (pool : Pool) (narrow : Shares pool handler group) :
      Shares pool wideHandler wideGroup :=
    narrow.mono (moreKeys pool) (moreGrants pool)
  cases tier : (decideAccess handler group).accessType with
  | none => exact Nat.zero_le _
  | global =>
    have global := shared .global (decideAccess_global_iff.mp tier)
    exact Nat.le_of_eq (by rw [decideAccess_global_iff.mpr global])
  | object =>
    have object := shared .object (decideAccess_object_iff.mp tier).2
    by_cases global : Shares .global wideHandler wideGroup
    · rw [decideAccess_global_iff.mpr global]
      decide
    · exact Nat.le_of_eq (by rw [decideAccess_object_iff.mpr ⟨global, object⟩])

end Tiers

/-! ## Grants by their keys -/

/-- The second list of grants has the grants of the first in another order, some of them repeated
and some with the opposite flag. -/
inductive Reworked : List AclGrant → List AclGrant → Prop where
  | reorder {grants reordered : List AclGrant} (same : grants.Perm reordered) :
      Reworked grants reordered
  | double {grants : List AclGrant} {grant : AclGrant} (held : grant ∈ grants) :
      Reworked grants (grant :: grants)
  | flip (before after : List AclGrant) (grant : AclGrant) :
      Reworked (before ++ grant :: after)
        (before ++ { grant with allowed := !grant.allowed } :: after)
  | trans {grants middle reworked : List AclGrant} :
      Reworked grants middle → Reworked middle reworked → Reworked grants reworked

theorem Reworked.mem_keys_iff {grants reworked : List AclGrant} (changed : Reworked grants reworked)
    (key : String) : key ∈ reworked.map AclGrant.acl ↔ key ∈ grants.map AclGrant.acl := by
  induction changed with
  | reorder same => exact (same.map AclGrant.acl).mem_iff.symm
  | double held =>
    rw [List.map_cons, List.mem_cons]
    refine or_iff_right_of_imp ?_
    intro equal
    rw [equal]
    exact List.mem_map_of_mem held
  | flip before after grant => simp
  | trans _ _ first second => exact second.trans first

theorem decideAccess_reworked {handler : Handler} {group : Group} {global object : List AclGrant}
    (globalChanged : Reworked group.global global) (objectChanged : Reworked group.object object) :
    decideAccess handler { group with global, object } = decideAccess handler group := by
  have sameId : { group with global, object }.id = group.id := rfl
  apply decideAccess_congr sameId
  intro pool key
  cases pool with
  | global => exact globalChanged.mem_keys_iff key
  | object => exact objectChanged.mem_keys_iff key

namespace Directory

variable {directory : Directory} {handler : Handler} {requester other : Requester}

theorem authorize_eq_ok_iff (known : requester.isAnonymous = false) {access : AccessContext} :
    directory.authorize true handler requester = .ok access ↔
      ∃ group, directory.actingGroup? requester = some group ∧
        (decideAccess handler group).granted = true ∧ access = decideAccess handler group := by
  constructor
  · intro authorized
    have spec := directory.authorize_spec true handler requester
    rw [authorized] at spec
    obtain ⟨group, acting, granted⟩ := (permits_iff_of_enforced rfl known).mp spec.1
    rw [authorize_granted rfl known acting granted] at authorized
    cases authorized
    exact ⟨group, acting, granted, rfl⟩
  · intro ⟨group, acting, granted, same⟩
    rw [same]
    exact authorize_granted rfl known acting granted

theorem authorize_congr {enforced : Bool} (known : requester.isAnonymous = other.isAnonymous)
    (acting : requester.group = other.group) :
    directory.authorize enforced handler requester =
      directory.authorize enforced handler other := by
  rw [authorize, authorize, known, acting]

end Directory

/-- A decision grants at the highest tier with a shared key and names the least one. It is the same
for reworked grants, and keys and grants that are added do not lower its tier. An authenticated
requester gets the decision for the acting group if it grants, and is denied otherwise. -/
theorem decision_is_tiered (handler : Handler) :
    (∀ group : Group,
      let access := decideAccess handler group
      ((access.granted = true ∧ access.accessType = .global) ↔ Shares .global handler group) ∧
      ((access.granted = true ∧ access.accessType = .object) ↔
        ¬Shares .global handler group ∧ Shares .object handler group) ∧
      (¬Shares .global handler group → ¬Shares .object handler group →
        access.granted = false ∧ access.accessType = .none ∧ access.acl = none) ∧
      (access.granted = true → ∃ (pool : Pool) (key : String), access.accessType = pool.tier ∧
        access.acl = some key ∧ LeastShared pool handler group key) ∧
      (∀ global object, Reworked group.global global → Reworked group.object object →
        decideAccess handler { group with global, object } = access) ∧
      ∀ (wideHandler : Handler) (wideGroup : Group),
        (∀ pool, handler.acls pool ⊆ wideHandler.acls pool) →
        (∀ pool, group.acls pool ⊆ wideGroup.acls pool) →
        access.accessType.rank ≤ (decideAccess wideHandler wideGroup).accessType.rank) ∧
    ∀ (directory : Directory) (requester : Requester), requester.isAnonymous = false →
      (∀ access, directory.authorize true handler requester = .ok access ↔
        ∃ group, directory.actingGroup? requester = some group ∧
          (decideAccess handler group).granted = true ∧ access = decideAccess handler group) ∧
      (∀ error, directory.authorize true handler requester = .error error →
        ∃ reason, error = .denied reason) ∧
      ∀ other : Requester, other.isAnonymous = false → other.group = requester.group →
        directory.authorize true handler other = directory.authorize true handler requester := by
  constructor
  · intro group access
    refine ⟨?_, ?_, ?_, ?_, ?_, ?_⟩
    · rw [decideAccess_global_iff, decideAccess_granted_iff]
      exact ⟨fun both => both.2, fun global => ⟨.inl global, global⟩⟩
    · rw [decideAccess_object_iff, decideAccess_granted_iff]
      exact ⟨fun both => both.2, fun object => ⟨.inr object.2, object⟩⟩
    · intro noGlobal noObject
      have refused := decideAccess_apart noGlobal noObject
      exact ⟨congrArg AccessContext.granted refused, congrArg AccessContext.accessType refused,
        congrArg AccessContext.acl refused⟩
    · exact decideAccess_names_least
    · intro global object globalChanged objectChanged
      exact decideAccess_reworked globalChanged objectChanged
    · intro wideHandler wideGroup moreKeys moreGrants
      exact rank_decideAccess_mono moreKeys moreGrants
  · intro directory requester known
    refine ⟨fun access => Directory.authorize_eq_ok_iff known, ?_, ?_⟩
    · intro error failed
      have spec := directory.authorize_spec true handler requester
      rw [failed] at spec
      exact spec.2
    · intro other otherKnown acting
      exact Directory.authorize_congr (otherKnown.trans known.symm) acting

end ManifestGate
