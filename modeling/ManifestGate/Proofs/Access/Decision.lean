import Mathlib.Tactic.ByContra
import ManifestGate.Access.Decision

/-!
# Who gets access, and at which tier

The decision is read off the pools alone: which key of a pool is shared, and how many are, plays no
part in it.
-/

namespace ManifestGate

/-- Handler and group have a key of a pool in common. -/
def Shares (pool : Pool) (handler : Handler) (group : Group) : Prop :=
  ∃ key, key ∈ handler.acls pool ∧ key ∈ group.acls pool

theorem smallest?_eq_none_iff {texts : List String} : smallest? texts = none ↔ texts = [] := by
  cases texts with
  | nil => simp [smallest?]
  | cons text rest =>
    unfold smallest?
    cases smallest? rest <;> simp

theorem sharedKey?_eq_none_iff {pool : Pool} {handler : Handler} {group : Group} :
    sharedKey? pool handler group = none ↔ ¬Shares pool handler group := by
  simp [sharedKey?, smallest?_eq_none_iff, Shares, List.filter_eq_nil_iff]

theorem shares_of_sharedKey? {pool : Pool} {handler : Handler} {group : Group} {key : String}
    (found : sharedKey? pool handler group = some key) : Shares pool handler group := by
  by_contra apart
  rw [sharedKey?_eq_none_iff.mpr apart] at found
  cases found

theorem decideAccess_granted_iff {handler : Handler} {group : Group} :
    (decideAccess handler group).granted = true ↔
      Shares .global handler group ∨ Shares .object handler group := by
  unfold decideAccess
  cases global : sharedKey? .global handler group with
  | some key => exact iff_of_true rfl (.inl (shares_of_sharedKey? global))
  | none =>
    have noGlobal := sharedKey?_eq_none_iff.mp global
    cases object : sharedKey? .object handler group with
    | some key => exact iff_of_true rfl (.inr (shares_of_sharedKey? object))
    | none =>
      have noObject := sharedKey?_eq_none_iff.mp object
      simp [noGlobal, noObject]

theorem decideAccess_object_iff {handler : Handler} {group : Group} :
    (decideAccess handler group).accessType = .object ↔
      ¬Shares .global handler group ∧ Shares .object handler group := by
  unfold decideAccess
  cases global : sharedKey? .global handler group with
  | some key =>
    have shared := shares_of_sharedKey? global
    simp [shared]
  | none =>
    have noGlobal := sharedKey?_eq_none_iff.mp global
    cases object : sharedKey? .object handler group with
    | some key => exact iff_of_true rfl ⟨noGlobal, shares_of_sharedKey? object⟩
    | none =>
      have noObject := sharedKey?_eq_none_iff.mp object
      simp [noObject]

theorem decideAccess_global_iff {handler : Handler} {group : Group} :
    (decideAccess handler group).accessType = .global ↔ Shares .global handler group := by
  unfold decideAccess
  cases global : sharedKey? .global handler group with
  | some key => exact iff_of_true rfl (shares_of_sharedKey? global)
  | none =>
    have noGlobal := sharedKey?_eq_none_iff.mp global
    cases sharedKey? .object handler group <;> simp [noGlobal]

namespace Directory

variable (directory : Directory) (enforced : Bool) (handler : Handler) (requester : Requester)

/-- The group that the requester acts as, if the directory knows it. -/
def actingGroup? : Option Group :=
  requester.group.bind directory.group?

/-- Access is not enforced, or the requester is anonymous or acts as a group that shares a key with
the handler. -/
def Permits : Prop :=
  enforced = false ∨ requester.isAnonymous = true ∨
    ∃ group, directory.actingGroup? requester = some group ∧
      (Shares .global handler group ∨ Shares .object handler group)

/-- Access is enforced, and only the object pools let the authenticated requester in. -/
def PermitsByObject : Prop :=
  enforced = true ∧ requester.isAnonymous = false ∧
    ∃ group, directory.actingGroup? requester = some group ∧
      ¬Shares .global handler group ∧ Shares .object handler group

/-- The access context that permission comes with. -/
structure Grants (access : AccessContext) : Prop where
  granted : access.granted = true
  object : access.accessType = .object ↔ directory.PermitsByObject enforced handler requester
  global : access.accessType = .global ↔ ¬directory.PermitsByObject enforced handler requester

section

variable {directory enforced handler requester}

theorem grants_bypass (free : enforced = false ∨ requester.isAnonymous = true)
    {access : AccessContext} (granted : access.granted = true)
    (global : access.accessType = .global) :
    directory.Grants enforced handler requester access := by
  have notByObject : ¬directory.PermitsByObject enforced handler requester := by
    rintro ⟨on, known, _⟩
    cases free with
    | inl off => rw [off] at on; cases on
    | inr anonymous => rw [anonymous] at known; cases known
  refine ⟨granted, ?_, ?_⟩
  · rw [global]
    exact iff_of_false (by simp) notByObject
  · exact iff_of_true global notByObject

theorem grants_decideAccess {group : Group} (on : enforced = true)
    (known : requester.isAnonymous = false) (acting : directory.actingGroup? requester = some group)
    (granted : (decideAccess handler group).granted = true) :
    directory.Grants enforced handler requester (decideAccess handler group) := by
  have byObject : directory.PermitsByObject enforced handler requester ↔
      ¬Shares .global handler group ∧ Shares .object handler group := by
    constructor
    · rintro ⟨_, _, other, found, tier⟩
      rw [acting] at found
      cases found
      exact tier
    · intro tier
      exact ⟨on, known, group, acting, tier⟩
  refine ⟨granted, ?_, ?_⟩
  · rw [byObject]
    exact decideAccess_object_iff
  · rw [byObject, decideAccess_global_iff]
    have shared := decideAccess_granted_iff.mp granted
    constructor
    · exact fun global tier => tier.1 global
    · intro notObject
      by_contra noGlobal
      exact notObject ⟨noGlobal, shared.resolve_left noGlobal⟩

theorem permits_iff_of_enforced (on : enforced = true) (known : requester.isAnonymous = false) :
    directory.Permits enforced handler requester ↔
      ∃ group, directory.actingGroup? requester = some group ∧
        (decideAccess handler group).granted = true := by
  unfold Permits
  simp only [on, known, decideAccess_granted_iff, Bool.true_eq_false, Bool.false_eq_true, false_or]

theorem authorize_granted {group : Group} (on : enforced = true)
    (known : requester.isAnonymous = false) (acting : directory.actingGroup? requester = some group)
    (granted : (decideAccess handler group).granted = true) :
    directory.authorize enforced handler requester = .ok (decideAccess handler group) := by
  obtain ⟨groupId, asGroup, found⟩ := Option.bind_eq_some_iff.mp acting
  simp [authorize, decideFor, on, known, asGroup, found, granted, bind, Except.bind]

theorem authorize_denied (on : enforced = true) (known : requester.isAnonymous = false)
    (refused : ∀ group, directory.actingGroup? requester = some group →
      (decideAccess handler group).granted = false) :
    ∃ reason, directory.authorize enforced handler requester = .error (.denied reason) := by
  unfold authorize decideFor
  rw [if_neg (by simp [on, known])]
  cases asGroup : requester.group with
  | none => exact ⟨_, rfl⟩
  | some groupId =>
    dsimp only
    cases found : directory.group? groupId with
    | none => exact ⟨_, rfl⟩
    | some group =>
      have acting : directory.actingGroup? requester = some group := by
        rw [actingGroup?, asGroup]
        exact found
      simp only [refused group acting, bind, Except.bind]
      exact ⟨_, rfl⟩

end

/-- Authorization grants what the directory permits and denies all else. -/
theorem authorize_spec :
    match directory.authorize enforced handler requester with
    | .ok access => directory.Permits enforced handler requester ∧
        directory.Grants enforced handler requester access
    | .error error => ¬directory.Permits enforced handler requester ∧
        ∃ reason, error = .denied reason := by
  by_cases free : enforced = false ∨ requester.isAnonymous = true
  · have bypassed : (!enforced || requester.isAnonymous) = true := by
      simpa using free
    rw [authorize, if_pos bypassed]
    exact ⟨free.imp_right .inl, grants_bypass free rfl rfl⟩
  · have strict : enforced = true ∧ requester.isAnonymous = false := by
      simpa using free
    obtain ⟨on, known⟩ := strict
    by_cases permits : directory.Permits enforced handler requester
    · obtain ⟨group, acting, granted⟩ := (permits_iff_of_enforced on known).mp permits
      rw [authorize_granted on known acting granted]
      exact ⟨permits, grants_decideAccess on known acting granted⟩
    · have refused : ∀ group, directory.actingGroup? requester = some group →
          (decideAccess handler group).granted = false := by
        intro group acting
        rw [Bool.eq_false_iff]
        intro granted
        exact permits ((permits_iff_of_enforced on known).mpr ⟨group, acting, granted⟩)
      obtain ⟨reason, denied⟩ := authorize_denied on known refused
      rw [denied]
      exact ⟨permits, reason, rfl⟩

end Directory

end ManifestGate
