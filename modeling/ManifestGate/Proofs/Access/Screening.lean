import Mathlib.Tactic.ByContra
import ManifestGate.Access.Filter
import ManifestGate.Access.Store

/-!
# What the object filter lets through

At the object tier a value passes if an allowing grant clears it for the group of the context, and
nothing else passes, whatever the context lacks. At the other tiers there is no restriction, so that
everything passes: at the global one, where this is meant, and at the tier of those who were granted
nothing.
-/

namespace ManifestGate

/-- What a filter handles one by one: the items of a list, or else the value itself. -/
def Value.objects : Value → List Value
  | .list items => items
  | single => [single]

namespace Directory

/-- The grant for the object type and the group of the context and for the identifier that the value
has under the context's key. -/
def grantFor? (directory : Directory) (access : AccessContext) (value : Value) :
    Option ObjectGrant := do
  let objectType ← access.objectType
  let group ← access.group
  let id ← value.id? (access.objectKey.getD AccessContext.defaultObjectKey)
  directory.objectGrant? objectType id group

/-- The directory holds a grant for the value, and the grant allows. -/
def Cleared (directory : Directory) (access : AccessContext) (value : Value) : Prop :=
  ∃ grant, directory.grantFor? access value = some grant ∧ grant.allowed = true

instance (directory : Directory) (access : AccessContext) :
    DecidablePred (directory.Cleared access) := fun value =>
  decidable_of_iff ((directory.grantFor? access value).any ObjectGrant.allowed = true) (by
    simp [Cleared, Option.any_eq_true])

/-- All that any of the three ways into the filter lets through is cleared. -/
structure FailsClosed (directory : Directory) (access : AccessContext) : Prop where
  object : ∀ value passed, directory.passObject access value = .ok passed →
    directory.Cleared access passed
  objects : ∀ values, ∀ passed ∈ directory.keepVisible access values,
    directory.Cleared access passed
  filter : ∀ value passed, directory.filterValue access value = .ok passed →
    ∀ object ∈ passed.objects, directory.Cleared access object

/-- All three ways into the filter let everything through as it is. -/
structure PassesAll (directory : Directory) (access : AccessContext) : Prop where
  object : ∀ value, directory.passObject access value = .ok value
  objects : ∀ values, directory.keepVisible access values = values
  filter : ∀ value, directory.filterValue access value = .ok value

section

variable {directory : Directory} {access : AccessContext}

theorem clear_eq_ok_iff {restriction : Restriction} {value : Value} :
    directory.clear restriction value = .ok () ↔
      ∃ grant, ((value.id? restriction.objectKey).bind fun id =>
          directory.objectGrant? restriction.objectType id restriction.group) = some grant ∧
        grant.allowed = true := by
  unfold clear
  cases identified : value.id? restriction.objectKey with
  | none => simp
  | some id =>
    dsimp only
    cases found : directory.objectGrant? restriction.objectType id restriction.group with
    | none => simp [found]
    | some grant =>
      cases allowed : grant.allowed <;> simp [found, allowed]

theorem restriction?_eq_none_iff :
    access.restriction? = .ok none ↔ access.accessType ≠ .object := by
  unfold AccessContext.restriction? AccessContext.isObjectLevel
  by_cases tier : access.accessType = .object
  · cases access.objectType <;> cases access.group <;> simp [tier]
  · simp [tier]

/-- A value is cleared if the object tier restricts the context and an allowing grant passes it. -/
theorem cleared_iff (tier : access.accessType = .object) {value : Value} :
    directory.Cleared access value ↔
      ∃ restriction, access.restriction? = .ok (some restriction) ∧
        directory.clear restriction value = .ok () := by
  have isObject : access.isObjectLevel = true := decide_eq_true tier
  unfold AccessContext.restriction? Cleared grantFor?
  rw [if_neg (by simp [isObject])]
  cases access.objectType with
  | none => simp
  | some objectType =>
    cases access.group with
    | none => simp
    | some group => simp [clear_eq_ok_iff]

theorem passObject_eq_ok_iff (tier : access.accessType = .object) {value passed : Value} :
    directory.passObject access value = .ok passed ↔
      passed = value ∧ directory.Cleared access value := by
  rw [cleared_iff tier, passObject]
  cases restricted : access.restriction? with
  | error cause => simp [bind, Except.bind]
  | ok restriction? =>
    cases restriction? with
    | none => exact absurd tier (restriction?_eq_none_iff.mp restricted)
    | some restriction =>
      cases cleared : directory.clear restriction value with
      | error cause => simp [bind, Except.bind, cleared]
      | ok _ => simp [bind, Except.bind, pure, Except.pure, cleared, eq_comm]

/-- The list keeps the order of the cleared values, and of them every one. -/
theorem keepVisible_eq_filter (tier : access.accessType = .object) (values : List Value) :
    directory.keepVisible access values = values.filter (directory.Cleared access ·) := by
  unfold keepVisible
  cases restricted : access.restriction? with
  | error cause =>
    have noneCleared : ∀ value ∈ values, ¬directory.Cleared access value := by
      intro value _ cleared
      obtain ⟨restriction, found, _⟩ := (cleared_iff tier).mp cleared
      rw [restricted] at found
      cases found
    simpa [List.filter_eq_nil_iff] using noneCleared
  | ok restriction? =>
    cases restriction? with
    | none => exact absurd tier (restriction?_eq_none_iff.mp restricted)
    | some restriction =>
      apply List.filter_congr
      intro value _
      have same : directory.Cleared access value ↔
          directory.clear restriction value = .ok () := by
        rw [cleared_iff tier, restricted]
        simp
      cases cleared : directory.clear restriction value <;>
        simp [same, cleared, Except.isOk, Except.toBool]

theorem mem_keepVisible_iff (tier : access.accessType = .object) {values : List Value}
    {value : Value} :
    value ∈ directory.keepVisible access values ↔
      value ∈ values ∧ directory.Cleared access value := by
  rw [keepVisible_eq_filter tier, List.mem_filter, decide_eq_true_iff]

theorem failsClosed_of_object (tier : access.accessType = .object) :
    directory.FailsClosed access where
  object value passed through := by
    obtain ⟨rfl, cleared⟩ := (passObject_eq_ok_iff tier).mp through
    exact cleared
  objects values passed kept := ((mem_keepVisible_iff tier).mp kept).2
  filter value passed through object member := by
    cases value with
    | list items =>
      cases through
      exact ((mem_keepVisible_iff tier).mp member).2
    | _ =>
      obtain ⟨rfl, cleared⟩ := (passObject_eq_ok_iff tier).mp through
      cases List.mem_singleton.mp member
      exact cleared

theorem passesAll_of_not_object (tier : access.accessType ≠ .object) :
    directory.PassesAll access := by
  have free : access.restriction? = .ok none := restriction?_eq_none_iff.mpr tier
  have object (value : Value) : directory.passObject access value = .ok value := by
    rw [passObject, free]
    rfl
  have objects (values : List Value) : directory.keepVisible access values = values := by
    rw [keepVisible, free]
  refine ⟨object, objects, fun value => ?_⟩
  cases value with
  | list items => exact congrArg (Except.ok ∘ Value.list) (objects items)
  | _ => exact object _

/-- A value without an identifier is cleared for nobody, so a filter that passes it is open. -/
theorem PassesAll.not_failsClosed (passes : directory.PassesAll access) :
    ¬directory.FailsClosed access := by
  intro closed
  have cleared := closed.object .null .null (passes.object .null)
  revert cleared
  unfold Cleared grantFor?
  cases access.objectType <;> cases access.group <;> simp [Value.id?, Value.child?]

end

/-- The filter fails closed at the object tier alone. At both other tiers it passes everything,
with or without a grant. -/
theorem filter_closed_iff_object_tier (directory : Directory) (access : AccessContext) :
    (directory.FailsClosed access ↔ access.accessType = .object) ∧
      (directory.PassesAll access ↔ access.accessType = .global ∨ access.accessType = .none) := by
  have others : access.accessType ≠ .object ↔
      access.accessType = .global ∨ access.accessType = .none := by
    cases access.accessType <;> simp
  constructor
  · constructor
    · intro closed
      by_contra tier
      exact (passesAll_of_not_object tier).not_failsClosed closed
    · exact failsClosed_of_object
  · rw [← others]
    constructor
    · intro passes tier
      exact passes.not_failsClosed (failsClosed_of_object tier)
    · exact passesAll_of_not_object

/-- A context that was not granted, of a group that holds no grant at all. -/
def notGranted : AccessContext := ⟨false, .none, none, some "g", some "user", none⟩

/-- A requester without access sees every object. -/
theorem notGranted_not_closed :
    notGranted.accessType ≠ .global ∧
      Store.empty.directory.keepVisible notGranted [.map [("uuid", .string "u1")]] =
        [.map [("uuid", .string "u1")]] ∧
      ¬Store.empty.directory.Cleared notGranted (.map [("uuid", .string "u1")]) := by
  refine ⟨by decide, rfl, by decide⟩

end Directory

end ManifestGate
