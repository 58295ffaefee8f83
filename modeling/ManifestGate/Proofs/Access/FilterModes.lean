import ManifestGate.Proofs.Access.Permission
import ManifestGate.Proofs.Access.Screening

/-!
# Lists and single objects

The filter answers a single object with the object or a refusal, and it drops from a list what it
would refuse. Which of the answers a single object gets is said here by rules over the context, the
identifier of the object and the grants of the directory; the list then keeps exactly the objects
that are answered by themselves.
-/

namespace ManifestGate

/-- What identifies a value under a key: the text of its child there, be this a text or a number. -/
inductive Value.Identified (value : Value) (key : String) : String → Prop where
  | text {id : String} : value.child? key = some (.string id) → Identified value key id
  | number {n : Number} : value.child? key = some (.number n) → Identified value key n.toText

theorem Value.identified_iff {value : Value} {key id : String} :
    value.Identified key id ↔ value.id? key = some id := by
  rw [Value.id?_eq_some_iff]
  constructor
  · intro identified
    cases identified with
    | text child => exact .inl child
    | number child => exact .inr ⟨_, child, rfl⟩
  · rintro (child | ⟨n, child, rfl⟩)
    · exact .text child
    · exact .number child

namespace AccessContext

/-- The attribute under which the objects of a context have their identifiers. -/
def identifierKey (access : AccessContext) : String :=
  access.objectKey.getD defaultObjectKey

/-- The context limits a group to the objects of one type. -/
structure Restricts (access : AccessContext) (objectType group : String) : Prop where
  tier : access.accessType = .object
  objectType_eq : access.objectType = some objectType
  group_eq : access.group = some group

theorem Restricts.restriction? {access : AccessContext} {objectType group : String}
    (restricts : access.Restricts objectType group) :
    access.restriction? = .ok (some ⟨objectType, access.identifierKey, group⟩) := by
  obtain ⟨tier, objectType_eq, group_eq⟩ := restricts
  simp [AccessContext.restriction?, isObjectLevel, identifierKey, tier, objectType_eq, group_eq]

theorem Restricts.unique {access : AccessContext} {objectType group otherType otherGroup : String}
    (restricts : access.Restricts objectType group)
    (others : access.Restricts otherType otherGroup) :
    objectType = otherType ∧ group = otherGroup :=
  ⟨Option.some.inj (restricts.objectType_eq.symm.trans others.objectType_eq),
    Option.some.inj (restricts.group_eq.symm.trans others.group_eq)⟩

end AccessContext

namespace Directory

/-- What a single object is answered with. A context that restricts nothing passes the object, and
one that should restrict but lacks a type or a group refuses it. Else the object needs an
identifier, and the group an allowing grant for this identifier. -/
inductive Answers (directory : Directory) (access : AccessContext) (value : Value) :
    Except AccessError Value → Prop where
  | unrestricted : access.accessType ≠ .object → Answers directory access value (.ok value)
  | untyped : access.accessType = .object → access.objectType = none →
      Answers directory access value
        (.error (.misconfigured "object-level access requires a handler object type"))
  | ungrouped {objectType : String} : access.accessType = .object →
      access.objectType = some objectType → access.group = none →
      Answers directory access value
        (.error (.misconfigured "object-level access requires a requesting group"))
  | unidentified {objectType group : String} : access.Restricts objectType group →
      (∀ id, ¬value.Identified access.identifierKey id) →
      Answers directory access value
        (.error (.notFound (objectType ++ " has no '" ++ access.identifierKey ++ "' attribute")))
  | ungranted {objectType group id : String} : access.Restricts objectType group →
      value.Identified access.identifierKey id →
      directory.objectGrant? objectType id group = none →
      Answers directory access value
        (.error (.denied ("group '" ++ group ++ "' has no grant on " ++ objectType ++ " '" ++ id ++
          "'")))
  | disallowed {objectType group id : String} {grant : ObjectGrant} :
      access.Restricts objectType group → value.Identified access.identifierKey id →
      directory.objectGrant? objectType id group = some grant → grant.allowed = false →
      Answers directory access value
        (.error (.denied ("group '" ++ group ++ "' is not allowed on " ++ objectType ++ " '" ++
          id ++ "'")))
  | granted {objectType group id : String} {grant : ObjectGrant} :
      access.Restricts objectType group → value.Identified access.identifierKey id →
      directory.objectGrant? objectType id group = some grant → grant.allowed = true →
      Answers directory access value (.ok value)

section

variable {directory : Directory} {access : AccessContext} {value : Value}

/-- The rules leave no object without an answer. -/
theorem exists_answers (directory : Directory) (access : AccessContext) (value : Value) :
    ∃ result, directory.Answers access value result := by
  by_cases tier : access.accessType = .object
  · cases hasType : access.objectType with
    | none => exact ⟨_, .untyped tier hasType⟩
    | some objectType =>
      cases hasGroup : access.group with
      | none => exact ⟨_, .ungrouped tier hasType hasGroup⟩
      | some group =>
        have restricts : access.Restricts objectType group := ⟨tier, hasType, hasGroup⟩
        by_cases identified : ∃ id, value.Identified access.identifierKey id
        · obtain ⟨id, identified⟩ := identified
          cases found : directory.objectGrant? objectType id group with
          | none => exact ⟨_, .ungranted restricts identified found⟩
          | some grant =>
            cases allowed : grant.allowed with
            | false => exact ⟨_, .disallowed restricts identified found allowed⟩
            | true => exact ⟨_, .granted restricts identified found allowed⟩
        · exact ⟨_, .unidentified restricts (not_exists.mp identified)⟩
  · exact ⟨_, .unrestricted tier⟩

/-- Under a restriction the object passes or is refused by its identifier and the grant for it. -/
theorem passObject_of_restricts {objectType group : String}
    (restricts : access.Restricts objectType group) :
    directory.passObject access value =
      (directory.clear ⟨objectType, access.identifierKey, group⟩ value).map fun _ => value := by
  rw [passObject, restricts.restriction?]
  cases cleared : directory.clear ⟨objectType, access.identifierKey, group⟩ value <;>
    simp [bind, Except.bind, pure, Except.pure, Except.map, cleared]

/-- What the rules answer is what the filter answers. -/
theorem Answers.passObject_eq {result : Except AccessError Value}
    (answers : directory.Answers access value result) :
    directory.passObject access value = result := by
  cases answers with
  | unrestricted tier =>
    rw [passObject, restriction?_eq_none_iff.mpr tier]
    rfl
  | untyped tier hasType =>
    simp [passObject, AccessContext.restriction?, AccessContext.isObjectLevel, tier, hasType, bind,
      Except.bind]
  | ungrouped tier hasType hasGroup =>
    simp [passObject, AccessContext.restriction?, AccessContext.isObjectLevel, tier, hasType,
      hasGroup, bind, Except.bind]
  | unidentified restricts none =>
    have unidentified : value.id? access.identifierKey = .none := by
      refine Option.eq_none_iff_forall_not_mem.mpr fun id member => ?_
      exact none id (Value.identified_iff.mpr member)
    simp [passObject_of_restricts restricts, clear, unidentified, Except.map]
  | ungranted restricts identified found =>
    simp [passObject_of_restricts restricts, clear, Value.identified_iff.mp identified, found,
      Except.map]
  | disallowed restricts identified found allowed =>
    simp [passObject_of_restricts restricts, clear, Value.identified_iff.mp identified, found,
      allowed, Except.map]
  | granted restricts identified found allowed =>
    simp [passObject_of_restricts restricts, clear, Value.identified_iff.mp identified, found,
      allowed, Except.map]

theorem passObject_eq_iff {result : Except AccessError Value} :
    directory.passObject access value = result ↔ directory.Answers access value result := by
  constructor
  · rintro rfl
    obtain ⟨result, answers⟩ := directory.exists_answers access value
    rwa [answers.passObject_eq]
  · exact Answers.passObject_eq

/-- Under a restriction an object passes if the group holds an allowing grant for its identifier. -/
theorem isOk_passObject_iff {objectType group : String}
    (restricts : access.Restricts objectType group) :
    (directory.passObject access value).isOk = true ↔
      ∃ id grant, value.Identified access.identifierKey id ∧
        directory.objectGrant? objectType id group = some grant ∧ grant.allowed = true := by
  constructor
  · intro passes
    obtain ⟨passed, answered⟩ := Except.exists_of_isOk passes
    cases passObject_eq_iff.mp answered with
    | unrestricted tier => exact absurd restricts.tier tier
    | granted others identified found allowed =>
      obtain ⟨rfl, rfl⟩ := restricts.unique others
      exact ⟨_, _, identified, found, allowed⟩
  · rintro ⟨id, grant, identified, found, allowed⟩
    rw [Answers.passObject_eq (.granted restricts identified found allowed)]
    rfl

/-- A list keeps what is passed by itself, also where every single object is refused because the
context lacks a type or a group. -/
theorem keepVisible_eq_filter_passObject (directory : Directory) (access : AccessContext)
    (values : List Value) :
    directory.keepVisible access values =
      values.filter fun value => (directory.passObject access value).isOk := by
  unfold keepVisible passObject
  cases access.restriction? with
  | error refusal => simp [bind, Except.bind, Except.isOk, Except.toBool]
  | ok restriction? =>
    cases restriction? with
    | none => exact (List.filter_eq_self.mpr fun _ _ => rfl).symm
    | some restriction =>
      apply List.filter_congr
      intro value _
      cases cleared : directory.clear restriction value <;>
        simp [bind, Except.bind, pure, Except.pure, Except.isOk, Except.toBool, cleared]

end

/-- A list keeps, in order and with repetitions, exactly the objects that the filter passes one by
one, and the answer to a single object is the one that the rules give: the object itself, or a
refusal for lack of an identifier, of an allowing grant, or of the type or the group in the context.
So filtering goes through lists piece by piece, and a second time changes nothing. -/
theorem lists_keep_what_passes_singly (directory : Directory) (access : AccessContext) :
    (∀ values, directory.keepVisible access values =
      values.filter fun value => (directory.passObject access value).isOk) ∧
    (∀ value result, directory.passObject access value = result ↔
      directory.Answers access value result) ∧
    (∀ objectType group, access.Restricts objectType group → ∀ value,
      (directory.passObject access value).isOk = true ↔
        ∃ id grant, value.Identified access.identifierKey id ∧
          directory.objectGrant? objectType id group = some grant ∧ grant.allowed = true) ∧
    (∀ first second, directory.keepVisible access (first ++ second) =
      directory.keepVisible access first ++ directory.keepVisible access second) ∧
    ∀ values, directory.keepVisible access (directory.keepVisible access values) =
      directory.keepVisible access values := by
  have keeps := directory.keepVisible_eq_filter_passObject access
  refine ⟨keeps, fun _ _ => passObject_eq_iff, ?_, ?_, ?_⟩
  · intro objectType group restricts value
    exact isOk_passObject_iff restricts
  · intro first second
    rw [keeps, keeps, keeps, List.filter_append]
  · intro values
    rw [keeps, keeps, List.filter_filter]
    simp

end Directory

end ManifestGate
