import ManifestGate.Access.Filter
import ManifestGate.Access.Permission
import ManifestGate.Proofs.Access.WriteLog

/-!
# Permissions on instances

What a requester may do with an object is settled by who the requester is and, for each owner and
group, by the record that was written last for the object. The order of these records plays no part.

The identity that permissions go by is a text. The object filter takes numbers for identifiers as
well; an object with a number for its identifier has no identity here, and is open to everyone.
-/

namespace ManifestGate

theorem Requester.belongsTo_iff {requester : Requester} {group : String} :
    requester.belongsTo group = true ↔ requester.group = some group ∨ group ∈ requester.groups := by
  simp [belongsTo]

namespace PermissionRecord

/-- The record opens the operation to its owner, to its group or to everyone, and the requester is
one of these. -/
def Opens (record : PermissionRecord) (requester : Requester) (operation : Operation) : Prop :=
  (requester.user = some record.owner ∧ record.userBits.allows operation = true) ∨
    (requester.group = some record.group ∧ record.groupBits.allows operation = true) ∨
    record.allBits.allows operation = true

/-- The rule of a record tells whether it opens the operation, and then it grants. -/
theorem rule?_spec (record : PermissionRecord) (requester : Requester) (operation : Operation) :
    match record.rule? requester operation with
    | some rule => record.Opens requester operation ∧ rule.grants = true
    | none => ¬record.Opens requester operation := by
  unfold rule?
  by_cases owner : requester.user = some record.owner ∧ record.userBits.allows operation = true
  · rw [if_pos owner]
    exact ⟨.inl owner, rfl⟩
  · rw [if_neg owner]
    by_cases group : requester.group = some record.group ∧
        record.groupBits.allows operation = true
    · rw [if_pos group]
      exact ⟨.inr (.inl group), rfl⟩
    · rw [if_neg group]
      by_cases all : record.allBits.allows operation = true
      · rw [if_pos all]
        exact ⟨.inr (.inr all), rfl⟩
      · rw [if_neg all]
        exact fun opens => opens.elim owner fun opens => opens.elim group all

end PermissionRecord

namespace Directory

variable {directory : Directory} {adminGroup : String} {requester : Requester}
  {operation : Operation}

theorem records_grant_iff {records : List PermissionRecord} :
    ((records.findSome? fun record : PermissionRecord =>
        record.rule? requester operation).getD .denied).grants = true ↔
      ∃ record ∈ records, record.Opens requester operation := by
  cases found : records.findSome? fun record : PermissionRecord =>
      record.rule? requester operation with
  | none =>
    refine iff_of_false Bool.false_ne_true ?_
    intro ⟨record, member, opens⟩
    have spec := record.rule?_spec requester operation
    rw [List.findSome?_eq_none_iff.mp found record member] at spec
    exact spec opens
  | some rule =>
    obtain ⟨record, member, given⟩ := List.exists_of_findSome?_eq_some found
    have spec := record.rule?_spec requester operation
    rw [given] at spec
    exact iff_of_true spec.2 ⟨record, member, spec.1⟩

/-- An operation is granted to administrators, to users on themselves, to the members of a group
that only read it, and to those whom a record opens it to. -/
theorem permissionRule_grants_iff {uuid : String} :
    (directory.permissionRule adminGroup requester operation (some uuid)).grants = true ↔
      requester.belongsTo adminGroup = true ∨
      (requester.user = some uuid ∧ (operation = .read ∨ operation = .write)) ∨
      (requester.belongsTo uuid = true ∧ operation = .read) ∨
      ∃ record ∈ directory.permissionRecords uuid, record.Opens requester operation := by
  unfold permissionRule
  by_cases admin : requester.belongsTo adminGroup = true
  · rw [if_pos admin]
    exact iff_of_true rfl (.inl admin)
  · rw [if_neg admin]
    dsimp only
    by_cases self : requester.user = some uuid ∧ (operation = .read ∨ operation = .write)
    · rw [if_pos self]
      exact iff_of_true rfl (.inr (.inl self))
    · rw [if_neg self]
      by_cases member : requester.belongsTo uuid = true ∧ operation = .read
      · rw [if_pos member]
        exact iff_of_true rfl (.inr (.inr (.inl member)))
      · rw [if_neg member, records_grant_iff]
        simp only [admin, self, member, false_or, Bool.false_eq_true]

end Directory

/-! ## The last records -/

/-- The records that stand are those that were written last for their owner and group. -/
theorem mem_standing_iff {written : List PermissionRecord} {record : PermissionRecord} :
    record ∈ standing written ↔
      (written.filter fun other =>
        other.owner = record.owner && other.group = record.group).getLast? = some record := by
  induction written using List.reverseRecOn with
  | nil => simp [standing]
  | append_singleton written last ih =>
    rw [standing_concat, List.filter_append, List.mem_append, List.mem_filter, ih,
      List.mem_singleton]
    by_cases same : last.owner = record.owner ∧ last.group = record.group
    · rw [List.filter_cons_of_pos (by simp [same]), List.filter_nil, List.getLast?_concat]
      simp [same, eq_comm]
    · rw [List.filter_cons_of_neg (by simpa using same), List.filter_nil, List.append_nil]
      constructor
      · rintro (⟨stands, _⟩ | rfl)
        · exact stands
        · exact absurd ⟨rfl, rfl⟩ same
      · intro stands
        refine .inl ⟨stands, ?_⟩
        have apart : ¬(record.owner = last.owner ∧ record.group = last.group) :=
          fun equal => same ⟨equal.1.symm, equal.2.symm⟩
        simpa [← not_and_or] using apart

namespace Store

/-- The record that was written last for an object, an owner and a group. -/
def lastRecord? (history : List Write) (objectUuid owner group : String) :
    Option PermissionRecord :=
  ((history.filterMap (Write.record? objectUuid)).filter fun record =>
    record.owner = owner && record.group = group).getLast?

/-- Records are always taken. -/
theorem takenFrom_records (store : Store) (history : List Write) (objectUuid : String) :
    (takenFrom store history).filterMap (Write.record? objectUuid) =
      history.filterMap (Write.record? objectUuid) := by
  induction history generalizing store with
  | nil => rfl
  | cons write rest ih =>
    rw [takenFrom]
    cases written : store.write write with
    | ok next => simp only [List.filterMap_cons, ih next]
    | error cause =>
      have notRecord : write.record? objectUuid = none := by
        cases write with
        | permission record => cases written
        | _ => rfl
      rw [List.filterMap_cons_none notRecord]
      exact ih store

theorem mem_permissionRecords_iff {history : List Write} {objectUuid : String}
    {record : PermissionRecord} :
    record ∈ (reached history).directory.permissionRecords objectUuid ↔
      lastRecord? history objectUuid record.owner record.group = some record := by
  rw [permissionRecords_reached, taken, takenFrom_records, mem_standing_iff, lastRecord?]

theorem lastRecord?_eq_some {history : List Write} {objectUuid owner group : String}
    {record : PermissionRecord} (last : lastRecord? history objectUuid owner group = some record) :
    record.owner = owner ∧ record.group = group := by
  have member := List.mem_of_getLast? last
  simpa using (List.mem_filter.mp member).2

/-- Writing a record settles what is last for its object, owner and group, and for no others. -/
theorem lastRecord?_append (history : List Write) (record : PermissionRecord)
    (objectUuid owner group : String) :
    lastRecord? (history ++ [.permission record]) objectUuid owner group =
      if record.objectUuid = objectUuid ∧ record.owner = owner ∧ record.group = group then
        some record
      else lastRecord? history objectUuid owner group := by
  unfold lastRecord?
  rw [List.filterMap_append]
  by_cases object : record.objectUuid = objectUuid
  · have written : [Write.permission record].filterMap (Write.record? objectUuid) = [record] := by
      simp [Write.record?, object]
    rw [written, List.filter_append]
    by_cases same : record.owner = owner ∧ record.group = group
    · rw [if_pos ⟨object, same⟩, List.filter_cons_of_pos (by simp [same]), List.filter_nil,
        List.getLast?_concat]
    · rw [if_neg fun all => same all.2, List.filter_cons_of_neg (by simpa using same),
        List.filter_nil, List.append_nil]
  · have unwritten : [Write.permission record].filterMap (Write.record? objectUuid) = [] := by
      simp [Write.record?, object]
    rw [unwritten, List.append_nil, if_neg fun all => object all.1]

/-- A record that was written last for the object, with its owner and its group, opens the operation
to the requester. -/
def LastOpens (history : List Write) (objectUuid : String) (requester : Requester)
    (operation : Operation) : Prop :=
  ∃ owner group record, lastRecord? history objectUuid owner group = some record ∧
    ((requester.user = some owner ∧ record.userBits.allows operation = true) ∨
      (requester.group = some group ∧ record.groupBits.allows operation = true) ∨
      record.allBits.allows operation = true)

theorem exists_opens_iff {history : List Write} {objectUuid : String} {requester : Requester}
    {operation : Operation} :
    (∃ record ∈ (reached history).directory.permissionRecords objectUuid,
        record.Opens requester operation) ↔ LastOpens history objectUuid requester operation := by
  constructor
  · intro ⟨record, member, opens⟩
    exact ⟨record.owner, record.group, record, mem_permissionRecords_iff.mp member, opens⟩
  · intro ⟨owner, group, record, last, opens⟩
    obtain ⟨rfl, rfl⟩ := lastRecord?_eq_some last
    exact ⟨record, mem_permissionRecords_iff.mpr last, opens⟩

end Store

/-- What a history of writes permits is read off the requester and the last record for each owner
and group. So histories with the same last records permit the same, and a record for an owner and a
group that had none takes no permission away. -/
theorem permission_reads_last_records (history : List Store.Write) (adminGroup : String)
    (requester : Requester) (operation : Operation) (uuid : String) :
    let permits (writes : List Store.Write) : Bool :=
      ((Store.reached writes).directory.permissionRule adminGroup requester operation
        (some uuid)).grants
    (permits history = true ↔
      (requester.group = some adminGroup ∨ adminGroup ∈ requester.groups) ∨
      (requester.user = some uuid ∧ (operation = .read ∨ operation = .write)) ∨
      ((requester.group = some uuid ∨ uuid ∈ requester.groups) ∧ operation = .read) ∨
      Store.LastOpens history uuid requester operation) ∧
    (∀ other, (∀ owner group, Store.lastRecord? other uuid owner group =
      Store.lastRecord? history uuid owner group) → permits other = permits history) ∧
    ∀ record : PermissionRecord,
      Store.lastRecord? history record.objectUuid record.owner record.group = none →
      permits history = true → permits (history ++ [.permission record]) = true := by
  intro permits
  have permits_iff (writes : List Store.Write) : permits writes = true ↔
      (requester.group = some adminGroup ∨ adminGroup ∈ requester.groups) ∨
      (requester.user = some uuid ∧ (operation = .read ∨ operation = .write)) ∨
      ((requester.group = some uuid ∨ uuid ∈ requester.groups) ∧ operation = .read) ∨
      Store.LastOpens writes uuid requester operation := by
    rw [Directory.permissionRule_grants_iff, Store.exists_opens_iff, Requester.belongsTo_iff,
      Requester.belongsTo_iff]
  refine ⟨permits_iff history, ?_, ?_⟩
  · intro other same
    rw [Bool.eq_iff_iff, permits_iff, permits_iff]
    simp only [Store.LastOpens, same]
  · intro record fresh
    rw [permits_iff, permits_iff]
    refine Or.imp_right (Or.imp_right (Or.imp_right ?_))
    intro ⟨owner, group, kept, last, opens⟩
    refine ⟨owner, group, kept, ?_, opens⟩
    rw [Store.lastRecord?_append, if_neg, last]
    rintro ⟨rfl, rfl, rfl⟩
    rw [fresh] at last
    cases last

/-! ## Identity -/

theorem Value.id?_eq_some_iff {value : Value} {key id : String} :
    value.id? key = some id ↔ value.child? key = some (.string id) ∨
      ∃ n, value.child? key = some (.number n) ∧ n.toText = id := by
  unfold id?
  cases value.child? key with
  | none => simp
  | some child => cases child <;> simp

theorem Value.uuid?_eq_some_iff {value : Value} {id : String} :
    value.uuid? = some id ↔ value.child? "uuid" = some (.string id) := by
  unfold uuid?
  cases value.child? "uuid" with
  | none => simp
  | some child => cases child <;> simp [text?]

namespace Directory

/-- Without an identity everything is granted. -/
theorem permissionRule_none_grants (directory : Directory) (adminGroup : String)
    (requester : Requester) (operation : Operation) :
    (directory.permissionRule adminGroup requester operation none).grants = true := by
  unfold permissionRule
  split <;> rfl

/-- The check by an object and the check by an identifier come to the same verdict. -/
def ChecksAgree (directory : Directory) (adminGroup : String) (requester : Requester)
    (operation : Operation) (value : Value) (id : String) : Prop :=
  (directory.permissionRuleFor adminGroup requester operation value).grants =
    (directory.permissionRule adminGroup requester operation (some id)).grants

theorem checksAgree_of_text {value : Value} {id : String}
    (text : value.child? "uuid" = some (.string id)) (directory : Directory) (adminGroup : String)
    (requester : Requester) (operation : Operation) :
    directory.ChecksAgree adminGroup requester operation value id := by
  rw [ChecksAgree, permissionRuleFor, Value.uuid?_eq_some_iff.mpr text]

/-- An identifier that is not a text is none for permissions. -/
theorem uuid?_eq_none {value : Value} {id : String}
    (identified : value.id? AccessContext.defaultObjectKey = some id)
    (notText : value.child? "uuid" ≠ some (.string id)) : value.uuid? = none := by
  cases found : value.uuid? with
  | none => rfl
  | some other =>
    have text := Value.uuid?_eq_some_iff.mp found
    have same : value.id? AccessContext.defaultObjectKey = some other :=
      Value.id?_eq_some_iff.mpr (.inl text)
    rw [identified] at same
    cases same
    exact absurd text notText

/-- On an object with an identifier the check by the object and the check by the identifier agree if
the identifier is a text. If it is a number, the check by the object grants everything, and the two
agree only on what is granted anyway; so they do not agree in every store. -/
theorem permission_identity_iff_text {value : Value} {id : String}
    (identified : value.id? AccessContext.defaultObjectKey = some id) :
    (∀ (directory : Directory) (adminGroup : String) (requester : Requester)
      (operation : Operation), directory.ChecksAgree adminGroup requester operation value id ↔
        value.child? "uuid" = some (.string id) ∨
          (directory.permissionRule adminGroup requester operation (some id)).grants = true) ∧
    ((∀ (directory : Directory) (adminGroup : String) (requester : Requester)
      (operation : Operation), directory.ChecksAgree adminGroup requester operation value id) ↔
        value.child? "uuid" = some (.string id)) := by
  have agree_iff (directory : Directory) (adminGroup : String) (requester : Requester)
      (operation : Operation) : directory.ChecksAgree adminGroup requester operation value id ↔
        value.child? "uuid" = some (.string id) ∨
          (directory.permissionRule adminGroup requester operation (some id)).grants = true := by
    by_cases text : value.child? "uuid" = some (.string id)
    · exact iff_of_true (checksAgree_of_text text directory adminGroup requester operation)
        (.inl text)
    · have free := directory.permissionRule_none_grants adminGroup requester operation
      rw [ChecksAgree, permissionRuleFor, uuid?_eq_none identified text, free]
      exact ⟨fun same => .inr same.symm, fun either => (either.resolve_left text).symm⟩
  refine ⟨agree_iff, fun agree => ?_, checksAgree_of_text⟩
  have denied : Store.empty.directory.permissionRule "" .anonymous .read (some id) = .denied := rfl
  rcases (agree_iff _ _ _ _).mp (agree Store.empty.directory "" .anonymous .read)
    with text | granted
  · exact text
  · rw [denied] at granted
    cases granted

/-- An object that is identified by a text. -/
def namedObject : Value := .map [("name", .null), ("uuid", .string "u1")]

theorem named_object_agrees :
    namedObject.id? AccessContext.defaultObjectKey = some "u1" ∧
    ∀ (directory : Directory) (adminGroup : String) (requester : Requester) (operation : Operation),
      directory.ChecksAgree adminGroup requester operation namedObject "u1" :=
  ⟨rfl, (permission_identity_iff_text rfl).2.mpr rfl⟩

/-- An object that is identified by a number. -/
def numberedObject : Value := .map [("uuid", .number (.integer 7))]

/-- Anyone may read what is identified by a number, without a record and against the check by the
identifier. -/
theorem numbered_object_open :
    numberedObject.id? AccessContext.defaultObjectKey = some "7" ∧
    (Store.empty.directory.permissionRuleFor "admins" (.ofUser "u" "User" "g") .read
      numberedObject).grants = true ∧
    (Store.empty.directory.permissionRule "admins" (.ofUser "u" "User" "g") .read
      (some "7")).grants = false := by
  refine ⟨rfl, by decide, by decide⟩

end Directory

end ManifestGate
