import ManifestGate.Access.Directory
import ManifestGate.Value

/-!
# Permissions on instances

Apart from ACL keys, an object may carry records of who owns it and what owner, group and everyone
may do. The rules are tried in a fixed order and the first one that is met grants.
-/

namespace ManifestGate

inductive PermissionRule where
  | admin
  | noIdentity
  | self
  | ownGroup
  | owner
  | group
  | all
  | denied
  deriving DecidableEq

namespace PermissionRule

def name : PermissionRule → String
  | .admin => "admin"
  | .noIdentity => "no identity"
  | .self => "self"
  | .ownGroup => "own group"
  | .owner => "owner"
  | .group => "group"
  | .all => "all"
  | .denied => "denied"

def grants (rule : PermissionRule) : Bool :=
  rule != .denied

end PermissionRule

namespace PermissionRecord

/-- The rule by which one record grants an operation. -/
def rule? (record : PermissionRecord) (requester : Requester) (operation : Operation) :
    Option PermissionRule :=
  if requester.user = some record.owner ∧ record.userBits.allows operation then some .owner
  else if requester.group = some record.group ∧ record.groupBits.allows operation then some .group
  else if record.allBits.allows operation then some .all
  else none

end PermissionRecord

/-- The identity that permissions go by: the text under `uuid`. -/
def Value.uuid? (value : Value) : Option String :=
  (value.child? "uuid").bind Value.text?

namespace Directory

/-- The rule for an operation on the object with this identity. -/
def permissionRule (directory : Directory) (adminGroup : String) (requester : Requester)
    (operation : Operation) (uuid : Option String) : PermissionRule :=
  if requester.belongsTo adminGroup then .admin
  else
    match uuid with
    | none => .noIdentity
    | some uuid =>
      if requester.user = some uuid ∧ (operation = .read ∨ operation = .write) then .self
      else if requester.belongsTo uuid ∧ operation = .read then .ownGroup
      else
        ((directory.permissionRecords uuid).findSome? fun record =>
          record.rule? requester operation).getD .denied

def permissionRuleFor (directory : Directory) (adminGroup : String) (requester : Requester)
    (operation : Operation) (value : Value) : PermissionRule :=
  directory.permissionRule adminGroup requester operation value.uuid?

end Directory

end ManifestGate
