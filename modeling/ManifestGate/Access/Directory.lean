import ManifestGate.Access.Basic

/-!
# The directory

What authorization looks up. Decisions, filters and permission checks only read from a directory;
where its records come from does not matter to them.
-/

namespace ManifestGate

structure Directory where
  handler? : (path : String) → Method → Option Handler
  aclKey? : (id : String) → Option AclKey
  group? : (id : String) → Option Group
  objectGrant? : (objectType objectId group : String) → Option ObjectGrant
  /-- The records of an object in the order in which they are tried. -/
  permissionRecords : (objectUuid : String) → List PermissionRecord

end ManifestGate
