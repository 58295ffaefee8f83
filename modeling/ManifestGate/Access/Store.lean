import ManifestGate.Access.Directory
import ManifestGate.Json.Reader
import ManifestGate.Table

/-!
# The store

A directory in memory. Groups and handlers are taken in only if each ACL key that they name is known
and is of the pool that names it. A rejected record leaves the store as it was.
-/

namespace ManifestGate

/-- A handler path without the slashes at its ends. -/
def normalizePath (path : String) : String :=
  let inner := path.toList.dropWhile (· = '/')
  String.ofList (inner.reverse.dropWhile (· = '/')).reverse

inductive KeyOwner where
  | group (id : String)
  | handler (id : String)
  deriving DecidableEq

def KeyOwner.label : KeyOwner → String
  | .group id => "group '" ++ id ++ "'"
  | .handler id => "handler '" ++ id ++ "'"

inductive StoreError where
  | unreadable (detail : String)
  | unparsable (detail : String)
  | unknownKey (owner : KeyOwner) (acl : String)
  | poolMismatch (owner : KeyOwner) (acl : String) (pool : Pool)
  | invalidManifest (handler : String) (cause : Json.ReadError)
  deriving DecidableEq

def StoreError.message : StoreError → String
  | .unreadable detail => "failed to read store file: " ++ detail
  | .unparsable detail => "failed to parse store file: " ++ detail
  | .unknownKey owner acl => owner.label ++ " references unknown ACL key '" ++ acl ++ "'"
  | .poolMismatch owner acl pool =>
    owner.label ++ " uses ACL key '" ++ acl ++ "' in the " ++ pool.name ++
      " pool, but the key is not of that type"
  | .invalidManifest handler cause =>
    "handler '" ++ handler ++ "' has an invalid manifest: " ++ cause.message

structure Store where
  handlers : Table (String × Method) Handler
  aclKeys : Table String AclKey
  groups : Table String Group
  objectGrants : Table (String × String × String) ObjectGrant
  permissions : Table String (List PermissionRecord)

namespace Store

def empty : Store := ⟨.empty, .empty, .empty, .empty, .empty⟩

/-- Fails at the first key that is unknown or of the wrong type. -/
def checkPool (store : Store) (owner : KeyOwner) (pool : Pool) :
    List String → Except StoreError Unit
  | [] => .ok ()
  | acl :: rest =>
    match store.aclKeys.get? acl with
    | none => .error (.unknownKey owner acl)
    | some key =>
      if key.isOf pool then checkPool store owner pool rest
      else .error (.poolMismatch owner acl pool)

def insertAclKey (store : Store) (key : AclKey) : Store :=
  { store with aclKeys := store.aclKeys.put key.id key }

def insertGroup (store : Store) (group : Group) : Except StoreError Store := do
  store.checkPool (.group group.id) .global (group.acls .global)
  store.checkPool (.group group.id) .object (group.acls .object)
  return { store with groups := store.groups.put group.id group }

/-- The handler as it is stored: a manifest given as text is read, the path is normalized. -/
def prepare (handler : Handler) : Except StoreError Handler :=
  match handler.manifest with
  | .string text =>
    match Json.parse text with
    | .ok manifest => .ok { handler with manifest, path := normalizePath handler.path }
    | .error cause => .error (.invalidManifest handler.id cause)
  | _ => .ok { handler with path := normalizePath handler.path }

def insertHandler (store : Store) (handler : Handler) : Except StoreError Store := do
  let handler ← prepare handler
  store.checkPool (.handler handler.id) .global (handler.acls .global)
  store.checkPool (.handler handler.id) .object (handler.acls .object)
  return { store with handlers := store.handlers.put (handler.path, handler.method) handler }

def grantObject (store : Store) (grant : ObjectGrant) : Store :=
  { store with
    objectGrants :=
      store.objectGrants.put (grant.objectType, grant.objectId, grant.group) grant }

/-- Writes a record; one of the same owner and group gives way to it. -/
def setPermission (store : Store) (record : PermissionRecord) : Store :=
  let known := (store.permissions.get? record.objectUuid).getD []
  let others := known.filter fun r => !(r.owner = record.owner && r.group = record.group)
  { store with permissions := store.permissions.put record.objectUuid (others ++ [record]) }

def directory (store : Store) : Directory where
  handler? path method := store.handlers.get? (normalizePath path, method)
  aclKey? id := store.aclKeys.get? id
  group? id := store.groups.get? id
  objectGrant? objectType objectId group := store.objectGrants.get? (objectType, objectId, group)
  permissionRecords objectUuid := (store.permissions.get? objectUuid).getD []

end Store

/-- The contents of a store file, each section in file order. -/
structure StoreFile where
  aclKeys : List AclKey
  groups : List Group
  handlers : List Handler
  objectGrants : List ObjectGrant
  permissions : List PermissionRecord

namespace Store

/-- Takes in a file section by section. -/
def ofFile (file : StoreFile) : Except StoreError Store := do
  let store := file.aclKeys.foldl insertAclKey empty
  let store ← file.groups.foldlM insertGroup store
  let store ← file.handlers.foldlM insertHandler store
  let store := file.objectGrants.foldl grantObject store
  return file.permissions.foldl setPermission store

end Store

end ManifestGate
