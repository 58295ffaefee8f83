import ManifestGate.Access.Store
import ManifestGate.Json.Record
import ManifestGate.KeySet
import ManifestGate.Toml.Document

/-!
# Authorization records as documents

Handlers, keys, groups, grants, permissions and requesters are written as records of named fields.
A store file has one section for each kind of record that a store holds.
-/

namespace ManifestGate

def Json.keySet? (json : Json) : Option (List String) :=
  (json.list? Json.text?).map KeySet.ofList

def Json.manifest? (json : Json) : Option Json :=
  some json.finite.canonical

def Json.ofText? : Option String → Json :=
  Json.ofOption .string

def Json.ofTexts (texts : List String) : Json :=
  .array (texts.map .string)

namespace Handler

def fields : List String :=
  ["id", "name", "path", "method", "manifest", "object_type", "object_key", "global_acls",
    "object_acls", "allow_anon", "enabled"]

def ofJson? (format : Format) (json : Json) : Option Handler := do
  let record ← Record.of? format fields json
  let id ← record.required 0 "id" Json.text?
  let name ← record.withDefault 1 "name" Json.text? ""
  let path ← record.required 2 "path" Json.text?
  let method ← record.required 3 "method" (Json.named? format Method.named?)
  let manifest ← record.withDefault 4 "manifest" Json.manifest? (.array [])
  let objectType ← record.withDefault 5 "object_type" (Json.nullable? Json.text?) none
  let objectKey ← record.withDefault 6 "object_key" (Json.nullable? Json.text?) none
  let globalAcls ← record.withDefault 7 "global_acls" Json.keySet? []
  let objectAcls ← record.withDefault 8 "object_acls" Json.keySet? []
  let allowAnonymous ← record.withDefault 9 "allow_anon" Json.bool? false
  let enabled ← record.withDefault 10 "enabled" Json.bool? true
  return {
    id, name, path, method, manifest, objectType, objectKey, globalAcls, objectAcls,
    allowAnonymous, enabled }

def toJson (handler : Handler) : Json :=
  .object [("id", .string handler.id), ("name", .string handler.name),
    ("path", .string handler.path), ("method", .string handler.method.name),
    ("manifest", handler.manifest), ("object_type", Json.ofText? handler.objectType),
    ("object_key", Json.ofText? handler.objectKey),
    ("global_acls", Json.ofTexts handler.globalAcls),
    ("object_acls", Json.ofTexts handler.objectAcls),
    ("allow_anon", .bool handler.allowAnonymous), ("enabled", .bool handler.enabled)]

end Handler

namespace AclKey

def fields : List String := ["id", "name", "desc", "type_global", "type_object"]

def ofJson? (format : Format) (json : Json) : Option AclKey := do
  let record ← Record.of? format fields json
  let id ← record.required 0 "id" Json.text?
  let name ← record.required 1 "name" Json.text?
  let description ← record.withDefault 2 "desc" Json.text? ""
  let typeGlobal ← record.withDefault 3 "type_global" Json.bool? false
  let typeObject ← record.withDefault 4 "type_object" Json.bool? false
  return { id, name, description, typeGlobal, typeObject }

def toJson (key : AclKey) : Json :=
  .object [("id", .string key.id), ("name", .string key.name), ("desc", .string key.description),
    ("type_global", .bool key.typeGlobal), ("type_object", .bool key.typeObject)]

end AclKey

namespace AclGrant

def fields : List String := ["acl", "allowed"]

def ofJson? (format : Format) (json : Json) : Option AclGrant := do
  let record ← Record.of? format fields json
  let acl ← record.required 0 "acl" Json.text?
  let allowed ← record.withDefault 1 "allowed" Json.bool? true
  return { acl, allowed }

def toJson (grant : AclGrant) : Json :=
  .object [("acl", .string grant.acl), ("allowed", .bool grant.allowed)]

end AclGrant

namespace Group

def fields : List String := ["id", "name", "global", "object"]

def ofJson? (format : Format) (json : Json) : Option Group := do
  let record ← Record.of? format fields json
  let id ← record.required 0 "id" Json.text?
  let name ← record.withDefault 1 "name" Json.text? ""
  let global ← record.withDefault 2 "global" (Json.list? (AclGrant.ofJson? format)) []
  let object ← record.withDefault 3 "object" (Json.list? (AclGrant.ofJson? format)) []
  return { id, name, global, object }

def toJson (group : Group) : Json :=
  .object [("id", .string group.id), ("name", .string group.name),
    ("global", .array (group.global.map AclGrant.toJson)),
    ("object", .array (group.object.map AclGrant.toJson))]

end Group

namespace ObjectGrant

def fields : List String := ["object_type", "object_id", "group", "allowed"]

def ofJson? (format : Format) (json : Json) : Option ObjectGrant := do
  let record ← Record.of? format fields json
  let objectType ← record.required 0 "object_type" Json.text?
  let objectId ← record.required 1 "object_id" Json.text?
  let group ← record.required 2 "group" Json.text?
  let allowed ← record.withDefault 3 "allowed" Json.bool? true
  return { objectType, objectId, group, allowed }

def toJson (grant : ObjectGrant) : Json :=
  .object [("object_type", .string grant.objectType), ("object_id", .string grant.objectId),
    ("group", .string grant.group), ("allowed", .bool grant.allowed)]

end ObjectGrant

namespace PermissionBits

def fields : List String := ["read", "write", "delete", "exec"]

def ofJson? (format : Format) (json : Json) : Option PermissionBits := do
  let record ← Record.of? format fields json
  let read ← record.withDefault 0 "read" Json.bool? false
  let write ← record.withDefault 1 "write" Json.bool? false
  let delete ← record.withDefault 2 "delete" Json.bool? false
  let exec ← record.withDefault 3 "exec" Json.bool? false
  return { read, write, delete, exec }

def toJson (bits : PermissionBits) : Json :=
  .object [("read", .bool bits.read), ("write", .bool bits.write), ("delete", .bool bits.delete),
    ("exec", .bool bits.exec)]

end PermissionBits

namespace PermissionRecord

def fields : List String :=
  ["object_uuid", "owner", "group", "user_bits", "group_bits", "all_bits"]

def ofJson? (format : Format) (json : Json) : Option PermissionRecord := do
  let record ← Record.of? format fields json
  let objectUuid ← record.required 0 "object_uuid" Json.text?
  let owner ← record.required 1 "owner" Json.text?
  let group ← record.required 2 "group" Json.text?
  let userBits ← record.withDefault 3 "user_bits" (PermissionBits.ofJson? format) .none
  let groupBits ← record.withDefault 4 "group_bits" (PermissionBits.ofJson? format) .none
  let allBits ← record.withDefault 5 "all_bits" (PermissionBits.ofJson? format) .none
  return { objectUuid, owner, group, userBits, groupBits, allBits }

def toJson (record : PermissionRecord) : Json :=
  .object [("object_uuid", .string record.objectUuid), ("owner", .string record.owner),
    ("group", .string record.group), ("user_bits", record.userBits.toJson),
    ("group_bits", record.groupBits.toJson), ("all_bits", record.allBits.toJson)]

end PermissionRecord

namespace Requester

def fields : List String := ["user", "name", "group", "groups"]

def ofJson? (json : Json) : Option Requester := do
  let record ← Record.of? .json fields json
  let user ← record.optional 0 "user" Json.text?
  let name ← record.withDefault 1 "name" Json.text? ""
  let group ← record.optional 2 "group" Json.text?
  let groups ← record.withDefault 3 "groups" (Json.list? Json.text?) []
  return { user, name, group, groups }

def toJson (requester : Requester) : Json :=
  .object [("user", Json.ofText? requester.user), ("name", .string requester.name),
    ("group", Json.ofText? requester.group), ("groups", Json.ofTexts requester.groups)]

end Requester

namespace AccessContext

def fields : List String :=
  ["granted", "access_type", "acl", "group", "object_type", "object_key"]

def ofJson? (json : Json) : Option AccessContext := do
  let record ← Record.of? .json fields json
  let granted ← record.required 0 "granted" Json.bool?
  let accessType ← record.required 1 "access_type" (Json.named? .json AccessType.named?)
  let acl ← record.optional 2 "acl" Json.text?
  let group ← record.optional 3 "group" Json.text?
  let objectType ← record.optional 4 "object_type" Json.text?
  let objectKey ← record.optional 5 "object_key" Json.text?
  return { granted, accessType, acl, group, objectType, objectKey }

def toJson (access : AccessContext) : Json :=
  .object [("granted", .bool access.granted), ("access_type", .string access.accessType.name),
    ("acl", Json.ofText? access.acl), ("group", Json.ofText? access.group),
    ("object_type", Json.ofText? access.objectType),
    ("object_key", Json.ofText? access.objectKey)]

end AccessContext

namespace StoreFile

def fields : List String := ["acl_keys", "groups", "handlers", "object_grants", "permissions"]

def ofJson? (format : Format) (json : Json) : Option StoreFile := do
  let record ← Record.of? format fields json
  let aclKeys ← record.withDefault 0 "acl_keys" (Json.list? (AclKey.ofJson? format)) []
  let groups ← record.withDefault 1 "groups" (Json.list? (Group.ofJson? format)) []
  let handlers ← record.withDefault 2 "handlers" (Json.list? (Handler.ofJson? format)) []
  let objectGrants ←
    record.withDefault 3 "object_grants" (Json.list? (ObjectGrant.ofJson? format)) []
  let permissions ←
    record.withDefault 4 "permissions" (Json.list? (PermissionRecord.ofJson? format)) []
  return { aclKeys, groups, handlers, objectGrants, permissions }

end StoreFile

namespace Store

def ofToml (text : String) : Except StoreError Store :=
  match Toml.parse text with
  | none => .error (.unparsable "invalid TOML")
  | some json =>
    match StoreFile.ofJson? .toml json with
    | none => .error (.unparsable "a record of the wrong shape")
    | some file => ofFile file

end Store

end ManifestGate
