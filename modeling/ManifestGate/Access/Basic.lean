import ManifestGate.Json.Basic

/-!
# Handlers, groups, requesters

The nouns of authorization. A handler lists the ACL keys that open it in two pools, a group holds
grants of keys in the same two pools, and a requester acts as one group.
-/

namespace ManifestGate

inductive Method where
  | get
  | put
  | post
  | delete
  deriving DecidableEq, Inhabited

/-- An ASCII letter in upper case; all other characters stay. -/
def upperAscii (text : String) : String :=
  String.ofList (text.toList.map Char.toUpper)

/-- An ASCII letter in lower case; all other characters stay. -/
def lowerAscii (text : String) : String :=
  String.ofList (text.toList.map Char.toLower)

namespace Method

def name : Method → String
  | .get => "GET"
  | .put => "PUT"
  | .post => "POST"
  | .delete => "DELETE"

def all : List Method := [.get, .put, .post, .delete]

def named? (text : String) : Option Method :=
  all.find? fun method => method.name = text

/-- The method of a text in any case; an unknown one fails with its upper-case text. -/
def parse (text : String) : Except String Method :=
  match named? (upperAscii text) with
  | some method => .ok method
  | none => .error ("unsupported request method: " ++ upperAscii text)

end Method

inductive Operation where
  | read
  | write
  | delete
  | exec
  deriving DecidableEq

namespace Operation

def name : Operation → String
  | .read => "read"
  | .write => "write"
  | .delete => "delete"
  | .exec => "exec"

def all : List Operation := [.read, .write, .delete, .exec]

def named? (text : String) : Option Operation :=
  all.find? fun operation => operation.name = text

def parse (text : String) : Except String Operation :=
  match named? text with
  | some operation => .ok operation
  | none => .error ("invalid access type: " ++ text)

end Operation

/-- A request handler: the manifest it runs and the ACL keys that open it. -/
structure Handler where
  id : String
  name : String
  /-- Without slashes at either end once the handler is stored. -/
  path : String
  method : Method
  manifest : Json
  objectType : Option String
  /-- The attribute that holds the identifier of the handler's objects. -/
  objectKey : Option String
  /-- Ascending, each key once. -/
  globalAcls : List String
  /-- Ascending, each key once. -/
  objectAcls : List String
  allowAnonymous : Bool
  enabled : Bool

/-- A key that groups are granted; its flags say in which pools it may be used. -/
structure AclKey where
  id : String
  name : String
  description : String
  typeGlobal : Bool
  typeObject : Bool
  deriving DecidableEq

structure AclGrant where
  acl : String
  allowed : Bool
  deriving DecidableEq

structure Group where
  id : String
  name : String
  global : List AclGrant
  object : List AclGrant
  deriving DecidableEq

/-- The two pools in which handlers and groups share ACL keys. -/
inductive Pool where
  | global
  | object
  deriving DecidableEq

namespace Pool

def name : Pool → String
  | .global => "global"
  | .object => "object"

end Pool

def AclKey.isOf (key : AclKey) : Pool → Bool
  | .global => key.typeGlobal
  | .object => key.typeObject

/-- The keys that a handler lists in a pool. -/
def Handler.acls (handler : Handler) : Pool → List String
  | .global => handler.globalAcls
  | .object => handler.objectAcls

/-- The keys that a group holds grants of in a pool, whether the grants allow or not. -/
def Group.acls (group : Group) : Pool → List String
  | .global => group.global.map AclGrant.acl
  | .object => group.object.map AclGrant.acl

/-- Whether one group may reach one object. -/
structure ObjectGrant where
  objectType : String
  objectId : String
  group : String
  allowed : Bool
  deriving DecidableEq

structure PermissionBits where
  read : Bool
  write : Bool
  delete : Bool
  exec : Bool
  deriving DecidableEq

namespace PermissionBits

def none : PermissionBits := ⟨false, false, false, false⟩

def allows (bits : PermissionBits) : Operation → Bool
  | .read => bits.read
  | .write => bits.write
  | .delete => bits.delete
  | .exec => bits.exec

end PermissionBits

/-- Ownership of one object and the operations open to its owner, its group and everyone. -/
structure PermissionRecord where
  objectUuid : String
  owner : String
  group : String
  userBits : PermissionBits
  groupBits : PermissionBits
  allBits : PermissionBits
  deriving DecidableEq

/-- The caller of a request; without a user the request is anonymous. -/
structure Requester where
  user : Option String
  name : String
  /-- The group that the request is made as. -/
  group : Option String
  groups : List String
  deriving DecidableEq

namespace Requester

def anonymous : Requester := ⟨none, "", none, []⟩

def ofUser (id name group : String) : Requester :=
  ⟨some id, name, some group, [group]⟩

/-- Adds the groups that are not listed yet. -/
def withGroups (requester : Requester) (groups : List String) : Requester :=
  { requester with
    groups := groups.foldl (fun known group => if group ∈ known then known else known ++ [group])
      requester.groups }

def isAnonymous (requester : Requester) : Bool :=
  requester.user.isNone

/-- As the acting group or as a listed one. -/
def belongsTo (requester : Requester) (group : String) : Bool :=
  requester.group = some group || group ∈ requester.groups

end Requester

inductive AccessType where
  | global
  | object
  | none
  deriving DecidableEq

namespace AccessType

def name : AccessType → String
  | .global => "global"
  | .object => "object"
  | .none => "none"

def all : List AccessType := [.global, .object, .none]

def named? (text : String) : Option AccessType :=
  all.find? fun tier => tier.name = text

end AccessType

structure AccessContext where
  granted : Bool
  accessType : AccessType
  acl : Option String
  group : Option String
  objectType : Option String
  objectKey : Option String
  deriving DecidableEq

namespace AccessContext

def bypass : AccessContext := ⟨true, .global, none, none, none, none⟩

def isObjectLevel (access : AccessContext) : Bool :=
  access.accessType = .object

end AccessContext

inductive AccessError where
  | denied (reason : String)
  | notFound (reason : String)
  | misconfigured (reason : String)
  | anonymousNotAllowed (reason : String)
  | handlerDisabled (reason : String)
  deriving DecidableEq

namespace AccessError

def message : AccessError → String
  | .denied reason => "access denied: " ++ reason
  | .notFound reason => "not found: " ++ reason
  | .misconfigured reason => "authorization misconfigured: " ++ reason
  | .anonymousNotAllowed reason => "anonymous access not allowed: " ++ reason
  | .handlerDisabled reason => "handler disabled: " ++ reason

def status : AccessError → Nat
  | .denied _ | .anonymousNotAllowed _ => 401
  | .notFound _ | .handlerDisabled _ => 404
  | .misconfigured _ => 500

end AccessError

end ManifestGate
