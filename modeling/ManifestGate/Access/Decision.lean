import ManifestGate.Access.Directory

/-!
# Access decisions

A handler and a group that share a key in the global pools give global access. Failing that, a key
shared in the object pools gives object access, and otherwise access is not granted. A grant counts
by its presence, whether it allows or not.
-/

namespace ManifestGate

def smallest? : List String → Option String
  | [] => none
  | text :: rest =>
    match smallest? rest with
    | none => some text
    | some other => some (if other < text then other else text)

/-- The smallest key that handler and group share in a pool. -/
def sharedKey? (pool : Pool) (handler : Handler) (group : Group) : Option String :=
  smallest? ((handler.acls pool).filter fun key => key ∈ group.acls pool)

def decideAccess (handler : Handler) (group : Group) : AccessContext :=
  let context (granted : Bool) (tier : AccessType) (acl : Option String) : AccessContext :=
    ⟨granted, tier, acl, some group.id, handler.objectType, handler.objectKey⟩
  match sharedKey? .global handler group with
  | some key => context true .global (some key)
  | none =>
    match sharedKey? .object handler group with
    | some key => context true .object (some key)
    | none => context false .none none

namespace Directory

/-- The decision for a group that the directory knows. -/
def decideFor (directory : Directory) (handler : Handler) (groupId : String) :
    Except AccessError AccessContext :=
  match directory.group? groupId with
  | some group => .ok (decideAccess handler group)
  | none => .error (.denied ("unknown group '" ++ groupId ++ "'"))

/-- The access of a requester to a handler. Anonymous requests, and all requests while decisions
are not enforced, have global access. -/
def authorize (directory : Directory) (enforced : Bool) (handler : Handler)
    (requester : Requester) : Except AccessError AccessContext :=
  if !enforced || requester.isAnonymous then
    .ok { AccessContext.bypass with
      group := requester.group
      objectType := handler.objectType
      objectKey := handler.objectKey }
  else
    match requester.group with
    | none => .error (.denied "requester has no group")
    | some groupId => do
      let access ← directory.decideFor handler groupId
      if access.granted then .ok access
      else
        .error (.denied ("group '" ++ groupId ++ "' has no ACL key for " ++
          handler.method.name ++ " " ++ handler.path))

end Directory

end ManifestGate
