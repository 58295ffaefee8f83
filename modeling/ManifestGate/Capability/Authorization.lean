import ManifestGate.Access.Filter
import ManifestGate.Capability.Registry

/-!
# Authorization from within manifests

A manifest filters objects and asks for permissions through capabilities. Each reads the access
context or the requester of the scope that it is called in.
-/

namespace ManifestGate.Authorization

variable {σ : Type}

def object (directory : Directory) : Capability σ :=
  .function fun scope arguments state =>
    .pure (do
      let value ← arguments.require 0 "object"
      match directory.passObject scope.access value with
      | .ok value => return value
      | .error refusal => .error (.ofAccess refusal)) state

def objects (directory : Directory) : Capability σ :=
  .function fun scope arguments state =>
    .pure (do
      match ← arguments.require 0 "objects" with
      | .list items => return .list (directory.keepVisible scope.access items)
      | other =>
        .error (.ofMessage ("AUTH.ACL.objects expects a list, got " ++ other.kind))) state

/-- Whether the requester may perform an operation on an object; the deciding rule is reported. -/
def can (directory : Directory) (adminGroup : String) (operation : Operation) : Capability σ :=
  .function fun scope arguments state =>
    match arguments.require 0 "object" with
    | .error failure => .pure (.error failure) state
    | .ok value =>
      let rule := directory.permissionRuleFor adminGroup scope.requester operation value
      ⟨.ok (.bool rule.grants), state, [.permission rule]⟩

def capabilities (directory : Directory) (adminGroup : String) : List (String × Capability σ) :=
  [("AUTH.ACL.object", object directory),
   ("AUTH.ACL.objects", objects directory),
   ("AUTH.can_read", can directory adminGroup .read),
   ("AUTH.can_write", can directory adminGroup .write),
   ("AUTH.can_delete", can directory adminGroup .delete),
   ("AUTH.can_exec", can directory adminGroup .exec)]

end ManifestGate.Authorization
