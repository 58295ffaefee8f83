import ManifestGate.Access.Directory
import ManifestGate.Value

/-!
# Object filters

Object access is limited to the instances that the requesting group holds an allowing grant for.
A list keeps the objects that pass; a single object that does not pass is an error.
-/

namespace ManifestGate

/-- The identifier of a value under an attribute: a text, or the text of a number. -/
def Value.id? (value : Value) (key : String) : Option String :=
  match value.child? key with
  | some (.string text) => some text
  | some (.number n) => some n.toText
  | _ => none

structure Restriction where
  objectType : String
  objectKey : String
  group : String
  deriving DecidableEq

namespace AccessContext

/-- The attribute that holds an identifier, if the handler names none. -/
def defaultObjectKey : String := "uuid"

/-- The restriction of a context, none at the other tiers. -/
def restriction? (access : AccessContext) : Except AccessError (Option Restriction) :=
  if !access.isObjectLevel then .ok none
  else
    match access.objectType with
    | none => .error (.misconfigured "object-level access requires a handler object type")
    | some objectType =>
      match access.group with
      | none => .error (.misconfigured "object-level access requires a requesting group")
      | some group =>
        .ok (some ⟨objectType, access.objectKey.getD defaultObjectKey, group⟩)

end AccessContext

namespace Directory

/-- Passes values with an allowing grant. -/
def clear (directory : Directory) (restriction : Restriction) (value : Value) :
    Except AccessError Unit :=
  match value.id? restriction.objectKey with
  | none =>
    .error (.notFound (restriction.objectType ++ " has no '" ++ restriction.objectKey ++
      "' attribute"))
  | some id =>
    match directory.objectGrant? restriction.objectType id restriction.group with
    | none =>
      .error (.denied ("group '" ++ restriction.group ++ "' has no grant on " ++
        restriction.objectType ++ " '" ++ id ++ "'"))
    | some grant =>
      if grant.allowed then .ok ()
      else
        .error (.denied ("group '" ++ restriction.group ++ "' is not allowed on " ++
          restriction.objectType ++ " '" ++ id ++ "'"))

/-- Passes a single value on, or fails if the requester may not see it. -/
def passObject (directory : Directory) (access : AccessContext) (value : Value) :
    Except AccessError Value := do
  match ← access.restriction? with
  | none => .ok value
  | some restriction =>
    directory.clear restriction value
    return value

/-- Keeps the values that the requester may see. A context that gives no restriction although it
should keeps none. -/
def keepVisible (directory : Directory) (access : AccessContext) (values : List Value) :
    List Value :=
  match access.restriction? with
  | .ok none => values
  | .ok (some restriction) => values.filter fun value => (directory.clear restriction value).isOk
  | .error _ => []

/-- A list keeps its visible values; anything else is a single value. -/
def filterValue (directory : Directory) (access : AccessContext) :
    Value → Except AccessError Value
  | .list items => .ok (.list (directory.keepVisible access items))
  | single => directory.passObject access single

end Directory

end ManifestGate
