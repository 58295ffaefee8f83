import ManifestGate.Manifest.Block
import ManifestGate.Manifest.Call

/-!
# Compiled manifests

A compiled manifest is a list of objects, one for each block, in the order in which they run. Their
keys are distinct, and the request data stand first or not at all; both are part of the type.
-/

namespace ManifestGate

inductive VariableSource where
  | static (value : Json)
  | reference (reference : String)
  | call (spec : CallSpec)
  | fetch (path : String)

/-- What stands in for a parameter that the request does not supply. -/
inductive ParamDefault where
  | none
  | literal (value : Json)
  | fetch (path : String)
  | call (spec : CallSpec)

structure ParamField where
  required : Bool
  default : ParamDefault

inductive CompiledObject where
  | var (key : String) (source : VariableSource)
  | action (key : String) (call : CallSpec)
  | params (fields : Dict ParamField)
  | response (kwargs : Json)

namespace CompiledObject

def key : CompiledObject → String
  | .var key _ => key
  | .action key _ => key
  | .params _ => paramsKey
  | .response _ => responseKey

def kind : CompiledObject → String
  | .var _ _ => "variable"
  | .action _ _ => "action"
  | .params _ => "parameters"
  | .response _ => "response"

end CompiledObject

structure CompiledManifest where
  objects : List CompiledObject
  distinct : (objects.map CompiledObject.key).Nodup
  dataFirst : ∀ object ∈ objects.tail, object.key ≠ dataKey

namespace CompiledManifest

def empty : CompiledManifest := ⟨[], by simp, by simp⟩

def keys (manifest : CompiledManifest) : List String :=
  manifest.objects.map CompiledObject.key

def contains (manifest : CompiledManifest) (key : String) : Bool :=
  key ∈ manifest.keys

def get? (manifest : CompiledManifest) (key : String) : Option CompiledObject :=
  manifest.objects.find? fun object => object.key = key

theorem ext {a b : CompiledManifest} (same : a.objects = b.objects) : a = b := by
  cases a; cases b; cases same; rfl

/-- Appends an object with a key of its own; request data can only come first. -/
def push (manifest : CompiledManifest) (object : CompiledObject) :
    Except CompileError CompiledManifest :=
  if taken : object.key ∈ manifest.keys then .error (.duplicateKey object.key)
  else if late : object.key = dataKey ∧ manifest.objects ≠ [] then .error .dataNotFirst
  else .ok {
    objects := manifest.objects ++ [object]
    distinct := by
      rw [List.map_append, List.nodup_append]
      refine ⟨manifest.distinct, by simp, ?_⟩
      intro key member other last
      simp only [List.map_cons, List.map_nil, List.mem_singleton] at last
      subst last
      exact fun same => taken (same ▸ member)
    dataFirst := by
      intro other member
      match present : manifest.objects with
      | [] => simp [present] at member
      | first :: rest =>
        simp only [present, List.cons_append, List.tail_cons, List.mem_append,
          List.mem_singleton] at member
        rcases member with inside | rfl
        · exact manifest.dataFirst other (by simpa [present] using inside)
        · exact fun same => late ⟨same, by simp [present]⟩ }

/-- The first fault of a list of objects at the given index, after objects with the seen keys. -/
def fault? (index : Nat) (seen : List String) : List CompiledObject → Option CompileError
  | [] => none
  | object :: rest =>
    if object.key ∈ seen then some (.duplicateKey object.key)
    else if object.key = dataKey ∧ index ≠ 0 then some .dataNotFirst
    else fault? (index + 1) (object.key :: seen) rest

theorem distinct_of_fault?_eq_none {objects : List CompiledObject} {index : Nat}
    {seen : List String} (sound : fault? index seen objects = none) :
    (objects.map CompiledObject.key).Nodup ∧
      ∀ object ∈ objects, object.key ∉ seen := by
  induction objects generalizing index seen with
  | nil => simp
  | cons object rest ih =>
    unfold fault? at sound
    split at sound
    · simp at sound
    · next fresh =>
      split at sound
      · simp at sound
      · obtain ⟨apart, unseen⟩ := ih sound
        refine ⟨?_, ?_⟩
        · simp only [List.map_cons, List.nodup_cons, List.mem_map, not_exists, not_and]
          refine ⟨fun other member same => ?_, apart⟩
          exact unseen other member (same ▸ List.mem_cons_self)
        · intro other member
          rcases List.mem_cons.1 member with rfl | inside
          · exact fresh
          · exact fun known => unseen other inside (List.mem_cons_of_mem _ known)

theorem ne_dataKey_of_fault?_eq_none {objects : List CompiledObject} {index : Nat}
    {seen : List String} (later : index ≠ 0) (sound : fault? index seen objects = none) :
    ∀ object ∈ objects, object.key ≠ dataKey := by
  induction objects generalizing index seen with
  | nil => simp
  | cons object rest ih =>
    unfold fault? at sound
    split at sound
    · simp at sound
    · split at sound
      · simp at sound
      · next proper =>
        intro other member
        rcases List.mem_cons.1 member with rfl | inside
        · exact fun same => proper ⟨same, later⟩
        · exact ih (by simp) sound other inside

/-- The manifest of a list of objects, or its first fault. -/
def ofObjects (objects : List CompiledObject) : Except CompileError CompiledManifest :=
  match sound : fault? 0 [] objects with
  | some cause => .error cause
  | none => .ok {
      objects
      distinct := (distinct_of_fault?_eq_none sound).1
      dataFirst := by
        match objects with
        | [] => simp
        | object :: rest =>
          unfold fault? at sound
          split at sound
          · simp at sound
          · split at sound
            · simp at sound
            · exact ne_dataKey_of_fault?_eq_none (by simp) sound }

end CompiledManifest

end ManifestGate
