import Mathlib.Data.List.TakeDrop
import ManifestGate.Manifest.Block
import ManifestGate.Proofs.Result

/-!
# Blocks as they are read

A document is read as a list of blocks exactly if it is the array that these blocks spell. A key is
one of the reserved names, or a kind and a free name with a `#` in between.
-/

namespace ManifestGate

theorem isBlockName_no_dot {name : String} (valid : isBlockName name = true) :
    '.' ∉ name.toList := by
  intro member
  simp only [isBlockName, Bool.and_eq_true, List.all_eq_true] at valid
  exact absurd (valid.2 '.' member) (by decide)

namespace BlockKey

/-- The name of a variable or an action has letters, digits and underscores, and is not reserved. -/
def Valid : BlockKey → Prop
  | .var name | .action name => isBlockName name = true ∧ name ∉ reservedNames
  | .data | .params | .response => True

theorem Valid.reference_no_dot {key : BlockKey} (valid : key.Valid) :
    '.' ∉ key.reference.toList := by
  cases key with
  | var name | action name => exact isBlockName_no_dot valid.1
  | data | params | response => decide

theorem splitHash?_append (kind name : String) (clear : '#' ∉ kind.toList) :
    splitHash? (kind ++ "#" ++ name) = some (kind, name) := by
  have letters : (kind ++ "#" ++ name).toList = kind.toList ++ '#' :: name.toList := by
    simp [String.toList_append]
  have passed : ∀ c ∈ kind.toList, decide (c ≠ '#') = true := by
    intro c member
    rw [decide_eq_true_iff]
    rintro rfl
    exact clear member
  rw [splitHash?, letters, List.span_eq_takeWhile_dropWhile, List.takeWhile_append_of_pos passed,
    List.dropWhile_append_of_pos passed]
  simp

theorem eq_of_splitHash? {raw kind name : String}
    (cut : splitHash? raw = some (kind, name)) : raw = kind ++ "#" ++ name := by
  unfold splitHash? at cut
  rw [List.span_eq_takeWhile_dropWhile] at cut
  split at cut
  · next before after same =>
    cases cut
    obtain ⟨rfl, rest⟩ := Prod.mk.inj same
    have whole := List.takeWhile_append_dropWhile (p := fun c => decide (c ≠ '#')) (l := raw.toList)
    rw [rest] at whole
    apply String.toList_injective
    refine whole.symm.trans ?_
    simp [String.toList_append]
  · cases cut

/-- A key with a `#` says its kind before the first one and its name behind it. -/
theorem parse_of_splitHash? {raw kind name : String}
    (cut : splitHash? raw = some (kind, name)) :
    parse raw =
      if !isBlockName name then .error (.badName name raw)
      else if name ∈ reservedNames then .error (.reservedName name raw)
      else if kind = "var" then .ok (.var name)
      else if kind = "do" then .ok (.action name)
      else .error (.unknownKey raw) := by
  have other (fixed : String) (whole : splitHash? fixed = none) : raw ≠ fixed := by
    rintro rfl
    rw [whole] at cut
    cases cut
  rw [parse, if_neg (other dataKey rfl), if_neg (other paramsKey rfl),
    if_neg (other responseKey rfl), cut]

theorem parse_eq_ok_iff {raw : String} {key : BlockKey} :
    parse raw = .ok key ↔ raw = key.text ∧ key.Valid := by
  constructor
  · intro parsed
    unfold parse at parsed
    split at parsed
    · next same =>
      cases parsed
      exact ⟨same, trivial⟩
    split at parsed
    · next same =>
      cases parsed
      exact ⟨same, trivial⟩
    split at parsed
    · next same =>
      cases parsed
      exact ⟨same, trivial⟩
    split at parsed
    · cases parsed
    · next kind name cut =>
      have whole := eq_of_splitHash? cut
      split at parsed
      · cases parsed
      split at parsed
      · cases parsed
      next valid free =>
      split at parsed
      · next isVar =>
        cases parsed
        rw [isVar] at whole
        exact ⟨whole, by simpa using valid, free⟩
      split at parsed
      · next isDo =>
        cases parsed
        rw [isDo] at whole
        exact ⟨whole, by simpa using valid, free⟩
      · cases parsed
  · rintro ⟨rfl, valid⟩
    cases key with
    | data => rfl
    | params => rfl
    | response => rfl
    | var name =>
      obtain ⟨named, free⟩ := valid
      change parse ("var" ++ "#" ++ name) = _
      rw [parse_of_splitHash? (splitHash?_append "var" name (by decide))]
      simp [named, free]
    | action name =>
      obtain ⟨named, free⟩ := valid
      change parse ("do" ++ "#" ++ name) = _
      rw [parse_of_splitHash? (splitHash?_append "do" name (by decide))]
      simp [named, free]

theorem parse_var_ok {name : String} {key : BlockKey} (parsed : parse ("var#" ++ name) = .ok key) :
    key = .var name ∧ isBlockName name = true ∧ name ∉ reservedNames := by
  change parse ("var" ++ "#" ++ name) = _ at parsed
  rw [parse_of_splitHash? (splitHash?_append "var" name (by decide))] at parsed
  split at parsed
  · cases parsed
  · next valid =>
    split at parsed
    · cases parsed
    · next free =>
      cases parsed
      exact ⟨rfl, by simpa using valid, free⟩

/-- Free names are not reserved, so that a reserved name refers to the block with that key. -/
theorem Valid.reference_eq_iff {key fixed : BlockKey} (valid : key.Valid)
    (reserved : fixed ∈ [data, params, response]) :
    key.reference = fixed.reference ↔ key = fixed := by
  cases key with
  | var name | action name =>
    have isReserved : fixed.reference ∈ reservedNames := List.mem_map_of_mem reserved
    constructor
    · intro same
      rw [← same] at isReserved
      exact absurd isReserved valid.2
    · rintro rfl
      simp at reserved
  | data | params | response =>
    simp only [List.mem_cons, List.not_mem_nil, or_false] at reserved
    rcases reserved with rfl | rfl | rfl <;> decide

theorem Valid.ne_dataKey {name : String} (valid : (var name).Valid) : name ≠ dataKey := by
  intro same
  cases (valid.reference_eq_iff List.mem_cons_self).mp same

end BlockKey

namespace Block

def toJson (block : Block) : Json :=
  .object [(block.key.text, block.value)]

theorem parse_eq_ok_iff {index : Nat} {item : Json} {block : Block} :
    parse index item = .ok block ↔ item = block.toJson ∧ block.key.Valid := by
  constructor
  · intro parsed
    unfold parse at parsed
    split at parsed
    · next raw value =>
      obtain ⟨key, readKey, same⟩ := Except.bind_eq_ok_iff.mp parsed
      obtain ⟨rfl, valid⟩ := BlockKey.parse_eq_ok_iff.mp readKey
      cases same
      exact ⟨rfl, valid⟩
    · cases parsed
    · cases parsed
  · rintro ⟨rfl, valid⟩
    have readKey := BlockKey.parse_eq_ok_iff.mpr ⟨rfl, valid⟩
    exact Except.bind_eq_ok_iff.mpr ⟨block.key, readKey, rfl⟩

theorem parseFrom_eq_ok_iff {index : Nat} {items : List Json} {blocks : List Block} :
    parseFrom index items = .ok blocks ↔
      items = blocks.map toJson ∧ ∀ block ∈ blocks, block.key.Valid := by
  induction items generalizing index blocks with
  | nil =>
    constructor
    · intro parsed
      cases parsed
      exact ⟨rfl, fun _ member => nomatch member⟩
    · rintro ⟨none, _⟩
      rw [List.map_eq_nil_iff.mp none.symm]
      rfl
  | cons item rest ih =>
    unfold parseFrom
    simp only [Except.bind_eq_ok_iff, parse_eq_ok_iff, ih]
    constructor
    · rintro ⟨first, ⟨rfl, valid⟩, more, ⟨rfl, validMore⟩, same⟩
      cases same
      exact ⟨rfl, List.forall_mem_cons.mpr ⟨valid, validMore⟩⟩
    · rintro ⟨spelled, valid⟩
      cases blocks with
      | nil => cases spelled
      | cons first more =>
        obtain ⟨rfl, rfl⟩ := List.cons.inj spelled
        obtain ⟨validFirst, validMore⟩ := List.forall_mem_cons.mp valid
        exact ⟨first, ⟨rfl, validFirst⟩, more, ⟨rfl, validMore⟩, rfl⟩

theorem parseAll_eq_ok_iff {document : Json} {blocks : List Block} :
    parseAll document = .ok blocks ↔
      document = .array (blocks.map toJson) ∧ ∀ block ∈ blocks, block.key.Valid := by
  cases document with
  | array items => rw [parseAll, parseFrom_eq_ok_iff, Json.array.injEq]
  | _ =>
    refine iff_of_false nofun ?_
    rintro ⟨impossible, _⟩
    cases impossible

end Block

end ManifestGate
