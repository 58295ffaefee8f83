import ManifestGate.Proofs.Manifest.Aliases
import ManifestGate.Proofs.Manifest.Listing

/-!
# The language of block keys

A key is spelled by one of the reserved names, or by a kind and a free name with a `#` in between.
Reading and printing are inverse to each other on these texts. A variable and an action may share a
name, no other two keys do; and since no name has a dot, a reference below a block leads back to it.
-/

namespace ManifestGate

/-- An ASCII letter, a digit or an underscore. -/
def NameCharacter (c : Char) : Prop :=
  ('A' ≤ c ∧ c ≤ 'Z') ∨ ('a' ≤ c ∧ c ≤ 'z') ∨ ('0' ≤ c ∧ c ≤ '9') ∨ c = '_'

/-- A name that variables and actions may go by. -/
structure FreeName (name : String) : Prop where
  nonempty : name ≠ ""
  characters : ∀ c ∈ name.toList, NameCharacter c
  notData : name ≠ "__DATA__"
  notParams : name ≠ "__PARAMS__"
  notResponse : name ≠ "response"

theorem nameCharacter_iff {c : Char} :
    NameCharacter c ↔ (c.isAlphanum || decide (c = '_')) = true := by
  have between (low high : Char) :
      (decide (low ≤ c) && decide (c ≤ high)) = true ↔ low ≤ c ∧ c ≤ high := by
    rw [Bool.and_eq_true, decide_eq_true_iff, decide_eq_true_iff]
  have upper : c.isUpper = true ↔ 'A' ≤ c ∧ c ≤ 'Z' := decide_eq_true_iff
  have lower : c.isLower = true ↔ 'a' ≤ c ∧ c ≤ 'z' := between 'a' 'z'
  have digit : c.isDigit = true ↔ '0' ≤ c ∧ c ≤ '9' := between '0' '9'
  have kinds : c.isAlphanum = (c.isUpper || c.isLower || c.isDigit) := rfl
  simp only [NameCharacter, kinds, Bool.or_eq_true, upper, lower, digit, decide_eq_true_eq,
    or_assoc]

theorem isBlockName_iff {name : String} :
    isBlockName name = true ↔ name ≠ "" ∧ ∀ c ∈ name.toList, NameCharacter c := by
  simp [isBlockName, nameCharacter_iff]

namespace BlockKey

theorem freeName_iff {name : String} :
    FreeName name ↔ isBlockName name = true ∧ name ∉ reservedNames := by
  have reserved : name ∉ reservedNames ↔
      name ≠ "__DATA__" ∧ name ≠ "__PARAMS__" ∧ name ≠ "response" := by
    simp [reservedNames, dataKey, paramsKey, responseKey]
  rw [isBlockName_iff, reserved]
  constructor
  · rintro ⟨nonempty, characters, notData, notParams, notResponse⟩
    exact ⟨⟨nonempty, characters⟩, notData, notParams, notResponse⟩
  · rintro ⟨⟨nonempty, characters⟩, notData, notParams, notResponse⟩
    exact ⟨nonempty, characters, notData, notParams, notResponse⟩

/-- The texts that are keys. -/
inductive Spelled : String → Prop where
  | data : Spelled "__DATA__"
  | params : Spelled "__PARAMS__"
  | response : Spelled "response"
  | var {name : String} : FreeName name → Spelled ("var#" ++ name)
  | action {name : String} : FreeName name → Spelled ("do#" ++ name)

theorem Valid.spelled {key : BlockKey} (valid : key.Valid) : Spelled key.text := by
  cases key with
  | data => exact .data
  | params => exact .params
  | response => exact .response
  | var name => exact .var (freeName_iff.mpr valid)
  | action name => exact .action (freeName_iff.mpr valid)

theorem Spelled.exists_key {raw : String} (spelled : Spelled raw) :
    ∃ key : BlockKey, raw = key.text ∧ key.Valid := by
  cases spelled with
  | data => exact ⟨.data, rfl, trivial⟩
  | params => exact ⟨.params, rfl, trivial⟩
  | response => exact ⟨.response, rfl, trivial⟩
  | var free => exact ⟨.var _, rfl, freeName_iff.mp free⟩
  | action free => exact ⟨.action _, rfl, freeName_iff.mp free⟩

theorem exists_parse_iff {raw : String} : (∃ key, parse raw = .ok key) ↔ Spelled raw := by
  simp only [parse_eq_ok_iff]
  constructor
  · rintro ⟨key, rfl, valid⟩
    exact valid.spelled
  · exact Spelled.exists_key

/-- No two keys have one spelling, not even keys with a name that is not free. -/
theorem text_injective : Function.Injective text := by
  intro one other same
  -- the first character tells the kinds apart, except for the two reserved names with underscores
  have first := congrArg (fun raw => raw.toList.head?) same
  cases one <;> cases other <;>
    simp [text, reference, dataKey, paramsKey, responseKey, String.toList_append] at first same ⊢
  · exact same
  · exact same

/-! ## References -/

/-- A variable and an action of one name go by that name both; apart from them each key has a
reference of its own. -/
theorem Valid.sameReference_iff {one other : BlockKey} (valid : one.Valid)
    (validOther : other.Valid) :
    one.reference = other.reference ↔ one = other ∨ ∃ name,
      (one = .var name ∧ other = .action name) ∨ (one = .action name ∧ other = .var name) := by
  constructor
  · intro same
    by_cases reserved : one ∈ [data, params, response]
    · exact .inl ((validOther.reference_eq_iff reserved).mp same.symm).symm
    by_cases reservedOther : other ∈ [data, params, response]
    · exact .inl ((valid.reference_eq_iff reservedOther).mp same)
    -- what is left are variables and actions, whose reference is their name
    cases one <;> cases other <;> simp_all [reference]
  · rintro (rfl | ⟨name, ⟨rfl, rfl⟩ | ⟨rfl, rfl⟩⟩)
    · rfl
    · rfl
    · rfl

theorem Valid.reference_nonempty {key : BlockKey} (valid : key.Valid) : key.reference ≠ "" := by
  cases key with
  | var name | action name => exact (isBlockName_iff.mp valid.1).1
  | data | params | response => decide

/-- The reference is read as the name of the block and the segments behind it: by the compiler,
which looks for the block among the known ones, and by a run, which walks on from its value. -/
structure LeadsBack (key : BlockKey) (reference : String) (rest : List String) : Prop where
  segments : Path.segments reference = key.reference :: rest
  symbol : ∀ root, Symbol.ofText root ("#" ++ reference) = .reference reference
  checked : ∀ known, checkReference known reference = .ok () ↔
    key = .data ∨ known.contains key.reference = true
  resolved : ∀ (context : Context) (start : Value), context.standing? key.reference = some start →
    context.resolve reference = (start.walk rest).mapError (Context.lacking reference)

theorem Valid.leadsBack {key : BlockKey} (valid : key.Valid) {reference : String}
    {rest : List String} (segments : Path.segments reference = key.reference :: rest) :
    key.LeadsBack reference rest := by
  have head : Path.head reference = key.reference := by
    rw [Path.head, segments]
    rfl
  refine ⟨segments, fun root => Symbol.ofText_reference root reference, ?_, ?_⟩
  · intro known
    rw [checkReference_ok_iff, Reaches, head, CompiledManifest.contains, decide_eq_true_iff]
    have isData : key.reference = dataKey ↔ key = .data :=
      valid.reference_eq_iff List.mem_cons_self
    rw [isData]
    exact and_iff_right valid.reference_nonempty
  · intro context start found
    rw [← head] at found
    rw [Context.resolve_eq_walk found, segments]
    rfl

end BlockKey

/-- The keys are exactly the reserved names and the free names behind a kind, and each key has one
spelling, which is read and printed without loss. Two keys have one reference only if they are equal
or the variable and the action of one name. A reference is its own first segment, and so is it with
any suffix behind a dot: it is a reference to that block, and the suffix is followed from there. -/
theorem block_keys_without_aliasing :
    (∀ raw, (∃ key, BlockKey.parse raw = .ok key) ↔ BlockKey.Spelled raw) ∧
    (∀ raw key, BlockKey.parse raw = .ok key →
      key.text = raw ∧ BlockKey.parse key.text = .ok key) ∧
    (∀ raw key other otherKey, BlockKey.parse raw = .ok key → BlockKey.parse other = .ok otherKey →
      (key.reference = otherKey.reference ↔ raw = other ∨ ∃ name,
        (raw = "var#" ++ name ∧ other = "do#" ++ name) ∨
          (raw = "do#" ++ name ∧ other = "var#" ++ name))) ∧
    ∀ raw key, BlockKey.parse raw = .ok key →
      key.LeadsBack key.reference [] ∧ ∀ suffix,
        key.LeadsBack (key.reference ++ "." ++ suffix) (Path.segments suffix) := by
  refine ⟨fun raw => BlockKey.exists_parse_iff, ?_, ?_, ?_⟩
  · intro raw key parsed
    obtain ⟨rfl, _⟩ := BlockKey.parse_eq_ok_iff.mp parsed
    exact ⟨rfl, parsed⟩
  · intro raw key other otherKey parsed parsedOther
    obtain ⟨rfl, valid⟩ := BlockKey.parse_eq_ok_iff.mp parsed
    obtain ⟨rfl, validOther⟩ := BlockKey.parse_eq_ok_iff.mp parsedOther
    have asVariable (key : BlockKey) (name : String) :
        key.text = "var#" ++ name ↔ key = .var name :=
      BlockKey.text_injective.eq_iff (b := .var name)
    have asAction (key : BlockKey) (name : String) :
        key.text = "do#" ++ name ↔ key = .action name :=
      BlockKey.text_injective.eq_iff (b := .action name)
    simp only [valid.sameReference_iff validOther, asVariable, asAction,
      BlockKey.text_injective.eq_iff]
  · intro raw key parsed
    obtain ⟨_, valid⟩ := BlockKey.parse_eq_ok_iff.mp parsed
    have noDot := valid.reference_no_dot
    refine ⟨valid.leadsBack (Path.segments_of_no_dot noDot), ?_⟩
    intro suffix
    exact valid.leadsBack (Path.segments_below noDot suffix)

/-- A variable and an action go by one name, and no variable goes by that of the response. -/
theorem variable_and_action_share_total :
    let variableKey : BlockKey := .var "total"
    let actionKey : BlockKey := .action "total"
    BlockKey.parse "var#total" = .ok variableKey ∧ BlockKey.parse "do#total" = .ok actionKey ∧
      variableKey.reference = actionKey.reference ∧
      variableKey.LeadsBack "total.net.0" ["net", "0"] ∧
      ¬∃ key, BlockKey.parse "var#response" = .ok key := by
  intro variableKey actionKey
  have free : isBlockName "total" = true ∧ "total" ∉ reservedNames := by decide
  have parsed : BlockKey.parse "var#total" = .ok variableKey :=
    BlockKey.parse_eq_ok_iff.mpr ⟨rfl, free⟩
  have parsedAction : BlockKey.parse "do#total" = .ok actionKey :=
    BlockKey.parse_eq_ok_iff.mpr ⟨rfl, free⟩
  obtain ⟨_, _, aliases, leadsBack⟩ := block_keys_without_aliasing
  have shared := (aliases _ _ _ _ parsed parsedAction).mpr (.inr ⟨"total", .inl ⟨rfl, rfl⟩⟩)
  have below := (leadsBack _ _ parsed).2 "net.0"
  have split : Path.segments "net.0" = ["net", "0"] := by decide +kernel
  rw [split] at below
  refine ⟨parsed, parsedAction, shared, below, ?_⟩
  rintro ⟨key, accepted⟩
  obtain ⟨same, valid⟩ := BlockKey.parse_eq_ok_iff.mp accepted
  obtain rfl : BlockKey.var "response" = key := BlockKey.text_injective same
  exact valid.2 (by decide)

end ManifestGate
