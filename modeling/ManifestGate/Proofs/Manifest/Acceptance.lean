import ManifestGate.Proofs.Manifest.Grammar

/-!
# What the compiler accepts

A document compiles exactly if it is a manifest. The compiler gives a result for each part of a
document exactly if the grammar allows the part where it stands; for the blocks this goes by
induction, with the references of the blocks before as what is seen.
-/

namespace ManifestGate

variable {σ : Type}

section

variable {registry : Registry σ} {known : CompiledManifest}

theorem CallSpec.exists_parse_of_scoped {seen : List String} {mapping : Json}
    (isMapping : CallSpec.isMapping mapping = true)
    (allScoped : (Template.ofJson registry.root mapping).Scoped registry seen) :
    ∃ spec, CallSpec.parse mapping = .ok spec := by
  cases mapping with
  | object entries =>
    obtain ⟨valid, _⟩ := (Template.scoped_mapping_iff isMapping).mp allScoped
    obtain ⟨target, ensure, read, _⟩ := CallSpec.valid_iff.mp valid
    exact ⟨_, Except.bind_eq_ok_iff.mpr ⟨(target, ensure), read, rfl⟩⟩
  | _ => cases isMapping

theorem exists_compileCall_iff {mapping : Json} (isMapping : CallSpec.isMapping mapping = true) :
    (∃ spec, compileCall registry known mapping = .ok spec) ↔
      mapping.Meaningful registry known.keys := by
  unfold compileCall
  rw [Except.exists_bind_iff, Json.meaningful_iff]
  constructor
  · rintro ⟨spec, parsed, checks⟩
    obtain ⟨checked, _⟩ := Except.exists_then_iff.mp checks
    rw [Template.ofJson_mapping isMapping (Except.mapError_eq_ok_iff.mp parsed)]
    exact (Template.check_ok_iff _).mp checked
  · intro allScoped
    obtain ⟨spec, parsed⟩ := CallSpec.exists_parse_of_scoped isMapping allScoped
    rw [Template.ofJson_mapping isMapping parsed] at allScoped
    have checked := (Template.check_ok_iff _).mpr allScoped
    exact ⟨spec, Except.mapError_eq_ok_iff.mpr parsed,
      Except.exists_then_iff.mpr ⟨checked, spec, rfl⟩⟩

/-- Where nothing but a call mapping may stand. -/
theorem exists_mappingCall_iff {α : Type} {make : CallSpec → α} {cause : ManifestError}
    {value : Json} :
    (∃ made, (if CallSpec.isMapping value then (compileCall registry known value).map make
      else .error cause) = .ok made) ↔
      CallSpec.isMapping value = true ∧ value.Meaningful registry known.keys := by
  by_cases isMapping : CallSpec.isMapping value = true
  · rw [if_pos isMapping, Except.exists_map_iff, exists_compileCall_iff isMapping,
      and_iff_right isMapping]
  · rw [if_neg isMapping]
    exact iff_of_false Except.not_exists_of_error fun valid => isMapping valid.1

theorem exists_compileSource_iff {value : Json} :
    (∃ source, compileSource registry known value = .ok source) ↔
      (∀ text, value = .string text → SymbolValid registry known.keys text) ∧
        (CallSpec.isMapping value = true → value.Meaningful registry known.keys) := by
  unfold compileSource
  by_cases mapping : CallSpec.isMapping value = true
  · rw [if_pos mapping, Except.exists_map_iff, exists_compileCall_iff mapping]
    constructor
    · intro meaningful
      refine ⟨?_, fun _ => meaningful⟩
      rintro text rfl
      cases mapping
    · rintro ⟨_, meaningful⟩
      exact meaningful mapping
  · rw [if_neg mapping, and_iff_left fun impossible => absurd impossible mapping]
    cases value with
    | string text =>
      simp only [Json.string.injEq, forall_eq', symbolValid_iff]
      rw [Template.ofJson]
      cases Symbol.ofText registry.root text with
      | reference name =>
        rw [Except.exists_then_iff, checkReference_ok_iff]
        exact and_iff_left ⟨_, rfl⟩
      | capability path =>
        rw [Except.exists_then_iff, Registry.checkPath_ok_iff]
        exact and_iff_left ⟨_, rfl⟩
      | plain text => exact iff_of_true ⟨_, rfl⟩ trivial
    | _ => simp

theorem exists_compileDefault_iff {name : String} {value : Json} :
    (∃ default, compileDefault registry known name value = .ok default) ↔
      value.DefaultValid registry known.keys := by
  cases value with
  | null => exact iff_of_true ⟨_, rfl⟩ .null
  | bool b => exact iff_of_true ⟨_, rfl⟩ .bool
  | number n => exact iff_of_true ⟨_, rfl⟩ .number
  | string text =>
    have valid_iff : (Json.string text).DefaultValid registry known.keys ↔
        (Path.head text = registry.root → registry.check text = .ok ()) := by
      constructor
      · intro valid
        cases valid with
        | string leads => exact leads
        | call mapping _ => cases mapping
      · exact .string
    rw [valid_iff]
    simp only [compileDefault, Registry.isCapabilityPath, decide_eq_true_eq]
    by_cases below : Path.head text = registry.root
    · rw [if_pos below, Except.exists_then_iff, Registry.checkPath_ok_iff,
        Registry.check_ok_iff]
      constructor
      · rintro ⟨offered, _⟩ _
        exact offered
      · intro leads
        exact ⟨leads below, _, rfl⟩
    · rw [if_neg below]
      exact iff_of_true ⟨_, rfl⟩ fun impossible => absurd impossible below
  | array items =>
    apply iff_of_false Except.not_exists_of_error
    intro valid
    cases valid with
    | call isMapping _ => cases isMapping
  | object entries =>
    simp only [compileDefault]
    rw [exists_mappingCall_iff]
    constructor
    · rintro ⟨isMapping, meaningful⟩
      exact .call isMapping meaningful
    · intro valid
      cases valid with
      | call isMapping meaningful => exact ⟨isMapping, meaningful⟩

theorem exists_compileField_iff {name : String} {definition : Json} :
    (∃ field, compileField registry known name definition = .ok field) ↔
      ∃ required default, definition = .array [.bool required, default] ∧
        default.DefaultValid registry known.keys := by
  unfold compileField
  split
  · next required default =>
    rw [Except.exists_bind_iff]
    constructor
    · rintro ⟨compiled, accepted, _⟩
      exact ⟨required, default, rfl, exists_compileDefault_iff.mp ⟨compiled, accepted⟩⟩
    · rintro ⟨flag, value, same, valid⟩
      cases same
      obtain ⟨compiled, accepted⟩ := exists_compileDefault_iff.mpr valid
      exact ⟨compiled, accepted, _, rfl⟩
  · next notFlag =>
    apply iff_of_false Except.not_exists_of_error
    rintro ⟨flag, value, same, _⟩
    cases same
    exact notFlag flag rfl
  · next notPair _ =>
    apply iff_of_false Except.not_exists_of_error
    rintro ⟨flag, value, same, _⟩
    exact notPair _ _ same

theorem exists_compileFields_iff {entries : List (String × Json)} :
    (∃ fields, compileFields registry known entries = .ok fields) ↔
      ∀ entry ∈ entries, ∃ required default, entry.2 = .array [.bool required, default] ∧
        default.DefaultValid registry known.keys := by
  induction entries with
  | nil => exact iff_of_true ⟨_, rfl⟩ fun _ member => absurd member List.not_mem_nil
  | cons entry rest ih =>
    obtain ⟨name, definition⟩ := entry
    rw [List.forall_mem_cons, ← ih, ← exists_compileField_iff, compileFields,
      Except.exists_bind_iff]
    constructor
    · rintro ⟨field, accepted, continued⟩
      obtain ⟨more, acceptedMore, _⟩ := Except.exists_bind_iff.mp continued
      exact ⟨⟨field, accepted⟩, more, acceptedMore⟩
    · rintro ⟨⟨field, accepted⟩, more, acceptedMore⟩
      exact ⟨field, accepted, Except.exists_bind_iff.mpr ⟨more, acceptedMore, _, rfl⟩⟩

theorem exists_compileObject_iff {index : Nat} {block : Block} :
    (∃ object, compileObject registry index known block = .ok object) ↔
      (block.key = .data → index = 0) ∧ block.Valid registry known.keys := by
  obtain ⟨key, value⟩ := block
  unfold compileObject
  cases key with
  | data =>
    dsimp only
    by_cases first : index = 0
    · rw [if_neg (not_not.mpr first), and_iff_right fun _ => first]
      cases value with
      | object entries => exact iff_of_true ⟨_, rfl⟩ .data
      | _ => exact iff_of_false Except.not_exists_of_error nofun
    · rw [if_pos first]
      exact iff_of_false Except.not_exists_of_error fun valid => first (valid.1 rfl)
  | var name =>
    rw [and_iff_right nofun, Except.exists_map_iff, exists_compileSource_iff]
    constructor
    · rintro ⟨symbol, mapping⟩
      exact .var symbol mapping
    · intro valid
      cases valid with
      | var symbol mapping => exact ⟨symbol, mapping⟩
  | action name =>
    rw [and_iff_right nofun, exists_mappingCall_iff]
    constructor
    · rintro ⟨isMapping, meaningful⟩
      exact .action isMapping meaningful
    · intro valid
      cases valid with
      | action isMapping meaningful => exact ⟨isMapping, meaningful⟩
  | params =>
    rw [and_iff_right nofun]
    cases value with
    | object entries =>
      dsimp only
      rw [Except.exists_map_iff, exists_compileFields_iff]
      constructor
      · exact .params
      · intro valid
        cases valid with
        | params fields => exact fields
    | _ => exact iff_of_false Except.not_exists_of_error nofun
  | response =>
    rw [and_iff_right nofun]
    have shown (value : Json) (shape : value.isObject = true ∨ ∃ text, value = .string text) :
        (∃ object, (do
          (Template.ofJson registry.root value).check registry known
          return CompiledObject.response value) = Except.ok object) ↔
        Block.Valid registry known.keys ⟨.response, value⟩ := by
      rw [Except.exists_then_iff, Template.check_ok_iff, ← Json.meaningful_iff,
        and_iff_left ⟨_, rfl⟩]
      constructor
      · exact .response shape
      · intro valid
        cases valid with
        | response _ meaningful => exact meaningful
    cases value with
    | object entries => exact shown _ (.inl rfl)
    | string text => exact shown _ (.inr ⟨text, rfl⟩)
    | _ =>
      apply iff_of_false Except.not_exists_of_error
      intro valid
      cases valid with
      | response shape _ => simp [Json.isObject] at shape

end

theorem CompiledManifest.exists_push_iff {known : CompiledManifest} {object : CompiledObject} :
    (∃ next, known.push object = .ok next) ↔
      object.key ∉ known.keys ∧ (object.key = dataKey → known.objects = []) := by
  unfold push
  by_cases taken : object.key ∈ known.keys
  · rw [dif_pos taken]
    exact iff_of_false Except.not_exists_of_error fun fresh => fresh.1 taken
  · rw [dif_neg taken, and_iff_right taken]
    by_cases late : object.key = dataKey ∧ known.objects ≠ []
    · rw [dif_pos late]
      exact iff_of_false Except.not_exists_of_error fun first => late.2 (first late.1)
    · rw [dif_neg late]
      exact iff_of_true ⟨_, rfl⟩ (not_and_not_right.mp late)

theorem CompiledManifest.push_keys {known next : CompiledManifest} {object : CompiledObject}
    (pushed : known.push object = .ok next) : next.keys = known.keys ++ [object.key] := by
  rw [keys, push_ok pushed, List.map_append]
  rfl

/-- The blocks are fresh and valid one after the other, and the request data only come first. -/
def BlocksValid (registry : Registry σ) (seen : List String) : List Block → Prop
  | [] => True
  | block :: rest =>
    block.key.reference ∉ seen ∧ (block.key = .data → seen = []) ∧ block.Valid registry seen ∧
      BlocksValid registry (seen ++ [block.key.reference]) rest

theorem exists_compileBlocks_iff {registry : Registry σ} (known : CompiledManifest)
    {blocks : List Block} (keys : ∀ block ∈ blocks, block.key.Valid) :
    (∃ compiled, compileBlocks registry known.objects.length known blocks = .ok compiled) ↔
      BlocksValid registry known.keys blocks := by
  induction blocks generalizing known with
  | nil => exact iff_of_true ⟨_, rfl⟩ trivial
  | cons block rest ih =>
    obtain ⟨validKey, validKeys⟩ := List.forall_mem_cons.mp keys
    have empty_iff : known.keys = [] ↔ known.objects = [] := List.map_eq_nil_iff
    unfold compileBlocks BlocksValid
    simp only [CompiledManifest.contains, decide_eq_true_eq]
    by_cases taken : block.key.reference ∈ known.keys
    · rw [if_pos taken]
      exact iff_of_false Except.not_exists_of_error fun fresh => fresh.1 taken
    · rw [if_neg taken, and_iff_right taken, Except.exists_bind_iff]
      constructor
      · rintro ⟨object, compiled, continued⟩
        obtain ⟨next, pushed, accepted⟩ := Except.exists_bind_iff.mp continued
        have grown := Except.mapError_eq_ok_iff.mp pushed
        obtain ⟨first, valid⟩ := exists_compileObject_iff.mp ⟨object, compiled⟩
        rw [← (compileObject_standsFor compiled).key, ← CompiledManifest.push_keys grown,
          ← ih _ validKeys, CompiledManifest.push_ok grown, List.length_append]
        refine ⟨fun isData => ?_, valid, accepted⟩
        exact empty_iff.mpr (List.length_eq_zero_iff.mp (first isData))
      · rintro ⟨first, valid, validRest⟩
        obtain ⟨object, compiled⟩ := exists_compileObject_iff.mpr
          ⟨fun isData => List.length_eq_zero_iff.mpr (empty_iff.mp (first isData)), valid⟩
        have key := (compileObject_standsFor compiled).key
        obtain ⟨next, grown⟩ := CompiledManifest.exists_push_iff.mpr
          ⟨key ▸ taken, fun isData => empty_iff.mp
            (first ((validKey.reference_eq_iff List.mem_cons_self).mp (key.symm.trans isData)))⟩
        rw [← key, ← CompiledManifest.push_keys grown, ← ih _ validKeys,
          CompiledManifest.push_ok grown, List.length_append] at validRest
        exact ⟨object, compiled, Except.exists_bind_iff.mpr
          ⟨next, Except.mapError_eq_ok_iff.mpr grown, validRest⟩⟩

/-- What holds of each item and those before it holds of the first one, and of the others with the
first one before them. -/
theorem forall_split_cons_iff {α : Type} {holds : List α → α → Prop} {first : α} {rest : List α} :
    (∀ before item after, first :: rest = before ++ item :: after → holds before item) ↔
      holds [] first ∧
        ∀ before item after, rest = before ++ item :: after → holds (first :: before) item := by
  constructor
  · intro all
    refine ⟨all [] first rest rfl, ?_⟩
    rintro before item after rfl
    exact all (first :: before) item after rfl
  · rintro ⟨here, later⟩ before item after same
    cases before with
    | nil =>
      cases same
      exact here
    | cons other before =>
      obtain ⟨rfl, rest⟩ := List.cons.inj same
      exact later before item after rest

theorem blocksValid_iff {registry : Registry σ} {seen : List String} (distinct : seen.Nodup)
    {blocks : List Block} :
    BlocksValid registry seen blocks ↔
      (seen ++ blocks.map fun block => block.key.reference).Nodup ∧
        ∀ before block after, blocks = before ++ block :: after →
          (block.key = .data → seen ++ (before.map fun earlier => earlier.key.reference) = []) ∧
            block.Valid registry (seen ++ before.map fun earlier => earlier.key.reference) := by
  induction blocks generalizing seen with
  | nil => simp [BlocksValid, distinct]
  | cons block rest ih =>
    rw [BlocksValid, forall_split_cons_iff, List.map_cons]
    by_cases taken : block.key.reference ∈ seen
    · refine iff_of_false (fun fresh => fresh.1 taken) ?_
      rintro ⟨apart, _⟩
      exact (List.nodup_append.mp apart).2.2 _ taken _ List.mem_cons_self rfl
    · have apart : (seen ++ [block.key.reference]).Nodup := by
        refine List.nodup_append.mpr ⟨distinct, by simp, ?_⟩
        rintro name known other last rfl
        rw [List.mem_singleton.mp last] at known
        exact taken known
      rw [and_iff_right taken, ih apart]
      simp only [List.append_assoc, List.singleton_append, List.map_cons, List.map_nil,
        List.append_nil]
      constructor
      · rintro ⟨first, valid, unique, later⟩
        exact ⟨unique, ⟨first, valid⟩, later⟩
      · rintro ⟨unique, ⟨first, valid⟩, later⟩
        exact ⟨first, valid, unique, later⟩

theorem wellFormedBlocks_iff {registry : Registry σ} {blocks : List Block} :
    WellFormedBlocks registry blocks ↔
      (∀ block ∈ blocks, block.key.Valid) ∧ BlocksValid registry [] blocks := by
  rw [blocksValid_iff List.nodup_nil]
  simp only [List.nil_append, List.map_eq_nil_iff]
  constructor
  · intro sound
    refine ⟨sound.keys, sound.distinct, ?_⟩
    rintro before block after rfl
    refine ⟨?_, sound.valid before block after rfl⟩
    intro isData
    cases before with
    | nil => rfl
    | cons first before =>
      exact absurd isData (sound.dataFirst block (by simp))
  · rintro ⟨keys, distinct, inOrder⟩
    refine ⟨keys, distinct, ?_, ?_⟩
    · intro block member isData
      cases blocks with
      | nil => cases member
      | cons first rest =>
        obtain ⟨before, after, rfl⟩ := List.append_of_mem member
        cases (inOrder (first :: before) block after rfl).1 isData
    · intro before block after split
      exact (inOrder before block after split).2

/-- The compiler accepts a document exactly if it is a manifest. -/
theorem compile_accepts_iff_manifest (registry : Registry σ) (document : Json) :
    (∃ compiled, compile registry document = .ok compiled) ↔ document.IsManifest registry := by
  unfold compile Json.IsManifest
  rw [Except.exists_bind_iff]
  constructor
  · rintro ⟨blocks, parsed, accepted⟩
    obtain ⟨spelled, keys⟩ := Block.parseAll_eq_ok_iff.mp (Except.mapError_eq_ok_iff.mp parsed)
    have valid := (exists_compileBlocks_iff .empty keys).mp accepted
    exact ⟨blocks, spelled, wellFormedBlocks_iff.mpr ⟨keys, valid⟩⟩
  · rintro ⟨blocks, spelled, sound⟩
    obtain ⟨keys, valid⟩ := wellFormedBlocks_iff.mp sound
    have parsed := Block.parseAll_eq_ok_iff.mpr ⟨spelled, keys⟩
    exact ⟨blocks, Except.mapError_eq_ok_iff.mpr parsed,
      (exists_compileBlocks_iff .empty keys).mpr valid⟩

end ManifestGate
