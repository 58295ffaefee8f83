import ManifestGate.Proofs.Json.Text
import ManifestGate.Proofs.Manifest.WellFormed

/-!
# Dumps are read back

Each part of an object has a law: the reader gives back what the writer has written. Well-formedness
is what the laws need, since the reader makes documents canonical and orders fields. A manifest is
built by compiling, by pushing objects and by reading dumps; all objects of such a manifest are
well-formed.
-/

namespace ManifestGate

variable {σ : Type}

/-! ## Objects -/

theorem embedded?_of_canonical {json : Json} (sound : json.Canonical) :
    embedded? json = some json :=
  congrArg some (Json.canonical_eq_self sound)

theorem Predicate.ofJson?_toJson {predicate : Predicate} (sound : predicate.WellFormed) :
    ofJson? predicate.toJson = some predicate := by
  cases predicate with
  | value expected => simp [toJson, ofJson?, Json.case?, embedded?_of_canonical sound]
  | isnot rejected => simp [toJson, ofJson?, Json.case?, embedded?_of_canonical sound]

theorem Json.code?_of_lt {code : Nat} (small : code < 65536) :
    code? (.number (.integer code)) = some code := by
  have inRange : (code : Int) < 65536 := by omega
  simp [code?, Number.code?, inRange]

theorem Record.required_of_get? {α : Type} {record : Record} {place : Nat} {name : String}
    {json : Json} (found : record.get? place name = some json) (read : Json → Option α) :
    record.required place name read = read json := by
  rw [required, found]
  rfl

theorem Ensure.ofJson?_toJson {ensure : Ensure} (sound : ensure.WellFormed) :
    ofJson? ensure.toJson = some ensure := by
  obtain ⟨predicate, error, code, log, debug⟩ := ensure
  have predicateBack : Predicate.ofJson? predicate.toJson = some predicate :=
    Predicate.ofJson?_toJson sound.predicate
  -- read on its own: the bounds of `code?` are not to be evaluated with the record
  have codeBack : ∀ others : List (String × Json),
      (Record.named (("predicate", predicate.toJson) :: ("error", .string error) ::
        ("code", .number (.integer code)) :: others)).required 2 "code" Json.code? = some code :=
    fun others => (Record.required_of_get? (by simp [Record.get?, Dict.get?]) _).trans
      (Json.code?_of_lt sound.code)
  cases log <;> cases debug <;>
    simp [toJson, ofJson?, optionalField, Record.of?, fields, codeBack] <;>
    simp [Record.required, Record.withDefault, Record.get?, Dict.get?, Json.text?, Json.nullable?,
      predicateBack]

theorem CallSpec.ofJson?_toJson {spec : CallSpec} (sound : spec.WellFormed) :
    ofJson? spec.toJson = some spec := by
  obtain ⟨call, args, kwargs, ensure⟩ := spec
  have argsBack := embedded?_of_canonical sound.args
  have kwargsBack := embedded?_of_canonical sound.kwargs
  cases ensure with
  | none =>
    simp [toJson, ofJson?, optionalField, Record.of?, fields, Record.required, Record.withDefault,
      Record.get?, Dict.get?, Json.text?, argsBack, kwargsBack]
  | some ensure =>
    have ensureBack := Ensure.ofJson?_toJson (sound.ensure ensure rfl)
    have clauseBack : ensure.toJson.nullable? Ensure.ofJson? = some (some ensure) :=
      congrArg (Option.map some) ensureBack
    simp [toJson, ofJson?, optionalField, Record.of?, fields, Record.required, Record.withDefault,
      Record.get?, Dict.get?, Json.text?, argsBack, kwargsBack, clauseBack]

theorem VariableSource.ofJson?_toJson {source : VariableSource} (sound : source.WellFormed) :
    ofJson? source.toJson = some source := by
  cases source with
  | static value => simp [toJson, ofJson?, Json.case?, embedded?_of_canonical sound]
  | reference name => rfl
  | call spec => simp [toJson, ofJson?, Json.case?, CallSpec.ofJson?_toJson sound]
  | fetch path => rfl

theorem ParamDefault.ofJson?_toJson {default : ParamDefault} (sound : default.WellFormed) :
    ofJson? default.toJson = some default := by
  cases default with
  | none => rfl
  | literal value => simp [toJson, ofJson?, Json.case?, embedded?_of_canonical sound]
  | fetch path => rfl
  | call spec => simp [toJson, ofJson?, Json.case?, CallSpec.ofJson?_toJson sound]

theorem ParamField.ofJson?_toJson {field : ParamField} (sound : field.default.WellFormed) :
    ofJson? field.toJson = some field := by
  have defaultBack := ParamDefault.ofJson?_toJson sound
  simp [toJson, ofJson?, Record.of?, fields, Record.required, Record.get?, Dict.get?, Json.bool?,
    defaultBack]

theorem mapM_map_eq_some {α β : Type} {write : α → β} {read : β → Option α} {values : List α}
    (law : ∀ value ∈ values, read (write value) = some value) :
    (values.map write).mapM read = some values := by
  induction values with
  | nil => rfl
  | cons value rest ih =>
    have first := law value List.mem_cons_self
    have others := ih fun other member => law other (List.mem_cons_of_mem _ member)
    rw [List.map_cons, List.mapM_cons, first, others]
    rfl

theorem ParamField.dict?_toJson {fields : Dict ParamField} (ordered : Dict.Ascending fields)
    (sound : ∀ entry ∈ fields, entry.2.default.WellFormed) :
    (Json.object (fields.map fun entry => (entry.1, entry.2.toJson))).dict? ofJson? =
      some fields := by
  have back : ((fields.map fun entry => (entry.1, entry.2.toJson)).mapM fun entry =>
      (ofJson? entry.2).map fun field => (entry.1, field)) = some fields :=
    mapM_map_eq_some fun entry member => congrArg (Option.map fun field => (entry.1, field))
      (ParamField.ofJson?_toJson (sound entry member))
  rw [Json.dict?, back, Option.map_some, Dict.ofList_of_ascending ordered]

/-- Reading an object's document gives the object. -/
theorem CompiledObject.ofJson?_toJson {object : CompiledObject} (sound : object.WellFormed) :
    ofJson? object.toJson = some object := by
  cases object with
  | var key source =>
    have sourceBack := VariableSource.ofJson?_toJson sound
    simp [toJson, ofJson?, splitTag?, Record.of?, Record.required, Record.get?, Dict.get?,
      Json.text?, sourceBack]
  | action key call =>
    have callBack := CallSpec.ofJson?_toJson sound
    simp [toJson, ofJson?, splitTag?, Record.of?, Record.required, Record.get?, Dict.get?,
      Json.text?, callBack]
  | params fields =>
    have fieldsBack := ParamField.dict?_toJson sound.1 sound.2
    simp [toJson, ofJson?, splitTag?, Record.of?, Record.required, Record.get?, Dict.get?,
      fieldsBack]
  | response kwargs =>
    have kwargsBack := embedded?_of_canonical sound
    simp [toJson, ofJson?, splitTag?, Record.of?, Record.required, Record.get?, Dict.get?,
      kwargsBack]

/-! ## Manifests -/

namespace CompiledManifest

theorem fault?_eq_none {index : Nat} {seen : List String} {objects : List CompiledObject}
    (distinct : (objects.map CompiledObject.key).Nodup)
    (fresh : ∀ object ∈ objects, object.key ∉ seen)
    (dataFirst : ∀ object ∈ objects.tail, object.key ≠ dataKey)
    (first : index ≠ 0 → ∀ object ∈ objects, object.key ≠ dataKey) :
    fault? index seen objects = none := by
  induction objects generalizing index seen with
  | nil => rfl
  | cons object rest ih =>
    obtain ⟨apart, others⟩ := List.nodup_cons.mp distinct
    have unseen := fresh object List.mem_cons_self
    have proper : ¬(object.key = dataKey ∧ index ≠ 0) := fun ⟨same, later⟩ =>
      first later object List.mem_cons_self same
    rw [fault?, if_neg unseen, if_neg proper]
    refine ih others ?_ (fun other member => dataFirst other (List.mem_of_mem_tail member))
      fun _ => dataFirst
    intro other member known
    rcases List.mem_cons.mp known with same | before
    · exact apart (List.mem_map.mpr ⟨other, member, same⟩)
    · exact fresh other (List.mem_cons_of_mem _ member) before

/-- The objects of a manifest have no fault. -/
theorem ofObjects_objects (manifest : CompiledManifest) :
    ofObjects manifest.objects = .ok manifest := by
  have faultless : fault? 0 [] manifest.objects = none :=
    fault?_eq_none manifest.distinct (fun _ _ => List.not_mem_nil) manifest.dataFirst
      fun later => absurd rfl later
  unfold ofObjects
  split
  · next cause faulty =>
    rw [faultless] at faulty
    cases faulty
  · exact congrArg Except.ok (ext rfl)

/-- The dump of well-formed objects is read back as the manifest, as far as the text is read. -/
theorem ofDump_dump {manifest : CompiledManifest} (sound : manifest.WellFormed)
    (readBack : ∀ n ∈ manifest.toJson.numbers, n.ReadsBack) :
    ofDump manifest.dump =
      if manifest.toJson.nesting < Json.nestingLimit then .ok manifest
      else .error (.badDump Json.ReadError.nesting.message) := by
  unfold ofDump
  rw [dump, Json.read_pretty readBack]
  by_cases shallow : manifest.toJson.nesting < Json.nestingLimit
  · have objectsBack : objectsOfJson? manifest.toJson = some manifest.objects :=
      mapM_map_eq_some fun object member => CompiledObject.ofJson?_toJson (sound object member)
    rw [if_pos shallow, if_pos shallow]
    simp only [objectsBack, ofObjects_objects]
  · rw [if_neg shallow, if_neg shallow]

/-- The manifests that can be obtained: by compiling, by pushing objects, by reading dumps. -/
inductive Built : CompiledManifest → Prop
  | empty : Built empty
  | compiled {σ : Type} {registry : Registry σ} {document : Json} {manifest : CompiledManifest} :
      document.Canonical → compile registry document = .ok manifest → Built manifest
  | pushed {known manifest : CompiledManifest} {object : CompiledObject} :
      Built known → object.WellFormed → known.push object = .ok manifest → Built manifest
  | restored {text : String} {manifest : CompiledManifest} :
      ofDump text = .ok manifest → Built manifest

theorem Built.wellFormed {manifest : CompiledManifest} (built : Built manifest) :
    manifest.WellFormed := by
  induction built with
  | empty => exact fun _ member => nomatch member
  | compiled canonical accepted => exact compile_wellFormed canonical accepted
  | pushed _ sound pushed ih =>
    intro object member
    rw [push_ok pushed, List.mem_append, List.mem_singleton] at member
    rcases member with before | rfl
    · exact ih object before
    · exact sound
  | restored restored => exact ofDump_wellFormed restored

theorem push_eq_ok {known manifest : CompiledManifest} {object : CompiledObject}
    (extended : manifest.objects = known.objects ++ [object]) :
    known.push object = .ok manifest := by
  have distinct := manifest.distinct
  have dataFirst := manifest.dataFirst
  rw [extended] at distinct dataFirst
  have fresh : object.key ∉ known.keys := by
    rw [List.map_append, List.nodup_append] at distinct
    exact fun taken => distinct.2.2 _ taken _ List.mem_cons_self rfl
  have proper : ¬(object.key = dataKey ∧ known.objects ≠ []) := by
    rintro ⟨same, nonempty⟩
    have later : object ∈ (known.objects ++ [object]).tail := by
      rw [List.tail_append_of_ne_nil nonempty]
      exact List.mem_append_right _ List.mem_cons_self
    exact dataFirst object later same
  rw [push, dif_neg fresh, dif_neg proper]
  exact congrArg Except.ok (ext extended.symm)

/-- Pushes alone give every manifest of well-formed objects. -/
theorem WellFormed.built {manifest : CompiledManifest} (sound : manifest.WellFormed) :
    Built manifest := by
  obtain ⟨objects, distinct, dataFirst⟩ := manifest
  induction objects using List.reverseRecOn with
  | nil => exact .empty
  | append_singleton before last ih =>
    -- the objects before the last are a manifest of their own
    have apart : (before.map CompiledObject.key).Nodup := by
      rw [List.map_append, List.nodup_append] at distinct
      exact distinct.1
    have first : ∀ object ∈ before.tail, object.key ≠ dataKey := by
      intro object member
      refine dataFirst object ?_
      rw [List.tail_append_of_ne_nil (List.ne_nil_of_mem (List.mem_of_mem_tail member))]
      exact List.mem_append_left _ member
    have earlier : Built ⟨before, apart, first⟩ :=
      ih apart first fun object member => sound object (List.mem_append_left _ member)
    exact .pushed earlier (sound last (List.mem_append_right _ List.mem_cons_self))
      (push_eq_ok rfl)

end CompiledManifest

/-- A dump that nests no deeper than the reader goes is read back as the manifest it was made of. Of
its numbers it is assumed that the reader takes each of their texts as the number. -/
theorem dump_reads_back {manifest : CompiledManifest} (built : manifest.Built)
    (shallow : manifest.toJson.nesting < Json.nestingLimit)
    (readBack : ∀ n ∈ manifest.toJson.numbers, n.ReadsBack) :
    CompiledManifest.ofDump manifest.dump = .ok manifest := by
  rw [CompiledManifest.ofDump_dump built.wellFormed readBack, if_pos shallow]

/-- One object of each kind, with a double among the numbers and a clause that rejects `null`. -/
def sampleManifest : CompiledManifest where
  objects := [
    .var dataKey (.static (.object [("a", .null), ("b", .array [.number (.integer (-7))])])),
    .var "ratio" (.static (.number (.double (Double.ofDecimal false 5 (-1))))),
    .params [("a", ⟨true, .none⟩), ("b", ⟨false, .literal (.string "x")⟩), ("c", ⟨true, .fetch "R.V"⟩)],
    .action "send" ⟨"R.F", .array [.string "#ratio"], .string "**R.V",
      some ⟨.isnot .null, "gone", 404, some "sent", none⟩⟩,
    .response (.object [("sent", .string "#send")])]
  distinct := by decide
  dataFirst := by decide

theorem sampleManifest_reads_back :
    CompiledManifest.ofDump sampleManifest.dump = .ok sampleManifest := by
  have sound : sampleManifest.WellFormed := by
    simp only [CompiledManifest.WellFormed, sampleManifest, List.forall_mem_cons]
    refine ⟨⟨?_, ⟨trivial, ⟨trivial, trivial⟩, trivial⟩⟩, trivial, ⟨?_, ?_⟩,
      ⟨⟨trivial, trivial⟩, trivial, ?_⟩, ⟨?_, trivial, trivial⟩, List.forall_mem_nil _⟩
    · unfold Dict.Ascending
      decide
    · unfold Dict.Ascending
      decide
    · rw [List.forall_mem_cons, List.forall_mem_cons, List.forall_mem_singleton]
      exact ⟨trivial, trivial, trivial⟩
    · intro ensure given
      cases given
      exact ⟨trivial, by decide⟩
    · exact List.pairwise_singleton _ _
  have half : (Number.double (Double.ofDecimal false 5 (-1))).ReadsBack := by
    rfl
  refine dump_reads_back sound.built (by decide) fun n member => ?_
  have listed : n = .integer (-7) ∨ n = .double (Double.ofDecimal false 5 (-1)) ∨
      n = .integer 404 := by
    simpa [CompiledManifest.toJson, sampleManifest, Json.numbers, Json.numbersOfItems,
      Json.numbersOfEntries, CompiledObject.toJson, VariableSource.toJson, ParamField.toJson,
      ParamDefault.toJson, CallSpec.toJson, Ensure.toJson, optionalField, Predicate.toJson]
      using member
  rcases listed with rfl | rfl | rfl
  · exact Number.readsBack_integer (by decide)
  · exact half
  · exact Number.readsBack_integer (by decide)

end ManifestGate
