import ManifestGate.Manifest.Dump
import ManifestGate.Proofs.Json.Canonical
import ManifestGate.Proofs.Manifest.Origin

/-!
# Well-formed objects

In a well-formed object every document is canonical, the fields are in key order and a status code
has 16 bits. Compiling a canonical manifest and reading a dump give well-formed objects only.
-/

namespace ManifestGate

variable {σ : Type}

def Predicate.WellFormed : Predicate → Prop
  | .value expected => expected.Canonical
  | .isnot rejected => rejected.Canonical

structure Ensure.WellFormed (ensure : Ensure) : Prop where
  predicate : ensure.predicate.WellFormed
  code : ensure.code < 65536

structure CallSpec.WellFormed (spec : CallSpec) : Prop where
  args : spec.args.Canonical
  kwargs : spec.kwargs.Canonical
  ensure : ∀ ensure, spec.ensure = some ensure → ensure.WellFormed

def VariableSource.WellFormed : VariableSource → Prop
  | .static value => value.Canonical
  | .call spec => spec.WellFormed
  | .reference _ | .fetch _ => True

def ParamDefault.WellFormed : ParamDefault → Prop
  | .literal value => value.Canonical
  | .call spec => spec.WellFormed
  | .none | .fetch _ => True

def CompiledObject.WellFormed : CompiledObject → Prop
  | .var _ source => source.WellFormed
  | .action _ call => call.WellFormed
  | .params fields => Dict.Ascending fields ∧ ∀ entry ∈ fields, entry.2.default.WellFormed
  | .response kwargs => kwargs.Canonical

def CompiledManifest.WellFormed (manifest : CompiledManifest) : Prop :=
  ∀ object ∈ manifest.objects, object.WellFormed

/-! ## Compiling -/

theorem Ensure.readCode_lt {entries : Dict Json} {code : Nat}
    (read : readCode entries = .ok code) : code < 65536 := by
  unfold readCode at read
  split at read
  · cases read
    decide
  · split at read
    · split at read
      · next found =>
        split at read
        · cases read
          exact (Number.code?_eq_some_iff.mp found).2
        · cases read
      · cases read
    · cases read

theorem Ensure.wellFormed_of_parse {raw : Json} {ensure : Ensure} (sound : raw.Canonical)
    (parsed : Ensure.parse raw = .ok ensure) : ensure.WellFormed := by
  obtain ⟨entries, rfl, predicate, code⟩ := Ensure.parse_ok parsed
  refine ⟨?_, readCode_lt code⟩
  rcases readPredicate_ok predicate with ⟨expected, found, same⟩ | ⟨rejected, found, same⟩
  · rw [same]
    exact sound.of_get? found
  · rw [same]
    exact sound.of_get? found

theorem Json.Canonical.getD {entries : Dict Json} {key : String} {default : Json}
    (sound : (Json.object entries).Canonical) (other : default.Canonical) :
    ((Dict.get? entries key).getD default).Canonical := by
  cases found : Dict.get? entries key with
  | none => exact other
  | some value => exact sound.of_get? found

theorem CallSpec.wellFormed_of_parse {mapping : Json} {spec : CallSpec} (sound : mapping.Canonical)
    (parsed : parse mapping = .ok spec) : spec.WellFormed := by
  obtain ⟨entries, rfl, args, kwargs, ensure⟩ := CallSpec.parse_ok parsed
  refine ⟨?_, ?_, ?_⟩
  · rw [args]
    exact sound.getD trivial
  · rw [kwargs]
    exact sound.getD ⟨List.Pairwise.nil, trivial⟩
  · intro clause given
    rw [given] at ensure
    obtain ⟨raw, found, accepted⟩ := CallSpec.readEnsure_ok ensure
    exact Ensure.wellFormed_of_parse (sound.of_get? found) accepted

theorem VariableSource.From.wellFormed {value : Json} {source : VariableSource}
    (origin : source.From value) (sound : value.Canonical) : source.WellFormed := by
  cases source with
  | static kept =>
    cases origin
    exact sound
  | reference name => trivial
  | call spec => exact CallSpec.wellFormed_of_parse sound origin
  | fetch path => trivial

theorem ParamDefault.From.wellFormed {value : Json} {default : ParamDefault}
    (origin : default.From value) (sound : value.Canonical) : default.WellFormed := by
  cases default with
  | none => trivial
  | literal kept =>
    cases origin
    exact sound
  | fetch path => trivial
  | call spec => exact CallSpec.wellFormed_of_parse sound origin

theorem FieldsFrom.keys_eq {entries : List (String × Json)} {fields : Dict ParamField}
    (origins : FieldsFrom entries fields) : Dict.keys fields = Dict.keys entries := by
  induction origins with
  | nil => rfl
  | cons origin _ ih => exact congrArg₂ List.cons origin.1 ih

theorem FieldsFrom.wellFormed {entries : List (String × Json)} {fields : Dict ParamField}
    (origins : FieldsFrom entries fields) (sound : Json.CanonicalEntries entries) :
    ∀ entry ∈ fields, entry.2.default.WellFormed := by
  induction origins with
  | nil => exact fun _ member => nomatch member
  | cons origin _ ih =>
    obtain ⟨_, value, definition, kept⟩ := origin
    have pair := sound.1
    rw [definition] at pair
    intro entry member
    cases member with
    | head => exact kept.wellFormed pair.2.1
    | tail _ later => exact ih sound.2 entry later

theorem Dict.Ascending.of_keys {α β : Type} {dict : Dict α} {other : Dict β}
    (ordered : Ascending dict) (same : keys other = keys dict) : Ascending other :=
  List.pairwise_map.mp (same ▸ List.pairwise_map.mpr ordered :
    (keys other).Pairwise fun a b => a < b)

theorem CompiledObject.From.wellFormed {value : Json} {object : CompiledObject}
    (origin : object.From value) (sound : value.Canonical) : object.WellFormed := by
  cases object with
  | var key source => exact VariableSource.From.wellFormed origin sound
  | action key call => exact CallSpec.wellFormed_of_parse sound origin
  | params fields =>
    obtain ⟨entries, rfl, origins⟩ := origin
    exact ⟨sound.1.of_keys origins.keys_eq, origins.wellFormed sound.2⟩
  | response kwargs =>
    cases origin
    exact sound

/-- The objects of a canonical manifest are well-formed. -/
theorem compile_wellFormed {registry : Registry σ} {manifest : Json} {compiled : CompiledManifest}
    (canonical : manifest.Canonical) (accepted : compile registry manifest = .ok compiled) :
    compiled.WellFormed := by
  obtain ⟨items, rfl, origins⟩ := compile_from accepted
  intro object member
  obtain ⟨raw, value, inside, origin⟩ := origins object member
  have sound := Json.canonicalItems_iff.mp canonical _ inside
  exact CompiledObject.From.wellFormed origin sound.2.1

/-! ## Reading -/

theorem canonical_of_embedded? {json value : Json} (read : embedded? json = some value) :
    value.Canonical := by
  cases read
  exact Json.canonical_canonical json

theorem Record.exists_of_required {α : Type} {record : Record} {place : Nat} {name : String}
    {read : Json → Option α} {value : α} (found : record.required place name read = some value) :
    ∃ json, read json = some value := by
  obtain ⟨json, _, given⟩ := Option.bind_eq_some_iff.mp found
  exact ⟨json, given⟩

theorem Record.exists_of_withDefault {α : Type} {record : Record} {place : Nat} {name : String}
    {read : Json → Option α} {default value : α}
    (found : record.withDefault place name read default = some value) :
    value = default ∨ ∃ json, read json = some value := by
  unfold withDefault at found
  split at found
  · next json _ => exact .inr ⟨json, found⟩
  · cases found
    exact .inl rfl

theorem Json.of_nullable? {α : Type} {read : Json → Option α} {json : Json} {value : α}
    (found : json.nullable? read = some (some value)) : read json = some value := by
  cases json with
  | null => cases found
  | _ =>
    obtain ⟨_, given, same⟩ := Option.map_eq_some_iff.mp found
    cases same
    exact given

theorem Predicate.wellFormed_of_ofJson? {json : Json} {predicate : Predicate}
    (read : ofJson? json = some predicate) : predicate.WellFormed := by
  unfold ofJson? at read
  split at read
  · obtain ⟨expected, embedded, rfl⟩ := Option.map_eq_some_iff.mp read
    exact canonical_of_embedded? embedded
  · obtain ⟨rejected, embedded, rfl⟩ := Option.map_eq_some_iff.mp read
    exact canonical_of_embedded? embedded
  · cases read

theorem Json.code?_lt {json : Json} {code : Nat} (read : json.code? = some code) :
    code < 65536 := by
  cases json with
  | number n => exact (Number.code?_eq_some_iff.mp read).2
  | _ => cases read

theorem Ensure.wellFormed_of_ofJson? {json : Json} {ensure : Ensure}
    (read : ofJson? json = some ensure) : ensure.WellFormed := by
  unfold ofJson? at read
  obtain ⟨record, _, read⟩ := Option.bind_eq_some_iff.mp read
  obtain ⟨predicate, predicateRead, read⟩ := Option.bind_eq_some_iff.mp read
  obtain ⟨error, _, read⟩ := Option.bind_eq_some_iff.mp read
  obtain ⟨code, codeRead, read⟩ := Option.bind_eq_some_iff.mp read
  obtain ⟨log, _, read⟩ := Option.bind_eq_some_iff.mp read
  obtain ⟨debug, _, read⟩ := Option.bind_eq_some_iff.mp read
  cases read
  obtain ⟨_, predicateFound⟩ := Record.exists_of_required predicateRead
  obtain ⟨_, codeFound⟩ := Record.exists_of_required codeRead
  exact ⟨Predicate.wellFormed_of_ofJson? predicateFound, Json.code?_lt codeFound⟩

theorem CallSpec.wellFormed_of_ofJson? {json : Json} {spec : CallSpec}
    (read : ofJson? json = some spec) : spec.WellFormed := by
  unfold ofJson? at read
  obtain ⟨record, _, read⟩ := Option.bind_eq_some_iff.mp read
  obtain ⟨call, _, read⟩ := Option.bind_eq_some_iff.mp read
  obtain ⟨args, argsRead, read⟩ := Option.bind_eq_some_iff.mp read
  obtain ⟨kwargs, kwargsRead, read⟩ := Option.bind_eq_some_iff.mp read
  obtain ⟨ensure, ensureRead, read⟩ := Option.bind_eq_some_iff.mp read
  cases read
  refine ⟨?_, ?_, ?_⟩
  · rcases Record.exists_of_withDefault argsRead with rfl | ⟨_, embedded⟩
    · trivial
    · exact canonical_of_embedded? embedded
  · rcases Record.exists_of_withDefault kwargsRead with rfl | ⟨_, embedded⟩
    · exact ⟨List.Pairwise.nil, trivial⟩
    · exact canonical_of_embedded? embedded
  · rintro clause rfl
    rcases Record.exists_of_withDefault ensureRead with none | ⟨_, found⟩
    · cases none
    · exact Ensure.wellFormed_of_ofJson? (Json.of_nullable? found)

theorem VariableSource.wellFormed_of_ofJson? {json : Json} {source : VariableSource}
    (read : ofJson? json = some source) : source.WellFormed := by
  unfold ofJson? at read
  split at read
  · obtain ⟨value, embedded, rfl⟩ := Option.map_eq_some_iff.mp read
    exact canonical_of_embedded? embedded
  · obtain ⟨name, _, rfl⟩ := Option.map_eq_some_iff.mp read
    trivial
  · obtain ⟨spec, found, rfl⟩ := Option.map_eq_some_iff.mp read
    exact CallSpec.wellFormed_of_ofJson? found
  · obtain ⟨path, _, rfl⟩ := Option.map_eq_some_iff.mp read
    trivial
  · cases read

theorem ParamDefault.wellFormed_of_ofJson? {json : Json} {default : ParamDefault}
    (read : ofJson? json = some default) : default.WellFormed := by
  unfold ofJson? at read
  split at read
  · cases read
    trivial
  · cases read
    trivial
  · cases read
    trivial
  · obtain ⟨value, embedded, rfl⟩ := Option.map_eq_some_iff.mp read
    exact canonical_of_embedded? embedded
  · obtain ⟨path, _, rfl⟩ := Option.map_eq_some_iff.mp read
    trivial
  · obtain ⟨spec, found, rfl⟩ := Option.map_eq_some_iff.mp read
    exact CallSpec.wellFormed_of_ofJson? found
  · cases read

theorem ParamField.wellFormed_of_ofJson? {json : Json} {field : ParamField}
    (read : ofJson? json = some field) : field.default.WellFormed := by
  unfold ofJson? at read
  obtain ⟨record, _, read⟩ := Option.bind_eq_some_iff.mp read
  obtain ⟨required, _, read⟩ := Option.bind_eq_some_iff.mp read
  obtain ⟨default, defaultRead, read⟩ := Option.bind_eq_some_iff.mp read
  cases read
  obtain ⟨_, found⟩ := Record.exists_of_required defaultRead
  exact ParamDefault.wellFormed_of_ofJson? found

theorem exists_of_mapM {α β : Type} {read : α → Option β} {items : List α} {values : List β}
    (found : items.mapM read = some values) :
    ∀ value ∈ values, ∃ item ∈ items, read item = some value := by
  induction items generalizing values with
  | nil =>
    cases found
    exact fun _ member => nomatch member
  | cons item rest ih =>
    rw [List.mapM_cons] at found
    obtain ⟨first, readFirst, found⟩ := Option.bind_eq_some_iff.mp found
    obtain ⟨more, readMore, found⟩ := Option.bind_eq_some_iff.mp found
    cases found
    intro value member
    cases member with
    | head => exact ⟨item, List.mem_cons_self, readFirst⟩
    | tail _ later =>
      obtain ⟨other, inside, same⟩ := ih readMore value later
      exact ⟨other, List.mem_cons_of_mem _ inside, same⟩

theorem Json.dict?_sound {α : Type} {read : Json → Option α} {json : Json} {dict : Dict α}
    (found : json.dict? read = some dict) :
    Dict.Ascending dict ∧ ∀ entry ∈ dict, ∃ json, read json = some entry.2 := by
  cases json with
  | object entries =>
    obtain ⟨pairs, readPairs, rfl⟩ := Option.map_eq_some_iff.mp found
    refine ⟨Dict.ascending_ofList pairs, fun entry member => ?_⟩
    obtain ⟨source, _, readEntry⟩ := exists_of_mapM readPairs entry (Dict.mem_ofList member)
    obtain ⟨value, readValue, rfl⟩ := Option.map_eq_some_iff.mp readEntry
    exact ⟨source.2, readValue⟩
  | _ => cases found

theorem CompiledObject.wellFormed_of_ofJson? {json : Json} {object : CompiledObject}
    (read : ofJson? json = some object) : object.WellFormed := by
  unfold ofJson? at read
  obtain ⟨⟨tag, body⟩, _, read⟩ := Option.bind_eq_some_iff.mp read
  dsimp only at read
  split at read
  · obtain ⟨record, _, read⟩ := Option.bind_eq_some_iff.mp read
    obtain ⟨key, _, read⟩ := Option.bind_eq_some_iff.mp read
    obtain ⟨source, sourceRead, read⟩ := Option.bind_eq_some_iff.mp read
    cases read
    obtain ⟨_, found⟩ := Record.exists_of_required sourceRead
    exact VariableSource.wellFormed_of_ofJson? found
  · obtain ⟨record, _, read⟩ := Option.bind_eq_some_iff.mp read
    obtain ⟨key, _, read⟩ := Option.bind_eq_some_iff.mp read
    obtain ⟨call, callRead, read⟩ := Option.bind_eq_some_iff.mp read
    cases read
    obtain ⟨_, found⟩ := Record.exists_of_required callRead
    exact CallSpec.wellFormed_of_ofJson? found
  · obtain ⟨record, _, read⟩ := Option.bind_eq_some_iff.mp read
    obtain ⟨fields, fieldsRead, read⟩ := Option.bind_eq_some_iff.mp read
    cases read
    obtain ⟨_, found⟩ := Record.exists_of_required fieldsRead
    obtain ⟨ordered, fieldsFound⟩ := Json.dict?_sound found
    refine ⟨ordered, fun entry member => ?_⟩
    obtain ⟨_, fieldFound⟩ := fieldsFound entry member
    exact ParamField.wellFormed_of_ofJson? fieldFound
  · obtain ⟨record, _, read⟩ := Option.bind_eq_some_iff.mp read
    obtain ⟨kwargs, kwargsRead, read⟩ := Option.bind_eq_some_iff.mp read
    cases read
    obtain ⟨_, found⟩ := Record.exists_of_required kwargsRead
    exact canonical_of_embedded? found
  · cases read

theorem CompiledManifest.ofObjects_ok {objects : List CompiledObject} {manifest : CompiledManifest}
    (accepted : ofObjects objects = .ok manifest) : manifest.objects = objects := by
  unfold ofObjects at accepted
  split at accepted
  · cases accepted
  · cases accepted
    rfl

/-- The objects of a dump are well-formed. -/
theorem CompiledManifest.ofDump_wellFormed {text : String} {manifest : CompiledManifest}
    (restored : ofDump text = .ok manifest) : manifest.WellFormed := by
  unfold ofDump at restored
  split at restored
  · cases restored
  · next json _ =>
    split at restored
    · cases restored
    · next objects found =>
      rw [WellFormed, ofObjects_ok restored]
      intro object member
      cases json with
      | array items =>
        obtain ⟨item, _, read⟩ := exists_of_mapM found object member
        exact CompiledObject.wellFormed_of_ofJson? read
      | _ => cases found

end ManifestGate
