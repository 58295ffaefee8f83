import ManifestGate.Proofs.Manifest.RoundTrip

/-!
# Pushing objects and reading dumps

A manifest grows by pushes, or it is read from a dump that lists all of its objects. A push looks
for the key among the objects so far, and whether there are any; reading a dump keeps the keys that
were seen and counts the objects. The two are kept together along the list: what is seen are the
keys of the manifest, and the count is zero as long as the manifest is empty. So both admit the same
lists and stop at the same fault.
-/

namespace ManifestGate

namespace CompiledManifest

/-! ## Pushes one after the other -/

/-- A push to a manifest that stays in use: what it reports, and the manifest afterwards. -/
def pushOne (manifest : CompiledManifest) (object : CompiledObject) :
    Except CompileError Unit × CompiledManifest :=
  match manifest.push object with
  | .ok extended => (.ok (), extended)
  | .error cause => (.error cause, manifest)

/-- What pushes one after the other report, also after one that fails, and the manifest at the end.
-/
def pushEach (manifest : CompiledManifest) :
    List CompiledObject → List (Except CompileError Unit) × CompiledManifest
  | [] => ([], manifest)
  | object :: rest =>
    let first := manifest.pushOne object
    let others := first.2.pushEach rest
    (first.1 :: others.1, others.2)

/-- What the first push that fails reports. -/
def firstError? (outcomes : List (Except CompileError Unit)) : Option CompileError :=
  outcomes.findSome? fun
    | .error cause => some cause
    | .ok _ => none

theorem firstError?_eq_none_iff {outcomes : List (Except CompileError Unit)} :
    firstError? outcomes = none ↔ ∀ outcome ∈ outcomes, outcome = .ok () := by
  rw [firstError?, List.findSome?_eq_none_iff]
  refine forall₂_congr fun outcome _ => ?_
  cases outcome <;> simp

section

variable {known : CompiledManifest} {object : CompiledObject}

/-- All that a push can do. -/
theorem pushOne_cases (known : CompiledManifest) (object : CompiledObject) :
    (object.key ∈ known.keys ∧
        known.pushOne object = (.error (.duplicateKey object.key), known)) ∨
      (object.key ∉ known.keys ∧ (object.key = dataKey ∧ known.objects ≠ []) ∧
        known.pushOne object = (.error .dataNotFirst, known)) ∨
      (object.key ∉ known.keys ∧ ¬(object.key = dataKey ∧ known.objects ≠ []) ∧
        ∃ extended, known.pushOne object = (.ok (), extended) ∧
          extended.objects = known.objects ++ [object]) := by
  by_cases taken : object.key ∈ known.keys
  · refine .inl ⟨taken, ?_⟩
    rw [pushOne, push, dif_pos taken]
  by_cases late : object.key = dataKey ∧ known.objects ≠ []
  · refine .inr (.inl ⟨taken, late, ?_⟩)
    rw [pushOne, push, dif_neg taken, dif_pos late]
  · refine .inr (.inr ⟨taken, late, ?_⟩)
    rw [pushOne, push, dif_neg taken, dif_neg late]
    exact ⟨_, rfl, rfl⟩

/-- A push fails for one of two causes, and a key that is taken comes first. -/
theorem pushOne_eq_error_iff {cause : CompileError} :
    (known.pushOne object).1 = .error cause ↔
      (object.key ∈ known.keys ∧ cause = .duplicateKey object.key) ∨
        (object.key ∉ known.keys ∧ object.key = dataKey ∧ known.objects ≠ [] ∧
          cause = .dataNotFirst) := by
  rcases pushOne_cases known object with ⟨taken, pushed⟩ | ⟨fresh, late, pushed⟩ |
    ⟨fresh, proper, extended, pushed, _⟩
  · simp [pushed, taken, eq_comm]
  · simp [pushed, late.1 ▸ fresh, late.1, late.2, eq_comm]
  · simp only [pushed, reduceCtorEq, fresh, false_and, false_or, false_iff]
    rintro ⟨_, isData, nonempty, _⟩
    exact proper ⟨isData, nonempty⟩

theorem pushOne_unchanged {cause : CompileError}
    (failed : (known.pushOne object).1 = .error cause) :
    (known.pushOne object).2 = known := by
  rcases pushOne_cases known object with ⟨_, pushed⟩ | ⟨_, _, pushed⟩ | ⟨_, _, extended, pushed, _⟩
  · rw [pushed]
  · rw [pushed]
  · rw [pushed] at failed
    cases failed

/-- The pushes after one that fails go on as if it had not been made. -/
theorem pushEach_skip {cause : CompileError} (failed : (known.pushOne object).1 = .error cause)
    (rest : List CompiledObject) :
    known.pushEach (object :: rest) =
      (.error cause :: (known.pushEach rest).1, (known.pushEach rest).2) := by
  rw [pushEach, failed, pushOne_unchanged failed]

end

/-! ## The same faults -/

/-- The first push that fails reports the first fault of the list. -/
theorem firstError?_pushEach {known : CompiledManifest} {index : Nat} {seen : List String}
    (sameKeys : ∀ key, key ∈ seen ↔ key ∈ known.keys) (counted : index = 0 ↔ known.objects = [])
    (objects : List CompiledObject) :
    firstError? (known.pushEach objects).1 = fault? index seen objects := by
  induction objects generalizing known index seen with
  | nil => rfl
  | cons object rest ih =>
    rw [fault?, pushEach]
    rcases pushOne_cases known object with ⟨taken, pushed⟩ | ⟨fresh, late, pushed⟩ |
      ⟨fresh, proper, extended, pushed, longer⟩
    · rw [pushed, if_pos ((sameKeys _).mpr taken)]
      rfl
    · rw [pushed, if_neg ((sameKeys _).not.mpr fresh), if_pos ⟨late.1, counted.not.mpr late.2⟩]
      rfl
    · rw [pushed, if_neg ((sameKeys _).not.mpr fresh),
        if_neg fun faulty => proper ⟨faulty.1, counted.not.mp faulty.2⟩]
      refine ih ?_ ?_
      · intro key
        rw [keys, longer, List.map_append, List.mem_append, List.mem_cons, sameKeys key, or_comm]
        simp [keys]
      · simp [longer]

/-- Pushes that all succeed add their objects in order. -/
theorem objects_pushEach {known : CompiledManifest} {objects : List CompiledObject}
    (passed : ∀ outcome ∈ (known.pushEach objects).1, outcome = .ok ()) :
    (known.pushEach objects).2.objects = known.objects ++ objects := by
  induction objects generalizing known with
  | nil => exact (List.append_nil _).symm
  | cons object rest ih =>
    rw [pushEach] at passed ⊢
    obtain ⟨first, others⟩ := List.forall_mem_cons.mp passed
    rcases pushOne_cases known object with ⟨_, pushed⟩ | ⟨_, _, pushed⟩ |
      ⟨_, _, extended, pushed, longer⟩
    · rw [pushed] at first
      cases first
    · rw [pushed] at first
      cases first
    · rw [pushed] at others ⊢
      rw [ih others, longer, List.append_assoc]
      rfl

/-! ## Reading a list of objects -/

/-- The objects may stand in one manifest: no key stands twice, and the request data stand nowhere
but at the start. -/
structure Admissible (objects : List CompiledObject) : Prop where
  distinct : (objects.map CompiledObject.key).Nodup
  dataFirst : ∀ place object, objects[place]? = some object → object.key = dataKey → place = 0

theorem dataFirst_iff {objects : List CompiledObject} :
    (∀ object ∈ objects.tail, object.key ≠ dataKey) ↔
      ∀ place object, objects[place]? = some object → object.key = dataKey → place = 0 := by
  cases objects with
  | nil => simp
  | cons first rest =>
    rw [List.tail_cons]
    constructor
    · intro apart place object found isData
      cases place with
      | zero => rfl
      | succ place => exact absurd isData (apart object (List.mem_of_getElem? found))
    · intro first object member isData
      obtain ⟨place, found⟩ := List.mem_iff_getElem?.mp member
      exact absurd (first (place + 1) object found isData) (Nat.succ_ne_zero place)

theorem ofObjects_eq_ok_iff {objects : List CompiledObject} {manifest : CompiledManifest} :
    ofObjects objects = .ok manifest ↔ manifest.objects = objects := by
  constructor
  · intro accepted
    unfold ofObjects at accepted
    split at accepted
    · cases accepted
    · cases accepted
      rfl
  · rintro rfl
    exact ofObjects_objects manifest

theorem exists_ofObjects_iff {objects : List CompiledObject} :
    (∃ manifest, ofObjects objects = .ok manifest) ↔ Admissible objects := by
  simp only [ofObjects_eq_ok_iff]
  constructor
  · rintro ⟨manifest, rfl⟩
    exact ⟨manifest.distinct, dataFirst_iff.mp manifest.dataFirst⟩
  · rintro ⟨distinct, dataFirst⟩
    exact ⟨⟨objects, distinct, dataFirst_iff.mpr dataFirst⟩, rfl⟩

theorem ofObjects_eq_error_iff {objects : List CompiledObject} {cause : CompileError} :
    ofObjects objects = .error cause ↔ firstError? (empty.pushEach objects).1 = some cause := by
  have sameFault : firstError? (empty.pushEach objects).1 = fault? 0 [] objects :=
    firstError?_pushEach (fun _ => Iff.rfl) (by simp [empty]) objects
  rw [sameFault]
  unfold ofObjects
  split
  · next found => simp [found]
  · next found => simp [found]

theorem exists_ofObjects_iff_passed {objects : List CompiledObject} :
    (∃ manifest, ofObjects objects = .ok manifest) ↔
      ∀ outcome ∈ (empty.pushEach objects).1, outcome = .ok () := by
  rw [← firstError?_eq_none_iff, Option.eq_none_iff_forall_ne_some]
  simp only [ne_eq, ← ofObjects_eq_error_iff]
  cases ofObjects objects <;> simp

/-- The objects that the text of a dump lists. -/
def listed? (text : String) : Option (List CompiledObject) :=
  match Json.read text with
  | .ok json => objectsOfJson? json
  | .error _ => none

theorem ofDump_of_listed {text : String} {objects : List CompiledObject}
    (listed : listed? text = some objects) : ofDump text = ofObjects objects := by
  unfold listed? at listed
  unfold ofDump
  split at listed
  · next json readText => simp only [readText, listed]
  · cases listed

/-- The text in which well-formed objects are written lists them, whether or not they may stand in
one manifest. -/
theorem listed?_pretty {objects : List CompiledObject}
    (sound : ∀ object ∈ objects, object.WellFormed)
    (shallow : (Json.array (objects.map CompiledObject.toJson)).nesting < Json.nestingLimit)
    (readBack : ∀ n ∈ (Json.array (objects.map CompiledObject.toJson)).numbers, n.ReadsBack) :
    listed? (Json.array (objects.map CompiledObject.toJson)).pretty = some objects := by
  have objectsBack : objectsOfJson? (.array (objects.map CompiledObject.toJson)) = some objects :=
    mapM_map_eq_some fun object member => CompiledObject.ofJson?_toJson (sound object member)
  rw [listed?, Json.read_pretty readBack, if_pos shallow]
  exact objectsBack

end CompiledManifest

/-- A list of objects is read from a dump exactly if it can be pushed object by object onto the
empty manifest, and this is so exactly if no key stands twice and the request data stand nowhere but
at the start. Both ways then lead to the manifest of just these objects. Otherwise both report the
same error, that of the first push that fails. A push fails for a key that is taken or else for late
request data; it leaves the manifest as it was, and the pushes after it go on as if it had not been
made. -/
theorem dump_read_iff_pushed {text : String} {objects : List CompiledObject}
    (listed : CompiledManifest.listed? text = some objects) :
    let pushes := CompiledManifest.empty.pushEach objects
    ((∃ manifest, CompiledManifest.ofDump text = .ok manifest) ↔
      ∀ outcome ∈ pushes.1, outcome = .ok ()) ∧
    ((∃ manifest, CompiledManifest.ofDump text = .ok manifest) ↔
      CompiledManifest.Admissible objects) ∧
    (∀ manifest, CompiledManifest.ofDump text = .ok manifest →
      manifest.objects = objects ∧ pushes.2 = manifest) ∧
    (∀ cause, CompiledManifest.ofDump text = .error cause ↔
      CompiledManifest.firstError? pushes.1 = some cause) ∧
    ∀ (known : CompiledManifest) (object : CompiledObject) (cause : CompileError),
      ((known.pushOne object).1 = .error cause ↔
        (object.key ∈ known.keys ∧ cause = .duplicateKey object.key) ∨
          (object.key ∉ known.keys ∧ object.key = dataKey ∧ known.objects ≠ [] ∧
            cause = .dataNotFirst)) ∧
      ((known.pushOne object).1 = .error cause → (known.pushOne object).2 = known ∧
        ∀ rest, known.pushEach (object :: rest) =
          (.error cause :: (known.pushEach rest).1, (known.pushEach rest).2)) := by
  intro pushes
  rw [CompiledManifest.ofDump_of_listed listed]
  refine ⟨CompiledManifest.exists_ofObjects_iff_passed, CompiledManifest.exists_ofObjects_iff, ?_,
    fun cause => CompiledManifest.ofObjects_eq_error_iff, ?_⟩
  · intro manifest accepted
    have passed := CompiledManifest.exists_ofObjects_iff_passed.mp ⟨manifest, accepted⟩
    have same := CompiledManifest.ofObjects_eq_ok_iff.mp accepted
    refine ⟨same, CompiledManifest.ext ?_⟩
    rw [CompiledManifest.objects_pushEach passed, same]
    rfl
  · intro known object cause
    refine ⟨CompiledManifest.pushOne_eq_error_iff, ?_⟩
    intro failed
    exact ⟨CompiledManifest.pushOne_unchanged failed, CompiledManifest.pushEach_skip failed⟩

/-- A response, and a variable that goes by the key of responses. -/
def clashingObjects : List CompiledObject :=
  [.var dataKey (.static (.object [])), .response (.string "a"), .var responseKey (.static .null),
    .var "b" (.static (.bool true))]

/-- The text of the objects lists them, and both ways stop at the variable, which a list of keys for
each kind of object would let pass. -/
theorem clashing_objects_refused :
    let text := (Json.array (clashingObjects.map CompiledObject.toJson)).pretty
    let pushes := CompiledManifest.empty.pushEach clashingObjects
    CompiledManifest.listed? text = some clashingObjects ∧
      CompiledManifest.ofDump text = .error (.duplicateKey "response") ∧
      CompiledManifest.firstError? pushes.1 = some (.duplicateKey "response") := by
  intro text pushes
  have sound : ∀ object ∈ clashingObjects, object.WellFormed := by
    simp only [clashingObjects, List.forall_mem_cons]
    exact ⟨⟨List.Pairwise.nil, trivial⟩, trivial, trivial, trivial, List.forall_mem_nil _⟩
  have listed : CompiledManifest.listed? text = some clashingObjects :=
    CompiledManifest.listed?_pretty sound (by decide) (by simp [clashingObjects, Json.numbers,
      Json.numbersOfItems, Json.numbersOfEntries, CompiledObject.toJson, VariableSource.toJson])
  have failed : CompiledManifest.firstError? pushes.1 = some (.duplicateKey "response") := rfl
  obtain ⟨_, _, _, sameError, _⟩ := dump_read_iff_pushed listed
  exact ⟨listed, (sameError _).mpr failed, failed⟩

end ManifestGate
