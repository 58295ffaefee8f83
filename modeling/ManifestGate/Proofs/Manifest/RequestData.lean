import Mathlib.Data.List.Nodup
import ManifestGate.Proofs.Manifest.Blocks
import ManifestGate.Proofs.Manifest.Session
import ManifestGate.Proofs.Manifest.Step
import ManifestGate.Proofs.Path

/-!
# Who writes the request data

The request data are kept twice: live, and as the value of the object that has written them last. The
data block comes first and replaces them, the parameters add to them, and no other object touches
them. So from the parameters on the two copies agree, and a reference leads to the same in both.
-/

namespace ManifestGate

variable {σ τ : Type}

/-- What an object makes of the request data when its step succeeds. -/
inductive CompiledObject.Writes : CompiledObject → Dict Value → Dict Value → Prop where
  | replaces {entries : List (String × Json)} {before : Dict Value} :
      Writes (.var dataKey (.static (.object entries))) before (Value.ofEntries entries)
  /-- Every field stays, and the declared fields with a default come in. -/
  | adds {fields : Dict ParamField} {before after : Dict Value} :
      (∀ name value, Dict.get? before name = some value → Dict.get? after name = some value) →
      (∀ name, name ∈ Dict.keys after ↔ name ∈ Dict.keys before ∨
        name ∈ Dict.keys (fields.filter fun entry => entry.2.hasDefault)) →
      Writes (.params fields) before after
  | leaves {object : CompiledObject} {data : Dict Value} : (∀ source, object ≠ .var dataKey source) →
      (∀ fields, object ≠ .params fields) → Writes object data data

theorem Engine.step_writes {engine : Engine σ} {scope : Scope} {context : Context}
    {object : CompiledObject} {outcome : Outcome} {progress later : Progress σ}
    (ran : engine.step scope context object progress = (.ok outcome, later)) :
    object.Writes context.data outcome.data := by
  rcases step_ok ran with ⟨entries, rfl, replaced⟩ | ⟨fields, rfl, applied⟩ |
    ⟨notParams, notData, unchanged⟩
  · rw [replaced]
    exact .replaces
  · apply CompiledObject.Writes.adds
    · intro name value found
      exact step_keeps_data ran (by simp) found
    · exact mem_keys_applyParameters applied
  · rw [unchanged]
    exact .leaves notData notParams

/-- Only the data block and the parameters write. -/
theorem CompiledObject.Writes.unchanged {object : CompiledObject} {before after : Dict Value}
    (writes : object.Writes before after) (notData : object.key ≠ dataKey)
    (notParams : object.key ≠ paramsKey) : after = before := by
  cases writes with
  | replaces => exact absurd rfl notData
  | adds => exact absurd rfl notParams
  | leaves => rfl

theorem Engine.step_params_value {engine : Engine σ} {scope : Scope} {context : Context}
    {fields : Dict ParamField} {outcome : Outcome} {progress later : Progress σ}
    (ran : engine.step scope context (.params fields) progress = (.ok outcome, later)) :
    outcome.value = .map outcome.data := by
  obtain ⟨data, _, _, same⟩ := Action.bind_eq_ok_iff.mp ran
  cases same
  rfl

/-! ## Writers -/

namespace CompiledManifest

variable (manifest : CompiledManifest) {object other : CompiledObject}

theorem eq_of_key (member : object ∈ manifest.objects) (memberOther : other ∈ manifest.objects)
    (same : object.key = other.key) : object = other :=
  List.inj_on_of_nodup_map manifest.distinct member memberOther same

theorem nothing_before_data {earlier rest : List CompiledObject}
    (place : manifest.objects = earlier ++ object :: rest) (isData : object.key = dataKey) :
    earlier = [] := by
  cases earlier with
  | nil => rfl
  | cons first more =>
    have later : object ∈ manifest.objects.tail := by
      rw [place]
      exact List.mem_append_right _ List.mem_cons_self
    exact absurd isData (manifest.dataFirst object later)

theorem head_of_dataKey (member : object ∈ manifest.objects) (isData : object.key = dataKey) :
    manifest.objects.head? = some object := by
  obtain ⟨earlier, rest, place⟩ := List.append_of_mem member
  rw [place, manifest.nothing_before_data place isData]
  rfl

end CompiledManifest

section

variable {registry : Registry τ} {manifest : Json} {compiled : CompiledManifest}
  {object : CompiledObject}

theorem compile_data (accepted : compile registry manifest = .ok compiled)
    (member : object ∈ compiled.objects) (isData : object.key = dataKey) :
    ∃ entries, object = .var dataKey (.static (.object entries)) := by
  obtain ⟨key, valid, standsFor⟩ := compile_standsFor accepted object member
  have reference := standsFor.key.symm.trans isData
  obtain rfl : key = .data := (valid.reference_eq_iff (by simp)).mp reference
  cases standsFor
  exact ⟨_, rfl⟩

theorem compile_params (accepted : compile registry manifest = .ok compiled)
    (member : object ∈ compiled.objects) (isParams : object.key = paramsKey) :
    ∃ fields, object = .params fields := by
  obtain ⟨key, valid, standsFor⟩ := compile_standsFor accepted object member
  have reference := standsFor.key.symm.trans isParams
  obtain rfl : key = .params := (valid.reference_eq_iff (by simp)).mp reference
  cases standsFor
  exact ⟨_, rfl⟩

end

/-! ## The two copies -/

/-- If the parameters have been executed, their value is what the request data are. -/
def Context.ShowsData (context : Context) : Prop :=
  ∀ value, Dict.get? context.results paramsKey = some value → value = .map context.data

/-- A step of a session on a manifest that compiles keeps the two copies alike. The data block could
part them, but it finds nothing executed. -/
theorem RunStep.keeps_showsData {registry : Registry τ} {manifest : Json}
    {compiled : CompiledManifest} (accepted : compile registry manifest = .ok compiled)
    {engine : Engine σ} {scope : Scope} {step : RunStep} {outcome : Engine.Outcome}
    {before after : Progress σ}
    (ran : engine.step scope step.context step.object before = (.ok outcome, after))
    {earlier rest : List CompiledObject} (place : compiled.objects = earlier ++ step.object :: rest)
    (executed : Executed earlier step.context) (shows : step.context.ShowsData) :
    (outcome.settle step.context step.object.key).ShowsData := by
  intro value found
  have member : step.object ∈ compiled.objects := by
    rw [place]
    exact List.mem_append_right _ List.mem_cons_self
  by_cases isParams : step.object.key = paramsKey
  · obtain ⟨fields, same⟩ := compile_params accepted member isParams
    rw [same] at ran
    rw [isParams, Engine.Outcome.settle, Dict.get?_insert_self] at found
    rw [← Option.some.inj found]
    exact Engine.step_params_value ran
  · rw [Engine.Outcome.settle, Dict.get?_insert_of_ne _ _ isParams] at found
    rw [shows value found]
    have notData : step.object.key ≠ dataKey := by
      intro isData
      rw [compiled.nothing_before_data place isData] at executed
      have paramsRan : Dict.contains step.context.results paramsKey = true := by
        rw [Dict.contains, found]
        rfl
      cases (executed paramsKey).mp paramsRan
    have unchanged := (Engine.step_writes ran).unchanged notData isParams
    exact congrArg Value.map unchanged.symm

/-- Both references lead to one value, or both fail, and for lack of the same segment. -/
def Context.ResolvesAlike (context : Context) (shown live : String) : Prop :=
  (∃ value, context.resolve shown = .ok value ∧ context.resolve live = .ok value) ∨
    ∃ segment, context.resolve shown = .error (.reference (.noAttribute shown segment)) ∧
      context.resolve live = .error (.requestData (.missing segment live))

theorem Context.ShowsData.resolvesAlike {context : Context} (shows : context.ShowsData)
    (executed : Dict.contains context.results paramsKey = true) {shown live : String}
    {rest : List String} (segmentsShown : Path.segments shown = paramsKey :: rest)
    (segmentsLive : Path.segments live = dataKey :: rest) : context.ResolvesAlike shown live := by
  obtain ⟨value, found⟩ := Option.isSome_iff_exists.mp executed
  rw [shows value found] at found
  have different : paramsKey ≠ dataKey := by decide
  unfold ResolvesAlike resolve Path.head
  simp only [segmentsShown, segmentsLive, List.headD_cons, List.tail_cons, if_neg different,
    if_pos, found]
  cases (Value.map context.data).walk rest with
  | ok value => exact .inl ⟨value, rfl, rfl⟩
  | error segment => exact .inr ⟨segment, rfl, rfl⟩

/-- What a step does to the context: the data become what its object makes of them, or, if the step
fails, nothing has changed. -/
def RunStep.Accounted (step : RunStep) : Prop :=
  (∃ outcome, step.result = .ok outcome ∧ step.object.Writes step.context.data step.after.data) ∨
    ∃ cause, step.result = .error cause ∧ step.after = step.context

/-- Over a session on a manifest that compiles, with all attempts to resume it, the request data are
replaced by the data block alone, which is the first object, and added to by the parameters alone,
which are one object. In every context after the parameters, references below them lead to what the
same references below the request data lead to. -/
theorem request_data_single_writer {registry : Registry τ} {manifest : Json}
    {compiled : CompiledManifest} (accepted : compile registry manifest = .ok compiled)
    (data : Dict Value) (attempts : List (Attempt σ)) :
    let trail := compiled.sessionTrail (.start data) attempts
    Connected (.start data) trail (compiled.session (.start data) attempts) ∧
      (∀ step ∈ trail, step.object ∈ compiled.objects ∧ step.Accounted) ∧
      (∀ object ∈ compiled.objects, object.key = dataKey →
        compiled.objects.head? = some object ∧
          ∃ entries, object = .var dataKey (.static (.object entries))) ∧
      (∀ fields others, .params fields ∈ compiled.objects → .params others ∈ compiled.objects →
        others = fields) ∧
      ∀ context ∈ .start data :: trail.map RunStep.after,
        Dict.contains context.results paramsKey = true →
          context.ResolvesAlike paramsKey dataKey ∧ ∀ suffix,
            context.ResolvesAlike (paramsKey ++ "." ++ suffix) (dataKey ++ "." ++ suffix) := by
  intro trail
  have connected := compiled.session_connected (.start data) attempts
  obtain ⟨_, _, _, _, _, _, inOrder⟩ :=
    compiled.session_executed (Nat.zero_le _) (Executed.start data) attempts
  refine ⟨connected, ?_, ?_, ?_, ?_⟩
  · intro step member
    obtain ⟨earlier, rest, place, _⟩ := inOrder step member
    refine ⟨place ▸ List.mem_append_right _ List.mem_cons_self, ?_⟩
    cases result : step.result with
    | ok outcome =>
      obtain ⟨_, _, _, _, ran⟩ := compiled.session_ran member result
      refine .inl ⟨outcome, result, ?_⟩
      simp only [RunStep.after, result]
      exact Engine.step_writes ran
    | error cause => exact .inr ⟨cause, result, by rw [RunStep.after, result]⟩
  · intro object member isData
    exact ⟨compiled.head_of_dataKey member isData, compile_data accepted member isData⟩
  · intro fields others member memberOther
    cases compiled.eq_of_key member memberOther rfl
    rfl
  · have start : Context.ShowsData (.start data) := fun _ impossible => nomatch impossible
    intro context state executed
    have shows : context.ShowsData := by
      refine connected.invariant start ?_ context state
      intro step member shows
      obtain ⟨earlier, rest, place, before⟩ := inOrder step member
      cases result : step.result with
      | ok outcome =>
        obtain ⟨_, _, _, _, ran⟩ := compiled.session_ran member result
        rw [RunStep.after, result]
        exact RunStep.keeps_showsData accepted ran place before shows
      | error cause => rwa [RunStep.after, result]
    have noDot : '.' ∉ paramsKey.toList ∧ '.' ∉ dataKey.toList := by decide
    refine ⟨shows.resolvesAlike executed (Path.segments_of_no_dot noDot.1)
      (Path.segments_of_no_dot noDot.2), ?_⟩
    intro suffix
    exact shows.resolvesAlike executed (Path.segments_below noDot.1 suffix)
      (Path.segments_below noDot.2 suffix)

/-- One field given by the manifest and required, another one with a default. -/
def seededManifest : Json :=
  .array [.object [(dataKey, .object [("a", .string "x")])],
    .object [(paramsKey, .object [("a", .array [.bool true, .null]),
      ("b", .array [.bool false, .string "y"])])],
    .object [("var#c", .string "#__DATA__.b")]]

def seededObjects : List CompiledObject :=
  [.var dataKey (.static (.object [("a", .string "x")])),
    .params [("a", ⟨true, .none⟩), ("b", ⟨false, .literal (.string "y")⟩)],
    .var "c" (.reference "__DATA__.b")]

def seededAttempt : Attempt Unit where
  engine := ⟨⟨"R", []⟩, ⟨fun _ _ _ state => .pure (.ok .null) state, fun state => ("", state)⟩⟩
  scope := ⟨"", .anonymous, .bypass⟩
  progress := .start ()

/-- After an attempt the parameters have run, and below them stands what the request data hold. -/
theorem seeded_reads_alike : ∃ compiled,
    compile seededAttempt.engine.registry seededManifest = .ok compiled ∧
      let context := compiled.session (.start []) [seededAttempt]
      Dict.contains context.results paramsKey = true ∧ ∀ suffix,
        context.ResolvesAlike (paramsKey ++ "." ++ suffix) (dataKey ++ "." ++ suffix) := by
  let compiled : CompiledManifest := ⟨seededObjects, by decide, by decide⟩
  have accepted : compile seededAttempt.engine.registry seededManifest = .ok compiled := rfl
  obtain ⟨connected, _, _, _, alike⟩ := request_data_single_writer accepted [] [seededAttempt]
  exact ⟨compiled, accepted, rfl, (alike _ connected.final_mem rfl).2⟩

end ManifestGate
