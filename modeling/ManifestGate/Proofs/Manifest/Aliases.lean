import Mathlib.Logic.Relation
import ManifestGate.Proofs.Manifest.RequestData

/-!
# Aliases

A variable whose source is a reference keeps the value that the reference led to. Executed values never
change, so below the variable stands for ever what stands below the reference; for a reference into the
request data that is so until the parameters add to them. A reference may therefore be followed
through any number of such variables and leads to the same.
-/

namespace ManifestGate

variable {σ τ : Type}

namespace Context

/-! ## Where references lead -/

/-- What a reference starts from: the live request data, or the value of an executed object. -/
def standing? (context : Context) (head : String) : Option Value :=
  if head = dataKey then some (.map context.data) else Dict.get? context.results head

/-- How a reference fails that lacks a segment. -/
def lacking (reference segment : String) : ManifestError :=
  if Path.head reference = dataKey then .requestData (.missing segment reference)
  else .reference (.noAttribute reference segment)

/-- Both references lead to one value, or both lack the same segment. -/
def LeadsAlike (context : Context) (one other : String) : Prop :=
  (∃ value, context.resolve one = .ok value ∧ context.resolve other = .ok value) ∨
    ∃ segment, context.resolve one = .error (lacking one segment) ∧
      context.resolve other = .error (lacking other segment)

variable {context : Context}

/-- References into the request data and references to objects are followed in one way. -/
theorem resolve_eq_walk {reference : String} {start : Value}
    (found : context.standing? (Path.head reference) = some start) :
    context.resolve reference =
      (start.walk (Path.segments reference).tail).mapError (lacking reference) := by
  unfold standing? at found
  unfold resolve lacking
  by_cases isData : Path.head reference = dataKey
  · rw [if_pos isData] at found
    cases found
    simp only [isData, if_true]
  · rw [if_neg isData] at found
    simp only [isData, if_false, found]

theorem resolve_eq_ok_iff {reference : String} {value : Value} :
    context.resolve reference = .ok value ↔
      ∃ start, context.standing? (Path.head reference) = some start ∧
        start.walk (Path.segments reference).tail = .ok value := by
  cases found : context.standing? (Path.head reference) with
  | some start =>
    rw [resolve_eq_walk found, Except.mapError_eq_ok_iff]
    simp
  | none =>
    refine iff_of_false ?_ (by simp)
    unfold standing? at found
    split at found
    · cases found
    · next notData =>
      simp [resolve, notData, found]

/-- Where a reference leads somewhere, a longer one goes on from there. -/
theorem resolve_below {reference longer : String} {value : Value} {rest : List String}
    (resolved : context.resolve reference = .ok value)
    (segments : Path.segments longer = Path.segments reference ++ rest) :
    context.resolve longer = (value.walk rest).mapError (lacking longer) := by
  obtain ⟨start, found, walked⟩ := resolve_eq_ok_iff.mp resolved
  obtain ⟨head, parts, cut⟩ := List.exists_cons_of_ne_nil (Path.segments_ne_nil reference)
  have sameHead : Path.head longer = Path.head reference := by
    rw [Path.head, Path.head, segments, cut]
    rfl
  rw [cut] at segments walked
  have further : start.walk (Path.segments longer).tail = value.walk rest := by
    rw [segments, List.cons_append, List.tail_cons, Value.walk_append]
    rw [List.tail_cons] at walked
    rw [walked]
    rfl
  rw [resolve_eq_walk (sameHead ▸ found), further]

theorem LeadsAlike.trans {first second third : String} (before : context.LeadsAlike first second)
    (after : context.LeadsAlike second third) : context.LeadsAlike first third := by
  cases before with
  | inl found =>
    obtain ⟨value, resolved, resolvedSecond⟩ := found
    cases after with
    | inl foundToo =>
      obtain ⟨other, resolvedToo, resolvedThird⟩ := foundToo
      rw [resolvedSecond] at resolvedToo
      cases resolvedToo
      exact .inl ⟨value, resolved, resolvedThird⟩
    | inr lacks =>
      obtain ⟨segment, impossible, _⟩ := lacks
      rw [resolvedSecond] at impossible
      cases impossible
  | inr lacks =>
    obtain ⟨segment, failed, failedSecond⟩ := lacks
    cases after with
    | inl found =>
      obtain ⟨value, impossible, _⟩ := found
      rw [failedSecond] at impossible
      cases impossible
    | inr lacksToo =>
      obtain ⟨other, failedToo, failedThird⟩ := lacksToo
      rw [failedSecond] at failedToo
      have same : segment = other := by
        unfold lacking at failedToo
        split at failedToo <;> cases failedToo <;> rfl
      exact .inr ⟨segment, failed, same ▸ failedThird⟩

/-- The variable holds what the reference leads to. -/
structure Holds (context : Context) (key target : String) : Prop where
  notData : key ≠ dataKey
  found : ∃ value, Dict.get? context.results key = some value ∧ context.resolve target = .ok value

/-- What stands below the variable stands below the reference. -/
theorem Holds.leadsAlike {key target : String} (holds : context.Holds key target)
    {one other : String} {rest : List String} (segments : Path.segments one = key :: rest)
    (segmentsOther : Path.segments other = Path.segments target ++ rest) :
    context.LeadsAlike one other := by
  obtain ⟨value, found, resolved⟩ := holds.found
  have start : context.standing? (Path.head one) = some value := by
    rw [Path.head, segments, List.headD_cons, standing?, if_neg holds.notData]
    exact found
  have below := resolve_eq_walk start
  rw [segments, List.tail_cons] at below
  unfold LeadsAlike
  rw [below, resolve_below resolved segmentsOther]
  cases value.walk rest with
  | ok inner => exact .inl ⟨inner, rfl, rfl⟩
  | error segment => exact .inr ⟨segment, rfl, rfl⟩

/-! ## What a step leaves standing -/

/-- A fresh object that leaves the request data alone leaves everything standing. -/
theorem standing?_settle {outcome : Engine.Outcome} {key head : String} {start : Value}
    (fresh : Dict.contains context.results key = false)
    (unchanged : head = dataKey → outcome.data = context.data)
    (found : context.standing? head = some start) :
    (outcome.settle context key).standing? head = some start := by
  unfold standing? Engine.Outcome.settle at *
  by_cases isData : head = dataKey
  · rw [if_pos isData] at found ⊢
    rw [unchanged isData]
    exact found
  · rw [if_neg isData] at found ⊢
    have different : key ≠ head := by
      intro same
      rw [same, Dict.contains, found] at fresh
      cases fresh
    rw [Dict.get?_insert_of_ne _ _ different]
    exact found

theorem resolve_settle {outcome : Engine.Outcome} {key reference : String} {value : Value}
    (fresh : Dict.contains context.results key = false)
    (unchanged : Path.head reference = dataKey → outcome.data = context.data)
    (resolved : context.resolve reference = .ok value) :
    (outcome.settle context key).resolve reference = .ok value := by
  obtain ⟨start, found, walked⟩ := resolve_eq_ok_iff.mp resolved
  exact resolve_eq_ok_iff.mpr ⟨start, standing?_settle fresh unchanged found, walked⟩

end Context

/-- An executed alias is a variable that refers to something. If it refers into the request data, no
parameters that come after it have been executed. -/
structure CompiledManifest.Alias (manifest : CompiledManifest) (context : Context)
    (key target : String) : Prop where
  member : .var key (.reference target) ∈ manifest.objects
  executed : Dict.contains context.results key = true
  current : Path.head target = dataKey → ∀ fields,
    [.var key (.reference target), .params fields].Sublist manifest.objects →
      Dict.contains context.results paramsKey = false

/-- One reference becomes the other if the alias that it starts with is put for what it stands for. -/
inductive CompiledManifest.Redirects (manifest : CompiledManifest) (context : Context) :
    String → String → Prop where
  | follow {key target one other : String} {rest : List String} :
      manifest.Alias context key target → Path.segments one = key :: rest →
      Path.segments other = Path.segments target ++ rest → Redirects manifest context one other

/-- Each alias holds what it refers to. -/
def CompiledManifest.AliasesHold (manifest : CompiledManifest) (context : Context) : Prop :=
  ∀ key target, manifest.Alias context key target → context.Holds key target

/-! ## Runs keep aliases -/

theorem Engine.step_alias {engine : Engine σ} {scope : Scope} {context : Context}
    {key target : String} {outcome : Outcome} {progress later : Progress σ}
    (ran : engine.step scope context (.var key (.reference target)) progress =
      (.ok outcome, later)) :
    key ≠ dataKey ∧ outcome.data = context.data ∧ context.resolve target = .ok outcome.value := by
  unfold step at ran
  by_cases isData : key = dataKey
  · simp only [isData, if_true] at ran
    cases ran
  · simp only [isData, if_false] at ran
    obtain ⟨value, _, resolved, same⟩ := Action.bind_eq_ok_iff.mp ran
    cases same
    refine ⟨isData, rfl, ?_⟩
    change Action.ofExcept id (context.resolve target) progress = _ at resolved
    cases leads : context.resolve target with
    | ok found =>
      rw [leads] at resolved
      cases resolved
      rfl
    | error cause =>
      rw [leads] at resolved
      cases resolved

namespace CompiledManifest

variable {manifest : CompiledManifest} {object : CompiledObject} {earlier rest : List CompiledObject}
  {context : Context}

/-- Where exactly the objects before it are executed, an object is still to run. -/
theorem fresh_of_place (place : manifest.objects = earlier ++ object :: rest)
    (executed : Executed earlier context) : Dict.contains context.results object.key = false := by
  have distinct := manifest.distinct
  rw [place, List.map_append, List.nodup_append] at distinct
  rw [Bool.eq_false_iff, ne_eq, executed object.key]
  intro known
  exact distinct.2.2 _ known _ List.mem_cons_self rfl

theorem mem_earlier_of_executed (place : manifest.objects = earlier ++ object :: rest)
    (executed : Executed earlier context) {other : CompiledObject}
    (member : other ∈ manifest.objects) (ran : Dict.contains context.results other.key = true) :
    other ∈ earlier := by
  obtain ⟨found, inside, same⟩ := List.mem_map.mp ((executed other.key).mp ran)
  have whole : found ∈ manifest.objects := by
    rw [place]
    exact List.mem_append_left _ inside
  rwa [← manifest.eq_of_key whole member same]

/-- After an alias into the request data, nothing but the parameters writes to them. -/
theorem unchanged_after_alias {key target : String} {outcome : Engine.Outcome}
    (place : manifest.objects = earlier ++ object :: rest) (executed : Executed earlier context)
    (isAlias : manifest.Alias (outcome.settle context object.key) key target)
    (before : Dict.contains context.results key = true)
    (writes : object.Writes context.data outcome.data) (intoData : Path.head target = dataKey) :
    outcome.data = context.data := by
  have inside := mem_earlier_of_executed place executed isAlias.member before
  generalize outcome.data = written at writes
  cases writes with
  | replaces =>
    have nothing := manifest.nothing_before_data place rfl
    rw [nothing] at inside
    cases inside
  | @adds fields =>
    have ordered : [.var key (.reference target), .params fields].Sublist manifest.objects := by
      rw [place]
      exact (List.singleton_sublist.mpr inside).append
        ((List.nil_sublist rest).cons_cons (.params fields))
    have later := isAlias.current intoData fields ordered
    rw [Bool.eq_false_iff] at later
    exact absurd ((Dict.contains_insert _ _ _ _).mpr (.inl rfl)) later
  | leaves => rfl

theorem AliasesHold.settle {engine : Engine σ} {scope : Scope} {outcome : Engine.Outcome}
    {progress later : Progress σ} (hold : manifest.AliasesHold context)
    (ran : engine.step scope context object progress = (.ok outcome, later))
    (place : manifest.objects = earlier ++ object :: rest) (executed : Executed earlier context) :
    manifest.AliasesHold (outcome.settle context object.key) := by
  intro key target isAlias
  have fresh := fresh_of_place place executed
  by_cases own : object.key = key
  · have member : object ∈ manifest.objects := by
      rw [place]
      exact List.mem_append_right _ List.mem_cons_self
    obtain rfl := manifest.eq_of_key member isAlias.member own
    obtain ⟨notData, unchanged, resolved⟩ := Engine.step_alias ran
    refine ⟨notData, outcome.value, ?_, ?_⟩
    · exact Dict.get?_insert_self _ _ _
    · exact Context.resolve_settle fresh (fun _ => unchanged) resolved
  · have before : Dict.contains context.results key = true := by
      have after := (Dict.contains_insert _ _ _ _).mp isAlias.executed
      exact after.resolve_left (Ne.symm own)
    have earlierAlias : manifest.Alias context key target := by
      refine ⟨isAlias.member, before, ?_⟩
      intro intoData fields ordered
      have later := isAlias.current intoData fields ordered
      rw [Bool.eq_false_iff] at later ⊢
      intro known
      exact later ((Dict.contains_insert _ _ _ _).mpr (.inr known))
    obtain ⟨notData, value, found, resolved⟩ := hold key target earlierAlias
    refine ⟨notData, value, ?_, ?_⟩
    · exact (Dict.get?_insert_of_ne _ _ own).trans found
    · apply Context.resolve_settle fresh _ resolved
      exact unchanged_after_alias place executed isAlias before (Engine.step_writes ran)

theorem Redirects.leadsAlike (hold : manifest.AliasesHold context) {one other : String}
    (redirects : manifest.Redirects context one other) : context.LeadsAlike one other := by
  cases redirects with
  | follow isAlias segments segmentsOther =>
    exact (hold _ _ isAlias).leadsAlike segments segmentsOther

theorem leadsAlike_of_chain (hold : manifest.AliasesHold context) {one other : String}
    (chain : Relation.TransGen (manifest.Redirects context) one other) :
    context.LeadsAlike one other := by
  induction chain with
  | single redirects => exact redirects.leadsAlike hold
  | tail _ redirects ih => exact ih.trans (redirects.leadsAlike hold)

end CompiledManifest

/-- In every context of a session, each alias holds what it refers to. -/
theorem CompiledManifest.session_aliasesHold (manifest : CompiledManifest) (data : Dict Value)
    (attempts : List (Attempt σ)) :
    ∀ context ∈ .start data :: (manifest.sessionTrail (.start data) attempts).map RunStep.after,
      manifest.AliasesHold context := by
  have connected := manifest.session_connected (.start data) attempts
  obtain ⟨_, _, _, _, _, _, inOrder⟩ :=
    manifest.session_executed (Nat.zero_le _) (Executed.start data) attempts
  have start : manifest.AliasesHold (.start data) := by
    intro key target isAlias
    cases isAlias.executed
  apply connected.invariant start
  intro step member hold
  cases result : step.result with
  | error cause => rwa [RunStep.after, result]
  | ok outcome =>
    obtain ⟨_, _, _, _, ran⟩ := manifest.session_ran member result
    obtain ⟨earlier, rest, place, executed⟩ := inOrder step member
    rw [RunStep.after, result]
    exact hold.settle ran place executed

theorem compile_key_no_dot {registry : Registry τ} {json : Json} {manifest : CompiledManifest}
    (accepted : compile registry json = .ok manifest) :
    ∀ object ∈ manifest.objects, '.' ∉ object.key.toList := by
  intro object member
  obtain ⟨key, valid, standsFor⟩ := compile_standsFor accepted object member
  rw [standsFor.key]
  exact valid.reference_no_dot

/-- Throughout a session a chain of aliases leads where its end leads: to the same value, or both lack
the same segment. So does a path below one alias and the same path below its reference. No reference
leads to a key with a dot in it, and no manifest that is compiled has one. -/
theorem aliases_lead_alike (manifest : CompiledManifest) (data : Dict Value)
    (attempts : List (Attempt σ)) :
    (∀ context ∈ .start data :: (manifest.sessionTrail (.start data) attempts).map RunStep.after,
      (∀ one other, Relation.TransGen (manifest.Redirects context) one other →
        context.LeadsAlike one other) ∧
      ∀ key target, manifest.Alias context key target → '.' ∉ key.toList →
        context.LeadsAlike key target ∧
          ∀ suffix, context.LeadsAlike (key ++ "." ++ suffix) (target ++ "." ++ suffix)) ∧
    ∀ (registry : Registry τ) (json : Json), compile registry json = .ok manifest →
      ∀ object ∈ manifest.objects, '.' ∉ object.key.toList := by
  refine ⟨?_, fun _ _ accepted => compile_key_no_dot accepted⟩
  intro context member
  have hold := manifest.session_aliasesHold data attempts context member
  refine ⟨fun _ _ => CompiledManifest.leadsAlike_of_chain hold, ?_⟩
  intro key target isAlias noDot
  have holds := hold key target isAlias
  constructor
  · exact holds.leadsAlike (Path.segments_of_no_dot noDot) (List.append_nil _).symm
  · intro suffix
    exact holds.leadsAlike (Path.segments_below noDot suffix) (Path.segments_append_dot _ _)

/-- A variable that refers to another one, which refers into the request data. -/
def chainedManifest : Json :=
  .array [.object [(dataKey, .object [("user", .object [("name", .string "x")])])],
    .object [(paramsKey, .object [("user", .array [.bool true, .null])])],
    .object [("var#b", .string "#__DATA__.user")],
    .object [("var#c", .string "#b.name")]]

def chainedObjects : List CompiledObject :=
  [.var dataKey (.static (.object [("user", .object [("name", .string "x")])])),
    .params [("user", ⟨true, .none⟩)],
    .var "b" (.reference "__DATA__.user"),
    .var "c" (.reference "b.name")]

/-- After an attempt both references are followed through, to the name in the request data. -/
theorem chained_lead_alike : ∃ compiled,
    compile seededAttempt.engine.registry chainedManifest = .ok compiled ∧
      let context := compiled.session (.start []) [seededAttempt]
      context.resolve "c" = .ok (.string "x") ∧ ∀ suffix,
        context.LeadsAlike ("c" ++ "." ++ suffix) ("b.name" ++ "." ++ suffix) ∧
          context.LeadsAlike ("c" ++ "." ++ suffix) ("__DATA__.user.name" ++ "." ++ suffix) := by
  let compiled : CompiledManifest := ⟨chainedObjects, by decide, by decide⟩
  have accepted : compile seededAttempt.engine.registry chainedManifest = .ok compiled := rfl
  refine ⟨compiled, accepted, ?_⟩
  intro context
  have connected := compiled.session_connected (.start []) [seededAttempt]
  obtain ⟨alike, noDots⟩ := aliases_lead_alike compiled [] [seededAttempt]
  obtain ⟨chains, singly⟩ := alike context connected.final_mem
  have first : compiled.Alias context "b" "__DATA__.user" := by
    refine ⟨.tail _ (.tail _ (.head _)), rfl, ?_⟩
    intro _ fields ordered
    have keys : ["b", paramsKey].Sublist [dataKey, paramsKey, "b", "c"] :=
      ordered.map CompiledObject.key
    exact absurd keys (by decide)
  have second : compiled.Alias context "c" "b.name" := by
    refine ⟨.tail _ (.tail _ (.tail _ (.head _))), rfl, ?_⟩
    intro intoData
    exact absurd intoData (by decide)
  have noDot : '.' ∉ "c".toList := noDots _ _ accepted _ second.member
  refine ⟨rfl, fun suffix => ⟨(singly _ _ second noDot).2 suffix, chains _ _ ?_⟩⟩
  have one : compiled.Redirects context ("c" ++ "." ++ suffix) ("b.name" ++ "." ++ suffix) :=
    .follow second (Path.segments_below noDot suffix) (Path.segments_append_dot _ _)
  have segments : Path.segments ("b.name" ++ "." ++ suffix) = "b" :: "name" :: Path.segments suffix :=
    Path.segments_append_dot _ _
  exact .tail (.single one) (.follow first segments (Path.segments_append_dot _ _))

end ManifestGate
