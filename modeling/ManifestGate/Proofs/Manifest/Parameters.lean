import Mathlib.Data.List.Nodup
import ManifestGate.Proofs.Manifest.CallSites
import ManifestGate.Proofs.Action

/-!
# Parameters

The parameters refuse request data that no field declares, and fill the fields that the data lack.
Defaults are evaluated one after the other, all of them on the data as supplied, and go in when the
last one has been found. So no default sees another, and a failure leaves the data as they were.
-/

namespace ManifestGate

variable {σ : Type}

namespace Parameters

/-- All data are declared, and a required field that they lack has a default. -/
structure Admits (fields : Dict ParamField) (data : Dict Value) : Prop where
  declared : ∀ name ∈ Dict.keys data, name ∈ Dict.keys fields
  supplied : ∀ entry ∈ fields, entry.1 ∉ Dict.keys data →
    entry.2.required = true → entry.2.hasDefault = true

/-- The fields that a default stands in for: the data lack them, and they have one. -/
def due (fields : Dict ParamField) (data : Dict Value) : Dict ParamField :=
  fields.filter fun entry => !Dict.contains data entry.1 && entry.2.hasDefault

/-- The same names, declared in another way where the data supply them. -/
def redeclare (fields : Dict ParamField) (data : Dict Value) (other : String → ParamField) :
    Dict ParamField :=
  fields.map fun entry =>
    (entry.1, if Dict.contains data entry.1 then other entry.1 else entry.2)

/-- Nothing has come in but the gained entries, one for each field that is due, and nothing that was
supplied is lost or changed. -/
structure Completes (fields : Dict ParamField) (before after : Dict Value)
    (gained : List (String × Value)) : Prop where
  ordered : Dict.Ascending after
  entries : after.Perm (before ++ gained)
  names : Dict.keys gained = Dict.keys (due fields before)
  /-- Optional fields without a default stay out. -/
  absent : ∀ entry ∈ fields, entry.1 ∉ Dict.keys before → entry.2.hasDefault = false →
    entry.1 ∉ Dict.keys after

variable {fields : Dict ParamField} {before after : Dict Value} {gained : List (String × Value)}

theorem keys_redeclare (fields : Dict ParamField) (data : Dict Value)
    (other : String → ParamField) :
    Dict.keys (redeclare fields data other) = Dict.keys fields := by
  rw [Dict.keys, redeclare, List.map_map]
  rfl

theorem mem_due_iff {entry : String × ParamField} :
    entry ∈ due fields before ↔
      entry ∈ fields ∧ entry.1 ∉ Dict.keys before ∧ entry.2.hasDefault = true := by
  rw [due, List.mem_filter, Bool.and_eq_true, Bool.not_eq_true', Bool.eq_false_iff, ne_eq,
    Dict.contains_iff_mem_keys]

theorem completes_insertAll (orderedFields : Dict.Ascending fields)
    (orderedData : Dict.Ascending before)
    (names : Dict.keys gained = Dict.keys (due fields before)) :
    Completes fields before (Dict.insertAll before gained) gained := by
  have fresh : ∀ name ∈ Dict.keys gained, name ∉ Dict.keys before := by
    rw [names]
    intro name member
    obtain ⟨entry, isDue, rfl⟩ := List.mem_map.mp member
    exact (mem_due_iff.mp isDue).2.1
  have distinct : (Dict.keys gained).Nodup := by
    rw [names]
    exact Dict.Ascending.nodup_keys (List.Pairwise.filter _ orderedFields)
  refine ⟨Dict.ascending_insertAll orderedData gained, Dict.insertAll_perm distinct fresh, names,
    ?_⟩
  intro entry declared lacking noDefault inside
  rcases (Dict.contains_insertAll before gained entry.1).mp (Dict.contains_iff_mem_keys.mpr inside)
    with supplied | filled
  · exact lacking (Dict.contains_iff_mem_keys.mp supplied)
  · rw [names] at filled
    obtain ⟨other, isDue, same⟩ := List.mem_map.mp filled
    obtain ⟨otherDeclared, _, withDefault⟩ := mem_due_iff.mp isDue
    obtain rfl : other = entry :=
      List.inj_on_of_nodup_map orderedFields.nodup_keys otherDeclared declared same
    rw [noDefault] at withDefault
    cases withDefault

theorem Completes.mem_keys_iff (completes : Completes fields before after gained) {name : String} :
    name ∈ Dict.keys after ↔ name ∈ Dict.keys before ∨ name ∈ Dict.keys (due fields before) := by
  have names := (completes.entries.map Prod.fst).mem_iff (a := name)
  rwa [List.map_append, List.mem_append, ← Dict.keys, ← Dict.keys, ← Dict.keys,
    completes.names] at names

theorem Completes.admits (completes : Completes fields before after gained)
    (admits : Admits fields before) : Admits fields after where
  declared name member := by
    rcases completes.mem_keys_iff.mp member with supplied | filled
    · exact admits.declared name supplied
    · obtain ⟨entry, isDue, rfl⟩ := List.mem_map.mp filled
      exact List.mem_map_of_mem (mem_due_iff.mp isDue).1
  supplied entry declared lacking required :=
    admits.supplied entry declared
      (fun member => lacking (completes.mem_keys_iff.mpr (.inl member))) required

theorem Completes.nothing_due (completes : Completes fields before after gained) :
    due fields after = [] := by
  rw [List.eq_nil_iff_forall_not_mem]
  intro entry isDue
  obtain ⟨declared, lacking, withDefault⟩ := mem_due_iff.mp isDue
  have lackedBefore : entry.1 ∉ Dict.keys before :=
    fun member => lacking (completes.mem_keys_iff.mpr (.inl member))
  have filled := List.mem_map_of_mem (f := Prod.fst)
    (mem_due_iff.mpr ⟨declared, lackedBefore, withDefault⟩)
  exact lacking (completes.mem_keys_iff.mpr (.inr filled))

end Parameters

namespace Engine

/-- What a default comes to on the request data of a context, and how far its evaluation gets. A
field without a default is given nothing. -/
inductive Gives (engine : Engine σ) (scope : Scope) (context : Context) :
    ParamDefault → Progress σ → Value → Progress σ → Prop where
  | literal {json : Json} {progress : Progress σ} :
      Gives engine scope context (.literal json) progress (.ofJson json) progress
  | fetch {path : String} {progress later : Progress σ} {value : Value} :
      engine.registry.fetch scope path progress = (.ok value, later) →
      Gives engine scope context (.fetch path) progress value later
  | call {spec : CallSpec} {progress later : Progress σ} {value : Value} :
      engine.call scope context spec progress = (.ok value, later) →
      Gives engine scope context (.call spec) progress value later

/-- Each field is given a value by its default, where the ones before it have got to. The context,
and with it the request data, is the same for all. -/
inductive Fills (engine : Engine σ) (scope : Scope) (context : Context) :
    List (String × ParamField) → Progress σ → List (String × Value) → Progress σ → Prop where
  | done {progress : Progress σ} : Fills engine scope context [] progress [] progress
  | next {name : String} {field : ParamField} {rest : List (String × ParamField)} {value : Value}
      {gained : List (String × Value)} {progress middle later : Progress σ} :
      Gives engine scope context field.default progress value middle →
      Fills engine scope context rest middle gained later →
      Fills engine scope context ((name, field) :: rest) progress ((name, value) :: gained) later

variable {engine : Engine σ} {scope : Scope} {context : Context}

theorem Fills.keys_eq {fields : List (String × ParamField)} {gained : List (String × Value)}
    {progress later : Progress σ}
    (fills : engine.Fills scope context fields progress gained later) :
    Dict.keys gained = Dict.keys fields := by
  induction fills with
  | done => rfl
  | next _ _ ih => exact congrArg _ ih

theorem Gives.hasDefault {field : ParamField} {value : Value} {progress later : Progress σ}
    (given : engine.Gives scope context field.default progress value later) :
    field.hasDefault = true := by
  unfold ParamField.hasDefault
  cases kind : field.default with
  | none =>
    rw [kind] at given
    cases given
  | literal json => rfl
  | fetch path => rfl
  | call spec => rfl

theorem defaultValue_eq_some_iff {name : String} {field : ParamField} {value : Value}
    {progress later : Progress σ} :
    engine.defaultValue scope context name field progress = (.ok (some value), later) ↔
      engine.Gives scope context field.default progress value later := by
  unfold defaultValue
  cases field.default with
  | none =>
    constructor
    · intro impossible
      cases needed : field.required <;> simp only [needed] at impossible <;> cases impossible
    · intro given
      cases given
  | literal json =>
    constructor
    · intro same
      cases same
      exact .literal
    · intro given
      cases given
      rfl
  | fetch path =>
    dsimp only
    rw [Action.bind_pure_eq_ok_iff]
    constructor
    · intro ⟨_, fetched, same⟩
      cases same
      exact .fetch fetched
    · intro given
      cases given with
      | fetch fetched => exact ⟨value, fetched, rfl⟩
  | call spec =>
    dsimp only
    rw [Action.bind_pure_eq_ok_iff]
    constructor
    · intro ⟨_, called, same⟩
      cases same
      exact .call called
    · intro given
      cases given with
      | call called => exact ⟨value, called, rfl⟩

/-- Nothing is found for an optional field without a default, and only for such a field. -/
theorem defaultValue_eq_none_iff {name : String} {field : ParamField}
    {progress later : Progress σ} :
    engine.defaultValue scope context name field progress = (.ok none, later) ↔
      field.hasDefault = false ∧ field.required = false ∧ later = progress := by
  unfold defaultValue ParamField.hasDefault
  cases field.default with
  | none =>
    cases field.required with
    | true =>
      constructor
      · intro impossible
        cases impossible
      · intro ⟨_, impossible, _⟩
        cases impossible
    | false =>
      constructor
      · intro same
        cases same
        exact ⟨rfl, rfl, rfl⟩
      · intro ⟨_, _, same⟩
        rw [same]
        rfl
  | literal json =>
    refine iff_of_false (fun impossible => ?_) (fun ⟨impossible, _⟩ => nomatch impossible)
    cases impossible
  | fetch path =>
    dsimp only
    rw [Action.bind_pure_eq_ok_iff]
    exact iff_of_false (fun ⟨_, _, impossible⟩ => nomatch impossible)
      (fun ⟨impossible, _⟩ => nomatch impossible)
  | call spec =>
    dsimp only
    rw [Action.bind_pure_eq_ok_iff]
    exact iff_of_false (fun ⟨_, _, impossible⟩ => nomatch impossible)
      (fun ⟨impossible, _⟩ => nomatch impossible)

theorem defaults_cons_due_iff {name : String} {field : ParamField}
    {rest : List (String × ParamField)} {found : List (String × Value)}
    {progress later : Progress σ}
    (lacking : Dict.contains context.data name = false) (withDefault : field.hasDefault = true) :
    engine.defaults scope context ((name, field) :: rest) progress = (.ok found, later) ↔
      ∃ value middle more, engine.Gives scope context field.default progress value middle ∧
        engine.defaults scope context rest middle = (.ok more, later) ∧
        found = (name, value) :: more := by
  rw [defaults, if_neg (by simp [lacking]), Action.bind_eq_ok_iff]
  constructor
  · intro ⟨value, middle, evaluated, continued⟩
    cases value with
    | none =>
      obtain ⟨impossible, _⟩ := defaultValue_eq_none_iff.mp evaluated
      rw [withDefault] at impossible
      cases impossible
    | some value =>
      obtain ⟨more, evaluatedRest, same⟩ := Action.bind_pure_eq_ok_iff.mp continued
      exact ⟨value, middle, more, defaultValue_eq_some_iff.mp evaluated, evaluatedRest, same.symm⟩
  · intro ⟨value, middle, more, given, evaluatedRest, same⟩
    exact ⟨some value, middle, defaultValue_eq_some_iff.mpr given,
      Action.bind_pure_eq_ok_iff.mpr ⟨more, evaluatedRest, same.symm⟩⟩

theorem defaults_cons_bare_iff {name : String} {field : ParamField}
    {rest : List (String × ParamField)} {found : List (String × Value)}
    {progress later : Progress σ}
    (lacking : Dict.contains context.data name = false) (noDefault : field.hasDefault = false) :
    engine.defaults scope context ((name, field) :: rest) progress = (.ok found, later) ↔
      field.required = false ∧
        engine.defaults scope context rest progress = (.ok found, later) := by
  rw [defaults, if_neg (by simp [lacking]), Action.bind_eq_ok_iff]
  constructor
  · intro ⟨value, middle, evaluated, continued⟩
    cases value with
    | none =>
      obtain ⟨_, optional, rfl⟩ := defaultValue_eq_none_iff.mp evaluated
      exact ⟨optional, continued⟩
    | some value =>
      have impossible := (defaultValue_eq_some_iff.mp evaluated).hasDefault
      rw [noDefault] at impossible
      cases impossible
  · intro ⟨optional, continued⟩
    exact ⟨none, progress, defaultValue_eq_none_iff.mpr ⟨noDefault, optional, rfl⟩, continued⟩

/-- The defaults are found if no field is lacking that has none and is required, and if each default
that is due gives a value in its turn. -/
theorem defaults_eq_ok_iff {fields : List (String × ParamField)} {found : List (String × Value)}
    {progress later : Progress σ} :
    engine.defaults scope context fields progress = (.ok found, later) ↔
      (∀ entry ∈ fields, entry.1 ∉ Dict.keys context.data →
        entry.2.required = true → entry.2.hasDefault = true) ∧
      engine.Fills scope context (Parameters.due fields context.data) progress found later := by
  induction fields generalizing found progress with
  | nil =>
    constructor
    · intro same
      cases same
      exact ⟨fun _ member => (nomatch member), .done⟩
    · intro ⟨_, fills⟩
      cases fills
      rfl
  | cons entry rest ih =>
    obtain ⟨name, field⟩ := entry
    rw [List.forall_mem_cons]
    by_cases known : name ∈ Dict.keys context.data
    · have supplied : Dict.contains context.data name = true := Dict.contains_iff_mem_keys.mpr known
      have notDue : Parameters.due ((name, field) :: rest) context.data =
          Parameters.due rest context.data := List.filter_cons_of_neg (by simp [supplied])
      rw [defaults, if_pos supplied, ih, notDue]
      simp [known]
    · have lacking : Dict.contains context.data name = false := by
        rw [Bool.eq_false_iff]
        exact fun supplied => known (Dict.contains_iff_mem_keys.mp supplied)
      cases withDefault : field.hasDefault with
      | true =>
        have isDue : Parameters.due ((name, field) :: rest) context.data =
            (name, field) :: Parameters.due rest context.data :=
          List.filter_cons_of_pos (by simp [lacking, withDefault])
        rw [defaults_cons_due_iff lacking withDefault, isDue]
        constructor
        · rintro ⟨value, middle, more, given, evaluatedRest, rfl⟩
          obtain ⟨supplies, fills⟩ := ih.mp evaluatedRest
          exact ⟨⟨fun _ _ => rfl, supplies⟩, .next given fills⟩
        · intro ⟨⟨_, supplies⟩, fills⟩
          cases fills with
          | next given fills => exact ⟨_, _, _, given, ih.mpr ⟨supplies, fills⟩, rfl⟩
      | false =>
        have notDue : Parameters.due ((name, field) :: rest) context.data =
            Parameters.due rest context.data :=
          List.filter_cons_of_neg (by simp [withDefault])
        rw [defaults_cons_bare_iff lacking withDefault, ih, notDue]
        simp [known, and_assoc]

/-- The parameters succeed on data that they admit if all defaults that are due can be found. -/
theorem applyParameters_eq_ok_iff {fields : Dict ParamField} {data : Dict Value}
    {progress later : Progress σ} :
    engine.applyParameters scope context fields progress = (.ok data, later) ↔
      Parameters.Admits fields context.data ∧ ∃ gained,
        engine.Fills scope context (Parameters.due fields context.data) progress gained later ∧
          data = Dict.insertAll context.data gained := by
  unfold applyParameters
  cases undeclared : (Dict.keys context.data).find? fun name => !Dict.contains fields name with
  | some name =>
    refine iff_of_false (fun impossible => nomatch impossible) ?_
    intro ⟨admits, _⟩
    have known := admits.declared name (List.mem_of_find?_eq_some undeclared)
    have unknown := List.find?_some undeclared
    rw [Dict.contains_iff_mem_keys.mpr known] at unknown
    cases unknown
  | none =>
    have declared : ∀ name ∈ Dict.keys context.data, name ∈ Dict.keys fields := by
      intro name member
      have known := List.find?_eq_none.mp undeclared name member
      exact Dict.contains_iff_mem_keys.mp (by simpa using known)
    dsimp only
    rw [Action.bind_pure_eq_ok_iff]
    constructor
    · intro ⟨gained, found, same⟩
      obtain ⟨supplied, fills⟩ := defaults_eq_ok_iff.mp found
      exact ⟨⟨declared, supplied⟩, gained, fills, same.symm⟩
    · intro ⟨admits, gained, fills, same⟩
      exact ⟨gained, defaults_eq_ok_iff.mpr ⟨admits.supplied, fills⟩, same.symm⟩

theorem defaults_redeclare (engine : Engine σ) (scope : Scope) (context : Context)
    (fields : Dict ParamField) (other : String → ParamField) :
    engine.defaults scope context (Parameters.redeclare fields context.data other) =
      engine.defaults scope context fields := by
  induction fields with
  | nil => rfl
  | cons entry rest ih =>
    obtain ⟨name, field⟩ := entry
    change engine.defaults scope context
      ((name, _) :: Parameters.redeclare rest context.data other) = _
    by_cases supplied : Dict.contains context.data name = true
    · rw [defaults, if_pos supplied, defaults, if_pos supplied, ih]
    · simp only [defaults, if_neg supplied, ih]

/-- How the supplied fields are declared makes no difference, since their defaults are not looked
at. -/
theorem applyParameters_redeclare (engine : Engine σ) (scope : Scope) (context : Context)
    (fields : Dict ParamField) (other : String → ParamField) :
    engine.applyParameters scope context (Parameters.redeclare fields context.data other) =
      engine.applyParameters scope context fields := by
  have declares (name : String) :
      Dict.contains (Parameters.redeclare fields context.data other) name =
        Dict.contains fields name := by
    rw [Bool.eq_iff_iff, Dict.contains_iff_mem_keys, Dict.contains_iff_mem_keys,
      Parameters.keys_redeclare]
  simp only [applyParameters, declares, engine.defaults_redeclare]

/-- A failure of the parameters ends the run on the context that they found. -/
theorem runObjects_params_failed (engine : Engine σ) (scope : Scope) {context : Context}
    {fields : Dict ParamField} {cause : ManifestError} {progress later : Progress σ}
    (failed : engine.applyParameters scope context fields progress = (.error cause, later))
    (fresh : Dict.contains context.results paramsKey = false) (rest : List CompiledObject) :
    engine.runObjects scope (.params fields :: rest) context progress =
      (.error cause, context, later) := by
  have stepFailed :
      engine.step scope context (.params fields) progress = (.error cause, later) := by
    rw [step, Action.bind_apply, failed]
  rw [runObjects, if_neg (by simp [CompiledObject.key, fresh]), stepFailed]

/-- Once filled, the data lack nothing that has a default. -/
theorem applyParameters_again (engine : Engine σ) (scope : Scope) {fields : Dict ParamField}
    {before after : Dict Value} {gained : List (String × Value)}
    (admits : Parameters.Admits fields before)
    (completes : Parameters.Completes fields before after gained) (results : Dict Value)
    (progress : Progress σ) :
    engine.applyParameters scope ⟨after, results⟩ fields progress = (.ok after, progress) := by
  rw [applyParameters_eq_ok_iff, completes.nothing_due]
  exact ⟨completes.admits admits, [], .done, rfl⟩

end Engine

/-- The parameters succeed exactly on data that they admit and for which every default that is due
can be found, each in its turn and on the data as supplied. The data then gain these defaults and
nothing else, and are the value of the step; the same fields have nothing more to do on them. What
is declared for supplied fields plays no part. A failure leaves the request data alone. -/
theorem parameters_complete_data (engine : Engine σ) (scope : Scope) (context : Context)
    {fields : Dict ParamField} (orderedFields : Dict.Ascending fields)
    (orderedData : Dict.Ascending context.data) (progress : Progress σ) :
    let run := engine.applyParameters scope context fields
    let due := Parameters.due fields context.data
    ((∃ data later, run progress = (.ok data, later)) ↔
      Parameters.Admits fields context.data ∧
        ∃ gained later, engine.Fills scope context due progress gained later) ∧
    (∀ data later, run progress = (.ok data, later) →
      engine.step scope context (.params fields) progress = (.ok ⟨.map data, data⟩, later) ∧
      (∃ gained, engine.Fills scope context due progress gained later ∧
        Parameters.Completes fields context.data data gained) ∧
      ∀ (again : Scope) (results : Dict Value) (other : Progress σ),
        engine.applyParameters again ⟨data, results⟩ fields other = (.ok data, other)) ∧
    (∀ other, engine.applyParameters scope context
      (Parameters.redeclare fields context.data other) = run) ∧
    ∀ cause later, run progress = (.error cause, later) →
      Dict.contains context.results paramsKey = false → ∀ rest,
        engine.runObjects scope (.params fields :: rest) context progress =
          (.error cause, context, later) := by
  intro run due
  refine ⟨?_, ?_, engine.applyParameters_redeclare scope context fields, ?_⟩
  · constructor
    · intro ⟨data, later, ran⟩
      obtain ⟨admits, gained, fills, _⟩ := Engine.applyParameters_eq_ok_iff.mp ran
      exact ⟨admits, gained, later, fills⟩
    · intro ⟨admits, gained, later, fills⟩
      exact ⟨_, later, Engine.applyParameters_eq_ok_iff.mpr ⟨admits, gained, fills, rfl⟩⟩
  · intro data later ran
    obtain ⟨admits, gained, fills, inserted⟩ := Engine.applyParameters_eq_ok_iff.mp ran
    have completes : Parameters.Completes fields context.data data gained := by
      rw [inserted]
      exact Parameters.completes_insertAll orderedFields orderedData fills.keys_eq
    refine ⟨Action.bind_pure_eq_ok_iff.mpr ⟨data, ran, rfl⟩, ⟨gained, fills, completes⟩, ?_⟩
    intro again results other
    exact engine.applyParameters_again again admits completes results other
  · intro cause later failed fresh rest
    exact engine.runObjects_params_failed scope failed fresh rest

/-- One function, which gives out numbers. -/
def countingEngine : Engine Nat where
  registry := ⟨"R", [("NEXT", .function fun _ _ count =>
    .pure (.ok (.number (.integer count))) (count + 1))]⟩
  host := ⟨fun _ _ _ count => .pure (.ok .null) count, fun count => ("", count)⟩

/-- A field of each kind; the data supply the first and the last. -/
def countingFields : Dict ParamField :=
  [("a", ⟨true, .none⟩), ("b", ⟨false, .literal (.string "y")⟩), ("c", ⟨false, .none⟩),
    ("d", ⟨true, .fetch "R.NEXT"⟩),
    ("e", ⟨false, .call ⟨"R.NEXT", .array [.string "#__DATA__.a"], .null, none⟩⟩),
    ("f", ⟨false, .fetch "R.LOST"⟩)]

def countingContext : Context := .start [("a", .string "x"), ("f", .null)]

/-- The fetched and the called default are found in turn, and the lost one is not looked for. -/
theorem counting_data_completed :
    Dict.Ascending countingFields ∧ Dict.Ascending countingContext.data ∧
    ∃ data later, countingEngine.applyParameters ⟨"", .anonymous, .bypass⟩ countingContext
        countingFields (.start 0) = (.ok data, later) ∧
      data = [("a", .string "x"), ("b", .string "y"), ("d", .number (.integer 0)),
        ("e", .number (.integer 1)), ("f", .null)] ∧
      ∀ (again : Scope) (results : Dict Value) (other : Progress Nat),
        countingEngine.applyParameters again ⟨data, results⟩ countingFields other =
          (.ok data, other) := by
  have orderedFields : Dict.Ascending countingFields := by
    unfold Dict.Ascending
    decide
  have orderedData : Dict.Ascending countingContext.data := by
    unfold Dict.Ascending
    decide
  obtain ⟨_, completed, _⟩ := parameters_complete_data countingEngine ⟨"", .anonymous, .bypass⟩
    countingContext orderedFields orderedData (.start 0)
  refine ⟨orderedFields, orderedData, _, _, rfl, rfl, ?_⟩
  exact (completed _ _ rfl).2.2

end ManifestGate
