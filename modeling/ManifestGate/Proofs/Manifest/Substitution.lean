import ManifestGate.Proofs.Manifest.Rendering

/-!
# Responses as substitutions

A response is made in two passes: its document is evaluated to a value, and the value is rendered to
a document. Both together are one substitution: each symbol of the document gives way to what its
value is rendered as, and all else stays. What came in for a symbol is not looked into again.
-/

namespace ManifestGate

variable {σ : Type}

namespace Json

/-- What is filled in: a reference, a capability path, or an object with the key `call`. -/
inductive IsSymbol (root : String) : Json → Prop where
  | reference (name : String) : IsSymbol root (.string ("#" ++ name))
  | capability {path : String} : Path.after? "#" path = none → Path.head path = root →
      IsSymbol root (.string path)
  | call {entries : List (String × Json)} : Dict.contains entries "call" = true →
      IsSymbol root (.object entries)

/-- What stands for itself, apart from lists and objects. -/
inductive IsConstant (root : String) : Json → Prop where
  | null : IsConstant root .null
  | bool (b : Bool) : IsConstant root (.bool b)
  | number (n : Number) : IsConstant root (.number n)
  | text {text : String} : ¬IsSymbol root (.string text) → IsConstant root (.string text)

/-- A symbol stands somewhere in the document. -/
inductive HasSymbol (root : String) : Json → Prop where
  | symbol {json : Json} : json.IsSymbol root → HasSymbol root json
  | item {items : List Json} {item : Json} : item ∈ items → HasSymbol root item →
      HasSymbol root (.array items)
  | entry {entries : List (String × Json)} {key : String} {json : Json} :
      (key, json) ∈ entries → HasSymbol root json → HasSymbol root (.object entries)

section

variable {root : String}

theorem isSymbol_object_iff {entries : List (String × Json)} :
    IsSymbol root (.object entries) ↔ Dict.contains entries "call" = true := by
  constructor
  · intro symbol
    cases symbol with
    | call contains => exact contains
  · exact .call

theorem IsConstant.not_isSymbol {json : Json} (constant : json.IsConstant root) :
    ¬json.IsSymbol root := by
  intro symbol
  cases constant with
  | null | bool | number => cases symbol
  | text plain => exact plain symbol

theorem IsConstant.template {json : Json} (constant : json.IsConstant root) :
    Template.ofJson root json = .literal (.ofJson json) := by
  cases constant with
  | null | bool | number => rfl
  | @text text plain =>
    have noReference : Path.after? "#" text = none := by
      cases found : Path.after? "#" text with
      | none => rfl
      | some name =>
        rw [Path.after?_eq_some_iff.mp found] at plain
        exact absurd (.reference name) plain
    have noCapability : Path.head text ≠ root := fun below => plain (.capability noReference below)
    simp [Template.ofJson, Symbol.ofText, noReference, noCapability, Value.ofJson]

theorem template_of_plain_object {entries : List (String × Json)}
    (plain : ¬IsSymbol root (.object entries)) :
    Template.ofJson root (.object entries) = .map (Template.ofEntries root entries) := by
  rw [isSymbol_object_iff] at plain
  rw [Template.ofJson, if_neg plain]

end

end Json

namespace Engine

/-- What a symbol stands for, and the state after finding it out. -/
inductive Resolves (engine : Engine σ) (scope : Scope) (context : Context) :
    Json → Progress σ → Value → Progress σ → Prop where
  | reference {name : String} {value : Value} {progress : Progress σ} :
      context.resolve name = .ok value →
      Resolves engine scope context (.string ("#" ++ name)) progress value progress
  | capability {path : String} {value : Value} {before after : Progress σ} :
      Path.after? "#" path = none → Path.head path = engine.registry.root →
      engine.registry.fetch scope path before = (.ok value, after) →
      Resolves engine scope context (.string path) before value after
  | call {entries : List (String × Json)} {value : Value} {before after : Progress σ} :
      Dict.contains entries "call" = true →
      engine.evaluate scope context (Template.ofJson engine.registry.root (.object entries))
        before = (.ok value, after) →
      Resolves engine scope context (.object entries) before value after

/-- The value is rendered as the document, whatever the state. -/
def RendersAs (engine : Engine σ) (scope : Scope) (value : Value) (shown : Json) : Prop :=
  ∀ progress, (engine.render scope value progress).1 = .ok shown

mutual

/-- The second document is the first one with its symbols replaced: from left to right, each gives
way to what the value it stands for is rendered as. Everything else is as it was. -/
inductive Filled (engine : Engine σ) (scope : Scope) (context : Context) :
    Json → Progress σ → Json → Progress σ → Prop where
  | symbol {template shown : Json} {value : Value} {before after : Progress σ} :
      engine.Resolves scope context template before value after →
      engine.RendersAs scope value shown → Filled engine scope context template before shown after
  | constant {template : Json} {progress : Progress σ} :
      template.IsConstant engine.registry.root →
      Filled engine scope context template progress template progress
  | array {items shown : List Json} {before after : Progress σ} :
      FilledItems engine scope context items before shown after →
      Filled engine scope context (.array items) before (.array shown) after
  | object {entries shown : List (String × Json)} {before after : Progress σ} :
      Dict.contains entries "call" = false →
      FilledEntries engine scope context entries before shown after →
      Filled engine scope context (.object entries) before (.object shown) after

inductive FilledItems (engine : Engine σ) (scope : Scope) (context : Context) :
    List Json → Progress σ → List Json → Progress σ → Prop where
  | nil {progress : Progress σ} : FilledItems engine scope context [] progress [] progress
  | cons {item shown : Json} {rest more : List Json} {before middle after : Progress σ} :
      Filled engine scope context item before shown middle →
      FilledItems engine scope context rest middle more after →
      FilledItems engine scope context (item :: rest) before (shown :: more) after

inductive FilledEntries (engine : Engine σ) (scope : Scope) (context : Context) :
    List (String × Json) → Progress σ → List (String × Json) → Progress σ → Prop where
  | nil {progress : Progress σ} : FilledEntries engine scope context [] progress [] progress
  | cons {key : String} {template shown : Json} {rest more : List (String × Json)}
      {before middle after : Progress σ} :
      Filled engine scope context template before shown middle →
      FilledEntries engine scope context rest middle more after →
      FilledEntries engine scope context ((key, template) :: rest) before ((key, shown) :: more)
        after

end

variable {engine : Engine σ} {scope : Scope} {context : Context}

theorem rendersAs_iff (dumps : engine.registry.Dumps) (value : Value) (shown : Json)
    (progress : Progress σ) : engine.RendersAs scope value shown ↔ value.dump = .ok shown := by
  constructor
  · intro renders
    exact (render_eq_ok_iff dumps value progress shown).mp (renders progress)
  · intro dumped other
    exact (render_eq_ok_iff dumps value other shown).mpr dumped

section

variable {before after : Progress σ}

theorem Resolves.isSymbol {template : Json} {value : Value}
    (resolves : engine.Resolves scope context template before value after) :
    template.IsSymbol engine.registry.root := by
  cases resolves with
  | reference => exact .reference _
  | capability noReference below => exact .capability noReference below
  | call contains => exact .call contains

/-- A symbol is evaluated to what it stands for. -/
theorem resolves_iff {template : Json} {value : Value}
    (symbol : template.IsSymbol engine.registry.root) :
    engine.Resolves scope context template before value after ↔
      engine.evaluate scope context (Template.ofJson engine.registry.root template) before =
        (.ok value, after) := by
  constructor
  · intro resolves
    cases resolves with
    | reference found =>
      simp only [Template.ofJson, Symbol.ofText_reference, evaluate, reference, found]
      rfl
    | capability noReference below fetched =>
      simpa only [Template.ofJson, Symbol.ofText, noReference, if_pos below, evaluate] using fetched
    | call _ evaluated => exact evaluated
  · intro evaluated
    cases symbol with
    | reference name =>
      simp only [Template.ofJson, Symbol.ofText_reference, evaluate, reference] at evaluated
      cases found : context.resolve name with
      | error cause =>
        rw [found] at evaluated
        cases evaluated
      | ok resolved =>
        rw [found] at evaluated
        cases evaluated
        exact .reference found
    | capability noReference below =>
      apply Resolves.capability noReference below
      simpa only [Template.ofJson, Symbol.ofText, noReference, if_pos below, evaluate]
        using evaluated
    | call contains => exact .call contains evaluated

/-! ## Two passes are one -/

theorem filled_symbol_iff {template shown : Json} (dumps : engine.registry.Dumps)
    (symbol : template.IsSymbol engine.registry.root) :
    engine.Filled scope context template before shown after ↔
      ∃ value, engine.evaluate scope context (Template.ofJson engine.registry.root template)
        before = (.ok value, after) ∧ value.dump = .ok shown := by
  constructor
  · intro filled
    cases filled with
    | symbol resolves renders =>
      exact ⟨_, (resolves_iff symbol).mp resolves, (rendersAs_iff dumps _ _ before).mp renders⟩
    | constant constant => exact absurd symbol constant.not_isSymbol
    | array => cases symbol
    | object noCall =>
      rw [Json.isSymbol_object_iff, noCall] at symbol
      cases symbol
  · rintro ⟨value, evaluated, dumped⟩
    exact .symbol ((resolves_iff symbol).mpr evaluated)
      ((rendersAs_iff dumps value shown before).mpr dumped)

theorem filled_constant_iff {template shown : Json}
    (constant : template.IsConstant engine.registry.root) :
    engine.Filled scope context template before shown after ↔
      ∃ value, engine.evaluate scope context (Template.ofJson engine.registry.root template)
        before = (.ok value, after) ∧ value.dump = .ok shown := by
  rw [constant.template]
  constructor
  · intro filled
    cases filled with
    | symbol resolves => exact absurd resolves.isSymbol constant.not_isSymbol
    | constant => exact ⟨.ofJson template, rfl, Value.dump_ofJson template⟩
    | array | object => cases constant
  · rintro ⟨value, evaluated, dumped⟩
    cases evaluated
    rw [Value.dump_ofJson] at dumped
    cases dumped
    exact .constant constant

theorem evaluateItems_cons_eq_ok_iff {item : Template} {rest : List Template}
    {values : List Value} :
    engine.evaluateItems scope context (item :: rest) before = (.ok values, after) ↔
      ∃ value more middle, engine.evaluate scope context item before = (.ok value, middle) ∧
        engine.evaluateItems scope context rest middle = (.ok more, after) ∧
          value :: more = values := by
  rw [evaluateItems, Action.bind_eq_ok_iff]
  constructor
  · rintro ⟨value, middle, first, others⟩
    obtain ⟨more, others, same⟩ := Action.bind_pure_eq_ok_iff.mp others
    exact ⟨value, more, middle, first, others, same⟩
  · rintro ⟨value, more, middle, first, others, same⟩
    exact ⟨value, middle, first, Action.bind_pure_eq_ok_iff.mpr ⟨more, others, same⟩⟩

theorem evaluateEntries_cons_eq_ok_iff {key : String} {template : Template}
    {rest : List (String × Template)} {values : List (String × Value)} :
    engine.evaluateEntries scope context ((key, template) :: rest) before = (.ok values, after) ↔
      ∃ value more middle, engine.evaluate scope context template before = (.ok value, middle) ∧
        engine.evaluateEntries scope context rest middle = (.ok more, after) ∧
          (key, value) :: more = values := by
  rw [evaluateEntries, Action.bind_eq_ok_iff]
  constructor
  · rintro ⟨value, middle, first, others⟩
    obtain ⟨more, others, same⟩ := Action.bind_pure_eq_ok_iff.mp others
    exact ⟨value, more, middle, first, others, same⟩
  · rintro ⟨value, more, middle, first, others, same⟩
    exact ⟨value, middle, first, Action.bind_pure_eq_ok_iff.mpr ⟨more, others, same⟩⟩

mutual

/-- A document is filled as its evaluation and the dump of the value say. -/
theorem filled_iff (dumps : engine.registry.Dumps) : ∀ {template : Json} {before after : Progress σ}
    {shown : Json}, engine.Filled scope context template before shown after ↔
      ∃ value, engine.evaluate scope context (Template.ofJson engine.registry.root template)
        before = (.ok value, after) ∧ value.dump = .ok shown
  | .null, _, _, _ => filled_constant_iff .null
  | .bool b, _, _, _ => filled_constant_iff (.bool b)
  | .number n, _, _, _ => filled_constant_iff (.number n)
  | .string text, _, _, _ => by
    by_cases symbol : Json.IsSymbol engine.registry.root (.string text)
    · exact filled_symbol_iff dumps symbol
    · exact filled_constant_iff (.text symbol)
  | .array items, before, after, shown => by
    simp only [Template.ofJson, evaluate, Action.bind_pure_eq_ok_iff]
    constructor
    · intro filled
      cases filled with
      | symbol resolves => cases resolves
      | constant constant => cases constant
      | array filled =>
        obtain ⟨values, evaluated, dumped⟩ := (filledItems_iff dumps).mp filled
        exact ⟨.list values, ⟨values, evaluated, rfl⟩, by rw [Value.dump, dumped]; rfl⟩
    · rintro ⟨_, ⟨values, evaluated, rfl⟩, whole⟩
      obtain ⟨more, dumped, rfl⟩ := Except.map_eq_ok_iff.mp whole
      exact .array ((filledItems_iff dumps).mpr ⟨values, evaluated, dumped⟩)
  | .object entries, before, after, shown => by
    by_cases symbol : Json.IsSymbol engine.registry.root (.object entries)
    · exact filled_symbol_iff dumps symbol
    · have noCall : Dict.contains entries "call" = false :=
        Bool.eq_false_iff.mpr fun contains => symbol (.call contains)
      simp only [Json.template_of_plain_object symbol, evaluate, Action.bind_pure_eq_ok_iff]
      constructor
      · intro filled
        cases filled with
        | symbol resolves => exact absurd resolves.isSymbol symbol
        | constant constant => cases constant
        | object _ filled =>
          obtain ⟨values, evaluated, dumped⟩ := (filledEntries_iff dumps).mp filled
          exact ⟨.map values, ⟨values, evaluated, rfl⟩, by rw [Value.dump, dumped]; rfl⟩
      · rintro ⟨_, ⟨values, evaluated, rfl⟩, whole⟩
        obtain ⟨more, dumped, rfl⟩ := Except.map_eq_ok_iff.mp whole
        exact .object noCall ((filledEntries_iff dumps).mpr ⟨values, evaluated, dumped⟩)

theorem filledItems_iff (dumps : engine.registry.Dumps) : ∀ {items : List Json}
    {before after : Progress σ} {shown : List Json},
    engine.FilledItems scope context items before shown after ↔
      ∃ values, engine.evaluateItems scope context (Template.ofItems engine.registry.root items)
        before = (.ok values, after) ∧ Value.dumpItems values = .ok shown
  | [], before, after, shown => by
    constructor
    · intro filled
      cases filled
      exact ⟨[], rfl, rfl⟩
    · rintro ⟨values, evaluated, dumped⟩
      cases evaluated
      cases dumped
      exact .nil
  | item :: rest, before, after, shown => by
    constructor
    · intro filled
      cases filled with
      | cons first others =>
        obtain ⟨value, evaluated, dumped⟩ := (filled_iff dumps).mp first
        obtain ⟨values, evaluatedRest, dumpedRest⟩ := (filledItems_iff dumps).mp others
        refine ⟨value :: values, ?_, ?_⟩
        · exact evaluateItems_cons_eq_ok_iff.mpr ⟨_, _, _, evaluated, evaluatedRest, rfl⟩
        · exact Value.dumpItems_cons_eq_ok_iff.mpr ⟨_, _, dumped, dumpedRest, rfl⟩
    · rintro ⟨_, whole, dumpedWhole⟩
      obtain ⟨value, values, middle, evaluated, evaluatedRest, rfl⟩ :=
        evaluateItems_cons_eq_ok_iff.mp whole
      obtain ⟨first, more, dumped, dumpedRest, rfl⟩ :=
        Value.dumpItems_cons_eq_ok_iff.mp dumpedWhole
      exact .cons ((filled_iff dumps).mpr ⟨value, evaluated, dumped⟩)
        ((filledItems_iff dumps).mpr ⟨values, evaluatedRest, dumpedRest⟩)

theorem filledEntries_iff (dumps : engine.registry.Dumps) : ∀ {entries : List (String × Json)}
    {before after : Progress σ} {shown : List (String × Json)},
    engine.FilledEntries scope context entries before shown after ↔
      ∃ values, engine.evaluateEntries scope context
        (Template.ofEntries engine.registry.root entries) before = (.ok values, after) ∧
          Value.dumpEntries values = .ok shown
  | [], before, after, shown => by
    constructor
    · intro filled
      cases filled
      exact ⟨[], rfl, rfl⟩
    · rintro ⟨values, evaluated, dumped⟩
      cases evaluated
      cases dumped
      exact .nil
  | (key, template) :: rest, before, after, shown => by
    constructor
    · intro filled
      cases filled with
      | cons first others =>
        obtain ⟨value, evaluated, dumped⟩ := (filled_iff dumps).mp first
        obtain ⟨values, evaluatedRest, dumpedRest⟩ := (filledEntries_iff dumps).mp others
        refine ⟨(key, value) :: values, ?_, ?_⟩
        · exact evaluateEntries_cons_eq_ok_iff.mpr ⟨_, _, _, evaluated, evaluatedRest, rfl⟩
        · exact Value.dumpEntries_cons_eq_ok_iff.mpr ⟨_, _, dumped, dumpedRest, rfl⟩
    · rintro ⟨_, whole, dumpedWhole⟩
      obtain ⟨value, values, middle, evaluated, evaluatedRest, rfl⟩ :=
        evaluateEntries_cons_eq_ok_iff.mp whole
      obtain ⟨first, more, dumped, dumpedRest, rfl⟩ :=
        Value.dumpEntries_cons_eq_ok_iff.mp dumpedWhole
      exact .cons ((filled_iff dumps).mpr ⟨value, evaluated, dumped⟩)
        ((filledEntries_iff dumps).mpr ⟨values, evaluatedRest, dumpedRest⟩)

end

end

mutual

/-- Where there is no symbol, there is nothing to fill in. -/
theorem filled_self {progress : Progress σ} : ∀ {template : Json},
    ¬template.HasSymbol engine.registry.root →
      engine.Filled scope context template progress template progress
  | .null, _ => .constant .null
  | .bool b, _ => .constant (.bool b)
  | .number n, _ => .constant (.number n)
  | .string _, plain => .constant (.text fun symbol => plain (.symbol symbol))
  | .array items, plain =>
    .array (filledItems_self fun _ member inside => plain (.item member inside))
  | .object entries, plain => by
    have noCall : Dict.contains entries "call" = false :=
      Bool.eq_false_iff.mpr fun contains => plain (.symbol (.call contains))
    exact .object noCall (filledEntries_self fun _ member inside => plain (.entry member inside))

theorem filledItems_self {progress : Progress σ} : ∀ {items : List Json},
    (∀ item ∈ items, ¬item.HasSymbol engine.registry.root) →
      engine.FilledItems scope context items progress items progress
  | [], _ => .nil
  | _ :: _, plain =>
    .cons (filled_self (plain _ List.mem_cons_self))
      (filledItems_self fun item member => plain item (List.mem_cons_of_mem _ member))

theorem filledEntries_self {progress : Progress σ} : ∀ {entries : List (String × Json)},
    (∀ entry ∈ entries, ¬entry.2.HasSymbol engine.registry.root) →
      engine.FilledEntries scope context entries progress entries progress
  | [], _ => .nil
  | (_, _) :: _, plain =>
    .cons (filled_self (plain _ List.mem_cons_self))
      (filledEntries_self fun entry member => plain entry (List.mem_cons_of_mem _ member))

end

/-! ## Responses -/

theorem respond_eq_ok_iff (dumps : engine.registry.Dumps) {template shown : Json}
    {before : Progress σ} : (engine.respond scope context template before).1 = .ok shown ↔
      ∃ after, engine.Filled scope context template before shown after := by
  unfold respond
  rw [Action.bind_apply]
  simp only [filled_iff dumps]
  rcases engine.evaluate scope context (Template.ofJson engine.registry.root template) before with
    ⟨result, after⟩
  cases result with
  | error cause =>
    constructor
    · intro impossible
      cases impossible
    · rintro ⟨_, _, impossible, _⟩
      cases impossible
  | ok value =>
    constructor
    · intro rendered
      exact ⟨after, value, rfl, (render_eq_ok_iff dumps value after shown).mp rendered⟩
    · rintro ⟨_, _, same, dumped⟩
      cases same
      exact (render_eq_ok_iff dumps value after shown).mpr dumped

/-- A reference to a value that is rendered as a document shows this document. -/
theorem respond_reference (dumps : engine.registry.Dumps) {name : String} {value : Value}
    {shown : Json} (found : context.resolve name = .ok value) (dumped : value.dump = .ok shown)
    (progress : Progress σ) :
    (engine.respond scope context (.string ("#" ++ name)) progress).1 = .ok shown :=
  (respond_eq_ok_iff dumps).mpr
    ⟨progress, .symbol (.reference found) ((rendersAs_iff dumps value shown progress).mpr dumped)⟩

end Engine

/-- The manifest that answers with its request data. -/
def dataManifest : Json := .array [.object [(responseKey, .string "#__DATA__")]]

namespace Engine

theorem respond_data {engine : Engine σ} {scope : Scope} (dumps : engine.registry.Dumps)
    {context : Context} {entries : List (String × Json)}
    (given : context.data = Value.ofEntries entries) (progress : Progress σ) :
    (engine.respond scope context (.string "#__DATA__") progress).1 = .ok (.object entries) := by
  have found : context.resolve dataKey = .ok (.ofJson (.object entries)) := by
    rw [Value.ofJson, ← given]
    rfl
  exact respond_reference dumps found (Value.dump_ofJson _) progress

theorem run_dataManifest {engine : Engine σ} {scope : Scope} (dumps : engine.registry.Dumps)
    {entries : List (String × Json)} {data : Dict Value}
    (given : requestData (.object entries) = .ok data) (progress : Progress σ) :
    (engine.run scope dataManifest data progress).1 = .ok (some (.object entries)) := by
  cases given
  have executed : ∀ object ∈ ([] : List CompiledObject),
      Dict.contains (Context.start (Value.ofEntries entries)).results object.key = true := nofun
  let manifest : CompiledManifest := ⟨[.response (.string "#__DATA__")], by decide, by decide⟩
  calc (engine.run scope dataManifest (Value.ofEntries entries) progress).1
      = (engine.execute scope manifest (.start (Value.ofEntries entries)) progress).1 := rfl
    _ = (engine.respond scope (.start (Value.ofEntries entries)) (.string "#__DATA__")
          progress).1.map some := execute_response rfl executed rfl progress
    _ = .ok (some (.object entries)) := by
      rw [respond_data dumps rfl]
      rfl

end Engine

/-- A response shows its document with each symbol replaced, once, by what the value it stands for
is rendered as. The rendering of a value takes the form of each API object in it and keeps all else
as it is, so documents that come in for a symbol are shown as they are, whatever they look like. A
response without symbols shows itself, and a reference to the request data shows what was sent. -/
theorem response_substituted_once {engine : Engine σ} {entries : List (String × Capability σ)}
    (built : Registry.build engine.registry.root entries = .ok engine.registry)
    (included : (Builtin.dumpPath, Builtin.dumpObject) ∈ entries) (scope : Scope) :
    (∀ context template shown before,
      (engine.respond scope context template before).1 = .ok shown ↔
        ∃ after, engine.Filled scope context template before shown after) ∧
    (∀ value shown progress, (engine.render scope value progress).1 = .ok shown ↔
      value.dump = .ok shown) ∧
    (∀ document, engine.RendersAs scope (.ofJson document) document) ∧
    (∀ context template progress, ¬template.HasSymbol engine.registry.root →
      (engine.respond scope context template progress).1 = .ok template) ∧
    (∀ context name document progress, context.resolve name = .ok (.ofJson document) →
      (engine.respond scope context (.string ("#" ++ name)) progress).1 = .ok document) ∧
    ∀ sent data, requestData (.object sent) = .ok data →
      (∀ context progress, context.data = data →
        (engine.respond scope context (.string "#__DATA__") progress).1 = .ok (.object sent)) ∧
      ∀ progress, (engine.run scope dataManifest data progress).1 = .ok (some (.object sent)) := by
  have dumps := Registry.dumps_of_build built included
  refine ⟨?_, ?_, ?_, ?_, ?_, ?_⟩
  · intro context template shown before
    exact Engine.respond_eq_ok_iff dumps
  · intro value shown progress
    exact Engine.render_eq_ok_iff dumps value progress shown
  · intro document progress
    exact (Engine.render_eq_ok_iff dumps _ progress document).mpr (Value.dump_ofJson document)
  · intro context template progress plain
    exact (Engine.respond_eq_ok_iff dumps).mpr ⟨progress, Engine.filled_self plain⟩
  · intro context name document progress found
    exact Engine.respond_reference dumps found (Value.dump_ofJson document) progress
  · intro sent data given
    refine ⟨?_, ?_⟩
    · intro context progress same
      cases given
      exact Engine.respond_data dumps same progress
    · exact Engine.run_dataManifest dumps given

/-- Request data that look like a reference and like a call. -/
def misleadingData : Json :=
  .object [("a", .string "#x"), ("b", .object [("call", .string "R.F")])]

/-- The request data come out as they came in, though a template would read them otherwise. -/
theorem misleading_data_shown_verbatim :
    let scope : Scope := ⟨"", .anonymous, .bypass⟩
    let context : Context := .start [("sent", .ofJson misleadingData)]
    let template : Json := .object [("p", .array [.string "#__DATA__.sent.a", .bool true]),
      ("q", .string "#__DATA__.sent")]
    (dumpingEngine.respond scope context template (.start ())).1 =
      .ok (.object [("p", .array [.string "#x", .bool true]), ("q", misleadingData)]) := by
  intro scope context template
  have built : Registry.build dumpingEngine.registry.root dumpingEngine.registry.entries =
      .ok dumpingEngine.registry := rfl
  obtain ⟨filled, _, verbatim, _⟩ :=
    response_substituted_once built List.mem_cons_self scope
  have text : dumpingEngine.Filled scope context (.string ("#" ++ "__DATA__.sent.a")) (.start ())
      (.string "#x") (.start ()) := .symbol (.reference rfl) (verbatim (.string "#x"))
  have whole : dumpingEngine.Filled scope context (.string ("#" ++ "__DATA__.sent")) (.start ())
      misleadingData (.start ()) := .symbol (.reference rfl) (verbatim misleadingData)
  have list : dumpingEngine.Filled scope context
      (.array [.string "#__DATA__.sent.a", .bool true]) (.start ())
      (.array [.string "#x", .bool true]) (.start ()) :=
    .array (.cons text (.cons (.constant (.bool true)) .nil))
  exact (filled _ _ _ _).mpr ⟨.start (), .object rfl (.cons list (.cons whole .nil))⟩

end ManifestGate
