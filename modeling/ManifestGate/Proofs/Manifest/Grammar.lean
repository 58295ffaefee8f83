import ManifestGate.Proofs.Manifest.Blocks
import ManifestGate.Proofs.Path

/-!
# The grammar of manifests

Which documents are manifests, told by their form. A document in a position that is filled in at run
time is meaningful if each of its texts is a valid symbol and each of its call mappings is spelled
out validly; blocks are read in order, each after those before it.
-/

namespace ManifestGate

variable {σ : Type}

/-! ## Texts -/

/-- A text with a leading `#` leads to the request data or an earlier block, any other text below the
root to a capability. -/
def SymbolValid (registry : Registry σ) (seen : List String) (text : String) : Prop :=
  (∃ reference, text = "#" ++ reference ∧ Reaches seen reference) ∨
    ((∀ reference, text ≠ "#" ++ reference) ∧
      (Path.head text = registry.root → registry.check text = .ok ()))

/-- A reference, or the path of a capability behind the mark of the spread. -/
def SpreadValid (registry : Registry σ) (seen : List String) (kind : SpreadKind) (text : String) :
    Prop :=
  (∃ reference, text = "#" ++ reference ∧ Reaches seen reference) ∨
    ∃ path, text = kind.mark ++ path ∧ Path.head path = registry.root ∧ registry.check path = .ok ()

/-- The path of a capability, or a reference, with or without a leading `#`, and behind its last dot
a method. -/
def TargetValid (registry : Registry σ) (seen : List String) (target : String) : Prop :=
  (Path.head target = registry.root ∧ registry.check target = .ok ()) ∨
    (Path.head target ≠ registry.root ∧ ∃ object name,
      (target = "#" ++ (object ++ "." ++ name) ∨
        ((∀ rest, target ≠ "#" ++ rest) ∧ target = object ++ "." ++ name)) ∧
      '.' ∉ name.toList ∧ Reaches seen object)

/-! ## Calls -/

/-- The entries of a clause: exactly one of `value` and `isnot`, a text for the error, a status code,
and messages that are texts or `null`. -/
structure Ensure.Valid (entries : Dict Json) : Prop where
  keys : ∀ key ∈ Dict.keys entries, key ∈ ["value", "isnot", "error", "code", "log", "debug"]
  predicate : Dict.contains entries "value" ≠ Dict.contains entries "isnot"
  error : ∀ raw, Dict.get? entries "error" = some raw → ∃ text, raw = .string text
  code : ∀ raw, Dict.get? entries "code" = some raw →
    ∃ code : Nat, raw = .number (.integer code) ∧ 100 ≤ code ∧ code ≤ 599
  message : ∀ key ∈ ["log", "debug"], ∀ raw, Dict.get? entries key = some raw →
    raw = .null ∨ ∃ text, raw = .string text

/-- What a call mapping has to be apart from its arguments. -/
structure CallSpec.Valid (registry : Registry σ) (seen : List String) (entries : Dict Json) :
    Prop where
  keys : ∀ key ∈ Dict.keys entries, key ∈ ["call", "args", "kwargs", "ensure"]
  target : ∃ target, Dict.get? entries "call" = some (.string target) ∧
    TargetValid registry seen target
  clause : ∀ raw, Dict.get? entries "ensure" = some raw → raw = .null ∨ raw = .bool false ∨
    ∃ clause, raw = .object clause ∧ Ensure.Valid clause

namespace Json

mutual

/-- After blocks with the given keys the document can stand where documents are filled in: all of its
symbols are valid, at any depth. -/
inductive Meaningful (registry : Registry σ) (seen : List String) : Json → Prop where
  | null : Meaningful registry seen .null
  | bool {b : Bool} : Meaningful registry seen (.bool b)
  | number {n : Number} : Meaningful registry seen (.number n)
  | string {text : String} : SymbolValid registry seen text → Meaningful registry seen (.string text)
  | array {items : List Json} : (∀ item ∈ items, Meaningful registry seen item) →
      Meaningful registry seen (.array items)
  | object {entries : List (String × Json)} : Dict.contains entries "call" = false →
      (∀ entry ∈ entries, Meaningful registry seen entry.2) →
      Meaningful registry seen (.object entries)
  | call {entries : List (String × Json)} : CallSpec.Valid registry seen entries →
      (∀ args, Dict.get? entries "args" = some args → ArgsValid registry seen args) →
      (∀ kwargs, Dict.get? entries "kwargs" = some kwargs → KwargsValid registry seen kwargs) →
      Meaningful registry seen (.object entries)

/-- The positional arguments of a call: none, a list, or a spread. -/
inductive ArgsValid (registry : Registry σ) (seen : List String) : Json → Prop where
  | none : ArgsValid registry seen .null
  | items {items : List Json} : (∀ item ∈ items, Meaningful registry seen item) →
      ArgsValid registry seen (.array items)
  | spread {text : String} : SpreadValid registry seen .positional text →
      ArgsValid registry seen (.string text)

/-- The keyword arguments of a call: none, a mapping, or a spread. -/
inductive KwargsValid (registry : Registry σ) (seen : List String) : Json → Prop where
  | none : KwargsValid registry seen .null
  | entries {entries : List (String × Json)} :
      (∀ entry ∈ entries, Meaningful registry seen entry.2) →
      KwargsValid registry seen (.object entries)
  | spread {text : String} : SpreadValid registry seen .keyword text →
      KwargsValid registry seen (.string text)

end

/-- What may stand in for an absent parameter: nothing, a scalar or a call. Of texts only the path of
a capability is a symbol. -/
inductive DefaultValid (registry : Registry σ) (seen : List String) : Json → Prop where
  | null : DefaultValid registry seen .null
  | bool {b : Bool} : DefaultValid registry seen (.bool b)
  | number {n : Number} : DefaultValid registry seen (.number n)
  | string {text : String} :
      (Path.head text = registry.root → registry.check text = .ok ()) →
      DefaultValid registry seen (.string text)
  | call {mapping : Json} : CallSpec.isMapping mapping = true →
      mapping.Meaningful registry seen → DefaultValid registry seen mapping

end Json

/-! ## Blocks -/

/-- The value of a block is one that its key asks for. In a variable only a text or a call mapping at
the top is symbolic. -/
inductive Block.Valid (registry : Registry σ) (seen : List String) : Block → Prop where
  | data {entries : List (String × Json)} : Block.Valid registry seen ⟨.data, .object entries⟩
  | params {entries : List (String × Json)} :
      (∀ entry ∈ entries, ∃ required default, entry.2 = .array [.bool required, default] ∧
        default.DefaultValid registry seen) →
      Block.Valid registry seen ⟨.params, .object entries⟩
  | var {name : String} {value : Json} :
      (∀ text, value = .string text → SymbolValid registry seen text) →
      (CallSpec.isMapping value = true → value.Meaningful registry seen) →
      Block.Valid registry seen ⟨.var name, value⟩
  | action {name : String} {mapping : Json} : CallSpec.isMapping mapping = true →
      mapping.Meaningful registry seen → Block.Valid registry seen ⟨.action name, mapping⟩
  | response {value : Json} : (value.isObject = true ∨ ∃ text, value = .string text) →
      value.Meaningful registry seen → Block.Valid registry seen ⟨.response, value⟩

/-- Blocks with distinct references, the request data first or not at all, and each block valid after
those before it. -/
structure WellFormedBlocks (registry : Registry σ) (blocks : List Block) : Prop where
  keys : ∀ block ∈ blocks, block.key.Valid
  distinct : (blocks.map fun block => block.key.reference).Nodup
  dataFirst : ∀ block ∈ blocks.tail, block.key ≠ .data
  valid : ∀ before block after, blocks = before ++ block :: after →
    block.Valid registry (before.map fun earlier => earlier.key.reference)

/-- The document is the array that well-formed blocks spell. -/
def Json.IsManifest (registry : Registry σ) (document : Json) : Prop :=
  ∃ blocks, document = .array (blocks.map Block.toJson) ∧ WellFormedBlocks registry blocks

/-! ## What is checked -/

section

variable {registry : Registry σ} {seen : List String}

theorem Registry.check_ok_iff {path : String} :
    registry.check path = .ok () ↔ registry.Offers path :=
  Except.mapError_eq_ok_iff.symm.trans checkPath_ok_iff

theorem symbolValid_iff {text : String} :
    SymbolValid registry seen text ↔
      (Template.ofJson registry.root (.string text)).Scoped registry seen := by
  simp only [SymbolValid, ne_eq, ← Path.after?_eq_some_iff, Registry.check_ok_iff]
  rw [Template.ofJson, Symbol.ofText]
  cases Path.after? "#" text with
  | some rest => simp [Template.Scoped]
  | none =>
    by_cases below : Path.head text = registry.root
    · simp [below, Template.Scoped]
    · simp [below, Template.Scoped]

theorem SpreadKind.mark_ne_hash (kind : SpreadKind) (path reference : String) :
    kind.mark ++ path ≠ "#" ++ reference := by
  intro same
  have first := congrArg (fun text => text.toList.head?) same
  cases kind <;> simp [SpreadKind.mark, String.toList_append] at first

theorem spreadValid_iff {kind : SpreadKind} {text : String} :
    SpreadValid registry seen kind text ↔
      (Spread.ofText registry.root kind text).Scoped registry seen := by
  simp only [SpreadValid, ← Path.after?_eq_some_iff, Registry.check_ok_iff]
  rw [Spread.ofText]
  cases marked : Path.after? "#" text with
  | some rest =>
    have unspread : ∀ path, Path.after? kind.mark text ≠ some path := by
      intro path same
      rw [Path.after?_eq_some_iff] at marked same
      exact kind.mark_ne_hash path rest (same.symm.trans marked)
    simp [Spread.Scoped, unspread]
  | none =>
    cases Path.after? kind.mark text with
    | some path =>
      by_cases below : Path.head path = registry.root
      · simp [below, Spread.Scoped]
      · simp [below, Spread.Scoped]
    | none => simp [Spread.Scoped]

/-- The text that a target is looked up by: a leading `#` is left out. -/
theorem getD_after?_iff {text object : String} :
    (Path.after? "#" text).getD text = object ↔
      text = "#" ++ object ∨ ((∀ rest, text ≠ "#" ++ rest) ∧ text = object) := by
  simp only [ne_eq, ← Path.after?_eq_some_iff]
  cases Path.after? "#" text with
  | some rest => simp
  | none => simp

theorem targetValid_iff {target : String} :
    TargetValid registry seen target ↔
      (CallTarget.ofText registry.root target).Scoped registry seen := by
  simp only [TargetValid, ← getD_after?_iff, Registry.check_ok_iff]
  rw [CallTarget.ofText]
  by_cases below : Path.head target = registry.root
  · simp [below, CallTarget.Scoped]
  · rw [if_neg below]
    generalize (Path.after? "#" target).getD target = text
    cases cut : Path.splitLast? text with
    | some parts =>
      obtain ⟨object, name⟩ := parts
      obtain ⟨whole, noDot⟩ := Path.splitLast?_eq_some_iff.mp cut
      constructor
      · rintro (⟨impossible, _⟩ | ⟨_, other, method, same, methodNoDot, reaches⟩)
        · exact absurd impossible below
        · rw [Path.splitLast?_eq_some_iff.mpr ⟨same, methodNoDot⟩] at cut
          cases cut
          exact reaches
      · intro reaches
        exact .inr ⟨below, object, name, whole, noDot, reaches⟩
    | none =>
      refine iff_of_false ?_ not_false
      rintro (⟨impossible, _⟩ | ⟨_, other, method, same, methodNoDot, _⟩)
      · exact below impossible
      · rw [Path.splitLast?_eq_some_iff.mpr ⟨same, methodNoDot⟩] at cut
        cases cut

theorem Ensure.exists_readPredicate_iff {entries : Dict Json} :
    (∃ predicate, readPredicate entries = .ok predicate) ↔
      Dict.contains entries "value" ≠ Dict.contains entries "isnot" := by
  unfold readPredicate Dict.contains
  cases Dict.get? entries "value" with
  | none => cases Dict.get? entries "isnot" <;> simp
  | some expected => cases Dict.get? entries "isnot" <;> simp

theorem Ensure.exists_readError_iff {entries : Dict Json} :
    (∃ error, readError entries = .ok error) ↔
      ∀ raw, Dict.get? entries "error" = some raw → ∃ text, raw = .string text := by
  unfold readError
  cases Dict.get? entries "error" with
  | none => simp
  | some raw => cases raw <;> simp

theorem Ensure.exists_readCode_iff {entries : Dict Json} :
    (∃ code, readCode entries = .ok code) ↔ ∀ raw, Dict.get? entries "code" = some raw →
      ∃ code : Nat, raw = .number (.integer code) ∧ 100 ≤ code ∧ code ≤ 599 := by
  unfold readCode
  cases Dict.get? entries "code" with
  | none => simp
  | some raw =>
    cases raw with
    | number n =>
      dsimp only
      cases read : n.code? with
      | some code =>
        obtain ⟨rfl, _⟩ := Number.code?_eq_some_iff.mp read
        have status_iff : isStatusCode code = true ↔ 100 ≤ code ∧ code ≤ 599 := by
          simp [isStatusCode]
        dsimp only
        by_cases status : isStatusCode code = true
        · rw [if_pos status]
          refine iff_of_true ⟨code, rfl⟩ ?_
          rintro raw ⟨⟩
          exact ⟨code, rfl, status_iff.mp status⟩
        · rw [if_neg status]
          apply iff_of_false Except.not_exists_of_error
          intro valid
          obtain ⟨other, same, bounds⟩ := valid _ rfl
          cases same
          exact status (status_iff.mpr bounds)
      | none =>
        refine iff_of_false (by simp) ?_
        intro valid
        obtain ⟨code, same, least, greatest⟩ := valid (.number n) rfl
        have small : code < 65536 := by omega
        rw [Number.code?_eq_some_iff.mpr ⟨Json.number.inj same, small⟩] at read
        cases read
    | _ => simp

theorem Ensure.exists_readMessage_iff {entries : Dict Json} {key : String} :
    (∃ message, readMessage entries key = .ok message) ↔
      ∀ raw, Dict.get? entries key = some raw → raw = .null ∨ ∃ text, raw = .string text := by
  unfold readMessage
  cases Dict.get? entries key with
  | none => simp
  | some raw => cases raw <;> simp

theorem find?_notMem_eq_none_iff (allowed : List String) {entries : Dict Json} :
    (Dict.keys entries).find? (· ∉ allowed) = none ↔ ∀ key ∈ Dict.keys entries, key ∈ allowed := by
  simp [List.find?_eq_none]

theorem Ensure.exists_parse_iff {entries : Dict Json} :
    (∃ ensure, parse (.object entries) = .ok ensure) ↔ Ensure.Valid entries := by
  unfold parse
  dsimp only
  cases unknown : (Dict.keys entries).find? (· ∉ keys) with
  | some key =>
    apply iff_of_false Except.not_exists_of_error
    intro valid
    rw [(find?_notMem_eq_none_iff keys).mpr valid.keys] at unknown
    cases unknown
  | none =>
    have allowed := (find?_notMem_eq_none_iff keys).mp unknown
    simp only [Except.exists_bind_iff]
    constructor
    · rintro ⟨predicate, readPredicate, error, readError, code, readCode, log, readLog, debug,
        readDebug, _⟩
      refine ⟨allowed, exists_readPredicate_iff.mp ⟨_, readPredicate⟩,
        exists_readError_iff.mp ⟨_, readError⟩, exists_readCode_iff.mp ⟨_, readCode⟩, ?_⟩
      simp only [List.forall_mem_cons, List.not_mem_nil, false_imp_iff, implies_true, and_true]
      exact ⟨exists_readMessage_iff.mp ⟨_, readLog⟩, exists_readMessage_iff.mp ⟨_, readDebug⟩⟩
    · rintro ⟨_, predicate, error, code, message⟩
      obtain ⟨_, readPredicate⟩ := exists_readPredicate_iff.mpr predicate
      obtain ⟨_, readError⟩ := exists_readError_iff.mpr error
      obtain ⟨_, readCode⟩ := exists_readCode_iff.mpr code
      obtain ⟨_, readLog⟩ := exists_readMessage_iff.mpr (message "log" (by simp))
      obtain ⟨_, readDebug⟩ := exists_readMessage_iff.mpr (message "debug" (by simp))
      exact ⟨_, readPredicate, _, readError, _, readCode, _, readLog, _, readDebug, _, rfl⟩

theorem CallSpec.exists_readEnsure_iff {entries : Dict Json} :
    (∃ ensure, readEnsure entries = .ok ensure) ↔
      ∀ raw, Dict.get? entries "ensure" = some raw → raw = .null ∨ raw = .bool false ∨
        ∃ clause, raw = .object clause ∧ Ensure.Valid clause := by
  unfold readEnsure
  cases Dict.get? entries "ensure" with
  | none => simp
  | some raw =>
    cases raw with
    | null => simp
    | bool b => cases b <;> simp [Except.exists_map_iff, Ensure.parse]
    | object clause => simp [Except.exists_map_iff, Ensure.exists_parse_iff]
    | _ => simp [Except.exists_map_iff, Ensure.parse]

theorem CallSpec.exists_readHead_iff {entries : Dict Json} {target : String} :
    (∃ ensure, readHead entries = .ok (target, ensure)) ↔
      Dict.get? entries "call" = some (.string target) ∧
        (∀ key ∈ Dict.keys entries, key ∈ keys) ∧ ∃ ensure, readEnsure entries = .ok ensure := by
  have readCall_iff : readCall entries = .ok target ↔
      Dict.get? entries "call" = some (.string target) := by
    unfold readCall
    split
    · next call found => simp [found]
    · next other =>
      exact iff_of_false nofun (other target)
  unfold readHead
  constructor
  · rintro ⟨ensure, read⟩
    obtain ⟨call, called, checked⟩ := Except.bind_eq_ok_iff.mp read
    split at checked
    · cases checked
    · next allowed =>
      obtain ⟨clause, readClause, same⟩ := Except.bind_eq_ok_iff.mp checked
      cases same
      exact ⟨readCall_iff.mp called, (find?_notMem_eq_none_iff keys).mp allowed, _, readClause⟩
  · rintro ⟨called, allowed, clause, readClause⟩
    refine ⟨clause, Except.bind_eq_ok_iff.mpr ⟨target, readCall_iff.mpr called, ?_⟩⟩
    rw [(find?_notMem_eq_none_iff keys).mpr allowed]
    exact Except.bind_eq_ok_iff.mpr ⟨clause, readClause, rfl⟩

theorem CallSpec.valid_iff {entries : Dict Json} :
    CallSpec.Valid registry seen entries ↔ ∃ target ensure,
      readHead entries = .ok (target, ensure) ∧
        (CallTarget.ofText registry.root target).Scoped registry seen := by
  constructor
  · rintro ⟨allowed, ⟨target, called, valid⟩, clause⟩
    obtain ⟨ensure, read⟩ :=
      exists_readHead_iff.mpr ⟨called, allowed, exists_readEnsure_iff.mpr clause⟩
    exact ⟨target, ensure, read, targetValid_iff.mp valid⟩
  · rintro ⟨target, ensure, read, reaches⟩
    obtain ⟨called, allowed, clause⟩ := exists_readHead_iff.mp ⟨ensure, read⟩
    exact ⟨allowed, ⟨target, called, targetValid_iff.mpr reaches⟩, exists_readEnsure_iff.mp clause⟩

theorem CallSpec.Valid.contains_call {entries : Dict Json}
    (valid : CallSpec.Valid registry seen entries) : Dict.contains entries "call" = true := by
  obtain ⟨target, called, _⟩ := valid.target
  rw [Dict.contains, called]
  rfl

theorem Template.scoped_mapping_iff {entries : Dict Json}
    (called : Dict.contains entries "call" = true) :
    (Template.ofJson registry.root (.object entries)).Scoped registry seen ↔
      CallSpec.Valid registry seen entries ∧
        (Positional.ofEntries registry.root entries).Scoped registry seen ∧
        (Keyword.ofEntries registry.root entries).Scoped registry seen := by
  rw [Template.ofJson, if_pos called, CallSpec.valid_iff]
  cases read : CallSpec.readHead entries with
  | error cause =>
    apply iff_of_false id
    rintro ⟨⟨target, ensure, impossible, _⟩, _⟩
    cases impossible
  | ok head =>
    obtain ⟨target, ensure⟩ := head
    constructor
    · rintro ⟨reaches, arguments⟩
      exact ⟨⟨target, ensure, rfl, reaches⟩, arguments⟩
    · rintro ⟨⟨_, _, ⟨⟩, reaches⟩, arguments⟩
      exact ⟨reaches, arguments⟩

mutual

theorem Json.meaningful_iff : ∀ json : Json,
    json.Meaningful registry seen ↔ (Template.ofJson registry.root json).Scoped registry seen
  | .null => iff_of_true .null trivial
  | .bool _ => iff_of_true .bool trivial
  | .number _ => iff_of_true .number trivial
  | .string text => by
    rw [← symbolValid_iff]
    constructor
    · intro meaningful
      cases meaningful with
      | string valid => exact valid
    · exact .string
  | .array items => by
    rw [Template.ofJson, Template.Scoped, ← Json.itemsMeaningful_iff items]
    constructor
    · intro meaningful
      cases meaningful with
      | array valid => exact valid
    · exact .array
  | .object entries => by
    by_cases called : Dict.contains entries "call" = true
    · rw [Template.scoped_mapping_iff called, ← Json.givenArgsValid_iff entries,
        ← Json.givenKwargsValid_iff entries]
      constructor
      · intro meaningful
        cases meaningful with
        | object uncalled _ => simp [called] at uncalled
        | call valid args kwargs => exact ⟨valid, args, kwargs⟩
      · rintro ⟨valid, args, kwargs⟩
        exact .call valid args kwargs
    · rw [Template.ofJson, if_neg called, Template.Scoped, ← Json.entriesMeaningful_iff entries]
      constructor
      · intro meaningful
        cases meaningful with
        | object _ valid => exact valid
        | call valid _ _ => exact absurd valid.contains_call called
      · exact .object (Bool.eq_false_iff.mpr called)

theorem Json.itemsMeaningful_iff : ∀ items : List Json,
    (∀ item ∈ items, item.Meaningful registry seen) ↔
      Template.ScopedItems registry seen (Template.ofItems registry.root items)
  | [] => iff_of_true (fun _ member => nomatch member) trivial
  | item :: rest => by
    rw [List.forall_mem_cons, Json.meaningful_iff item, Json.itemsMeaningful_iff rest]
    rfl

theorem Json.entriesMeaningful_iff : ∀ entries : List (String × Json),
    (∀ entry ∈ entries, entry.2.Meaningful registry seen) ↔
      Template.ScopedEntries registry seen (Template.ofEntries registry.root entries)
  | [] => iff_of_true (fun _ member => nomatch member) trivial
  | (key, json) :: rest => by
    rw [List.forall_mem_cons, Json.meaningful_iff json, Json.entriesMeaningful_iff rest]
    rfl

theorem Json.argsValid_iff : ∀ json : Json,
    json.ArgsValid registry seen ↔ (Positional.ofJson registry.root json).Scoped registry seen
  | .null => iff_of_true .none trivial
  | .array items => by
    rw [Positional.ofJson, Positional.Scoped, ← Json.itemsMeaningful_iff items]
    constructor
    · intro valid
      cases valid with
      | items meaningful => exact meaningful
    · exact .items
  | .string text => by
    rw [Positional.ofJson, Positional.Scoped, ← spreadValid_iff]
    constructor
    · intro valid
      cases valid with
      | spread valid => exact valid
    · exact .spread
  | .bool _ | .number _ | .object _ => iff_of_false nofun id

theorem Json.givenArgsValid_iff : ∀ entries : List (String × Json),
    (∀ args, Dict.get? entries "args" = some args → args.ArgsValid registry seen) ↔
      (Positional.ofEntries registry.root entries).Scoped registry seen
  | [] => iff_of_true (fun _ impossible => nomatch impossible) trivial
  | (key, json) :: rest => by
    rw [Positional.ofEntries, Dict.get?_cons]
    by_cases given : key = "args"
    · simp [given, Json.argsValid_iff json]
    · simp [given, Json.givenArgsValid_iff rest]

theorem Json.kwargsValid_iff : ∀ json : Json,
    json.KwargsValid registry seen ↔ (Keyword.ofJson registry.root json).Scoped registry seen
  | .null => iff_of_true .none trivial
  | .object entries => by
    rw [Keyword.ofJson, Keyword.Scoped, ← Json.entriesMeaningful_iff entries]
    constructor
    · intro valid
      cases valid with
      | entries meaningful => exact meaningful
    · exact .entries
  | .string text => by
    rw [Keyword.ofJson, Keyword.Scoped, ← spreadValid_iff]
    constructor
    · intro valid
      cases valid with
      | spread valid => exact valid
    · exact .spread
  | .bool _ | .number _ | .array _ => iff_of_false nofun id

theorem Json.givenKwargsValid_iff : ∀ entries : List (String × Json),
    (∀ kwargs, Dict.get? entries "kwargs" = some kwargs → kwargs.KwargsValid registry seen) ↔
      (Keyword.ofEntries registry.root entries).Scoped registry seen
  | [] => iff_of_true (fun _ impossible => nomatch impossible) trivial
  | (key, json) :: rest => by
    rw [Keyword.ofEntries, Dict.get?_cons]
    by_cases given : key = "kwargs"
    · simp [given, Json.kwargsValid_iff json]
    · simp [given, Json.givenKwargsValid_iff rest]

end

end

end ManifestGate
