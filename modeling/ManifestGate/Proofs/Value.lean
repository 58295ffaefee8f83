import ManifestGate.Proofs.Result
import ManifestGate.Value

/-!
# The API objects in a value

An API object stands in a value if it is met on the way through lists and maps; what the attributes
of an object hold does not count. A value is a document if no object stands in it, and it can be
dumped if every object in it has a document form.
-/

namespace ManifestGate

namespace Value

/-- The object is the value, or it stands in an item or under a key of it. -/
inductive Holds (api : ApiObject) : Value → Prop where
  | object : Holds api (.object api)
  | item {items : List Value} {item : Value} : item ∈ items → Holds api item →
      Holds api (.list items)
  | entry {entries : List (String × Value)} {key : String} {value : Value} :
      (key, value) ∈ entries → Holds api value → Holds api (.map entries)

/-- An object without a document form stands in the value. -/
def HoldsFormless (value : Value) : Prop :=
  ∃ api : ApiObject, value.Holds api ∧ api.json = none

section

variable {api : ApiObject} {items : List Value} {entries : List (String × Value)}

theorem holds_object_iff {other : ApiObject} : Holds api (.object other) ↔ other = api := by
  constructor
  · intro holds
    cases holds
    rfl
  · rintro rfl
    exact .object

theorem holds_list_iff : Holds api (.list items) ↔ ∃ item ∈ items, Holds api item := by
  constructor
  · intro holds
    cases holds with
    | item member inside => exact ⟨_, member, inside⟩
  · rintro ⟨item, member, inside⟩
    exact .item member inside

theorem holds_map_iff : Holds api (.map entries) ↔ ∃ entry ∈ entries, Holds api entry.2 := by
  constructor
  · intro holds
    cases holds with
    | entry member inside => exact ⟨_, member, inside⟩
  · rintro ⟨⟨key, value⟩, member, inside⟩
    exact .entry member inside

theorem holdsFormless_object_iff : HoldsFormless (.object api) ↔ api.json = none := by
  simp [HoldsFormless, holds_object_iff]

theorem holdsFormless_list_iff :
    HoldsFormless (.list items) ↔ ∃ item ∈ items, item.HoldsFormless := by
  simp only [HoldsFormless, holds_list_iff]
  constructor
  · rintro ⟨api, ⟨item, member, inside⟩, formless⟩
    exact ⟨item, member, api, inside, formless⟩
  · rintro ⟨item, member, api, inside, formless⟩
    exact ⟨api, ⟨item, member, inside⟩, formless⟩

theorem holdsFormless_map_iff :
    HoldsFormless (.map entries) ↔ ∃ entry ∈ entries, entry.2.HoldsFormless := by
  simp only [HoldsFormless, holds_map_iff]
  constructor
  · rintro ⟨api, ⟨entry, member, inside⟩, formless⟩
    exact ⟨entry, member, api, inside, formless⟩
  · rintro ⟨entry, member, api, inside, formless⟩
    exact ⟨api, ⟨entry, member, inside⟩, formless⟩

end

/-! ## Dumps -/

theorem dumpItems_cons_eq_ok_iff {item : Value} {rest : List Value} {dumped : List Json} :
    dumpItems (item :: rest) = .ok dumped ↔
      ∃ json more, item.dump = .ok json ∧ dumpItems rest = .ok more ∧ json :: more = dumped := by
  simp only [dumpItems, Except.bind_eq_ok_iff, pure, Except.pure, Except.ok.injEq]
  constructor
  · rintro ⟨json, first, more, others, same⟩
    exact ⟨json, more, first, others, same⟩
  · rintro ⟨json, more, first, others, same⟩
    exact ⟨json, first, more, others, same⟩

theorem dumpEntries_cons_eq_ok_iff {key : String} {value : Value} {rest : List (String × Value)}
    {dumped : List (String × Json)} :
    dumpEntries ((key, value) :: rest) = .ok dumped ↔
      ∃ json more, value.dump = .ok json ∧ dumpEntries rest = .ok more ∧
        (key, json) :: more = dumped := by
  simp only [dumpEntries, Except.bind_eq_ok_iff, pure, Except.pure, Except.ok.injEq]
  constructor
  · rintro ⟨json, first, more, others, same⟩
    exact ⟨json, more, first, others, same⟩
  · rintro ⟨json, more, first, others, same⟩
    exact ⟨json, first, more, others, same⟩

mutual

/-- A dump fails exactly for lack of a document form of an object. -/
theorem exists_dump_iff : ∀ value : Value, (∃ json, value.dump = .ok json) ↔ ¬value.HoldsFormless
  | .null | .bool _ | .number _ | .string _ => by
    simp only [dump, Except.ok.injEq, exists_eq', true_iff]
    rintro ⟨api, holds, _⟩
    cases holds
  | .list items => by
    rw [dump, Except.exists_map_iff, exists_dumpItems_iff items, holdsFormless_list_iff]
    simp
  | .map entries => by
    rw [dump, Except.exists_map_iff, exists_dumpEntries_iff entries, holdsFormless_map_iff]
    simp
  | .object api => by
    rw [dump, holdsFormless_object_iff]
    cases api.json <;> simp

theorem exists_dumpItems_iff : ∀ items : List Value,
    (∃ dumped, dumpItems items = .ok dumped) ↔ ∀ item ∈ items, ¬item.HoldsFormless
  | [] => by simp [dumpItems]
  | item :: rest => by
    rw [List.forall_mem_cons, ← exists_dump_iff item, ← exists_dumpItems_iff rest]
    simp only [dumpItems_cons_eq_ok_iff]
    constructor
    · rintro ⟨_, json, more, first, others, _⟩
      exact ⟨⟨json, first⟩, more, others⟩
    · rintro ⟨⟨json, first⟩, more, others⟩
      exact ⟨_, json, more, first, others, rfl⟩

theorem exists_dumpEntries_iff : ∀ entries : List (String × Value),
    (∃ dumped, dumpEntries entries = .ok dumped) ↔ ∀ entry ∈ entries, ¬entry.2.HoldsFormless
  | [] => by simp [dumpEntries]
  | (key, value) :: rest => by
    rw [List.forall_mem_cons, ← exists_dump_iff value, ← exists_dumpEntries_iff rest]
    simp only [dumpEntries_cons_eq_ok_iff]
    constructor
    · rintro ⟨_, json, more, first, others, _⟩
      exact ⟨⟨json, first⟩, more, others⟩
    · rintro ⟨⟨json, first⟩, more, others⟩
      exact ⟨_, json, more, first, others, rfl⟩

end

mutual

/-- A document is dumped as it is. -/
theorem dump_ofJson : ∀ json : Json, (ofJson json).dump = .ok json
  | .null | .bool _ | .number _ | .string _ => rfl
  | .array items => by
    rw [ofJson, dump, dumpItems_ofItems items]
    rfl
  | .object entries => by
    rw [ofJson, dump, dumpEntries_ofEntries entries]
    rfl

theorem dumpItems_ofItems : ∀ items : List Json, dumpItems (ofItems items) = .ok items
  | [] => rfl
  | item :: rest =>
    dumpItems_cons_eq_ok_iff.mpr ⟨item, rest, dump_ofJson item, dumpItems_ofItems rest, rfl⟩

theorem dumpEntries_ofEntries : ∀ entries : List (String × Json),
    dumpEntries (ofEntries entries) = .ok entries
  | [] => rfl
  | (_, json) :: rest =>
    dumpEntries_cons_eq_ok_iff.mpr
      ⟨json, rest, dump_ofJson json, dumpEntries_ofEntries rest, rfl⟩

end

mutual

/-- No object stands in a document. -/
theorem not_holds_ofJson (api : ApiObject) : ∀ json : Json, ¬(ofJson json).Holds api
  | .null, holds | .bool _, holds | .number _, holds | .string _, holds => by cases holds
  | .array items, holds => by
    obtain ⟨item, member, inside⟩ := holds_list_iff.mp holds
    exact not_holds_ofItems api items item member inside
  | .object entries, holds => by
    obtain ⟨entry, member, inside⟩ := holds_map_iff.mp holds
    exact not_holds_ofEntries api entries entry member inside

theorem not_holds_ofItems (api : ApiObject) : ∀ items : List Json,
    ∀ item ∈ ofItems items, ¬item.Holds api
  | [], _, member => nomatch member
  | first :: rest, item, member => by
    rcases List.mem_cons.mp member with rfl | later
    · exact not_holds_ofJson api first
    · exact not_holds_ofItems api rest item later

theorem not_holds_ofEntries (api : ApiObject) : ∀ entries : List (String × Json),
    ∀ entry ∈ ofEntries entries, ¬entry.2.Holds api
  | [], _, member => nomatch member
  | (_, json) :: rest, entry, member => by
    rcases List.mem_cons.mp member with rfl | later
    · exact not_holds_ofJson api json
    · exact not_holds_ofEntries api rest entry later

end

/-! ## Documents -/

theorem toItems?_cons_eq_some_iff {item : Value} {rest : List Value} {documents : List Json} :
    toItems? (item :: rest) = some documents ↔
      ∃ json more, item.toJson? = some json ∧ toItems? rest = some more ∧ json :: more = documents := by
  rw [toItems?]
  cases item.toJson? <;> cases toItems? rest <;> simp

theorem toEntries?_cons_eq_some_iff {key : String} {value : Value} {rest : List (String × Value)}
    {documents : List (String × Json)} :
    toEntries? ((key, value) :: rest) = some documents ↔
      ∃ json more, value.toJson? = some json ∧ toEntries? rest = some more ∧
        (key, json) :: more = documents := by
  rw [toEntries?]
  cases value.toJson? <;> cases toEntries? rest <;> simp

mutual

/-- A value is what its document is read as. -/
theorem ofJson_of_toJson? : ∀ {value : Value} {json : Json},
    value.toJson? = some json → ofJson json = value
  | .null, json, given | .bool _, json, given | .number _, json, given | .string _, json, given => by
    cases given
    rfl
  | .list items, json, given => by
    obtain ⟨documents, found, rfl⟩ := Option.map_eq_some_iff.mp given
    rw [ofJson, ofItems_of_toItems? found]
  | .map entries, json, given => by
    obtain ⟨documents, found, rfl⟩ := Option.map_eq_some_iff.mp given
    rw [ofJson, ofEntries_of_toEntries? found]
  | .object api, json, given => by cases given

theorem ofItems_of_toItems? : ∀ {items : List Value} {documents : List Json},
    toItems? items = some documents → ofItems documents = items
  | [], documents, given => by
    cases given
    rfl
  | item :: rest, documents, given => by
    obtain ⟨json, more, first, others, rfl⟩ := toItems?_cons_eq_some_iff.mp given
    rw [ofItems, ofJson_of_toJson? first, ofItems_of_toItems? others]

theorem ofEntries_of_toEntries? : ∀ {entries : List (String × Value)}
    {documents : List (String × Json)},
    toEntries? entries = some documents → ofEntries documents = entries
  | [], documents, given => by
    cases given
    rfl
  | (key, value) :: rest, documents, given => by
    obtain ⟨json, more, first, others, rfl⟩ := toEntries?_cons_eq_some_iff.mp given
    rw [ofEntries, ofJson_of_toJson? first, ofEntries_of_toEntries? others]

end

/-- No API object stands in the value. -/
def Plain (value : Value) : Prop :=
  ∀ api : ApiObject, ¬value.Holds api

theorem plain_list_iff {items : List Value} : Plain (.list items) ↔ ∀ item ∈ items, item.Plain := by
  simp only [Plain, holds_list_iff]
  constructor
  · intro plain item member api inside
    exact plain api ⟨item, member, inside⟩
  · rintro plain api ⟨item, member, inside⟩
    exact plain item member api inside

theorem plain_map_iff {entries : List (String × Value)} :
    Plain (.map entries) ↔ ∀ entry ∈ entries, entry.2.Plain := by
  simp only [Plain, holds_map_iff]
  constructor
  · intro plain entry member api inside
    exact plain api ⟨entry, member, inside⟩
  · rintro plain api ⟨entry, member, inside⟩
    exact plain entry member api inside

mutual

theorem exists_toJson?_of_plain : ∀ {value : Value}, value.Plain → ∃ json, value.toJson? = some json
  | .null, _ | .bool _, _ | .number _, _ | .string _, _ => ⟨_, rfl⟩
  | .list items, plain => by
    obtain ⟨documents, found⟩ := exists_toItems?_of_plain (plain_list_iff.mp plain)
    exact ⟨.array documents, Option.map_eq_some_iff.mpr ⟨documents, found, rfl⟩⟩
  | .map entries, plain => by
    obtain ⟨documents, found⟩ := exists_toEntries?_of_plain (plain_map_iff.mp plain)
    exact ⟨.object documents, Option.map_eq_some_iff.mpr ⟨documents, found, rfl⟩⟩
  | .object api, plain => absurd .object (plain api)

theorem exists_toItems?_of_plain : ∀ {items : List Value}, (∀ item ∈ items, item.Plain) →
    ∃ documents, toItems? items = some documents
  | [], _ => ⟨[], rfl⟩
  | item :: rest, plain => by
    obtain ⟨plainFirst, plainRest⟩ := List.forall_mem_cons.mp plain
    obtain ⟨json, first⟩ := exists_toJson?_of_plain plainFirst
    obtain ⟨more, others⟩ := exists_toItems?_of_plain plainRest
    exact ⟨json :: more, toItems?_cons_eq_some_iff.mpr ⟨json, more, first, others, rfl⟩⟩

theorem exists_toEntries?_of_plain : ∀ {entries : List (String × Value)},
    (∀ entry ∈ entries, entry.2.Plain) → ∃ documents, toEntries? entries = some documents
  | [], _ => ⟨[], rfl⟩
  | (key, value) :: rest, plain => by
    obtain ⟨plainFirst, plainRest⟩ := List.forall_mem_cons.mp plain
    obtain ⟨json, first⟩ := exists_toJson?_of_plain plainFirst
    obtain ⟨more, others⟩ := exists_toEntries?_of_plain plainRest
    exact ⟨(key, json) :: more,
      toEntries?_cons_eq_some_iff.mpr ⟨json, more, first, others, rfl⟩⟩

end

theorem plain_ofJson (json : Json) : (ofJson json).Plain :=
  fun api => not_holds_ofJson api json

/-- A value has a document exactly if no object stands in it. -/
theorem exists_toJson?_iff {value : Value} : (∃ json, value.toJson? = some json) ↔ value.Plain := by
  constructor
  · rintro ⟨json, given⟩
    rw [← ofJson_of_toJson? given]
    exact plain_ofJson json
  · exact exists_toJson?_of_plain

theorem toJson?_of_holds {value : Value} {api : ApiObject} (holds : value.Holds api) :
    value.toJson? = none := by
  rw [Option.eq_none_iff_forall_ne_some]
  intro json given
  exact exists_toJson?_iff.mp ⟨json, given⟩ api holds

mutual

theorem same_refl : ∀ value : Value, value.same value = true
  | .null => rfl
  | .bool _ | .string _ | .object _ => by simp [same]
  | .number n => by rw [same, Number.same_refl]
  | .list items => by rw [same, sameItems_refl items]
  | .map entries => by rw [same, sameEntries_refl entries]

theorem sameItems_refl : ∀ items : List Value, sameItems items items = true
  | [] => rfl
  | item :: rest => by
    rw [sameItems, same_refl item, sameItems_refl rest]
    rfl

theorem sameEntries_refl : ∀ entries : List (String × Value), sameEntries entries entries = true
  | [] => rfl
  | (key, value) :: rest => by
    rw [sameEntries, same_refl value, sameEntries_refl rest]
    simp

end

theorem ofJson_injective : Function.Injective ofJson :=
  fun one other same =>
    Option.some.inj ((toJson?_ofJson one).symm.trans ((congrArg toJson? same).trans
      (toJson?_ofJson other)))

end Value

end ManifestGate
