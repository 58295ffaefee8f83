/-!
# Dictionaries

A dictionary is a list of entries in ascending key order, each key once. Walking a dictionary
is walking this list, so everything that is evaluated, checked or printed per key goes in key order.
-/

namespace ManifestGate

/-- Entries by key. The operations below keep the keys strictly ascending. -/
abbrev Dict (α : Type u) := List (String × α)

namespace Dict

/-- Strictly ascending keys: the order that every dictionary operation keeps. -/
def Ascending (entries : Dict α) : Prop :=
  entries.Pairwise fun a b => a.1 < b.1

def get? : Dict α → String → Option α
  | [], _ => none
  | (k, value) :: rest, key => if k = key then some value else get? rest key

def contains (entries : Dict α) (key : String) : Bool :=
  (entries.get? key).isSome

def keys (entries : Dict α) : List String :=
  entries.map Prod.fst

/-- Puts `value` under `key`, in place of the value that was there. -/
def insert : Dict α → String → α → Dict α
  | [], key, value => [(key, value)]
  | (k, v) :: rest, key, value =>
    if key < k then (key, value) :: (k, v) :: rest
    else if key = k then (key, value) :: rest
    else (k, v) :: insert rest key value

/-- Puts in entries one after the other. -/
def insertAll (dict : Dict α) (entries : List (String × α)) : Dict α :=
  entries.foldl (fun dict entry => dict.insert entry.1 entry.2) dict

/-- The dictionary of a list of entries in any order; of two entries of one key the later stands. -/
def ofList (entries : List (String × α)) : Dict α :=
  insertAll [] entries

@[simp] theorem get?_nil (key : String) : get? ([] : Dict α) key = none := rfl

theorem get?_cons (k : String) (v : α) (rest : Dict α) (key : String) :
    get? ((k, v) :: rest) key = if k = key then some v else get? rest key := rfl

@[simp] theorem get?_insert_self (dict : Dict α) (key : String) (value : α) :
    (dict.insert key value).get? key = some value := by
  induction dict with
  | nil => simp [insert, get?]
  | cons entry rest ih =>
    obtain ⟨k, v⟩ := entry
    unfold insert
    by_cases before : key < k
    · simp [before, get?]
    · by_cases same : key = k
      · rw [if_neg before, if_pos same]
        simp [get?]
      · simp [before, same, get?, Ne.symm same, ih]

theorem get?_insert_of_ne (dict : Dict α) {key other : String} (value : α) (different : key ≠ other) :
    (dict.insert key value).get? other = dict.get? other := by
  induction dict with
  | nil => simp [insert, get?, different]
  | cons entry rest ih =>
    obtain ⟨k, v⟩ := entry
    unfold insert
    by_cases before : key < k
    · simp [before, get?, different]
    · by_cases same : key = k
      · rw [if_neg before, if_pos same]
        simp [get?, different, ← same]
      · simp [before, same, get?, ih]

theorem mem_of_get?_eq_some {dict : Dict α} {key : String} {value : α}
    (found : dict.get? key = some value) : (key, value) ∈ dict := by
  induction dict with
  | nil => simp at found
  | cons entry rest ih =>
    obtain ⟨k, v⟩ := entry
    rw [get?_cons] at found
    split at found
    · next same => simp_all
    · exact List.mem_cons_of_mem _ (ih found)

/-- Where no key stands twice, every entry is found. -/
theorem get?_of_mem {dict : Dict α} (distinct : dict.keys.Nodup) {entry : String × α}
    (member : entry ∈ dict) : dict.get? entry.1 = some entry.2 := by
  induction dict with
  | nil => cases member
  | cons first rest ih =>
    obtain ⟨apart, distinctRest⟩ := List.nodup_cons.mp distinct
    rw [get?_cons]
    rcases List.mem_cons.mp member with rfl | later
    · rw [if_pos rfl]
    · have different : first.1 ≠ entry.1 := by
        intro same
        rw [same] at apart
        exact apart (List.mem_map_of_mem later)
      rw [if_neg different]
      exact ih distinctRest later

@[simp] theorem keys_nil : keys ([] : Dict α) = [] := rfl

@[simp] theorem keys_cons (k : String) (v : α) (rest : Dict α) :
    keys ((k, v) :: rest) = k :: keys rest := rfl

theorem contains_iff_mem_keys {dict : Dict α} {key : String} :
    dict.contains key = true ↔ key ∈ dict.keys := by
  induction dict with
  | nil => simp [contains]
  | cons entry rest ih =>
    obtain ⟨k, v⟩ := entry
    simp only [contains, get?_cons, keys_cons, List.mem_cons] at ih ⊢
    by_cases same : k = key
    · simp [same]
    · rw [if_neg same, ih]
      exact ⟨.inr, fun member => member.resolve_left (Ne.symm same)⟩

theorem contains_insert (dict : Dict α) (key other : String) (value : α) :
    (dict.insert key value).contains other = true ↔ other = key ∨ dict.contains other = true := by
  by_cases same : key = other
  · subst same
    simp [contains]
  · simp [contains, get?_insert_of_ne dict value same, Ne.symm same]

theorem get?_insertAll_of_notMem (dict : Dict α) {entries : List (String × α)} {key : String}
    (absent : key ∉ keys entries) : (dict.insertAll entries).get? key = dict.get? key := by
  induction entries generalizing dict with
  | nil => rfl
  | cons entry rest ih =>
    obtain ⟨k, v⟩ := entry
    simp only [keys_cons, List.mem_cons, not_or] at absent
    change ((dict.insert k v).insertAll rest).get? key = dict.get? key
    rw [ih (dict.insert k v) absent.2, get?_insert_of_ne dict v (Ne.symm absent.1)]

theorem contains_insertAll (dict : Dict α) (entries : List (String × α)) (key : String) :
    (dict.insertAll entries).contains key = true ↔
      dict.contains key = true ∨ key ∈ keys entries := by
  induction entries generalizing dict with
  | nil => simp [insertAll]
  | cons entry rest ih =>
    obtain ⟨k, v⟩ := entry
    change ((dict.insert k v).insertAll rest).contains key = true ↔ _
    rw [ih, contains_insert, keys_cons, List.mem_cons, or_assoc]
    exact or_left_comm

theorem mem_insert {dict : Dict α} {key : String} {value : α} {entry : String × α}
    (member : entry ∈ dict.insert key value) : entry = (key, value) ∨ entry ∈ dict := by
  induction dict with
  | nil => simpa [insert] using member
  | cons head rest ih =>
    obtain ⟨k, v⟩ := head
    unfold insert at member
    split at member
    · simpa using member
    · split at member
      · rcases List.mem_cons.1 member with same | later
        · exact .inl same
        · exact .inr (List.mem_cons_of_mem _ later)
      · rcases List.mem_cons.1 member with same | later
        · exact .inr (same ▸ List.mem_cons_self)
        · rcases ih later with same | inside
          · exact .inl same
          · exact .inr (List.mem_cons_of_mem _ inside)

theorem ascending_insert {dict : Dict α} (ordered : Ascending dict) (key : String) (value : α) :
    Ascending (dict.insert key value) := by
  induction dict with
  | nil => simp [insert, Ascending]
  | cons head rest ih =>
    obtain ⟨k, v⟩ := head
    obtain ⟨least, later⟩ := List.pairwise_cons.1 ordered
    unfold insert
    split
    · next before =>
      refine List.pairwise_cons.2 ⟨fun entry member => ?_, ordered⟩
      rcases List.mem_cons.1 member with rfl | inside
      · exact before
      · exact String.lt_trans before (least entry inside)
    · next after =>
      split
      · next same => exact List.pairwise_cons.2 ⟨same ▸ least, later⟩
      · next different =>
        refine List.pairwise_cons.2 ⟨fun entry member => ?_, ih later⟩
        rcases mem_insert member with rfl | inside
        · exact Std.lt_of_le_of_ne (String.not_lt.1 after) (Ne.symm different)
        · exact least entry inside

theorem ascending_insertAll {dict : Dict α} (ordered : Ascending dict)
    (entries : List (String × α)) : Ascending (dict.insertAll entries) := by
  induction entries generalizing dict with
  | nil => exact ordered
  | cons entry rest ih => exact ih (ascending_insert ordered entry.1 entry.2)

theorem ascending_ofList (entries : List (String × α)) : Ascending (ofList entries) :=
  ascending_insertAll List.Pairwise.nil entries

/-- No key stands twice. -/
theorem Ascending.nodup_keys {dict : Dict α} (ordered : Ascending dict) : dict.keys.Nodup := by
  refine List.pairwise_map.mpr (ordered.imp ?_)
  intro first second before same
  rw [same] at before
  exact String.lt_irrefl _ before

/-- Under a fresh key an entry comes in and nothing else happens. -/
theorem insert_perm {dict : Dict α} {key : String} (value : α) (fresh : key ∉ dict.keys) :
    (dict.insert key value).Perm ((key, value) :: dict) := by
  induction dict with
  | nil => exact .refl _
  | cons head rest ih =>
    obtain ⟨k, v⟩ := head
    simp only [keys_cons, List.mem_cons, not_or] at fresh
    unfold insert
    split
    · exact .refl _
    · rw [if_neg fresh.1]
      exact ((ih fresh.2).cons (k, v)).trans (.swap _ _ rest)

theorem insertAll_perm {dict : Dict α} {entries : List (String × α)}
    (distinct : (keys entries).Nodup) (fresh : ∀ key ∈ keys entries, key ∉ dict.keys) :
    (dict.insertAll entries).Perm (dict ++ entries) := by
  induction entries generalizing dict with
  | nil => rw [List.append_nil]; exact .refl dict
  | cons entry rest ih =>
    obtain ⟨key, value⟩ := entry
    obtain ⟨apart, distinctRest⟩ := List.nodup_cons.mp distinct
    obtain ⟨freshKey, freshRest⟩ := List.forall_mem_cons.mp fresh
    have first := insert_perm value freshKey
    have later : ∀ other ∈ keys rest, other ∉ (dict.insert key value).keys := by
      intro other member inside
      rcases List.mem_cons.mp ((first.map Prod.fst).mem_iff.mp inside) with same | before
      · exact apart (same ▸ member)
      · exact freshRest other member before
    have middle : ((key, value) :: (dict ++ rest)).Perm (dict ++ (key, value) :: rest) :=
      List.perm_middle.symm
    exact (ih distinctRest later).trans ((first.append_right rest).trans middle)

end Dict

end ManifestGate
