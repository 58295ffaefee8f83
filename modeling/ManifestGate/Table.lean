/-!
# Tables

A table keeps one record under each key. Only look-ups show what it holds, so its rows stand in the
order of writing, the latest first.
-/

namespace ManifestGate

/-- Records by key, the latest row first. -/
structure Table (κ : Type u) (α : Type v) where
  rows : List (κ × α)

namespace Table

variable {κ : Type u} {α : Type v} [DecidableEq κ]

def empty : Table κ α := ⟨[]⟩

def get? (table : Table κ α) (key : κ) : Option α :=
  (table.rows.find? fun row => row.1 = key).map Prod.snd

/-- Puts a record under `key`, in place of the one that was there. -/
def put (table : Table κ α) (key : κ) (value : α) : Table κ α :=
  ⟨(key, value) :: table.rows.filter fun row => row.1 ≠ key⟩

@[simp] theorem get?_empty (key : κ) : (empty : Table κ α).get? key = none := rfl

@[simp] theorem get?_put_self (table : Table κ α) (key : κ) (value : α) :
    (table.put key value).get? key = some value := by
  simp [get?, put]

theorem get?_put_of_ne (table : Table κ α) {key other : κ} (value : α) (different : key ≠ other) :
    (table.put key value).get? other = table.get? other := by
  simp only [get?, put, List.find?_cons, different, decide_false, List.find?_filter]
  congr 2
  funext row
  by_cases same : row.1 = other
  · simp [same, different.symm]
  · simp [same]

end Table

end ManifestGate
