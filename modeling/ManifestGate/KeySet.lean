/-!
# Sets of texts

A set of texts is a list in ascending order, each text once.
-/

namespace ManifestGate.KeySet

/-- Strictly ascending: the order that every operation keeps. -/
def Ascending (keys : List String) : Prop :=
  keys.Pairwise (· < ·)

def insert : List String → String → List String
  | [], key => [key]
  | k :: rest, key =>
    if key < k then key :: k :: rest
    else if key = k then k :: rest
    else k :: insert rest key

def ofList (keys : List String) : List String :=
  keys.foldl insert []

theorem mem_insert {keys : List String} {key other : String} :
    other ∈ insert keys key ↔ other = key ∨ other ∈ keys := by
  induction keys with
  | nil => simp [insert]
  | cons k rest ih =>
    unfold insert
    split
    · simp
    · split
      · next same => subst same; simp
      · simpa only [List.mem_cons, ih] using or_left_comm

theorem mem_foldl_insert {keys start : List String} {other : String} :
    other ∈ keys.foldl insert start ↔ other ∈ keys ∨ other ∈ start := by
  induction keys generalizing start with
  | nil => simp
  | cons key rest ih =>
    simp only [List.foldl_cons, ih, mem_insert, List.mem_cons]
    rw [or_left_comm, or_assoc]

theorem mem_ofList {keys : List String} {other : String} : other ∈ ofList keys ↔ other ∈ keys := by
  simp [ofList, mem_foldl_insert]

theorem ascending_insert {keys : List String} (ordered : Ascending keys) (key : String) :
    Ascending (insert keys key) := by
  induction keys with
  | nil => simp [insert, Ascending]
  | cons k rest ih =>
    obtain ⟨least, later⟩ := List.pairwise_cons.1 ordered
    unfold insert
    split
    · next before =>
      refine List.pairwise_cons.2 ⟨fun other member => ?_, ordered⟩
      rcases List.mem_cons.1 member with rfl | inside
      · exact before
      · exact String.lt_trans before (least other inside)
    · next after =>
      split
      · exact ordered
      · next different =>
        refine List.pairwise_cons.2 ⟨fun other member => ?_, ih later⟩
        rcases mem_insert.1 member with rfl | inside
        · exact Std.lt_of_le_of_ne (String.not_lt.1 after) (Ne.symm different)
        · exact least other inside

theorem ascending_ofList (keys : List String) : Ascending (ofList keys) := by
  have kept : ∀ start : List String, Ascending start → Ascending (keys.foldl insert start) := by
    induction keys with
    | nil => exact fun _ ordered => ordered
    | cons key rest ih => exact fun start ordered => ih _ (ascending_insert ordered key)
  exact kept [] List.Pairwise.nil

end ManifestGate.KeySet
