/-!
# Dotted paths

References and capability paths are texts of segments with a dot between each two. Cutting a text
at its dots and joining the pieces again gives the text back.
-/

namespace ManifestGate.Path

/-- The pieces between the occurrences of `mark`; one more than there are occurrences. -/
def cut (mark : Char) : List Char → List (List Char)
  | [] => [[]]
  | c :: rest =>
    if c = mark then [] :: cut mark rest
    else
      match cut mark rest with
      | [] => [[c]]
      | piece :: pieces => (c :: piece) :: pieces

/-- Lays the pieces out again with `mark` between each two. -/
def lay (mark : Char) : List (List Char) → List Char
  | [] => []
  | [piece] => piece
  | piece :: next :: pieces => piece ++ mark :: lay mark (next :: pieces)

/-- The dot-separated segments of a text. There is at least one. -/
def segments (text : String) : List String :=
  (cut '.' text.toList).map String.ofList

def join (parts : List String) : String :=
  String.ofList (lay '.' (parts.map String.toList))

def head (text : String) : String :=
  (segments text).headD ""

/-- The text before the last dot and the segment after it, if there is a dot. -/
def splitLast? (text : String) : Option (String × String) :=
  let parts := segments text
  if parts.length < 2 then none else some (join parts.dropLast, parts.getLastD "")

/-- The text after the mark that it starts with. -/
def after? (mark : String) (text : String) : Option String :=
  if mark.toList.isPrefixOf text.toList then
    some (String.ofList (text.toList.drop mark.toList.length))
  else none

theorem cut_ne_nil (mark : Char) (text : List Char) : cut mark text ≠ [] := by
  cases text with
  | nil => simp [cut]
  | cons c rest =>
    unfold cut
    split
    · simp
    · split <;> simp

theorem lay_cut (mark : Char) (text : List Char) : lay mark (cut mark text) = text := by
  induction text with
  | nil => rfl
  | cons c rest ih =>
    unfold cut
    split
    · next same =>
      subst same
      match found : cut c rest with
      | [] => exact absurd found (cut_ne_nil c rest)
      | piece :: pieces =>
        rw [found] at ih
        simp [lay, ih]
    · match found : cut mark rest with
      | [] => exact absurd found (cut_ne_nil mark rest)
      | [piece] => simpa [found, lay] using ih
      | piece :: next :: pieces => simpa [found, lay] using ih

theorem not_mem_of_mem_cut {mark : Char} {text piece : List Char} (member : piece ∈ cut mark text) :
    mark ∉ piece := by
  induction text generalizing piece with
  | nil => simp_all [cut]
  | cons c rest ih =>
    unfold cut at member
    split at member
    · rcases List.mem_cons.1 member with rfl | inside
      · simp
      · exact ih inside
    · next different =>
      match found : cut mark rest with
      | [] => exact absurd found (cut_ne_nil mark rest)
      | first :: pieces =>
        rw [found] at member ih
        rcases List.mem_cons.1 member with rfl | inside
        · intro contained
          rcases List.mem_cons.1 contained with same | later
          · exact different same.symm
          · exact ih List.mem_cons_self later
        · exact ih (List.mem_cons_of_mem _ inside)

theorem cut_of_not_mem {mark : Char} {piece : List Char} (absent : mark ∉ piece) :
    cut mark piece = [piece] := by
  induction piece with
  | nil => rfl
  | cons c rest ih =>
    have different : c ≠ mark := fun same => absent (same ▸ List.mem_cons_self)
    simp [cut, different, ih fun later => absent (List.mem_cons_of_mem _ later)]

theorem cut_append_mark {mark : Char} {piece : List Char} (absent : mark ∉ piece)
    (rest : List Char) : cut mark (piece ++ mark :: rest) = piece :: cut mark rest := by
  induction piece with
  | nil => simp [cut]
  | cons c tail ih =>
    have different : c ≠ mark := fun same => absent (same ▸ List.mem_cons_self)
    simp [cut, different, ih fun later => absent (List.mem_cons_of_mem _ later)]

theorem cut_lay {mark : Char} {pieces : List (List Char)} (nonempty : pieces ≠ [])
    (absent : ∀ piece ∈ pieces, mark ∉ piece) : cut mark (lay mark pieces) = pieces := by
  induction pieces with
  | nil => exact absurd rfl nonempty
  | cons piece rest ih =>
    match rest with
    | [] => exact cut_of_not_mem (absent piece List.mem_cons_self)
    | next :: later =>
      rw [lay, cut_append_mark (absent piece List.mem_cons_self),
        ih (by simp) fun p member => absent p (List.mem_cons_of_mem _ member)]

@[simp] theorem join_segments (text : String) : join (segments text) = text := by
  have inner : ((cut '.' text.toList).map String.ofList).map String.toList
      = cut '.' text.toList := by
    simp [List.map_map, Function.comp_def]
  simp [join, segments, inner, lay_cut]

theorem segments_ne_nil (text : String) : segments text ≠ [] := by
  simp [segments, cut_ne_nil]

theorem segments_join {parts : List String} (nonempty : parts ≠ [])
    (absent : ∀ part ∈ parts, '.' ∉ part.toList) : segments (join parts) = parts := by
  have pieces : cut '.' (lay '.' (parts.map String.toList)) = parts.map String.toList := by
    refine cut_lay (by simpa using nonempty) ?_
    intro piece member
    obtain ⟨part, inside, rfl⟩ := List.mem_map.1 member
    exact absent part inside
  simp [segments, join, pieces, List.map_map, Function.comp_def]

end ManifestGate.Path
