import ManifestGate.Path

/-!
# Paths put together

What the segments, the head and the rest of a text are when the text is made of a segment and more,
and where a text is cut behind a mark and at its last dot.
-/

namespace ManifestGate.Path

theorem after?_append (mark rest : String) : after? mark (mark ++ rest) = some rest := by
  simp [after?, String.toList_append]

theorem after?_eq_some_iff {mark text rest : String} :
    after? mark text = some rest ↔ text = mark ++ rest := by
  constructor
  · intro found
    unfold after? at found
    split at found
    · next starts =>
      cases found
      obtain ⟨letters, same⟩ := List.isPrefixOf_iff_prefix.mp starts
      apply String.toList_injective
      rw [String.toList_append, String.toList_ofList, ← same, List.drop_left]
    · cases found
  · rintro rfl
    exact after?_append mark rest

theorem cut_append (mark : Char) (before rest : List Char) :
    cut mark (before ++ mark :: rest) = cut mark before ++ cut mark rest := by
  induction before with
  | nil => simp [cut]
  | cons c more ih =>
    rw [List.cons_append, cut, cut]
    by_cases same : c = mark
    · rw [if_pos same, if_pos same, ih, List.cons_append]
    · rw [if_neg same, if_neg same, ih]
      obtain ⟨piece, pieces, found⟩ := List.exists_cons_of_ne_nil (cut_ne_nil mark more)
      rw [found]
      rfl

theorem segments_append_dot (object rest : String) :
    segments (object ++ "." ++ rest) = segments object ++ segments rest := by
  have cutAtDot := cut_append '.' object.toList rest.toList
  simp [segments, String.toList_append, cutAtDot]

theorem segments_of_no_dot {segment : String} (absent : '.' ∉ segment.toList) :
    segments segment = [segment] := by
  simp [segments, cut_of_not_mem absent]

theorem segments_below {segment : String} (absent : '.' ∉ segment.toList) (rest : String) :
    segments (segment ++ "." ++ rest) = segment :: segments rest := by
  rw [segments_append_dot, segments_of_no_dot absent]
  rfl

theorem no_dot_of_mem_segments {text segment : String} (member : segment ∈ segments text) :
    '.' ∉ segment.toList := by
  obtain ⟨piece, inside, rfl⟩ := List.mem_map.mp member
  rw [String.toList_ofList]
  exact not_mem_of_mem_cut inside

theorem head_of_no_dot {segment : String} (absent : '.' ∉ segment.toList) :
    head segment = segment := by
  rw [head, segments_of_no_dot absent]
  rfl

theorem head_below {segment : String} (absent : '.' ∉ segment.toList) (rest : String) :
    head (segment ++ "." ++ rest) = segment := by
  rw [head, segments_below absent]
  rfl

/-- The first so many segments make a path of those segments. -/
theorem segments_join_take {parts : List String} (undotted : ∀ part ∈ parts, '.' ∉ part.toList)
    (nonempty : parts ≠ []) {taken : Nat} (positive : 0 < taken) :
    segments (join (parts.take taken)) = parts.take taken := by
  apply segments_join
  · rw [ne_eq, List.take_eq_nil_iff]
    simp [nonempty, Nat.ne_of_gt positive]
  · intro part member
    exact undotted part (List.mem_of_mem_take member)

theorem join_cons (first : String) {rest : List String} (nonempty : rest ≠ []) :
    join (first :: rest) = first ++ "." ++ join rest := by
  obtain ⟨next, later, rfl⟩ := List.exists_cons_of_ne_nil nonempty
  apply String.toList_injective
  simp [join, lay, String.toList_append]

/-- A text is cut at its last dot: nothing behind the cut has a dot. -/
theorem splitLast?_eq_some_iff {text object name : String} :
    splitLast? text = some (object, name) ↔
      text = object ++ "." ++ name ∧ '.' ∉ name.toList := by
  unfold splitLast?
  constructor
  · intro found
    dsimp only at found
    split at found
    · cases found
    · next several =>
      obtain ⟨init, last, parts⟩ : ∃ init last, segments text = init ++ [last] :=
        ⟨_, _, (List.dropLast_concat_getLast (segments_ne_nil text)).symm⟩
      have noDot : ∀ part ∈ init ++ [last], '.' ∉ part.toList := by
        intro part member
        exact no_dot_of_mem_segments (parts ▸ member)
      have lastNoDot := noDot last (by simp)
      have nonempty : init ≠ [] := by
        rintro rfl
        rw [parts] at several
        exact several Nat.one_lt_two
      rw [parts, List.dropLast_concat, List.getLastD_concat] at found
      cases found
      refine ⟨?_, lastNoDot⟩
      have again : segments (join init ++ "." ++ name) = segments text := by
        rw [segments_append_dot, segments_of_no_dot lastNoDot, parts,
          segments_join nonempty fun part member => noDot part (List.mem_append_left _ member)]
      rw [← join_segments text, ← again, join_segments]
  · rintro ⟨rfl, noDot⟩
    have parts : segments (object ++ "." ++ name) = segments object ++ [name] := by
      rw [segments_append_dot, segments_of_no_dot noDot]
    have several : ¬(segments object ++ [name]).length < 2 := by
      have nonempty := List.length_pos_iff.mpr (segments_ne_nil object)
      rw [List.length_append, List.length_singleton]
      omega
    dsimp only
    rw [parts, if_neg several, List.dropLast_concat, List.getLastD_concat, join_segments]

end ManifestGate.Path
