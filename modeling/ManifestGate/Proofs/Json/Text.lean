import Mathlib.Data.List.DropRight
import ManifestGate.Proofs.Json.Numeral

/-!
# Pretty texts are read back

Reading the pretty text of a document gives the document, if its numbers read back and its
containers nest less deep than the reader goes. A text deeper than that is refused for its nesting
alone. The induction is on the document; at each place it keeps the text that stands behind.
-/

namespace ManifestGate.Json

/-! ## Strings -/

theorem hexValue?_digitChar : ∀ n < 16, hexValue? (Nat.digitChar n) = some n := by
  decide

theorem readUnit_hexPair {n : Nat} (small : n < 32) (rest : List Char) :
    readUnit ('0' :: '0' :: ((hexPair n).toList ++ rest)) = .ok (n, rest) := by
  have high := hexValue?_digitChar (n / 16) (by omega)
  have low := hexValue?_digitChar (n % 16) (by omega)
  have zero : hexValue? '0' = some 0 := by decide
  simp only [hexPair, String.toList_ofList, List.cons_append, List.nil_append, readUnit, high, low,
    zero]
  congr 2
  omega

theorem readEscape_control {c : Char} (control : c.toNat < 32) (rest : List Char) :
    readEscape ('u' :: '0' :: '0' :: ((hexPair c.toNat).toList ++ rest)) = .ok (c, rest) := by
  have low : ¬0xD800 ≤ c.toNat := by omega
  have high : ¬0xDC00 ≤ c.toNat := by omega
  simp only [readEscape, readUnit_hexPair control, bind, Except.bind]
  simp [low, high]

theorem readCharacters_escaped {c : Char} {text rest : List Char}
    (read : readEscape text = .ok (c, rest)) (fuel : Nat) :
    readCharacters (fuel + 1) ('\\' :: text) =
      (readCharacters fuel rest).map fun (more, rest) => (c :: more, rest) := by
  have noQuote : '\\' ≠ '"' := by decide
  simp only [readCharacters, noQuote, if_false, if_true, read, bind, Except.bind]
  cases readCharacters fuel rest <;> rfl

/-- A character is read from the text that it stands as inside quotes. -/
theorem readCharacters_escape (c : Char) (fuel : Nat) (rest : List Char) :
    readCharacters (fuel + 1) ((escape c).toList ++ rest) =
      (readCharacters fuel rest).map fun (more, rest) => (c :: more, rest) := by
  unfold escape
  iterate 7
    split
    · next same =>
      subst same
      exact readCharacters_escaped rfl fuel
  split
  · next control =>
    rw [String.toList_append, List.append_assoc]
    exact readCharacters_escaped (readEscape_control control rest) fuel
  · next noQuote noBackslash _ _ _ _ _ printable =>
    rw [String.toList_singleton, List.singleton_append]
    simp only [readCharacters, noQuote, noBackslash, printable, if_false, bind, Except.bind]
    cases readCharacters fuel rest <;> rfl

theorem escape_ne_nil (c : Char) : (escape c).toList ≠ [] := by
  unfold escape
  iterate 8
    split
    · simp
  simp

theorem readCharacters_quoted (text : List Char) {fuel : Nat} (enough : text.length < fuel)
    (rest : List Char) :
    readCharacters fuel (text.flatMap (fun c => (escape c).toList) ++ '"' :: rest) =
      .ok (text, rest) := by
  induction text generalizing fuel with
  | nil =>
    cases fuel with
    | zero => exact absurd enough (Nat.not_lt_zero _)
    | succ fuel => rfl
  | cons c more ih =>
    cases fuel with
    | zero => exact absurd enough (Nat.not_lt_zero _)
    | succ fuel =>
      rw [List.flatMap_cons, List.append_assoc, readCharacters_escape,
        ih (Nat.lt_of_succ_lt_succ enough)]
      rfl

theorem toList_quoted (text : String) :
    (quoted text).toList = '"' :: (text.toList.flatMap (fun c => (escape c).toList) ++ ['"']) := by
  simp [quoted, String.toList_join, List.flatMap_map]

theorem length_le_flatMap_escape (text : List Char) :
    text.length ≤ (text.flatMap fun c => (escape c).toList).length := by
  induction text with
  | nil => exact Nat.le_refl 0
  | cons c more ih =>
    have some := List.length_pos_of_ne_nil (escape_ne_nil c)
    rw [List.flatMap_cons, List.length_append, List.length_cons]
    omega

/-- A quoted text is read back, after its opening quote. -/
theorem readString_quoted (text : String) (rest : List Char) :
    readString (text.toList.flatMap (fun c => (escape c).toList) ++ '"' :: rest) =
      .ok (text, rest) := by
  have enough : text.toList.length <
      (text.toList.flatMap (fun c => (escape c).toList) ++ '"' :: rest).length + 1 := by
    have short := length_le_flatMap_escape text.toList
    rw [List.length_append]
    omega
  rw [readString, readCharacters_quoted text.toList enough]
  simp [Except.map]

/-! ## Documents -/

mutual

/-- The numbers in a document. -/
def numbers : Json → List Number
  | .number n => [n]
  | .array items => numbersOfItems items
  | .object entries => numbersOfEntries entries
  | _ => []

def numbersOfItems : List Json → List Number
  | [] => []
  | item :: rest => item.numbers ++ numbersOfItems rest

def numbersOfEntries : List (String × Json) → List Number
  | [] => []
  | (_, value) :: rest => value.numbers ++ numbersOfEntries rest

end

theorem skipBlanks_cons {c : Char} (printable : isBlank c = false) (rest : List Char) :
    skipBlanks (c :: rest) = c :: rest := by
  simp [skipBlanks, printable]

theorem skipBlanks_line (depth : Nat) (rest : List Char) :
    skipBlanks ((line depth).toList ++ rest) = skipBlanks rest := by
  have blanks : ∀ c ∈ (line depth).toList, isBlank c = true := by
    intro c member
    simp only [line, String.toList_append, String.toList_ofList, List.mem_append,
      List.mem_replicate] at member
    rcases member with newline | ⟨_, rfl⟩
    · obtain rfl : c = '\n' := by simpa using newline
      rfl
    · rfl
  exact List.dropWhile_append_of_pos blanks

theorem skipBlanks_skipBlanks (text : List Char) : skipBlanks (skipBlanks text) = skipBlanks text :=
  List.dropWhile_idempotent _ _

/-- Skipping blanks stops before a character that is none. -/
theorem length_lt_skipBlanks {c : Char} (printable : isBlank c = false) (before rest : List Char) :
    rest.length < (skipBlanks (before ++ c :: rest)).length := by
  induction before with
  | nil =>
    rw [List.nil_append, skipBlanks_cons printable]
    exact Nat.lt_succ_self _
  | cons d more ih =>
    unfold skipBlanks at ih ⊢
    rw [List.cons_append, List.dropWhile_cons]
    split
    · exact ih
    · simp only [List.length_cons, List.length_append]
      omega

theorem readValue_skipBlanks (depth : Nat) (text : List Char) :
    readValue depth (skipBlanks text) = readValue depth text := by
  rw [readValue.eq_def, readValue.eq_def]
  dsimp only
  rw [skipBlanks_skipBlanks]

theorem endsNumeral_line (depth : Nat) (rest : List Char) :
    EndsNumeral ((line depth).toList ++ rest) := by
  intro c head
  simp [line] at head
  subst head
  decide

theorem endsNumeral_comma (rest : List Char) : EndsNumeral (',' :: rest) := by
  rintro c ⟨⟩
  decide

/-! The characters of pretty texts -/

theorem toList_prettyAt_array (depth : Nat) (item : Json) (more : List Json) :
    (prettyAt depth (.array (item :: more))).toList =
      '[' :: ((prettyItems (depth + 1) (item :: more)).toList ++ ((line depth).toList ++ [']'])) := by
  simp [prettyAt]

theorem toList_prettyAt_object (depth : Nat) (entry : String × Json)
    (more : List (String × Json)) :
    (prettyAt depth (.object (entry :: more))).toList =
      '{' :: ((prettyEntries (depth + 1) (entry :: more)).toList ++
        ((line depth).toList ++ ['}'])) := by
  simp [prettyAt]

theorem toList_prettyItems_one (depth : Nat) (item : Json) :
    (prettyItems depth [item]).toList = (line depth).toList ++ (prettyAt depth item).toList := by
  simp [prettyItems]

theorem toList_prettyItems (depth : Nat) (item next : Json) (more : List Json) :
    (prettyItems depth (item :: next :: more)).toList =
      (line depth).toList ++ ((prettyAt depth item).toList ++
        ',' :: (prettyItems depth (next :: more)).toList) := by
  simp [prettyItems]

theorem toList_prettyEntries_one (depth : Nat) (key : String) (value : Json) :
    (prettyEntries depth [(key, value)]).toList =
      (line depth).toList ++ ((quoted key).toList ++
        ':' :: ' ' :: (prettyAt depth value).toList) := by
  simp [prettyEntries]

theorem toList_prettyEntries (depth : Nat) (key : String) (value : Json) (next : String × Json)
    (more : List (String × Json)) :
    (prettyEntries depth ((key, value) :: next :: more)).toList =
      (line depth).toList ++ ((quoted key).toList ++ ':' :: ' ' :: ((prettyAt depth value).toList ++
        ',' :: (prettyEntries depth (next :: more)).toList)) := by
  simp [prettyEntries]

/-- The text of a document starts with a character that is neither a blank nor a closing bracket. -/
theorem prettyAt_head {json : Json} (readBack : ∀ n ∈ json.numbers, n.ReadsBack) (depth : Nat) :
    ∃ c rest, (prettyAt depth json).toList = c :: rest ∧ isBlank c = false ∧ c ≠ ']' := by
  cases json with
  | null => exact ⟨'n', "ull".toList, by simp [prettyAt], rfl, by decide⟩
  | bool b =>
    cases b with
    | true => exact ⟨'t', "rue".toList, by simp [prettyAt], rfl, by decide⟩
    | false => exact ⟨'f', "alse".toList, by simp [prettyAt], rfl, by decide⟩
  | number n =>
    obtain ⟨c, rest, text, front⟩ := readNumber_head (readBack n (List.mem_singleton.mpr rfl))
    exact ⟨c, rest, text, front.printable, front.ne (by decide)⟩
  | string text => exact ⟨'"', _, toList_quoted text, rfl, by decide⟩
  | array items =>
    cases items with
    | nil => exact ⟨'[', [']'], by simp [prettyAt], rfl, by decide⟩
    | cons item more => exact ⟨'[', _, toList_prettyAt_array depth item more, rfl, by decide⟩
  | object entries =>
    cases entries with
    | nil => exact ⟨'{', ['}'], by simp [prettyAt], rfl, by decide⟩
    | cons entry more => exact ⟨'{', _, toList_prettyAt_object depth entry more, rfl, by decide⟩

theorem readValue_numeral {c : Char} (starts : StartsNumeral c) (depth : Nat)
    (rest : List Char) : readValue depth (c :: rest) = readNumber (c :: rest) := by
  rw [readValue.eq_def]
  dsimp only
  rw [skipBlanks_cons starts.printable]
  split
  case h_7 d more _ _ _ _ _ _ same =>
    cases same
    exact if_pos starts
  case h_8 same => cases same
  all_goals
    next same =>
      exact absurd (List.cons.inj same).1 (starts.ne (by decide))

theorem readValue_array (depth : Nat) {rest : List Char}
    (nonempty : ∀ more, skipBlanks rest ≠ ']' :: more) :
    readValue (depth + 1) ('[' :: rest) =
      (readItems (readValue depth) ((skipBlanks rest).length + 1) (skipBlanks rest)).map
        fun (items, rest) => (.array items, rest) := by
  simp only [readValue, skipBlanks_cons (c := '[') rfl]

theorem readValue_object (depth : Nat) {rest : List Char}
    (nonempty : ∀ more, skipBlanks rest ≠ '}' :: more) :
    readValue (depth + 1) ('{' :: rest) =
      (readEntries (readValue depth) ((skipBlanks rest).length + 1) (skipBlanks rest)).map
        fun (entries, rest) => (.object entries, rest) := by
  simp only [readValue, skipBlanks_cons (c := '{') rfl]

theorem readValue_line (depth indent : Nat) (rest : List Char) :
    readValue depth ((line indent).toList ++ rest) = readValue depth rest := by
  rw [← readValue_skipBlanks, skipBlanks_line, readValue_skipBlanks]

/-! What stands before a separator or a closing bracket is one item -/

theorem readItems_of_error {item : List Char → Except ReadError (Json × List Char)}
    {text : List Char} {cause : ReadError} (failed : item text = .error cause) (fuel : Nat) :
    readItems item (fuel + 1) text = .error cause := by
  simp only [readItems, failed, bind, Except.bind]

theorem readItems_last {item : List Char → Except ReadError (Json × List Char)}
    {text after rest : List Char} {json : Json} (read : item text = .ok (json, after))
    (closed : skipBlanks after = ']' :: rest) (fuel : Nat) :
    readItems item (fuel + 1) text = .ok ([json], rest) := by
  simp only [readItems, read, closed, bind, Except.bind]

theorem readItems_next {item : List Char → Except ReadError (Json × List Char)}
    {text after rest : List Char} {json : Json} (read : item text = .ok (json, after))
    (separated : skipBlanks after = ',' :: rest) (fuel : Nat) :
    readItems item (fuel + 1) text =
      (readItems item fuel rest).map fun (more, rest) => (json :: more, rest) := by
  simp only [readItems, read, separated, bind, Except.bind]
  cases readItems item fuel rest <;> rfl

section

variable {item : List Char → Except ReadError (Json × List Char)}
  {text keyed value after rest : List Char} {key : String} {json : Json}

theorem readEntries_of_error {cause : ReadError} (quote : skipBlanks text = '"' :: keyed)
    (name : readString keyed = .ok (key, ':' :: value)) (failed : item value = .error cause)
    (fuel : Nat) : readEntries item (fuel + 1) text = .error cause := by
  simp only [readEntries, quote, name, skipBlanks_cons (c := ':') rfl, failed, bind, Except.bind]

theorem readEntries_last (quote : skipBlanks text = '"' :: keyed)
    (name : readString keyed = .ok (key, ':' :: value)) (read : item value = .ok (json, after))
    (closed : skipBlanks after = '}' :: rest) (fuel : Nat) :
    readEntries item (fuel + 1) text = .ok ([(key, json)], rest) := by
  simp only [readEntries, quote, name, skipBlanks_cons (c := ':') rfl, read, closed, bind,
    Except.bind]

theorem readEntries_next (quote : skipBlanks text = '"' :: keyed)
    (name : readString keyed = .ok (key, ':' :: value)) (read : item value = .ok (json, after))
    (separated : skipBlanks after = ',' :: rest) (fuel : Nat) :
    readEntries item (fuel + 1) text =
      (readEntries item fuel rest).map fun (more, rest) => ((key, json) :: more, rest) := by
  simp only [readEntries, quote, name, skipBlanks_cons (c := ':') rfl, read, separated, bind,
    Except.bind]
  cases readEntries item fuel rest <;> rfl

end

theorem readValue_blank (depth : Nat) (rest : List Char) :
    readValue depth (' ' :: rest) = readValue depth rest := by
  rw [← readValue_skipBlanks, ← readValue_skipBlanks depth rest]
  rfl

theorem skipBlanks_line_quote (depth : Nat) (rest : List Char) :
    skipBlanks ((line depth).toList ++ '"' :: rest) = '"' :: rest := by
  rw [skipBlanks_line, skipBlanks_cons rfl]

theorem readItems_skipBlanks (depth fuel : Nat) (text : List Char) :
    readItems (readValue depth) fuel (skipBlanks text) = readItems (readValue depth) fuel text := by
  cases fuel with
  | zero => rfl
  | succ fuel => simp only [readItems, readValue_skipBlanks]

theorem readEntries_skipBlanks (depth fuel : Nat) (text : List Char) :
    readEntries (readValue depth) fuel (skipBlanks text) =
      readEntries (readValue depth) fuel text := by
  cases fuel with
  | zero => rfl
  | succ fuel => simp only [readEntries, skipBlanks_skipBlanks]

/-- What reading a document's text gives at a depth: the document if it fits. -/
def readAt (depth nesting : Nat) (value : α) (rest : List Char) : Except ReadError (α × List Char) :=
  if nesting ≤ depth then .ok (value, rest) else .error .nesting

theorem readAt_of_le {depth nesting : Nat} (fits : nesting ≤ depth) (value : α)
    (rest : List Char) : readAt depth nesting value rest = .ok (value, rest) :=
  if_pos fits

theorem readAt_of_not_le {depth nesting : Nat} (deep : ¬nesting ≤ depth) (value : α)
    (rest : List Char) : readAt depth nesting value rest = .error .nesting :=
  if_neg deep

theorem map_readAt (depth nesting : Nat) (f : α → β) (value : α) (rest : List Char) :
    (readAt depth nesting value rest).map (fun (found, rest) => (f found, rest)) =
      readAt depth nesting (f value) rest := by
  unfold readAt
  split <;> rfl

theorem readAt_succ (depth nesting : Nat) (value : α) (rest : List Char) :
    readAt (depth + 1) (nesting + 1) value rest = readAt depth nesting value rest := by
  simp only [readAt, Nat.add_le_add_iff_right]

theorem readAt_max_of_le {depth first : Nat} (fits : first ≤ depth) (others : Nat) (value : α)
    (rest : List Char) : readAt depth (max first others) value rest =
      readAt depth others value rest := by
  simp only [readAt, Nat.max_le, fits, true_and]

theorem readAt_max_of_not_le {depth first : Nat} (deep : ¬first ≤ depth) (others : Nat) (value : α)
    (rest : List Char) : readAt depth (max first others) value rest = .error .nesting := by
  simp only [readAt, Nat.max_le, deep, false_and, if_false]

theorem skipBlanks_prettyItems {item : Json} (readBack : ∀ n ∈ item.numbers, n.ReadsBack)
    (depth : Nat) (more : List Json) (rest : List Char) :
    ∃ c text, skipBlanks ((prettyItems depth (item :: more)).toList ++ rest) = c :: text ∧
      c ≠ ']' := by
  obtain ⟨c, text, front, printable, opens⟩ := prettyAt_head readBack depth
  cases more with
  | nil =>
    refine ⟨c, text ++ rest, ?_, opens⟩
    rw [toList_prettyItems_one, List.append_assoc, skipBlanks_line, front, List.cons_append,
      skipBlanks_cons printable]
  | cons next more =>
    refine ⟨c, text ++ (',' :: (prettyItems depth (next :: more)).toList ++ rest), ?_, opens⟩
    rw [toList_prettyItems, List.append_assoc, skipBlanks_line, front, List.append_assoc,
      List.cons_append, skipBlanks_cons printable]

theorem skipBlanks_prettyEntries (depth : Nat) (key : String) (value : Json)
    (more : List (String × Json)) (rest : List Char) :
    ∃ text, skipBlanks ((prettyEntries depth ((key, value) :: more)).toList ++ rest) =
      '"' :: text := by
  cases more with
  | nil =>
    rw [toList_prettyEntries_one, List.append_assoc, skipBlanks_line, toList_quoted]
    exact ⟨_, skipBlanks_cons rfl _⟩
  | cons next more =>
    rw [toList_prettyEntries, List.append_assoc, skipBlanks_line, toList_quoted]
    exact ⟨_, skipBlanks_cons rfl _⟩

/-- The rest behind a character that is no blank needs less fuel. -/
theorem fuel_after {c : Char} (printable : isBlank c = false) (before : List Char)
    {rest : List Char} {fuel : Nat} (enough : (skipBlanks (before ++ c :: rest)).length < fuel + 1) :
    (skipBlanks rest).length < fuel := by
  have shorter := length_lt_skipBlanks printable before rest
  have skipped : (skipBlanks rest).length ≤ rest.length := List.length_dropWhile_le _ _
  omega

/-- The text of the document is read back from the front of what it stands before. -/
def ReadsAlike (json : Json) : Prop :=
  ∀ (depth indent : Nat) (rest : List Char), EndsNumeral rest →
    readValue depth ((prettyAt indent json).toList ++ rest) = readAt depth json.nesting json rest

theorem readsAlike_null : ReadsAlike .null := by
  intro depth indent rest _
  simp [prettyAt, readValue, skipBlanks_cons, isBlank, expect, readAt, nesting]

theorem readsAlike_bool (b : Bool) : ReadsAlike (.bool b) := by
  intro depth indent rest _
  cases b <;> simp [prettyAt, readValue, skipBlanks_cons, isBlank, expect, readAt, nesting]

theorem readsAlike_number {n : Number} (readBack : n.ReadsBack) : ReadsAlike (.number n) := by
  intro depth indent rest ends
  have taken := readNumber_append readBack ends
  obtain ⟨c, more, text, starts⟩ := readNumber_head readBack
  rw [prettyAt]
  rw [text] at taken ⊢
  rw [List.cons_append, readValue_numeral starts, ← List.cons_append, taken]
  simp [readAt, nesting]

theorem readsAlike_string (text : String) : ReadsAlike (.string text) := by
  intro depth indent rest _
  rw [prettyAt, toList_quoted]
  simp [readValue, skipBlanks_cons, isBlank, readString_quoted, Except.map, readAt, nesting]

/-! The induction inside a container is on its parts; the fuel lasts for the text up to the closing
bracket. -/

theorem readItems_prettyItems {items : List Json} (nonempty : items ≠ [])
    (alike : ∀ item ∈ items, item.ReadsAlike) (depth indent outer : Nat) {fuel : Nat}
    (rest : List Char)
    (enough : (skipBlanks ((prettyItems indent items).toList ++
      ((line outer).toList ++ ']' :: rest))).length < fuel) :
    readItems (readValue depth) fuel ((prettyItems indent items).toList ++
      ((line outer).toList ++ ']' :: rest)) = readAt depth (nestingItems items) items rest := by
  induction items generalizing fuel with
  | nil => exact absurd rfl nonempty
  | cons item more ih =>
    have itemAlike := alike item List.mem_cons_self
    cases fuel with
    | zero => exact absurd enough (Nat.not_lt_zero _)
    | succ fuel =>
      cases more with
      | nil =>
        have one := itemAlike depth indent _ (endsNumeral_line outer (']' :: rest))
        rw [← readValue_line depth indent] at one
        rw [toList_prettyItems_one, List.append_assoc, nestingItems]
        by_cases fits : item.nesting ≤ depth
        · rw [readAt_of_le fits] at one
          have closed : skipBlanks ((line outer).toList ++ ']' :: rest) = ']' :: rest := by
            rw [skipBlanks_line, skipBlanks_cons rfl]
          rw [readItems_last one closed, readAt_max_of_le fits, nestingItems,
            readAt_of_le (Nat.zero_le _)]
        · rw [readAt_of_not_le fits] at one
          rw [readItems_of_error one, readAt_max_of_not_le fits]
      | cons next more =>
        have one := itemAlike depth indent _ (endsNumeral_comma
          ((prettyItems indent (next :: more)).toList ++ ((line outer).toList ++ ']' :: rest)))
        rw [← readValue_line depth indent] at one
        rw [toList_prettyItems] at enough ⊢
        simp only [List.append_assoc, List.cons_append, skipBlanks_line] at enough ⊢
        have others := ih (List.cons_ne_nil _ _)
          (fun other member => alike other (List.mem_cons_of_mem _ member)) (fuel_after rfl _ enough)
        rw [nestingItems]
        by_cases fits : item.nesting ≤ depth
        · rw [readAt_of_le fits] at one
          rw [readItems_next one (skipBlanks_cons rfl _), others, map_readAt, readAt_max_of_le fits]
        · rw [readAt_of_not_le fits] at one
          rw [readItems_of_error one, readAt_max_of_not_le fits]

theorem readEntries_prettyEntries {entries : List (String × Json)} (nonempty : entries ≠ [])
    (alike : ∀ entry ∈ entries, entry.2.ReadsAlike) (depth indent outer : Nat) {fuel : Nat}
    (rest : List Char)
    (enough : (skipBlanks ((prettyEntries indent entries).toList ++
      ((line outer).toList ++ '}' :: rest))).length < fuel) :
    readEntries (readValue depth) fuel ((prettyEntries indent entries).toList ++
      ((line outer).toList ++ '}' :: rest)) = readAt depth (nestingEntries entries) entries rest := by
  induction entries generalizing fuel with
  | nil => exact absurd rfl nonempty
  | cons entry more ih =>
    obtain ⟨key, value⟩ := entry
    have valueAlike : value.ReadsAlike := alike (key, value) List.mem_cons_self
    cases fuel with
    | zero => exact absurd enough (Nat.not_lt_zero _)
    | succ fuel =>
      cases more with
      | nil =>
        have one := valueAlike depth indent _ (endsNumeral_line outer ('}' :: rest))
        rw [← readValue_blank depth] at one
        rw [toList_prettyEntries_one, toList_quoted, nestingEntries]
        simp only [List.append_assoc, List.cons_append, List.nil_append]
        have quote := skipBlanks_line_quote indent
          (key.toList.flatMap (fun c => (escape c).toList) ++ '"' :: ':' :: ' ' ::
            ((prettyAt indent value).toList ++ ((line outer).toList ++ '}' :: rest)))
        by_cases fits : value.nesting ≤ depth
        · rw [readAt_of_le fits] at one
          have closed : skipBlanks ((line outer).toList ++ '}' :: rest) = '}' :: rest := by
            rw [skipBlanks_line, skipBlanks_cons rfl]
          rw [readEntries_last quote (readString_quoted key _) one closed, readAt_max_of_le fits,
            nestingEntries, readAt_of_le (Nat.zero_le _)]
        · rw [readAt_of_not_le fits] at one
          rw [readEntries_of_error quote (readString_quoted key _) one, readAt_max_of_not_le fits]
      | cons next more =>
        have one := valueAlike depth indent _ (endsNumeral_comma
          ((prettyEntries indent (next :: more)).toList ++ ((line outer).toList ++ '}' :: rest)))
        rw [← readValue_blank depth] at one
        -- the comma stands before the other entries, so the fuel lasts for them
        have less : (skipBlanks ((prettyEntries indent (next :: more)).toList ++
            ((line outer).toList ++ '}' :: rest))).length < fuel := by
          refine fuel_after (c := ',') rfl ((line indent).toList ++ ((quoted key).toList ++
            ':' :: ' ' :: (prettyAt indent value).toList)) ?_
          simpa only [toList_prettyEntries, List.append_assoc, List.cons_append] using enough
        have others := ih (List.cons_ne_nil _ _)
          (fun other member => alike other (List.mem_cons_of_mem _ member)) less
        rw [toList_prettyEntries, toList_quoted, nestingEntries]
        simp only [List.append_assoc, List.cons_append, List.nil_append]
        have quote := skipBlanks_line_quote indent
          (key.toList.flatMap (fun c => (escape c).toList) ++ '"' :: ':' :: ' ' ::
            ((prettyAt indent value).toList ++ ',' ::
              ((prettyEntries indent (next :: more)).toList ++
                ((line outer).toList ++ '}' :: rest))))
        by_cases fits : value.nesting ≤ depth
        · rw [readAt_of_le fits] at one
          rw [readEntries_next quote (readString_quoted key _) one (skipBlanks_cons rfl _), others,
            map_readAt, readAt_max_of_le fits]
        · rw [readAt_of_not_le fits] at one
          rw [readEntries_of_error quote (readString_quoted key _) one, readAt_max_of_not_le fits]

theorem readsAlike_array {items : List Json} (readBack : ∀ n ∈ numbersOfItems items, n.ReadsBack)
    (alike : ∀ item ∈ items, item.ReadsAlike) : ReadsAlike (.array items) := by
  intro depth indent rest _
  cases items with
  | nil =>
    cases depth with
    | zero => simp [prettyAt, readValue, skipBlanks_cons, isBlank, readAt, nesting]
    | succ depth =>
      simp [prettyAt, readValue, skipBlanks_cons, isBlank, readAt, nesting, nestingItems]
  | cons item more =>
    rw [toList_prettyAt_array]
    simp only [List.cons_append, List.append_assoc, List.nil_append]
    cases depth with
    | zero => simp [readValue, skipBlanks_cons, isBlank, readAt, nesting]
    | succ depth =>
      obtain ⟨c, text, front, inside⟩ := skipBlanks_prettyItems
        (fun n member => readBack n (List.mem_append_left _ member)) (indent + 1) more
        ((line indent).toList ++ ']' :: rest)
      -- the reader looks for the closing bracket before it reads a first item
      have nonempty : ∀ others, skipBlanks ((prettyItems (indent + 1) (item :: more)).toList ++
          ((line indent).toList ++ ']' :: rest)) ≠ ']' :: others :=
        fun others closed => inside (List.cons.inj (front.symm.trans closed)).1
      rw [readValue_array depth nonempty, readItems_skipBlanks,
        readItems_prettyItems (List.cons_ne_nil _ _) alike depth (indent + 1) indent rest
          (Nat.lt_succ_self _), map_readAt, nesting, readAt_succ]

theorem readsAlike_object {entries : List (String × Json)}
    (alike : ∀ entry ∈ entries, entry.2.ReadsAlike) : ReadsAlike (.object entries) := by
  intro depth indent rest _
  cases entries with
  | nil =>
    cases depth with
    | zero => simp [prettyAt, readValue, skipBlanks_cons, isBlank, readAt, nesting]
    | succ depth =>
      simp [prettyAt, readValue, skipBlanks_cons, isBlank, readAt, nesting, nestingEntries]
  | cons entry more =>
    rw [toList_prettyAt_object]
    simp only [List.cons_append, List.append_assoc, List.nil_append]
    cases depth with
    | zero => simp [readValue, skipBlanks_cons, isBlank, readAt, nesting]
    | succ depth =>
      obtain ⟨text, front⟩ := skipBlanks_prettyEntries (indent + 1) entry.1 entry.2 more
        ((line indent).toList ++ '}' :: rest)
      have nonempty : ∀ others, skipBlanks ((prettyEntries (indent + 1) (entry :: more)).toList ++
          ((line indent).toList ++ '}' :: rest)) ≠ '}' :: others :=
        fun others closed => absurd (List.cons.inj (front.symm.trans closed)).1 (by decide)
      rw [readValue_object depth nonempty, readEntries_skipBlanks,
        readEntries_prettyEntries (List.cons_ne_nil _ _) alike depth (indent + 1) indent rest
          (Nat.lt_succ_self _), map_readAt, nesting, readAt_succ]

mutual

/-- A document is read back if its numbers are. -/
theorem readsAlike : ∀ (json : Json), (∀ n ∈ json.numbers, n.ReadsBack) → json.ReadsAlike
  | .null, _ => readsAlike_null
  | .bool b, _ => readsAlike_bool b
  | .number n, readBack => readsAlike_number (readBack n (List.mem_singleton.mpr rfl))
  | .string text, _ => readsAlike_string text
  | .array items, readBack => readsAlike_array readBack (readsAlike_items items readBack)
  | .object entries, readBack => readsAlike_object (readsAlike_entries entries readBack)

theorem readsAlike_items : ∀ (items : List Json), (∀ n ∈ numbersOfItems items, n.ReadsBack) →
    ∀ item ∈ items, item.ReadsAlike
  | [], _ => List.forall_mem_nil _
  | item :: rest, readBack => List.forall_mem_cons.mpr
    ⟨readsAlike item fun n member => readBack n (List.mem_append_left _ member),
      readsAlike_items rest fun n member => readBack n (List.mem_append_right _ member)⟩

theorem readsAlike_entries : ∀ (entries : List (String × Json)),
    (∀ n ∈ numbersOfEntries entries, n.ReadsBack) → ∀ entry ∈ entries, entry.2.ReadsAlike
  | [], _ => List.forall_mem_nil _
  | (_, value) :: rest, readBack => List.forall_mem_cons.mpr
    ⟨readsAlike value fun n member => readBack n (List.mem_append_left _ member),
      readsAlike_entries rest fun n member => readBack n (List.mem_append_right _ member)⟩

end

/-- The pretty text of a document is read back as the document, unless it nests too deep. -/
theorem read_pretty {json : Json} (readBack : ∀ n ∈ json.numbers, n.ReadsBack) :
    read json.pretty =
      if json.nesting < nestingLimit then .ok json else .error .nesting := by
  have value := readsAlike json readBack (nestingLimit - 1) 0 [] (by rintro c ⟨⟩)
  rw [List.append_nil, ← pretty] at value
  unfold read
  by_cases shallow : json.nesting < nestingLimit
  · rw [value, readAt_of_le (Nat.le_sub_one_of_lt shallow), if_pos shallow]
    rfl
  · have deep : ¬json.nesting ≤ nestingLimit - 1 := fun fits =>
      shallow (Nat.lt_of_le_of_lt fits (by decide))
    rw [value, readAt_of_not_le deep, if_neg shallow]
    rfl

end ManifestGate.Json
