/-!
# Results of sequences

When a sequence of steps that may fail succeeds, when a result that is mapped does, and which of the
faults on the way such a sequence reports.
-/

namespace ManifestGate.Except

variable {ε ε' α β γ : Type}

theorem bind_eq_ok_iff {first : Except ε α} {next : α → Except ε β} {value : β} :
    (first >>= next) = .ok value ↔ ∃ middle, first = .ok middle ∧ next middle = .ok value := by
  cases first with
  | error cause => simp [bind, Except.bind]
  | ok middle => simp [bind, Except.bind]

theorem then_eq_ok_iff {first second : Except ε Unit} :
    (first >>= fun _ => second) = .ok () ↔ first = .ok () ∧ second = .ok () := by
  rw [bind_eq_ok_iff]
  constructor
  · rintro ⟨_, passed, passedNext⟩
    exact ⟨passed, passedNext⟩
  · rintro ⟨passed, passedNext⟩
    exact ⟨(), passed, passedNext⟩

theorem map_eq_ok_iff {result : Except ε α} {f : α → β} {value : β} :
    result.map f = .ok value ↔ ∃ given, result = .ok given ∧ f given = value := by
  cases result <;> simp [Except.map]

theorem not_exists_of_error {cause : ε} : ¬∃ value, (.error cause : Except ε α) = .ok value :=
  fun ⟨_, impossible⟩ => nomatch impossible

theorem exists_bind_iff {first : Except ε α} {next : α → Except ε β} :
    (∃ value, (first >>= next) = .ok value) ↔
      ∃ middle, first = .ok middle ∧ ∃ value, next middle = .ok value := by
  simp only [bind_eq_ok_iff]
  constructor
  · rintro ⟨value, middle, before, after⟩
    exact ⟨middle, before, value, after⟩
  · rintro ⟨middle, before, value, after⟩
    exact ⟨value, middle, before, after⟩

theorem exists_then_iff {first : Except ε Unit} {next : Unit → Except ε β} :
    (∃ value, (first >>= next) = .ok value) ↔ first = .ok () ∧ ∃ value, next () = .ok value := by
  rw [exists_bind_iff]
  constructor
  · rintro ⟨_, before, after⟩
    exact ⟨before, after⟩
  · rintro ⟨before, after⟩
    exact ⟨(), before, after⟩

theorem exists_map_iff {result : Except ε α} {f : α → β} :
    (∃ value, result.map f = .ok value) ↔ ∃ given, result = .ok given := by
  simp only [map_eq_ok_iff]
  constructor
  · rintro ⟨value, given, before, _⟩
    exact ⟨given, before⟩
  · rintro ⟨given, before⟩
    exact ⟨f given, given, before, rfl⟩

theorem mapError_eq_ok_iff {result : Except ε α} {f : ε → ε'} {value : α} :
    result.mapError f = .ok value ↔ result = .ok value := by
  cases result with
  | error cause =>
    constructor
    · intro impossible
      cases impossible
    · intro impossible
      cases impossible
  | ok given =>
    constructor
    · intro same
      cases same
      rfl
    · intro same
      cases same
      rfl

theorem mapError_eq_error_iff {result : Except ε α} {f : ε → ε'} {cause : ε'} :
    result.mapError f = .error cause ↔ ∃ given, result = .error given ∧ f given = cause := by
  cases result with
  | error given =>
    constructor
    · intro same
      exact ⟨given, rfl, Except.error.inj same⟩
    · rintro ⟨other, same, wrapped⟩
      cases same
      exact congrArg Except.error wrapped
  | ok value =>
    constructor
    · intro impossible
      cases impossible
    · rintro ⟨_, impossible, _⟩
      cases impossible

theorem mapError_bind (first : Except ε α) (next : α → Except ε β) (wrap : ε → ε') :
    (first >>= next).mapError wrap =
      first.mapError wrap >>= fun value => (next value).mapError wrap := by
  cases first <;> rfl

theorem mapError_map (result : Except ε α) (f : α → β) (wrap : ε → ε') :
    (result.map f).mapError wrap = result.mapError wrap >>= fun value => .ok (f value) := by
  cases result <;> rfl

theorem exists_of_isOk {result : Except ε α} (ok : result.isOk = true) :
    ∃ value, result = .ok value := by
  cases result with
  | ok value => exact ⟨value, rfl⟩
  | error cause => cases ok

theorem isOk_eq_false_iff {result : Except ε α} :
    result.isOk = false ↔ ¬∃ value, result = .ok value := by
  cases result <;> simp [Except.isOk, Except.toBool]

/-- What the one result gives, the other gives as well. -/
def KeptBy (one other : Except ε α) : Prop :=
  ∀ value, one = .ok value → other = .ok value

namespace KeptBy

theorem refl (result : Except ε α) : KeptBy result result :=
  fun _ given => given

theorem bind {one other : Except ε α} {next otherNext : α → Except ε β} (first : KeptBy one other)
    (later : ∀ value, KeptBy (next value) (otherNext value)) :
    KeptBy (one >>= next) (other >>= otherNext) := by
  intro value given
  obtain ⟨middle, before, after⟩ := bind_eq_ok_iff.mp given
  exact bind_eq_ok_iff.mpr ⟨middle, first middle before, later middle value after⟩

theorem map {one other : Except ε α} (kept : KeptBy one other) (f : α → β) :
    KeptBy (one.map f) (other.map f) := by
  intro value given
  obtain ⟨middle, before, same⟩ := map_eq_ok_iff.mp given
  exact map_eq_ok_iff.mpr ⟨middle, kept middle before, same⟩

theorem mapError {one other : Except ε α} (kept : KeptBy one other) (f : ε → ε') :
    KeptBy (one.mapError f) (other.mapError f) :=
  fun value given => mapError_eq_ok_iff.mpr (kept value (mapError_eq_ok_iff.mp given))

end KeptBy

/-! ## The first of many faults -/

/-- A result that is settled by faults: the first of them, or if there are none a value of which
something holds. -/
inductive SettledBy (holds : α → Prop) : List ε → Except ε α → Prop where
  | passed {value : α} : holds value → SettledBy holds [] (.ok value)
  | failed (cause : ε) (later : List ε) : SettledBy holds (cause :: later) (.error cause)

namespace SettledBy

variable {holds holdsToo : α → Prop} {holdsNext : β → Prop} {faults more : List ε}
  {result : Except ε α}

theorem weaken (settled : SettledBy holds faults result)
    (meets : ∀ value, result = .ok value → holdsToo value) : SettledBy holdsToo faults result := by
  cases settled with
  | passed _ => exact .passed (meets _ rfl)
  | failed cause later => exact .failed cause later

theorem bind {next : α → Except ε β} (before : SettledBy holds faults result)
    (after : ∀ value, holds value → SettledBy holdsNext more (next value)) :
    SettledBy holdsNext (faults ++ more) (result >>= next) := by
  cases before with
  | passed met => exact after _ met
  | failed cause later => exact .failed cause (later ++ more)

theorem thenOk {f : α → β} (before : SettledBy holds faults result)
    (meets : ∀ value, holds value → holdsNext (f value)) :
    SettledBy holdsNext faults (result >>= fun value => .ok (f value)) := by
  cases before with
  | passed met => exact .passed (meets _ met)
  | failed cause later => exact .failed cause later

/-- A fold has the faults of its items, one item after the other. -/
theorem foldlM {step : α → γ → Except ε α} {faultsOf : γ → List ε} {items : List γ}
    (steps : ∀ item ∈ items, ∀ value, holds value →
      SettledBy holds (faultsOf item) (step value item))
    {start : α} (met : holds start) :
    SettledBy holds (items.flatMap faultsOf) (items.foldlM step start) := by
  induction items generalizing start with
  | nil => exact .passed met
  | cons item rest ih =>
    obtain ⟨first, others⟩ := List.forall_mem_cons.mp steps
    rw [List.flatMap_cons, List.foldlM_cons]
    exact (first start met).bind fun value metNow => ih others metNow

theorem exists_ok_iff (settled : SettledBy holds faults result) :
    (∃ value, result = .ok value) ↔ faults = [] := by
  cases settled with
  | passed _ => exact iff_of_true ⟨_, rfl⟩ rfl
  | failed cause later => exact iff_of_false not_exists_of_error (List.cons_ne_nil cause later)

theorem eq_error_iff (settled : SettledBy holds faults result) {cause : ε} :
    result = .error cause ↔ faults.head? = some cause := by
  cases settled with
  | passed _ => simp
  | failed first later => simp

theorem holds_of_ok (settled : SettledBy holds faults result) {value : α}
    (passed : result = .ok value) : holds value := by
  cases settled with
  | passed met =>
    cases passed
    exact met
  | failed cause later => cases passed

end SettledBy

end ManifestGate.Except
