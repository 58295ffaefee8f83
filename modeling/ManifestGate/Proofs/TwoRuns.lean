import ManifestGate.Proofs.Action

/-!
# Two runs side by side

Two actions are related if, started in one state, they end in one state with the same error or with
related values. What was reported before and what they report themselves plays no part. The rules
take both actions apart along their steps.
-/

namespace ManifestGate

variable {σ : Type} {α β γ δ ε : Type}

/-- The same error, or related values. -/
inductive Except.Related (related : α → β → Prop) : Except ε α → Except ε β → Prop where
  | ok {one : α} {other : β} : related one other → Related related (.ok one) (.ok other)
  | error (cause : ε) : Related related (.error cause) (.error cause)

theorem Except.Related.eq {one other : Except ε α} (related : Except.Related Eq one other) :
    one = other := by
  cases related with
  | ok same => rw [same]
  | error cause => rfl

theorem Except.Related.refl (result : Except ε α) : Except.Related Eq result result := by
  cases result with
  | ok value => exact .ok rfl
  | error cause => exact .error cause

theorem Except.Related.mapError {ε' : Type} {related : α → β → Prop} {one : Except ε α}
    {other : Except ε β} (results : Except.Related related one other) (wrap : ε → ε') :
    Except.Related related (one.mapError wrap) (other.mapError wrap) := by
  cases results with
  | ok holds => exact .ok holds
  | error cause => exact .error (wrap cause)

namespace Action

/-- From one state both actions come to one state and to related results. -/
def Related (related : α → β → Prop) (one : Action σ α) (other : Action σ β) : Prop :=
  ∀ first second : Progress σ, first.state = second.state →
    (one first).2.state = (other second).2.state ∧
      Except.Related related (one first).1 (other second).1

/-- From one state both actions come to one state and to one result. -/
abbrev Alike (one other : Action σ α) : Prop :=
  Related Eq one other

variable {related : α → β → Prop} {one : Action σ α} {other : Action σ β}

theorem Related.pure {first : α} {second : β} (holds : related first second) :
    Related related (Pure.pure first : Action σ α) (Pure.pure second) :=
  fun _ _ same => ⟨same, .ok holds⟩

theorem Related.throw (cause : ManifestError) :
    Related related (MonadExcept.throw cause : Action σ α) (MonadExcept.throw cause) :=
  fun _ _ same => ⟨same, .error cause⟩

theorem Related.bind {next : α → Action σ γ} {following : β → Action σ δ} {kept : γ → δ → Prop}
    (before : Related related one other)
    (after : ∀ first second, related first second →
      Related kept (next first) (following second)) :
    Related kept (one >>= next) (other >>= following) := by
  intro first second same
  have ran := before first second same
  rw [bind_apply, bind_apply]
  generalize one first = run, other second = otherRun at ran ⊢
  obtain ⟨result, later⟩ := run
  obtain ⟨otherResult, otherLater⟩ := otherRun
  obtain ⟨state, results⟩ := ran
  cases results with
  | ok holds => exact after _ _ holds later otherLater state
  | error cause => exact ⟨state, .error cause⟩

/-- Another wording of the error keeps results related. -/
theorem Related.adapt (wrap : ManifestError → ManifestError) (given : Related related one other) :
    Related related (ExceptT.adapt wrap one : Action σ α) (ExceptT.adapt wrap other) := by
  intro first second same
  obtain ⟨state, results⟩ := given first second same
  exact ⟨state, results.mapError wrap⟩

theorem Related.perform {path : String} {call otherCall : Event} {run otherRun : σ → Reply σ}
    {related : Value → Value → Prop}
    (answers : ∀ state, (run state).state = (otherRun state).state ∧
      Except.Related related (run state).result (otherRun state).result) :
    Related related (Action.perform path call run) (Action.perform path otherCall otherRun) := by
  intro first second same
  have ⟨state, results⟩ := answers first.state
  simp only [Action.perform, Progress.perform, ← same]
  generalize (run first.state).result = result at results ⊢
  generalize (otherRun first.state).result = otherResult at results ⊢
  cases results with
  | ok holds => exact ⟨state, .ok holds⟩
  | error failure => exact ⟨state, .error _⟩

namespace Alike

variable {one other : Action σ α}

/-- After actions that are alike, both runs go on with one value. -/
theorem followed {next : α → Action σ γ} {following : α → Action σ δ} {kept : γ → δ → Prop}
    (before : Alike one other) (after : ∀ value, Related kept (next value) (following value)) :
    Related kept (one >>= next) (other >>= following) := by
  apply Related.bind before
  rintro value _ rfl
  exact after value

theorem bind {next following : α → Action σ γ} (before : Alike one other)
    (after : ∀ value, Alike (next value) (following value)) :
    Alike (one >>= next) (other >>= following) :=
  before.followed after

theorem pure (value : α) : Alike (Pure.pure value : Action σ α) (Pure.pure value) :=
  Related.pure rfl

theorem throw (cause : ManifestError) :
    Alike (MonadExcept.throw cause : Action σ α) (MonadExcept.throw cause) :=
  Related.throw cause

theorem ofExcept {cause : Type} (wrap : cause → ManifestError) (result : Except cause α) :
    Alike (Action.ofExcept wrap result : Action σ α) (Action.ofExcept wrap result) := by
  cases result with
  | ok value => exact pure value
  | error cause => exact throw (wrap cause)

theorem report (report : Report) :
    Alike (Action.report report : Action σ Unit) (Action.report report) :=
  fun _ _ same => ⟨same, .ok rfl⟩

/-- A call of one function is answered alike. -/
theorem perform (path : String) (call : Event) (run : σ → Reply σ) :
    Alike (Action.perform path call run) (Action.perform path call run) :=
  Related.perform fun _ => ⟨rfl, .refl _⟩

theorem result_eq (alike : Alike one other) {first second : Progress σ}
    (same : first.state = second.state) : (one first).1 = (other second).1 :=
  (alike first second same).2.eq

end Alike

end Action

end ManifestGate
