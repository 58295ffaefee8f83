import ManifestGate.Proofs.Action
import ManifestGate.Proofs.Capability.Entries
import ManifestGate.Proofs.Manifest.CompileAlike

/-!
# Exchanging one function

Two registries whose entries differ in one function check every path alike, and apart from the path
of that function they resolve and call every path alike.
-/

namespace ManifestGate

variable {σ : Type}

namespace Registry

/-- The function that a call of a path runs. -/
def callee (registry : Registry σ) (path : String) :
    Except ReferenceError (Scope → Arguments → σ → Reply σ) :=
  match registry.locate path with
  | .ok (.function run, []) => .ok run
  | .ok _ => .error (.notCallable path)
  | .error cause => .error cause

theorem callee_of_locate {registry : Registry σ} {path : String}
    {run : Scope → Arguments → σ → Reply σ}
    (located : registry.locate path = .ok (.function run, [])) :
    registry.callee path = .ok run := by
  rw [callee, located]

theorem locate_of_callee {registry : Registry σ} {path : String}
    {run : Scope → Arguments → σ → Reply σ} (found : registry.callee path = .ok run) :
    registry.locate path = .ok (.function run, []) := by
  unfold callee at found
  split at found <;> cases found
  assumption

/-- A path that stands for a function meets the function itself. -/
theorem locate_of_resolve {registry : Registry σ} {path : String}
    {run : Scope → Arguments → σ → Reply σ}
    (resolved : registry.resolve path = .ok (.function run)) :
    registry.locate path = .ok (.function run, []) := by
  unfold resolve at resolved
  obtain ⟨⟨capability, rest⟩, located, continued⟩ := Except.bind_eq_ok_iff.mp resolved
  rw [located]
  cases capability with
  | function other =>
    cases rest with
    | nil =>
      cases continued
      rfl
    | cons segment more => cases continued
  | value value =>
    dsimp only at continued
    cases walked : value.walk rest with
    | ok found => simp [walked, pure, Except.pure] at continued
    | error segment => simp [walked] at continued

theorem resolve_of_locate {registry : Registry σ} {path : String}
    {run : Scope → Arguments → σ → Reply σ}
    (located : registry.locate path = .ok (.function run, [])) :
    registry.resolve path = .ok (.function run) := by
  rw [resolve, located]
  rfl

theorem call_eq (registry : Registry σ) (scope : Scope) (path : String) (arguments : Arguments) :
    registry.call scope path arguments =
      Action.ofExcept .reference (registry.callee path) >>= fun run =>
        Action.callFunction path run scope arguments := by
  unfold call callee
  rw [Action.ofExcept_bind, Action.ofExcept_bind]
  cases registry.locate path with
  | error cause => rfl
  | ok found =>
    obtain ⟨capability, rest⟩ := found
    cases capability with
    | value value => rfl
    | function run => cases rest <;> rfl

/-- The registries have one root and tell the same of every path, up to which function stands at the
given one. -/
structure SameButAt (path : String) (one other : Registry σ) : Prop
    extends one.ChecksAs other where
  resolve (text : String) : text ≠ path → one.resolve text = other.resolve text
  callee (text : String) : text ≠ path → one.callee text = other.callee text

section

variable {path : String} {first second : Scope → Arguments → σ → Reply σ}

theorem longest?_exchange {entries exchanged : Dict (Capability σ)}
    (elsewhere : ∀ place, place ≠ path → Dict.get? entries place = Dict.get? exchanged place)
    (here : Dict.get? entries path = some (.function first))
    (there : Dict.get? exchanged path = some (.function second)) (parts : List String)
    (count : Nat) :
    longest? entries parts count = longest? exchanged parts count ∨
      ∃ taken, Path.join (parts.take taken) = path ∧
        longest? entries parts count = some (.function first, parts.drop taken) ∧
        longest? exchanged parts count = some (.function second, parts.drop taken) := by
  induction count with
  | zero => exact .inl rfl
  | succ count ih =>
    unfold longest?
    by_cases atPath : Path.join (parts.take (count + 1)) = path
    · rw [atPath, here, there]
      exact .inr ⟨count + 1, atPath, rfl, rfl⟩
    · rw [elsewhere _ atPath]
      cases Dict.get? exchanged (Path.join (parts.take (count + 1))) with
      | some capability => exact .inl rfl
      | none => exact ih

/-- Locating a path gives the same in both, or one function and the other. Only the path of the
functions itself leads to them with nothing left over. -/
theorem locate_exchange {root : String} {before after : List (String × Capability σ)}
    {one other : Registry σ}
    (holds : one.Holds root (before ++ (path, .function first) :: after))
    (holdsOther : other.Holds root (before ++ (path, .function second) :: after))
    (text : String) :
    one.locate text = other.locate text ∨
      ∃ rest, one.locate text = .ok (.function first, rest) ∧
        other.locate text = .ok (.function second, rest) ∧
        (rest = [] → text = one.absolute path) := by
  have elsewhere : ∀ place, place ≠ path →
      Dict.get? one.entries place = Dict.get? other.entries place := by
    intro place different
    ext capability
    rw [holds.get?_iff, holdsOther.get?_iff]
    simp [different]
  have here := (holds.get?_iff path (.function first)).mpr (by simp)
  have there := (holdsOther.get?_iff path (.function second)).mpr (by simp)
  have roots : one.root = other.root := by rw [holds.rooted, holdsOther.rooted]
  unfold locate
  cases segments : Path.segments text with
  | nil => exact .inl rfl
  | cons head parts =>
    rw [← roots]
    by_cases rooted : head = one.root
    · by_cases bare : parts = []
      · simp [rooted, bare]
      · have full : parts.isEmpty = false := by simpa using bare
        simp only [rooted, ne_eq, not_true, if_false, full, Bool.false_eq_true]
        rcases longest?_exchange elsewhere here there parts parts.length with
          same | ⟨taken, atPath, found, foundOther⟩
        · rw [same]
          exact .inl rfl
        · rw [found, foundOther]
          refine .inr ⟨parts.drop taken, rfl, rfl, ?_⟩
          intro nothing
          have all : parts.take taken = parts :=
            List.take_of_length_le (List.drop_eq_nil_iff.mp nothing)
          rw [all] at atPath
          rw [absolute, ← atPath, ← rooted, ← Path.join_cons head bare, ← segments,
            Path.join_segments]
    · simp [rooted]

theorem sameButAt_of_holds {root : String} {before after : List (String × Capability σ)}
    {one other : Registry σ}
    (holds : one.Holds root (before ++ (path, .function first) :: after))
    (holdsOther : other.Holds root (before ++ (path, .function second) :: after)) :
    SameButAt (one.absolute path) one other where
  root := by rw [holds.rooted, holdsOther.rooted]
  check text := by
    unfold check resolve
    rcases locate_exchange holds holdsOther text with same | ⟨rest, found, foundOther, _⟩
    · rw [same]
    · rw [found, foundOther]
      cases rest <;> rfl
  resolve text different := by
    unfold resolve
    rcases locate_exchange holds holdsOther text with same | ⟨rest, found, foundOther, atPath⟩
    · rw [same]
    · rw [found, foundOther]
      cases rest with
      | nil => exact absurd (atPath rfl) different
      | cons segment more => rfl
  callee text different := by
    unfold callee
    rcases locate_exchange holds holdsOther text with same | ⟨rest, found, foundOther, atPath⟩
    · rw [same]
    · rw [found, foundOther]
      cases rest with
      | nil => exact absurd (atPath rfl) different
      | cons segment more => rfl

end

end Registry

end ManifestGate
