import ManifestGate.Gateway
import ManifestGate.Proofs.Manifest.Refusals

/-!
# What payloads tell of causes

An error may have another one behind it as its source: a failed call has the failure, and a failure
with a context has the failure that the context was put around. In debug mode a payload tells of an
internal error all that stands along these sources; otherwise it shows nothing of them but the text
of the outermost cause. A refusal of access among the causes speaks for itself at any depth.
-/

namespace ManifestGate

namespace Failure

/-- The failure with contexts around it, the outermost first. -/
def within (failure : Failure) : List String → Failure
  | [] => failure
  | text :: inner => (failure.within inner).context text

/-- What stands behind the outermost cause. -/
def source? (failure : Failure) : Option Failure :=
  match failure.behind with
  | [] => none
  | cause :: rest => some ⟨cause, rest⟩

/-- Behind a context stands what it was put around, and nothing in between. -/
@[simp] theorem source?_context (failure : Failure) (text : String) :
    (failure.context text).source? = some failure := rfl

theorem causes_within (failure : Failure) (contexts : List String) :
    (failure.within contexts).causes = contexts.map .message ++ failure.causes := by
  induction contexts with
  | nil => rfl
  | cons text inner ih => exact congrArg (Cause.message text :: ·) ih

theorem carries_within (refusal : AccessError) (contexts : List String) :
    ((ofAccess refusal).within contexts).Carries refusal :=
  ⟨contexts, [], causes_within _ contexts⟩

end Failure

/-- The error behind a manifest error. Only a failed call has one. -/
def ManifestError.source? : ManifestError → Option Failure
  | .capability _ failure => some failure
  | _ => none

/-- The error behind an error of the gateway, which shows itself as the error that it holds. -/
def GatewayError.source? : GatewayError → Option Failure
  | .access _ => none
  | .manifest error => error.source?

/-- The texts along the sources, from the first to the one that has none behind it. -/
inductive ToldAlong : Option Failure → List String → Prop where
  | last : ToldAlong none []
  | next {failure : Failure} {texts : List String} :
      ToldAlong failure.source? texts → ToldAlong (some failure) (failure.message :: texts)

theorem toldAlong_failure_iff {failure : Failure} {texts : List String} :
    ToldAlong (some failure) texts ↔ texts = failure.causes.map Cause.text := by
  obtain ⟨outermost, behind⟩ := failure
  induction behind generalizing outermost texts with
  | nil =>
    constructor
    · rintro (_ | ⟨⟨⟩⟩)
      rfl
    · rintro rfl
      exact .next .last
  | cons cause rest ih =>
    constructor
    · rintro (_ | told)
      rw [(ih cause).mp told]
      rfl
    · rintro rfl
      exact .next ((ih cause).mpr rfl)

/-- Contexts are told before what they were put around. -/
theorem ToldAlong.within {failure : Failure} {texts : List String}
    (told : ToldAlong (some failure) texts) (contexts : List String) :
    ToldAlong (some (failure.within contexts)) (contexts ++ texts) := by
  induction contexts with
  | nil => exact told
  | cons text inner ih =>
    have behind : ToldAlong ((failure.within inner).context text).source? (inner ++ texts) := by
      rwa [Failure.source?_context]
    exact .next behind

theorem GatewayError.toldAlong_iff {error : GatewayError} {texts : List String} :
    ToldAlong error.source? texts ↔ texts = error.causes := by
  have none_iff : ToldAlong none texts ↔ texts = [] := by
    constructor
    · rintro ⟨⟩
      rfl
    · rintro rfl
      exact .last
  cases error with
  | access refusal => exact none_iff
  | manifest error =>
    cases error with
    | capability path failure => exact toldAlong_failure_iff
    | _ => exact none_iff

/-! ## Refusals among the causes -/

namespace Failure

/-- A refusal of access is among the causes, at whatever depth. -/
def HoldsRefusal (failure : Failure) : Prop :=
  ∃ refusal, .access refusal ∈ failure.causes

theorem access?_eq_none_iff {failure : Failure} :
    failure.access? = none ↔ ¬failure.HoldsRefusal := by
  rw [access?, List.findSome?_eq_none_iff, HoldsRefusal]
  constructor
  · rintro silent ⟨refusal, member⟩
    cases silent _ member
  · intro none cause member
    cases cause with
    | message text => rfl
    | access refusal => exact absurd ⟨refusal, member⟩ none

theorem HoldsRefusal.exists_carries {failure : Failure} (holds : failure.HoldsRefusal) :
    ∃ refusal, failure.Carries refusal := by
  cases found : failure.access? with
  | none => exact absurd holds (access?_eq_none_iff.mp found)
  | some refusal => exact ⟨refusal, access?_eq_some_iff.mp found⟩

theorem not_holdsRefusal_within (text : String) (contexts : List String) :
    ¬((ofMessage text).within contexts).HoldsRefusal := by
  rintro ⟨refusal, member⟩
  rw [causes_within] at member
  simp [ofMessage, causes] at member

end Failure

/-! ## Payloads -/

namespace GatewayError

/-- The error of a run that a failing call ends. -/
def ofFailure (path : String) (failure : Failure) : GatewayError :=
  .manifest (.capability path failure)

theorem message_ofFailure (path : String) (failure : Failure) :
    (ofFailure path failure).message = "capability " ++ path ++ " failed: " ++ failure.message :=
  rfl

section

variable {path : String} {failure : Failure}

theorem status_of_silent (silent : ¬failure.HoldsRefusal) :
    (ofFailure path failure).status = 500 := by
  simp only [ofFailure, status, ManifestError.status, Failure.access?_eq_none_iff.mpr silent,
    Option.map_none, Option.getD_none]

theorem text_of_silent (silent : ¬failure.HoldsRefusal) :
    (ofFailure path failure).text = (ofFailure path failure).message := by
  simp only [ofFailure, text, message, ManifestError.access?,
    Failure.access?_eq_none_iff.mpr silent]

/-- What is shown of a failed call outside debug mode, if no refusal is behind it. -/
theorem payload_of_silent (silent : ¬failure.HoldsRefusal) :
    (ofFailure path failure).payload false =
      ⟨statusMessage 500, (ofFailure path failure).message, 500, none⟩ := by
  rw [payload, status_of_silent silent, text_of_silent silent, if_neg fun shown => nomatch shown.1]

theorem payload_of_carries {refusal : AccessError} (carries : failure.Carries refusal)
    (debug : Bool) :
    ((ofFailure path failure).payload debug).code = refusal.status ∧
      ((ofFailure path failure).payload debug).error = refusal.message := by
  simp only [payload, ofFailure, status, text, ManifestError.status, ManifestError.access?,
    Failure.access?_eq_some_iff.mpr carries, Option.map_some, Option.getD_some, and_self]

end

theorem payload_debug_isSome_iff {error : GatewayError} {debug : Bool} :
    (error.payload debug).debug.isSome = true ↔ debug = true ∧ 500 ≤ error.status := by
  by_cases shown : debug = true ∧ 500 ≤ error.status
  · rw [payload, if_pos shown]
    exact iff_of_true rfl shown
  · rw [payload, if_neg shown]
    exact iff_of_false Bool.false_ne_true shown

theorem payload_debug_eq_some_iff {error : GatewayError} {debug : Bool} {block : DebugInfo} :
    (error.payload debug).debug = some block ↔
      (debug = true ∧ 500 ≤ error.status) ∧ block.exception = error.message ∧
        ToldAlong error.source? block.causes := by
  obtain ⟨exception, causes⟩ := block
  rw [payload, toldAlong_iff]
  by_cases shown : debug = true ∧ 500 ≤ error.status
  · rw [if_pos shown]
    simp only [shown, and_self, true_and, Option.some.injEq, DebugInfo.mk.injEq, eq_comm]
  · rw [if_neg shown]
    simp only [shown, false_and, reduceCtorEq]

/-- Of a message in contexts all is told in debug mode. -/
theorem debug_within (path text : String) (contexts : List String) :
    let error := ofFailure path ((Failure.ofMessage text).within contexts)
    (error.payload true).debug = some ⟨error.message, contexts ++ [text]⟩ := by
  apply payload_debug_eq_some_iff.mpr
  refine ⟨⟨rfl, ?_⟩, rfl, ?_⟩
  · exact Nat.le_of_eq (status_of_silent (Failure.not_holdsRefusal_within text contexts)).symm
  · have told : ToldAlong (some (.ofMessage text)) [text] := .next .last
    exact told.within contexts

end GatewayError

/-- A payload has the code of its error. It has a debug block exactly for an internal error in debug
mode, and the block tells all the causes: of a message in contexts the texts of these and then the
message. Outside debug mode failed calls at one path that show one text are told alike, whatever
stands behind that text, unless a refusal does. A refusal gives its own code and text from any
depth. -/
theorem causes_told_in_debug_alone :
    (∀ (error : GatewayError) (debug : Bool),
      (error.payload debug).code = error.status ∧
      ((error.payload debug).debug.isSome = true ↔ debug = true ∧ 500 ≤ error.status) ∧
      ∀ block, (error.payload debug).debug = some block →
        block.exception = error.message ∧ ToldAlong error.source? block.causes) ∧
    (∀ path text contexts,
      ((GatewayError.ofFailure path ((Failure.ofMessage text).within contexts)).payload
        true).debug.map DebugInfo.causes = some (contexts ++ [text])) ∧
    (∀ path (first second : Failure), ¬first.HoldsRefusal → ¬second.HoldsRefusal →
      first.message = second.message →
        (GatewayError.ofFailure path first).payload false =
          (GatewayError.ofFailure path second).payload false) ∧
    (∀ path (failure : Failure) debug, failure.HoldsRefusal → ∃ refusal, failure.Carries refusal ∧
      ((GatewayError.ofFailure path failure).payload debug).code = refusal.status ∧
      ((GatewayError.ofFailure path failure).payload debug).error = refusal.message) ∧
    ∀ path refusal contexts debug,
      let payload :=
        (GatewayError.ofFailure path ((Failure.ofAccess refusal).within contexts)).payload debug
      payload.code = refusal.status ∧ payload.error = refusal.message := by
  refine ⟨?_, ?_, ?_, ?_, ?_⟩
  · intro error debug
    refine ⟨rfl, GatewayError.payload_debug_isSome_iff, ?_⟩
    intro block shown
    exact (GatewayError.payload_debug_eq_some_iff.mp shown).2
  · intro path text contexts
    rw [GatewayError.debug_within]
    rfl
  · intro path first second silent silentToo same
    rw [GatewayError.payload_of_silent silent, GatewayError.payload_of_silent silentToo,
      GatewayError.message_ofFailure, GatewayError.message_ofFailure, same]
  · intro path failure debug holds
    obtain ⟨refusal, carries⟩ := holds.exists_carries
    exact ⟨refusal, carries, GatewayError.payload_of_carries carries debug⟩
  · intro path refusal contexts debug
    exact GatewayError.payload_of_carries (Failure.carries_within refusal contexts) debug

/-- Causes that differ behind two contexts are told apart in debug mode only, and a refusal that
stands there is told in any mode. -/
theorem innermost_causes_told :
    let failed (failure : Failure) :=
      GatewayError.ofFailure "R.F" (failure.within ["query", "load"])
    (failed (.ofMessage "no disk")).payload false = (failed (.ofMessage "no net")).payload false ∧
    ((failed (.ofMessage "no disk")).payload true).debug.map DebugInfo.causes =
      some ["query", "load", "no disk"] ∧
    ∃ refusal : AccessError,
      ((failed (.ofAccess (.denied "no"))).payload false).code = refusal.status ∧
      ((failed (.ofAccess (.denied "no"))).payload false).error = refusal.message := by
  obtain ⟨_, told, hidden, refused, _⟩ := causes_told_in_debug_alone
  refine ⟨?_, told "R.F" "no disk" ["query", "load"], ?_⟩
  · exact hidden "R.F" _ _ (Failure.not_holdsRefusal_within _ _)
      (Failure.not_holdsRefusal_within _ _) rfl
  · obtain ⟨refusal, _, spoken⟩ :=
      refused "R.F" ((Failure.ofAccess (.denied "no")).within ["query", "load"]) false
        ⟨.denied "no", .tail _ (.tail _ (.head _))⟩
    exact ⟨refusal, spoken⟩

end ManifestGate
