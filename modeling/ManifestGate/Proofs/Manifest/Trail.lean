import ManifestGate.Manifest.Execution

/-!
# The trail of a run

A run leaves a trail: each step with the context that it found and with what became of it. The run
does what the steps of its trail do, one after the other, and nothing else; `Engine.Takes` says so.
On objects that have not run, it is a chain of successful steps that a failing one may end; `Runs`
says so. Every fact about runs below is an induction on one of the two.
-/

namespace ManifestGate

variable {σ : Type}

/-- None of the objects has run, and no two of them have one key. -/
structure Pending (context : Context) (objects : List CompiledObject) : Prop where
  distinct : (objects.map CompiledObject.key).Nodup
  fresh : ∀ object ∈ objects, Dict.contains context.results object.key = false

namespace Pending

variable {context : Context} {object : CompiledObject} {rest : List CompiledObject}

theorem start (data : Dict Value) (manifest : CompiledManifest) :
    Pending (.start data) manifest.objects :=
  ⟨manifest.distinct, fun _ _ => rfl⟩

theorem head (pending : Pending context (object :: rest)) :
    Dict.contains context.results object.key = false :=
  pending.fresh object List.mem_cons_self

theorem settle (pending : Pending context (object :: rest)) (outcome : Engine.Outcome) :
    Pending (outcome.settle context object.key) rest := by
  obtain ⟨apart, distinct⟩ := List.nodup_cons.mp pending.distinct
  refine ⟨distinct, ?_⟩
  intro other member
  have different : object.key ≠ other.key := by
    intro same
    rw [same] at apart
    exact apart (List.mem_map_of_mem member)
  have before := pending.fresh other (List.mem_cons_of_mem _ member)
  rw [Dict.contains, Engine.Outcome.settle, Dict.get?_insert_of_ne _ _ different]
  exact before

end Pending

/-- A step of a run: its object, the context that it found and its result. -/
structure RunStep where
  object : CompiledObject
  context : Context
  result : Except ManifestError Engine.Outcome

namespace RunStep

def succeeded (step : RunStep) : Bool :=
  match step.result with
  | .ok _ => true
  | .error _ => false

/-- The context that the step leaves. -/
def after (step : RunStep) : Context :=
  match step.result with
  | .ok outcome => outcome.settle step.context step.object.key
  | .error _ => step.context

end RunStep

/-- The objects of the successful steps. -/
def stepped (trail : List RunStep) : List CompiledObject :=
  (trail.filter RunStep.succeeded).map RunStep.object

/-- The context as the last successful step left it. -/
def settled (context : Context) (trail : List RunStep) : Context :=
  (trail.filter RunStep.succeeded).foldl (fun _ step => step.after) context

namespace Engine

/-- The steps of a run on the objects. -/
def trail (engine : Engine σ) (scope : Scope) :
    List CompiledObject → Context → Progress σ → List RunStep
  | [], _, _ => []
  | object :: rest, context, progress =>
    if Dict.contains context.results object.key then trail engine scope rest context progress
    else
      match engine.step scope context object progress with
      | (.ok outcome, progress) =>
        ⟨object, context, .ok outcome⟩ ::
          trail engine scope rest (outcome.settle context object.key) progress
      | (.error cause, _) => [⟨object, context, .error cause⟩]

variable (engine : Engine σ) (scope : Scope)

theorem runObjects_cons {context : Context} {object : CompiledObject} {rest : List CompiledObject}
    (pending : Pending context (object :: rest)) (progress : Progress σ) :
    engine.runObjects scope (object :: rest) context progress =
      match engine.step scope context object progress with
      | (.ok outcome, progress) =>
        engine.runObjects scope rest (outcome.settle context object.key) progress
      | (.error cause, progress) => (.error cause, context, progress) := by
  rw [runObjects, pending.head]
  rfl

theorem runObjects_skip {before rest : List CompiledObject} {context : Context}
    (executed : ∀ object ∈ before, Dict.contains context.results object.key = true)
    (progress : Progress σ) :
    engine.runObjects scope (before ++ rest) context progress =
      engine.runObjects scope rest context progress := by
  induction before with
  | nil => rfl
  | cons object others ih =>
    rw [List.cons_append, runObjects, if_pos (executed object List.mem_cons_self)]
    exact ih fun other member => executed other (List.mem_cons_of_mem _ member)

theorem trail_skip {before rest : List CompiledObject} {context : Context}
    (executed : ∀ object ∈ before, Dict.contains context.results object.key = true)
    (progress : Progress σ) :
    engine.trail scope (before ++ rest) context progress =
      engine.trail scope rest context progress := by
  induction before with
  | nil => rfl
  | cons object others ih =>
    rw [List.cons_append, trail, if_pos (executed object List.mem_cons_self)]
    exact ih fun other member => executed other (List.mem_cons_of_mem _ member)

end Engine

/-- Each step finds the context that the one before has left, from the first context to the last. -/
inductive Connected : Context → List RunStep → Context → Prop where
  | done {context : Context} : Connected context [] context
  | step (step : RunStep) {rest : List RunStep} {final : Context} :
      Connected step.after rest final → Connected step.context (step :: rest) final

theorem Connected.append {first middle final : Context} {before after : List RunStep}
    (connected : Connected first before middle) (continued : Connected middle after final) :
    Connected first (before ++ after) final := by
  induction connected with
  | done => exact continued
  | step step _ ih => exact .step step (ih continued)

theorem Connected.final_mem {first final : Context} {trail : List RunStep}
    (connected : Connected first trail final) : final ∈ first :: trail.map RunStep.after := by
  induction connected with
  | done => exact List.mem_cons_self
  | step step _ ih => exact List.mem_cons_of_mem _ ih

/-- What holds of the first context and is kept by each step holds of all contexts. -/
theorem Connected.invariant {first final : Context} {trail : List RunStep}
    (connected : Connected first trail final) {holds : Context → Prop} (start : holds first)
    (kept : ∀ step ∈ trail, holds step.context → holds step.after) :
    ∀ context ∈ first :: trail.map RunStep.after, holds context := by
  induction connected with
  | done =>
    intro context member
    rwa [List.mem_singleton.mp member]
  | step step _ ih =>
    obtain ⟨keptFirst, keptRest⟩ := List.forall_mem_cons.mp kept
    exact List.forall_mem_cons.mpr ⟨start, ih (keptFirst start) keptRest⟩

/-- The steps are made one after the other, each in the context and with the progress that the one
before has left, up to the first that fails. -/
inductive Engine.Takes (engine : Engine σ) (scope : Scope) :
    Context → Progress σ → List RunStep → Except ManifestError Unit → Context → Progress σ →
      Prop where
  | done {context : Context} {progress : Progress σ} :
      Takes engine scope context progress [] (.ok ()) context progress
  | failed {object : CompiledObject} {context : Context} {progress later : Progress σ}
      {cause : ManifestError} :
      engine.step scope context object progress = (.error cause, later) →
      Takes engine scope context progress [⟨object, context, .error cause⟩] (.error cause) context
        later
  | step {object : CompiledObject} {context final : Context} {progress middle later : Progress σ}
      {outcome : Engine.Outcome} {rest : List RunStep} {result : Except ManifestError Unit} :
      engine.step scope context object progress = (.ok outcome, middle) →
      Takes engine scope (outcome.settle context object.key) middle rest result final later →
      Takes engine scope context progress (⟨object, context, .ok outcome⟩ :: rest) result final
        later

/-- A run is made of the steps of its trail: its result, its context and its progress are theirs. -/
theorem Engine.trail_takes (engine : Engine σ) (scope : Scope) (objects : List CompiledObject)
    (context : Context) (progress : Progress σ) :
    engine.Takes scope context progress (engine.trail scope objects context progress)
      (engine.runObjects scope objects context progress).1
      (engine.runObjects scope objects context progress).2.1
      (engine.runObjects scope objects context progress).2.2 := by
  induction objects generalizing context progress with
  | nil => exact .done
  | cons object rest ih =>
    unfold trail runObjects
    by_cases executed : Dict.contains context.results object.key = true
    · rw [if_pos executed, if_pos executed]
      exact ih context progress
    · rw [if_neg executed, if_neg executed]
      rcases ran : engine.step scope context object progress with ⟨result, later⟩
      cases result with
      | error cause => exact .failed ran
      | ok outcome => exact .step ran (ih _ later)

namespace Engine.Takes

variable {engine : Engine σ} {scope : Scope} {context final : Context}
  {progress later : Progress σ} {steps : List RunStep} {result : Except ManifestError Unit}

theorem connected (takes : engine.Takes scope context progress steps result final later) :
    Connected context steps final := by
  induction takes with
  | done => exact .done
  | @failed object context _ _ cause _ => exact .step ⟨object, context, .error cause⟩ .done
  | @step object context _ _ _ _ outcome _ _ _ _ ih =>
    exact .step ⟨object, context, .ok outcome⟩ ih

/-- Every step is one of the engine. -/
theorem ran (takes : engine.Takes scope context progress steps result final later)
    {step : RunStep} (member : step ∈ steps) :
    ∃ before after : Progress σ,
      engine.step scope step.context step.object before = (step.result, after) := by
  induction takes with
  | done => cases member
  | failed made =>
    rw [List.mem_singleton.mp member]
    exact ⟨_, _, made⟩
  | step made _ ih =>
    cases member with
    | head => exact ⟨_, _, made⟩
    | tail _ inside => exact ih inside

theorem of_nil (takes : engine.Takes scope context progress [] result final later) :
    result = .ok () ∧ final = context ∧ later = progress := by
  cases takes
  exact ⟨rfl, rfl, rfl⟩

end Engine.Takes

/-- A trail has steps of the given objects only. -/
theorem Engine.mem_of_mem_trail (engine : Engine σ) (scope : Scope)
    {objects : List CompiledObject} {context : Context} {progress : Progress σ} {step : RunStep}
    (member : step ∈ engine.trail scope objects context progress) : step.object ∈ objects := by
  induction objects generalizing context progress with
  | nil => cases member
  | cons object rest ih =>
    unfold trail at member
    split at member
    · exact List.mem_cons_of_mem _ (ih member)
    · split at member
      · rcases List.mem_cons.mp member with rfl | inside
        · exact List.mem_cons_self
        · exact List.mem_cons_of_mem _ (ih inside)
      · rw [List.mem_singleton.mp member]
        exact List.mem_cons_self

/-- A run of a manifest is one of its objects. If they succeed, the response is rendered. -/
theorem Engine.execute_cases (engine : Engine σ) (scope : Scope) (manifest : CompiledManifest)
    (context : Context) (progress : Progress σ) {ended : Except ManifestError Unit}
    {after : Context} {later : Progress σ}
    (ran : engine.runObjects scope manifest.objects context progress = (ended, after, later)) :
    (∃ cause, ended = .error cause ∧
      engine.execute scope manifest context progress = (.error cause, after, later)) ∨
    (ended = .ok () ∧ ∃ result final, engine.response? scope after later = (result, final) ∧
      engine.execute scope manifest context progress = (result, after, final)) := by
  unfold execute
  rw [ran]
  cases ended with
  | error cause => exact .inl ⟨cause, rfl, rfl⟩
  | ok done => exact .inr ⟨rfl, _, _, rfl, rfl⟩

/-- The trail of a run on objects that have not run, from one context to another. -/
inductive Runs :
    List CompiledObject → Context → List RunStep → Except ManifestError Unit → Context → Prop where
  | done {context : Context} : Runs [] context [] (.ok ()) context
  | failed {object : CompiledObject} {rest : List CompiledObject} {context : Context}
      {cause : ManifestError} :
      Runs (object :: rest) context [⟨object, context, .error cause⟩] (.error cause) context
  | step {object : CompiledObject} {rest : List CompiledObject} {context final : Context}
      {outcome : Engine.Outcome} {trail : List RunStep} {result : Except ManifestError Unit} :
      Runs rest (outcome.settle context object.key) trail result final →
      Runs (object :: rest) context (⟨object, context, .ok outcome⟩ :: trail) result final

theorem Engine.runs (engine : Engine σ) (scope : Scope) {objects : List CompiledObject}
    {context : Context} (pending : Pending context objects) (progress : Progress σ) :
    Runs objects context (engine.trail scope objects context progress)
      (engine.runObjects scope objects context progress).1
      (engine.runObjects scope objects context progress).2.1 := by
  induction objects generalizing context progress with
  | nil => exact .done
  | cons object rest ih =>
    have fresh := pending.head
    rw [trail, if_neg (by simp [fresh]), engine.runObjects_cons scope pending]
    rcases engine.step scope context object progress with ⟨result, later⟩
    cases result with
    | error cause => exact .failed
    | ok outcome => exact .step (ih (pending.settle outcome) later)

/-- The executed keys are exactly those of the objects. -/
def Executed (objects : List CompiledObject) (context : Context) : Prop :=
  ∀ key, Dict.contains context.results key = true ↔ key ∈ objects.map CompiledObject.key

theorem Executed.start (data : Dict Value) : Executed [] (.start data) :=
  fun _ => iff_of_false Bool.false_ne_true List.not_mem_nil

theorem Executed.settle {before : List CompiledObject} {context : Context}
    (executed : Executed before context) (object : CompiledObject) (outcome : Engine.Outcome) :
    Executed (before ++ [object]) (outcome.settle context object.key) := by
  intro key
  rw [Engine.Outcome.settle, Dict.contains_insert, executed key, List.map_append, List.mem_append,
    or_comm]
  simp

namespace Runs

variable {objects : List CompiledObject} {context final : Context} {trail : List RunStep}
  {result : Except ManifestError Unit}

/-- The successful steps are those of the first objects. If the run fails, then at the next object,
whose step leaves the context that it found. -/
theorem split (runs : Runs objects context trail result final) :
    ∃ rest, objects = stepped trail ++ rest ∧ (result = .ok () → rest = []) ∧
      ∀ cause, result = .error cause → ∃ step ∈ trail,
        step.result = .error cause ∧ rest.head? = some step.object ∧ step.context = final := by
  induction runs with
  | done => exact ⟨[], rfl, fun _ => rfl, fun _ impossible => (nomatch impossible)⟩
  | @failed object rest context cause =>
    refine ⟨object :: rest, rfl, fun impossible => (nomatch impossible), ?_⟩
    intro other same
    cases same
    exact ⟨_, List.mem_cons_self, rfl, rfl, rfl⟩
  | @step object rest context final outcome trail result _ ih =>
    obtain ⟨left, same, complete, failing⟩ := ih
    refine ⟨left, congrArg (object :: ·) same, complete, ?_⟩
    intro cause failed
    obtain ⟨step, member, found⟩ := failing cause failed
    exact ⟨step, List.mem_cons_of_mem _ member, found⟩

theorem of_nil (runs : Runs [] context trail result final) : trail = [] ∧ final = context := by
  cases runs
  exact ⟨rfl, rfl⟩

theorem executed (runs : Runs objects context trail result final) {before : List CompiledObject}
    (executed : Executed before context) : Executed (before ++ stepped trail) final := by
  induction runs generalizing before with
  | done | failed =>
    change Executed (before ++ []) _
    rwa [List.append_nil]
  | @step object rest context final outcome trail result _ ih =>
    have next := ih (executed.settle object outcome)
    rwa [List.append_assoc] at next

theorem keeps (runs : Runs objects context trail result final) (pending : Pending context objects)
    {key : String} {value : Value} (stored : Dict.get? context.results key = some value) :
    Dict.get? final.results key = some value := by
  induction runs with
  | done | failed => exact stored
  | @step object rest context final outcome trail result _ ih =>
    refine ih (pending.settle outcome) ?_
    have different : object.key ≠ key := by
      intro same
      have fresh := pending.head
      rw [same, Dict.contains, stored] at fresh
      cases fresh
    exact (Dict.get?_insert_of_ne _ _ different).trans stored

theorem head (runs : Runs objects context trail result final) :
    trail.head?.map RunStep.object = objects.head? := by
  cases runs <;> rfl

/-- Each step finds exactly the objects before its own executed. -/
theorem inOrder (runs : Runs objects context trail result final) {before : List CompiledObject}
    (executed : Executed before context) {step : RunStep} (member : step ∈ trail) :
    ∃ earlier later, before ++ objects = earlier ++ step.object :: later ∧
      Executed earlier step.context := by
  induction runs generalizing before with
  | done => cases member
  | @failed object rest context cause =>
    rw [List.mem_singleton.mp member]
    exact ⟨before, rest, rfl, executed⟩
  | @step object rest context final outcome trail result _ ih =>
    cases member with
    | head => exact ⟨before, rest, rfl, executed⟩
    | tail _ later =>
      obtain ⟨earlier, others, same, found⟩ := ih (executed.settle object outcome) later
      refine ⟨earlier, others, ?_, found⟩
      rw [← same, List.append_assoc]
      rfl

theorem settled_eq (runs : Runs objects context trail result final) :
    final = settled context trail := by
  induction runs with
  | done | failed => rfl
  | step _ ih => exact ih

end Runs

end ManifestGate
