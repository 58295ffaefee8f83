import ManifestGate.Proofs.Manifest.Step
import ManifestGate.Proofs.Manifest.Visits

/-!
# The order of calls

Every part of the interpreter visits the points of what it evaluates, in their order, and does
nothing else to the state. This is the one induction over the evaluation of a template: which calls
are made, how a run can fail and what it has called by then all follow from the points.
-/

namespace ManifestGate

variable {σ : Type} {α β : Type}

/-- The action visits the points in the context: its calls are theirs, and it fails as they do. -/
def Follows (engine : Engine σ) (scope : Scope) (context : Context) (points : List Point) :
    Action.Condition σ α :=
  fun start result events final =>
    engine.Visits scope (points.map (Stop.mk context)) start (result.map fun _ => ())
      (calls events) final

/-- The action answers the question in the context. -/
def Answers (engine : Engine σ) (scope : Scope) (context : Context) (question : Question) :
    Action.Condition σ Value :=
  fun start result events final =>
    question.Answered engine scope context start result (calls events) final

/-- The action holds the value against the demand and calls nothing. -/
def Checks (demand : Demand) (value : Value) : Action.Condition σ α :=
  fun start result events final =>
    calls events = [] ∧ final = start ∧ (result.map fun _ => ()) = demand.check value

namespace Answers

variable {engine : Engine σ} {scope : Scope} {context : Context}

theorem throw (flaw : Flaw) :
    Action.Meets (MonadExcept.throw flaw.error : Action σ Value)
      (Answers engine scope context (.flaw flaw)) :=
  Action.Meets.throw fun _ => .flaw

/-- A function or a method is called once, whatever it reports. -/
theorem perform {path : String} {call : Event} {run : σ → Reply σ} {question : Question}
    (isCall : call.isCall = true)
    (answered : ∀ state, question.Answered engine scope context state
      ((run state).result.mapError (.capability path)) [call] (run state).state) :
    (Action.perform path call run).Meets (Answers engine scope context question) := by
  apply Action.Meets.perform
  intro state
  have only := calls_call isCall (run state).reports
  rw [Answers, only]
  exact answered state

end Answers

namespace Checks

variable {demand : Demand} {value : Value}

theorem pure {result : α} (holds : demand.check value = .ok ()) :
    Action.Meets (Pure.pure result : Action σ α) (Checks demand value) :=
  Action.Meets.pure fun _ => ⟨rfl, rfl, holds.symm⟩

theorem throw {cause : ManifestError} (fails : demand.check value = .error cause) :
    Action.Meets (MonadExcept.throw cause : Action σ α) (Checks demand value) :=
  Action.Meets.throw fun _ => ⟨rfl, rfl, fails.symm⟩

/-- What is reported before and returned after makes no difference. -/
theorem report {report : Report} {next : Action σ α} (checks : next.Meets (Checks demand value)) :
    (Action.report report >>= fun _ => next).Meets (Checks demand value) := by
  have reported : (Action.report report : Action σ Unit).Meets
      fun start result events final => calls events = [] ∧ final = start ∧ result = .ok () :=
    Action.Meets.report fun _ => ⟨rfl, rfl, rfl⟩
  apply reported.bind
  · intro start cause events final failed
    obtain ⟨_, _, impossible⟩ := failed
    cases impossible
  · intro start given events middle passed
    obtain ⟨none, unchanged, _⟩ := passed
    apply checks.weaken
    intro begun result more final checked begins
    obtain ⟨noneMore, unchangedMore, same⟩ := checked
    refine ⟨?_, ?_, same⟩
    · rw [calls_append, none, noneMore]
      rfl
    · rw [unchangedMore, begins, unchanged]

theorem thenPure {action : Action σ α} {result : β} (checks : action.Meets (Checks demand value)) :
    (action >>= fun _ => Pure.pure result).Meets (Checks demand value) := by
  apply checks.bind
  · intro start cause events final failed
    exact failed
  · intro start given events middle passed
    apply Action.Meets.pure
    intro begun begins
    rw [List.append_nil, begins]
    exact passed

end Checks

namespace Follows

variable {engine : Engine σ} {scope : Scope} {context : Context} {points first second : List Point}

theorem pure {value : α} :
    Action.Meets (Pure.pure value : Action σ α) (Follows engine scope context []) :=
  Action.Meets.pure fun _ => .done

theorem throw (flaw : Flaw) :
    Action.Meets (MonadExcept.throw flaw.error : Action σ α)
      (Follows engine scope context (.flawed flaw :: points)) :=
  Action.Meets.throw fun _ => .failed ⟨_, .flaw, rfl⟩

/-- One action after another visits the points of the first and then those of the second. -/
theorem bind {action : Action σ α} {next : α → Action σ β}
    (before : action.Meets (Follows engine scope context first))
    (after : ∀ value, (next value).Meets (Follows engine scope context second)) :
    (action >>= next).Meets (Follows engine scope context (first ++ second)) := by
  apply before.bind
  · intro start cause events final failed
    rw [Follows, List.map_append]
    exact Engine.Visits.leave failed
  · intro start value events middle passed
    apply (after value).weaken
    intro begun result more final others begins
    rw [begins] at others
    rw [Follows, List.map_append, calls_append]
    exact Engine.Visits.append passed others

/-- The same when the second action visits nothing. -/
theorem bindSilent {action : Action σ α} {next : α → Action σ β}
    (before : action.Meets (Follows engine scope context points))
    (after : ∀ value, (next value).Meets (Follows engine scope context [])) :
    (action >>= next).Meets (Follows engine scope context points) := by
  have both := bind before after
  rwa [List.append_nil] at both

/-- The answer to a question is held against the demand. -/
theorem demand {action : Action σ Value} {next : Value → Action σ α} {question : Question}
    {demand : Demand} (answers : action.Meets (Answers engine scope context question))
    (checks : ∀ value, (next value).Meets (Checks demand value)) :
    (action >>= next).Meets (Follows engine scope context [⟨question, demand⟩]) := by
  apply answers.bind
  · intro start cause events final answered
    exact .single ⟨_, answered, rfl⟩
  · intro start value events middle answered
    apply (checks value).weaken
    intro begun result more final checked begins
    obtain ⟨none, unchanged, same⟩ := checked
    rw [Follows, calls_append, none, List.append_nil, same, unchanged, begins]
    exact .single ⟨_, answered, rfl⟩

/-- An answer of which nothing is asked. -/
theorem answer {action : Action σ Value} {question : Question}
    (answers : action.Meets (Answers engine scope context question)) :
    action.Meets (Follows engine scope context [⟨question, .anything⟩]) := by
  apply answers.weaken
  intro start result events final answered
  refine .single ⟨_, answered, ?_⟩
  cases result <;> rfl

end Follows

section Evaluation

variable {scope : Scope} {context : Context}

theorem Ensure.enforce_checks (ensure : Ensure) (result : Value) :
    (ensure.enforce result : Action σ Unit).Meets (Checks (.clause ensure) result) := by
  unfold Ensure.enforce
  split
  · next holds =>
    have passes : (Demand.clause ensure).check result = .ok () := if_pos holds
    have done : (Pure.pure () : Action σ Unit).Meets (Checks (.clause ensure) result) :=
      Checks.pure passes
    have reports : ∀ report, (Action.report report : Action σ Unit).Meets
        (Checks (.clause ensure) result) :=
      fun _ => Action.Meets.report fun _ => ⟨rfl, rfl, passes.symm⟩
    cases ensure.log with
    | none =>
      cases ensure.debug with
      | none => exact done
      | some text => exact reports _
    | some text =>
      apply Checks.report
      cases ensure.debug with
      | none => exact done
      | some text => exact reports _
  · next broken =>
    apply Checks.report
    exact Checks.throw (if_neg broken)

namespace Engine

variable (engine : Engine σ)

theorem reference_answers (name : String) :
    (reference context name : Action σ Value).Meets
      (Answers engine scope context (.symbol name)) := by
  have answered (state : σ) :
      (Question.symbol name).Answered engine scope context state (context.resolve name) [] state :=
    .symbol
  unfold reference
  cases resolved : context.resolve name with
  | error cause =>
    rw [resolved] at answered
    exact Action.Meets.throw answered
  | ok value =>
    rw [resolved] at answered
    exact Action.Meets.pure answered

theorem fetch_answers (path : String) :
    (engine.registry.fetch scope path).Meets (Answers engine scope context (.fetch path)) := by
  unfold Registry.fetch
  rw [Action.ofExcept_bind]
  cases resolved : engine.registry.resolve path with
  | error fault => exact Action.Meets.throw fun _ => .lost resolved
  | ok target =>
    cases target with
    | value value => exact Action.Meets.pure fun _ => .value resolved
    | function run => exact Answers.perform rfl fun _ => .fetched resolved

theorem registryCall_answers (path : String) (arguments : Arguments) :
    (engine.registry.call scope path arguments).Meets
      (Answers engine scope context (.call path)) := by
  rw [Registry.call_eq, Action.ofExcept_bind]
  cases found : engine.registry.callee path with
  | error fault => exact Action.Meets.throw fun _ => .uncalled found
  | ok run => exact Answers.perform rfl fun _ => .called found

theorem callTarget_answers (target : String) (arguments : Arguments) :
    (engine.callTarget scope context target arguments).Meets
      (Answers engine scope context
        ((CallTarget.ofText engine.registry.root target).question target)) := by
  unfold callTarget
  cases CallTarget.ofText engine.registry.root target with
  | capability path => exact engine.registryCall_answers path arguments
  | method object name =>
    simp only [reference, Action.ofExcept_bind]
    cases resolved : context.resolve object with
    | error cause => exact Action.Meets.throw fun _ => .unresolved resolved
    | ok value =>
      cases value with
      | object api => exact Answers.perform rfl fun _ => .invoked resolved
      | _ => exact Action.Meets.throw fun _ => .notObject resolved (by simp)
  | unknown => exact Answers.throw (.noMethod target)

theorem spread_answers (source : Spread) :
    (engine.spread scope context source).Meets (Answers engine scope context source.question) := by
  cases source with
  | reference name => exact engine.reference_answers name
  | capability path => exact engine.fetch_answers path
  | invalid spread => exact Answers.throw (.badSpread spread)

mutual

/-- Evaluating a template visits its points. -/
theorem evaluate_follows : ∀ template : Template,
    (engine.evaluate scope context template).Meets
      (Follows engine scope context (template.points engine.registry.root))
  | .literal _ => Follows.pure
  | .reference name => Follows.answer (engine.reference_answers name)
  | .capability path => Follows.answer (engine.fetch_answers path)
  | .list items => Follows.bindSilent (evaluateItems_follows items) fun _ => Follows.pure
  | .map entries => Follows.bindSilent (evaluateEntries_follows entries) fun _ => Follows.pure
  | .call target positional keyword ensure => by
    apply Follows.bind (evaluatePositional_follows positional)
    intro _
    apply Follows.bind (evaluateKeyword_follows keyword)
    intro _
    apply Follows.demand (engine.callTarget_answers target _)
    intro result
    cases ensure with
    | none => exact Checks.pure rfl
    | some clause => exact Checks.thenPure (clause.enforce_checks result)
  | .malformed cause => Follows.throw (.malformed cause)

theorem evaluateItems_follows : ∀ items : List Template,
    (engine.evaluateItems scope context items).Meets
      (Follows engine scope context (Template.pointsOfItems engine.registry.root items))
  | [] => Follows.pure
  | item :: rest => Follows.bind (evaluate_follows item) fun _ =>
    Follows.bindSilent (evaluateItems_follows rest) fun _ => Follows.pure

theorem evaluateEntries_follows : ∀ entries : List (String × Template),
    (engine.evaluateEntries scope context entries).Meets
      (Follows engine scope context (Template.pointsOfEntries engine.registry.root entries))
  | [] => Follows.pure
  | (_, template) :: rest => Follows.bind (evaluate_follows template) fun _ =>
    Follows.bindSilent (evaluateEntries_follows rest) fun _ => Follows.pure

theorem evaluatePositional_follows : ∀ positional : Positional,
    (engine.evaluatePositional scope context positional).Meets
      (Follows engine scope context (positional.points engine.registry.root))
  | .items items => evaluateItems_follows items
  | .spread text source => by
    apply Follows.demand (engine.spread_answers source)
    intro value
    cases value with
    | null | list _ => exact Checks.pure rfl
    | _ => exact Checks.throw rfl
  | .invalid raw => Follows.throw (.badArguments raw)

theorem evaluateKeyword_follows : ∀ keyword : Keyword,
    (engine.evaluateKeyword scope context keyword).Meets
      (Follows engine scope context (keyword.points engine.registry.root))
  | .entries entries => evaluateEntries_follows entries
  | .spread text source => by
    apply Follows.demand (engine.spread_answers source)
    intro value
    cases value with
    | null | map _ => exact Checks.pure rfl
    | _ => exact Checks.throw rfl
  | .invalid raw => Follows.throw (.badKeywords raw)

end

theorem call_follows (spec : CallSpec) :
    (engine.call scope context spec).Meets
      (Follows engine scope context (spec.points engine.registry.root)) :=
  engine.evaluate_follows (spec.template engine.registry.root)

-- The argument that is itself a call comes first, then the function among the keyword arguments.
example :
    let registry : Registry Unit :=
      ⟨"R", [("F", .function fun _ _ state => .pure (.ok .null) state)]⟩
    let inner : Json := .object [("call", .string "R.G")]
    let outer : Json := .object [("args", .array [inner]), ("call", .string "#a.m"),
      ("kwargs", .object [("x", .string "R.F"), ("y", .string "#a")])]
    (Template.ofJson "R" outer).sites registry = [.call "R.G", .fetch "R.F", .method "a" "m"] := by
  decide +kernel

theorem sourceValue_follows (source : VariableSource) :
    (engine.sourceValue scope context source).Meets
      (Follows engine scope context (source.points engine.registry.root)) := by
  cases source with
  | static json => exact Follows.pure
  | reference name => exact Follows.answer (engine.reference_answers name)
  | call spec => exact engine.call_follows spec
  | fetch path => exact Follows.answer (engine.fetch_answers path)

theorem defaultValue_follows (name : String) (field : ParamField) :
    (engine.defaultValue scope context name field).Meets
      (Follows engine scope context (field.points engine.registry.root name)) := by
  unfold defaultValue ParamField.points
  cases field.default with
  | none =>
    by_cases needed : field.required = true
    · simp only [needed, if_true]
      exact Follows.throw (.missing name)
    · simp only [needed]
      exact Follows.pure
  | literal json => exact Follows.pure
  | fetch path =>
    exact Follows.bindSilent (Follows.answer (engine.fetch_answers path)) fun _ => Follows.pure
  | call spec => exact Follows.bindSilent (engine.call_follows spec) fun _ => Follows.pure

/-- Defaults are computed for the absent fields only, in field order. -/
theorem defaults_follows (fields : List (String × ParamField)) :
    (engine.defaults scope context fields).Meets
      (Follows engine scope context
        (defaultPoints engine.registry.root (Dict.keys context.data) fields)) := by
  induction fields with
  | nil => exact Follows.pure
  | cons entry rest ih =>
    obtain ⟨name, field⟩ := entry
    unfold defaults defaultPoints
    by_cases supplied : Dict.contains context.data name = true
    · rw [if_pos supplied, if_pos (Dict.contains_iff_mem_keys.mp supplied)]
      exact ih
    · rw [if_neg supplied, if_neg fun member => supplied (Dict.contains_iff_mem_keys.mpr member)]
      apply Follows.bind (engine.defaultValue_follows name field)
      intro value
      cases value with
      | none => exact ih
      | some value => exact Follows.bindSilent ih fun _ => Follows.pure

theorem applyParameters_follows (fields : Dict ParamField) :
    (engine.applyParameters scope context fields).Meets
      (Follows engine scope context
        (parameterPoints engine.registry.root (Dict.keys context.data) fields)) := by
  unfold applyParameters parameterPoints
  cases (Dict.keys context.data).find? fun name => !Dict.contains fields name with
  | some name => exact Follows.throw (.unsupported name)
  | none => exact Follows.bindSilent (engine.defaults_follows fields) fun _ => Follows.pure

/-- A step visits the points of its object. -/
theorem step_follows (object : CompiledObject) :
    (engine.step scope context object).Meets
      (Follows engine scope context
        (object.points engine.registry.root (Dict.keys context.data))) := by
  cases object with
  | var key source =>
    by_cases isData : key = dataKey
    · simp only [step, CompiledObject.points, isData, if_true]
      cases source with
      | static json =>
        cases json with
        | object entries => exact Follows.pure
        | _ => exact Follows.throw (.malformed .dataNotStatic)
      | _ => exact Follows.throw (.malformed .dataNotStatic)
    · simp only [step, CompiledObject.points, isData, if_false]
      exact Follows.bindSilent (engine.sourceValue_follows source) fun _ => Follows.pure
  | action key spec => exact Follows.bindSilent (engine.call_follows spec) fun _ => Follows.pure
  | params fields =>
    exact Follows.bindSilent (engine.applyParameters_follows fields) fun _ => Follows.pure
  | response kwargs =>
    exact Follows.bindSilent (engine.evaluate_follows _) fun _ => Follows.pure

end Engine

end Evaluation

end ManifestGate
