import ManifestGate.Proofs.Manifest.Blocks
import ManifestGate.Proofs.Manifest.Mirrors
import ManifestGate.Proofs.Manifest.Session

/-!
# Blocks and those after them

Compiling and running go through a manifest from its first block to its last and carry along what
the blocks so far have left: the known objects, the context, the state of the application. Cut at
any block, both come to the cut as if the manifest ended there and go on from what they have. So the
blocks behind the cut have no part in what the blocks before it compile to, call, store or fail
with.
-/

namespace ManifestGate

variable {ρ σ τ : Type}

/-! ## Compiling -/

section

variable {registry : Registry ρ}

theorem compileBlocks_append (index : Nat) (known : CompiledManifest) (first second : List Block) :
    compileBlocks registry index known (first ++ second) =
      compileBlocks registry index known first >>= fun middle =>
        compileBlocks registry (index + first.length) middle second := by
  induction first generalizing index known with
  | nil => rfl
  | cons block rest ih =>
    have places : index + (block :: rest).length = index + 1 + rest.length := by
      rw [List.length_cons]
      omega
    rw [List.cons_append, compileBlocks, compileBlocks, places]
    split
    · rfl
    · simp only [ih, bind_assoc]

/-- The first items of a manifest that compiles are a manifest that compiles, and to the first
objects. -/
theorem compile_take {first second : List Json} {whole : CompiledManifest}
    (accepted : compile registry (.array (first ++ second)) = .ok whole) :
    ∃ alone, compile registry (.array first) = .ok alone ∧
      alone.objects = whole.objects.take first.length ∧ alone.objects.length = first.length := by
  obtain ⟨blocks, parsed, compiledBlocks⟩ := Except.bind_eq_ok_iff.mp accepted
  obtain ⟨spelled, valid⟩ := Block.parseAll_eq_ok_iff.mp (Except.mapError_eq_ok_iff.mp parsed)
  obtain ⟨before, after, rfl, rfl, rfl⟩ := List.map_eq_append_iff.mp (Json.array.inj spelled).symm
  rw [compileBlocks_append] at compiledBlocks
  obtain ⟨alone, compiledBefore, compiledAfter⟩ := Except.bind_eq_ok_iff.mp compiledBlocks
  have parsedBefore : Block.parseAll (.array (before.map Block.toJson)) = .ok before :=
    Block.parseAll_eq_ok_iff.mpr
      ⟨rfl, fun block member => valid block (List.mem_append_left _ member)⟩
  have acceptedBefore : compile registry (.array (before.map Block.toJson)) = .ok alone :=
    Except.bind_eq_ok_iff.mpr ⟨before, Except.mapError_eq_ok_iff.mpr parsedBefore, compiledBefore⟩
  have counted := (compile_items acceptedBefore).length_eq
  obtain ⟨later, extended, _⟩ := compileBlocks_objects compiledAfter
  refine ⟨alone, acceptedBefore, ?_, counted.symm⟩
  rw [extended, counted, List.take_left]

end

/-! ## Running -/

namespace Engine

variable (engine : Engine σ) (scope : Scope)

/-- A run goes through the first objects and, if they succeed, from there through the others. -/
theorem runObjects_append (first second : List CompiledObject) (context : Context)
    (progress : Progress σ) :
    engine.runObjects scope (first ++ second) context progress =
      match engine.runObjects scope first context progress with
      | (.ok _, middle, later) => engine.runObjects scope second middle later
      | (.error cause, middle, later) => (.error cause, middle, later) := by
  induction first generalizing context progress with
  | nil => rfl
  | cons object rest ih =>
    rw [List.cons_append, runObjects, runObjects]
    split
    · exact ih context progress
    · rcases engine.step scope context object progress with ⟨result, later⟩
      cases result with
      | error cause => rfl
      | ok outcome => exact ih (outcome.settle context object.key) later

theorem trail_append (first second : List CompiledObject) (context : Context)
    (progress : Progress σ) :
    engine.trail scope (first ++ second) context progress =
      engine.trail scope first context progress ++
        match engine.runObjects scope first context progress with
        | (.ok _, middle, later) => engine.trail scope second middle later
        | (.error _, _, _) => [] := by
  induction first generalizing context progress with
  | nil => rfl
  | cons object rest ih =>
    rw [List.cons_append, trail, trail, runObjects]
    split
    · exact ih context progress
    · rcases engine.step scope context object progress with ⟨result, later⟩
      cases result with
      | error cause => rfl
      | ok outcome => exact congrArg _ (ih (outcome.settle context object.key) later)

section

variable {engine scope} {first : List CompiledObject} {context : Context} {progress : Progress σ}

theorem append_of_error (second : List CompiledObject) {cause : ManifestError}
    (failed : (engine.runObjects scope first context progress).1 = .error cause) :
    engine.runObjects scope (first ++ second) context progress =
        engine.runObjects scope first context progress ∧
      engine.trail scope (first ++ second) context progress =
        engine.trail scope first context progress := by
  rw [runObjects_append, trail_append]
  rcases ran : engine.runObjects scope first context progress with ⟨result, middle, later⟩
  rw [ran] at failed
  obtain rfl : result = .error cause := failed
  exact ⟨rfl, List.append_nil _⟩

theorem append_of_ok (second : List CompiledObject)
    (succeeded : (engine.runObjects scope first context progress).1 = .ok ()) :
    let ran := engine.runObjects scope first context progress
    engine.runObjects scope (first ++ second) context progress =
        engine.runObjects scope second ran.2.1 ran.2.2 ∧
      engine.trail scope (first ++ second) context progress =
        engine.trail scope first context progress ++
          engine.trail scope second ran.2.1 ran.2.2 := by
  rw [runObjects_append, trail_append]
  rcases ran : engine.runObjects scope first context progress with ⟨result, middle, later⟩
  rw [ran] at succeeded
  obtain rfl : result = .ok () := succeeded
  exact ⟨rfl, rfl⟩

end

/-- A run that succeeds executes exactly its objects. -/
theorem executed_of_runObjects (manifest : CompiledManifest) (data : Dict Value)
    (progress : Progress σ)
    (succeeded : (engine.runObjects scope manifest.objects (.start data) progress).1 = .ok ()) :
    Executed manifest.objects
      (engine.runObjects scope manifest.objects (.start data) progress).2.1 := by
  have runs := engine.runs scope (.start data manifest) progress
  obtain ⟨rest, same, complete, _⟩ := runs.split
  have executed := runs.executed (.start data)
  rw [complete succeeded, List.append_nil] at same
  rwa [List.nil_append, ← same] at executed

end Engine

/-- The first items of a manifest compile to its first objects, whatever comes behind them. On
applications that answer alike, a run of the whole manifest does with them what a run of them alone
does: it makes the same calls and leaves the same results and request data. If one of them fails,
the whole run ends there and with the same error, before any other object; otherwise it goes on from
what they have left, and their results stay. -/
theorem later_blocks_without_influence {registry : Registry ρ} {first second : List Json}
    {whole : CompiledManifest}
    (accepted : compile registry (.array (first ++ second)) = .ok whole) :
    ∃ alone, compile registry (.array first) = .ok alone ∧
      alone.objects = whole.objects.take first.length ∧ alone.objects.length = first.length ∧
      ∀ {σ τ : Type} {related : σ → τ → Prop} {one : Engine σ} {other : Engine τ},
        one.Mirrors related other →
        ∀ (scope : Scope) (data : Dict Value) (start : Progress σ) (otherStart : Progress τ),
          related start.state otherStart.state →
          let rest := whole.objects.drop first.length
          let ran := one.runObjects scope alone.objects (.start data) start
          let inside := other.runObjects scope alone.objects (.start data) otherStart
          let run := other.runObjects scope whole.objects (.start data) otherStart
          let steps := one.trail scope alone.objects (.start data) start
          let allSteps := other.trail scope whole.objects (.start data) otherStart
          Mirrored related start otherStart ((ran.1, ran.2.1), ran.2.2)
              ((inside.1, inside.2.1), inside.2.2) ∧
            (∀ cause, ran.1 = .error cause →
              run = inside ∧ allSteps = steps ∧ (∀ step ∈ allSteps, step.object ∉ rest) ∧
              (one.execute scope alone (.start data) start).1 = .error cause ∧
              (other.execute scope whole (.start data) otherStart).1 = .error cause) ∧
            (ran.1 = .ok () →
              run = other.runObjects scope rest inside.2.1 inside.2.2 ∧
              allSteps = steps ++ other.trail scope rest inside.2.1 inside.2.2 ∧
              ∀ key value, Dict.get? ran.2.1.results key = some value →
                Dict.get? run.2.1.results key = some value) := by
  obtain ⟨alone, acceptedFirst, head, counted⟩ := compile_take accepted
  refine ⟨alone, acceptedFirst, head, counted, ?_⟩
  intro σ τ related one other mirrors scope data start otherStart same rest ran inside run steps
    allSteps
  obtain ⟨mirrored, sameSteps⟩ := mirrors.runObjects alone.objects scope (.start data) same
  have sameResult : inside.1 = ran.1 := congrArg Prod.fst mirrored.result
  have sameContext : inside.2.1 = ran.2.1 := congrArg Prod.snd mirrored.result
  have joined : whole.objects = alone.objects ++ rest := by
    rw [head]
    exact (List.take_append_drop _ _).symm
  refine ⟨mirrored, ?_, ?_⟩
  · intro cause failed
    obtain ⟨sameRun, sameTrail⟩ := Engine.append_of_error rest (sameResult.trans failed)
    rw [← joined] at sameRun sameTrail
    have runFailed : run.1 = .error cause := by
      rw [← sameResult.trans failed]
      exact congrArg Prod.fst sameRun
    refine ⟨sameRun, sameTrail.trans sameSteps, ?_, one.execute_error _ _ _ _ failed,
      other.execute_error _ _ _ _ runFailed⟩
    intro step member late
    have early : step ∈ other.trail scope alone.objects (.start data) otherStart := by
      rw [← sameTrail]
      exact member
    have among := other.mem_of_mem_trail scope early
    rw [head] at among
    exact whole.key_ne_of_take_drop among late rfl
  · intro succeeded
    obtain ⟨goesOn, trailGoesOn⟩ := Engine.append_of_ok rest (sameResult.trans succeeded)
    rw [← joined, sameSteps] at trailGoesOn
    rw [← joined] at goesOn
    refine ⟨goesOn, trailGoesOn, ?_⟩
    intro key value stored
    have executed : Executed (whole.objects.take first.length) inside.2.1 := by
      rw [← head]
      exact other.executed_of_runObjects scope alone data otherStart (sameResult.trans succeeded)
    have pending := whole.pending_drop executed
    have found : Dict.get? inside.2.1.results key = some value := by
      rw [sameContext]
      exact stored
    have kept := (other.runs scope pending inside.2.2).keeps pending found
    rwa [← goesOn] at kept

/-- Its one function gives every call the answer and moves the state on. -/
def answeringEngine (answer : Except Failure Value) (next : σ → σ) : Engine σ where
  registry := ⟨"R", [("F", .function fun _ _ state => .pure answer (next state))]⟩
  host := ⟨fun _ _ _ state => .pure answer (next state), fun state => ("", state)⟩

/-- How the state moves on is not to be seen. -/
theorem answeringEngine_mirrors (answer : Except Failure Value) (next : σ → σ) (other : τ → τ) :
    (answeringEngine answer next).Mirrors (fun _ _ => True) (answeringEngine answer other) where
  root := rfl
  locate := Registry.locate_mirrors rfl
    (.cons ⟨rfl, .function fun _ _ _ _ _ => ⟨rfl, trivial⟩⟩ .nil)
  invoke _ _ _ _ _ _ := ⟨rfl, trivial⟩

/-- A call, and behind it a response that shows what it gave. -/
def callingBlocks : List Json :=
  [.object [("do#a", .object [("call", .string "R.F")])]]

def respondingBlocks : List Json :=
  [.object [("response", .object [("x", .string "#a")])]]

/-- The call fails, by itself as in front of the response, and that one of the applications counts
its calls makes no difference. -/
theorem failing_call_ends_both :
    let scope : Scope := ⟨"", .anonymous, .bypass⟩
    let silent : Engine Unit := answeringEngine (.error (.ofMessage "no")) id
    let counting : Engine Nat := answeringEngine (.error (.ofMessage "no")) (· + 1)
    let cause : ManifestError := .capability "R.F" (.ofMessage "no")
    silent.Mirrors (fun _ _ => True) counting ∧
    ∃ alone whole,
      compile silent.registry (.array (callingBlocks ++ respondingBlocks)) = .ok whole ∧
      compile silent.registry (.array callingBlocks) = .ok alone ∧
      whole.objects.length = 2 ∧ alone.objects = whole.objects.take 1 ∧
      (silent.execute scope alone (.start []) (.start ())).1 = .error cause ∧
      (counting.execute scope whole (.start []) (.start 0)).1 = .error cause ∧
      counting.trail scope whole.objects (.start []) (.start 0) =
        silent.trail scope alone.objects (.start []) (.start ()) := by
  intro scope silent counting cause
  have mirrors : silent.Mirrors (fun _ _ => True) counting := answeringEngine_mirrors _ _ _
  let whole : CompiledManifest :=
    ⟨[.action "a" ⟨"R.F", .array [], .object [], none⟩,
        .response (.object [("x", .string "#a")])],
      by decide, by decide⟩
  let blocks : List Block :=
    [⟨.action "a", .object [("call", .string "R.F")]⟩, ⟨.response, .object [("x", .string "#a")]⟩]
  have parsed : Block.parseAll (.array (callingBlocks ++ respondingBlocks)) = .ok blocks := rfl
  have compiled : compileBlocks silent.registry 0 .empty blocks = .ok whole := rfl
  have accepted :
      compile silent.registry (.array (callingBlocks ++ respondingBlocks)) = .ok whole :=
    Except.bind_eq_ok_iff.mpr ⟨blocks, Except.mapError_eq_ok_iff.mpr parsed, compiled⟩
  obtain ⟨alone, acceptedAlone, head, _, runs⟩ := later_blocks_without_influence accepted
  obtain ⟨_, stopped, _⟩ := runs mirrors scope [] (.start ()) (.start 0) trivial
  have failed :
      (silent.runObjects scope alone.objects (.start []) (.start ())).1 = .error cause := by
    rw [head]
    rfl
  obtain ⟨_, sameSteps, _, aloneFailed, wholeFailed⟩ := stopped cause failed
  exact ⟨mirrors, alone, whole, accepted, acceptedAlone, rfl, head, aloneFailed, wholeFailed,
    sameSteps⟩

end ManifestGate
