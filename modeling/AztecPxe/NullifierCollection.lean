import AztecPxe.Entrypoints
import AztecPxe.Recorders

/-! Which nullifiers of a transaction the collector keeps. A nullified note is
numbered by the circuit, a created nullifier by the own counter of the oracle
that records it, and nothing keeps the two sequences apart. -/
namespace AztecPxe
open PrivateExecutionOracle Script

namespace Step
variable (crypto : Crypto) (contracts : ContractStore)

/-- The nullifiers a step records. -/
def nullifiers : Step → List ScopedNullifier
  | .foreign oracle .notifyNullifiedNote args => [oracle.nullifiedNote args]
  | .foreign oracle .notifyCreatedNullifier args => [oracle.createdNullifier args]
  | .foreign .. => []
  | .called oracle args =>
    match oracle.enter crypto contracts args with
    | .ok (.handled _ next) => next.nullifiers.drop oracle.nullifiers.length
    | _ => []
  | .returned .. => []

/-- A nullifier that an oracle numbered from its own counter has a number of
its own. -/
def Clear (earlier later : Step) : Prop :=
  earlier.circuitCounter crypto contracts = none ∨ later.circuitCounter crypto contracts = none →
    ∀ n ∈ earlier.nullifiers crypto contracts, ∀ m ∈ later.nullifiers crypto contracts,
      n.nullifier.counter ≠ m.nullifier.counter

instance : DecidableRel (Clear crypto contracts) := fun earlier later =>
  inferInstanceAs (Decidable (earlier.circuitCounter crypto contracts = none ∨
    later.circuitCounter crypto contracts = none →
      ∀ n ∈ earlier.nullifiers crypto contracts, ∀ m ∈ later.nullifiers crypto contracts,
        n.nullifier.counter ≠ m.nullifier.counter))

end Step

namespace NullifierCollection
variable {crypto : Crypto} {contracts : ContractStore}

/-- The nullifiers recorded along an execution. -/
def recorded (crypto : Crypto) (contracts : ContractStore) (trace : List Step) :
    List ScopedNullifier :=
  trace.flatMap (Step.nullifiers crypto contracts)

section Steps
variable {oracle next final : PrivateExecutionOracle} {args : Args} {call : NestedCall}

/-- A foreign call adds exactly the nullifier of its step. -/
private theorem nullifiers_handled (contracts : ContractStore) {handler : Handler}
    (done : oracle.Handled crypto args handler next) :
    next.nullifiers = oracle.nullifiers ++
      (Step.foreign oracle handler args).nullifiers crypto contracts := by
  cases done with
  | nullifiedNote => rfl
  | createdNullifier => rfl
  | _ => exact (List.append_nil _).symm

/-- A call to a registry adds one nullifier, under the counter of the call. -/
private theorem nullifiers_published (done : oracle.Published crypto call next) :
    ∃ value, next.nullifiers = oracle.nullifiers ++ [⟨⟨value, 0, call.counter⟩, call.target⟩] := by
  cases done with
  | classLog selector classId log => exact ⟨classId, rfl⟩
  | privateLog selector address log counted => exact ⟨address, rfl⟩

private theorem nullifiers_called {answer : Answer}
    (done : oracle.enter crypto contracts args = .ok (.handled answer next)) :
    next.nullifiers = oracle.nullifiers ++
      (Step.called oracle args).nullifiers crypto contracts := by
  obtain ⟨call, -, -, published⟩ := enter_handled done
  obtain ⟨value, added⟩ := nullifiers_published published
  simp only [Step.nullifiers, done]
  rw [added, List.drop_left]

private theorem nullifiers_entered
    (done : oracle.enter crypto contracts args = .ok (.entered call)) :
    (Step.called oracle args).nullifiers crypto contracts = [] := by
  simp only [Step.nullifiers, done]

/-- The nullifiers as one of the lists an oracle collects. -/
def recorder (crypto : Crypto) (contracts : ContractStore) :
    Recorder crypto contracts ScopedNullifier where
  held := (·.nullifiers)
  recorded := Step.nullifiers crypto contracts
  handled := nullifiers_handled contracts
  called := nullifiers_called
  entered := nullifiers_entered
  merged {oracle inner call output items} started := by
    -- The callee starts with the caller's nullifiers, so what is dropped at the
    -- merge is exactly what it inherited.
    have inherited : inner.nullifiers.drop oracle.nullifiers.length = items := by
      rw [started]
      exact List.drop_left
    change oracle.nullifiers ++ inner.nullifiers.drop oracle.nullifiers.length = _
    rw [inherited]
    exact congrArg _ (List.append_nil _).symm

/-- The oracle at the root ends with the nullifiers of the whole tree, in the
order they were recorded. -/
theorem nullifiers_of_runs {script : Script} {trace : List Step}
    (runs : Runs crypto contracts script oracle trace final) :
    final.nullifiers = oracle.nullifiers ++ recorded crypto contracts trace :=
  (recorder crypto contracts).of_runs runs

end Steps

/-- A step records at most one nullifier, under the circuit's counter where it
passes one. -/
private theorem nullifiers_at_most_one (step : Step) :
    step.nullifiers crypto contracts = [] ∨
      ∃ n, step.nullifiers crypto contracts = [n] ∧
        ∀ c, step.circuitCounter crypto contracts = some c → n.nullifier.counter = c := by
  cases step with
  | returned => exact .inl rfl
  | foreign oracle handler args =>
    cases handler with
    | notifyNullifiedNote =>
      refine .inr ⟨_, rfl, ?_⟩
      intro c given
      simp only [Step.circuitCounter] at given
      simp [nullifiedNote, numbered, given]
    | notifyCreatedNullifier =>
      refine .inr ⟨_, rfl, ?_⟩
      intro c given
      cases given
    | _ => exact .inl rfl
  | called oracle args =>
    cases outcome : oracle.enter crypto contracts args with
    | error e => simp [Step.nullifiers, outcome]
    | ok entry =>
      cases entry with
      | entered call => simp [Step.nullifiers, outcome]
      | handled answer next =>
        obtain ⟨call, read, -, published⟩ := enter_handled outcome
        obtain ⟨value, added⟩ := nullifiers_published published
        refine .inr ⟨⟨⟨value, 0, call.counter⟩, call.target⟩, ?_, ?_⟩
        · simp [Step.nullifiers, outcome, added]
        · intro c given
          simp only [Step.circuitCounter, outcome] at given
          exact counter_of_readCall read given

private theorem nodup_counters_step (step : Step) :
    ((step.nullifiers crypto contracts).map (·.nullifier.counter)).Nodup := by
  rcases @nullifiers_at_most_one crypto contracts step with none | ⟨n, one, -⟩
  · simp [none]
  · simp [one]

/-- Two steps whose circuits numbered both nullifiers apart are clear. -/
private theorem disjoint_counters_iff {earlier later : Step}
    (apart : ∀ c ∈ earlier.circuitCounter crypto contracts,
      ∀ d ∈ later.circuitCounter crypto contracts, c ≠ d) :
    List.Disjoint ((earlier.nullifiers crypto contracts).map (·.nullifier.counter))
        ((later.nullifiers crypto contracts).map (·.nullifier.counter)) ↔
      Step.Clear crypto contracts earlier later := by
  constructor
  · intro disjoint _ n first m second same
    exact disjoint (List.mem_map_of_mem first) (by rw [same]; exact List.mem_map_of_mem second)
  · intro clear k first second
    obtain ⟨n, inFirst, rfl⟩ := List.mem_map.mp first
    obtain ⟨m, inSecond, same⟩ := List.mem_map.mp second
    cases given : earlier.circuitCounter crypto contracts with
    | none => exact clear (.inl given) n inFirst m inSecond same.symm
    | some c =>
      cases given' : later.circuitCounter crypto contracts with
      | none => exact clear (.inr given') n inFirst m inSecond same.symm
      | some d =>
        rcases @nullifiers_at_most_one crypto contracts earlier with none | ⟨n', one, numbered⟩
        · simp [none] at inFirst
        rcases @nullifiers_at_most_one crypto contracts later with none' | ⟨m', one', numbered'⟩
        · simp [none'] at inSecond
        rw [one, List.mem_singleton] at inFirst
        rw [one', List.mem_singleton] at inSecond
        rw [inFirst, inSecond, numbered c given, numbered' d given'] at same
        exact apart c given d given' same.symm

/-- The recorded nullifiers have distinct counters exactly when every two steps
are clear. -/
private theorem nodup_recorded_iff {trace : List Step}
    (distinct : (Step.circuitCounters crypto contracts trace).Nodup) :
    ((recorded crypto contracts trace).map (·.nullifier.counter)).Nodup ↔
      trace.Pairwise (Step.Clear crypto contracts) := by
  unfold Step.circuitCounters at distinct
  rw [List.Nodup, List.pairwise_filterMap] at distinct
  unfold recorded
  rw [List.map_flatMap, List.nodup_flatMap]
  constructor
  · rintro ⟨-, disjoint⟩
    apply (disjoint.and distinct).imp
    rintro earlier later ⟨disjoint, apart⟩
    exact (disjoint_counters_iff apart).mp disjoint
  · intro clear
    refine ⟨fun step _ => nodup_counters_step step, ?_⟩
    apply (clear.and distinct).imp
    rintro earlier later ⟨clear, apart⟩
    exact (disjoint_counters_iff apart).mpr clear

private theorem nullifiers_root (root : EmbeddedPxe.Root) : root.oracle.nullifiers = [] := by
  cases root <;> rfl

private theorem nullifiers_bundle (root : EmbeddedPxe.Root) (function : PrivateFunction)
    (output : AcvmExecutionOutput) (final : PrivateExecutionOracle) :
    (root.bundle function output final).executionResult.entrypoint.nullifiers =
      final.nullifiers := by
  cases root <;> rfl

/-- Where the circuit numbers its own effects apart, every nullifier recorded in
the tree is collected, each under a counter of its own, exactly when no
nullifier that an oracle numbered itself meets the number of another. -/
theorem nullifiers_collected_iff (root : EmbeddedPxe.Root) (function : PrivateFunction)
    (script : Script) (output : AcvmExecutionOutput) (final : PrivateExecutionOracle)
    (ran : script.execute crypto contracts root.oracle = .ok final)
    (distinct : (Step.circuitCounters crypto contracts
      (script.steps crypto contracts root.oracle)).Nodup) :
    let trace := script.steps crypto contracts root.oracle
    ((∀ n ∈ recorded crypto contracts trace,
        n ∈ (root.bundle function output final).executionResult.allNullifiers) ∧
      ((recorded crypto contracts trace).map (·.nullifier.counter)).Nodup) ↔
      trace.Pairwise (Step.Clear crypto contracts) := by
  intro trace
  have held := nullifiers_of_runs (runs_of_execute ran)
  rw [nullifiers_root, List.nil_append] at held
  rw [← nodup_recorded_iff distinct]
  refine ⟨And.right, fun apart => ⟨?_, apart⟩⟩
  intro n inside
  unfold PrivateExecutionResult.allNullifiers
  rw [PrivateExecutionResult.flatMap_iterAllCalls, nullifiers_bundle, held]
  exact FirstWins.mem_collect_append apart inside

/-- An account entrypoint whose requests and capsules are empty. -/
def bareEntrypoint : EmbeddedPxe.Root := .entrypoint ⟨8⟩ 1 [] []

/-- A note nullified under the circuit's counter five, then a nullifier that the
oracle numbers one. -/
def clearScript : Script :=
  .foreign .notifyNullifiedNote [[11], [0], [5]] (.foreign .notifyCreatedNullifier [[12]] .done)

/-- Both nullifiers of that run are collected. -/
theorem clear_nullifiers_collected :
    ∃ final, clearScript.execute .zero .empty bareEntrypoint.oracle = .ok final ∧
      ∀ n ∈ recorded .zero .empty (clearScript.steps .zero .empty bareEntrypoint.oracle),
        n ∈ (bareEntrypoint.bundle ⟨none, false, 0⟩ {} final).executionResult.allNullifiers :=
  ⟨_, rfl, ((nullifiers_collected_iff bareEntrypoint ⟨none, false, 0⟩ clearScript {} _ rfl
    (by decide)).mpr (by decide)).1⟩

/-- A note nullified under the circuit's counter two, then two nullifiers that
the oracle numbers one and two. -/
def clashingScript : Script :=
  .foreign .notifyNullifiedNote [[11], [0], [2]]
    (.foreign .notifyCreatedNullifier [[12]] (.foreign .notifyCreatedNullifier [[13]] .done))

/-- The last of those nullifiers is not collected. -/
theorem clashing_nullifier_lost :
    ¬ ∀ crypto contracts (root : EmbeddedPxe.Root) function (script : Script) output final,
      script.execute crypto contracts root.oracle = .ok final →
      (Step.circuitCounters crypto contracts (script.steps crypto contracts root.oracle)).Nodup →
      ∀ n ∈ recorded crypto contracts (script.steps crypto contracts root.oracle),
        n ∈ (root.bundle function output final).executionResult.allNullifiers := by
  intro collected
  have kept := collected .zero .empty bareEntrypoint ⟨none, false, 0⟩ clashingScript {} _ rfl
    (by decide) ⟨⟨13, 0, 2⟩, ⟨8⟩⟩ (by decide)
  exact absurd kept (by decide)

end NullifierCollection

end AztecPxe
