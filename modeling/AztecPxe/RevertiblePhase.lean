import AztecPxe.SimulatedKernel

/-! The boundary of the revertible phase, over whole transactions. An oracle
passes its phase down to the calls it makes, but a call that enters the phase
does not pass it back, each top-level call starts outside the phase, and the
kernel reads the boundary at the root, where zero also stands for a phase that
was never entered. -/
namespace AztecPxe
open PrivateExecutionOracle

/-- The boundary an oracle knows, if it is in the revertible phase. -/
def PrivateExecutionOracle.phase (oracle : PrivateExecutionOracle) : List Nat :=
  if oracle.inRevertiblePhase then [oracle.minRevertibleSideEffectCounter] else []

namespace Step

/-- The boundary a step sets. -/
def entry : Step → Option Nat
  | .foreign _ .notifySetMinRevertibleSideEffectCounter args => args.counter 0
  | _ => none

/-- The oracle a step finds. -/
def oracle : Step → PrivateExecutionOracle
  | .foreign oracle _ _ => oracle
  | .called oracle _ => oracle
  | .returned oracle _ _ _ => oracle

/-- The call that returns did not enter the revertible phase. -/
def KeepsPhase : Step → Prop
  | .returned oracle _ _ inner => inner.inRevertiblePhase = oracle.inRevertiblePhase
  | _ => True

instance (step : Step) : Decidable step.KeepsPhase :=
  match step with
  | .returned oracle _ _ inner =>
    inferInstanceAs (Decidable (inner.inRevertiblePhase = oracle.inRevertiblePhase))
  | .foreign .. => .isTrue trivial
  | .called .. => .isTrue trivial

end Step

namespace RevertiblePhase

/-- The boundaries set along an execution. -/
def entries (trace : List Step) : List Nat := trace.filterMap Step.entry

/-- A counter is at or above a boundary that was set. -/
def belongs (boundary : List Nat) (counter : Nat) : Bool := boundary.any (· ≤ counter)

/-- Every step finds an oracle that knows exactly the boundaries set before. -/
def InPhase : List Nat → List Step → Prop
  | _, [] => True
  | before, step :: rest => step.oracle.phase = before ∧ InPhase (before ++ step.entry.toList) rest

section Phase
variable {crypto : Crypto} {contracts : ContractStore}
variable {oracle next : PrivateExecutionOracle} {args : Args} {before : List Nat}

private theorem entries_cons (step : Step) (rest : List Step) :
    entries (step :: rest) = step.entry.toList ++ entries rest := by
  unfold entries
  rw [List.filterMap_cons]
  cases step.entry <;> rfl

private theorem inPhase_append (first second : List Step) :
    InPhase before (first ++ second) ↔
      InPhase before first ∧ InPhase (before ++ entries first) second := by
  induction first generalizing before with
  | nil => simp [InPhase, entries]
  | cons step rest ih =>
    rw [List.cons_append, InPhase, InPhase, ih, entries_cons, List.append_assoc, and_assoc]

private theorem inPhase_called {args : Args} {rest : List Step} :
    InPhase before (.called oracle args :: rest) ↔ oracle.phase = before ∧ InPhase before rest := by
  have nothing : (Step.called oracle args).entry.toList = [] := rfl
  rw [InPhase, nothing, List.append_nil]
  rfl

private theorem entries_called (args : Args) (rest : List Step) :
    entries (.called oracle args :: rest) = entries rest := rfl

/-- After a call that set nothing its caller goes on in the phase it was in. -/
private theorem inPhase_returned {inside later : List Step} {call : NestedCall}
    {output : AcvmExecutionOutput} {inner : PrivateExecutionOracle}
    (nothing : entries inside = []) (within : InPhase oracle.phase inside)
    (goesOn : InPhase oracle.phase later) :
    InPhase oracle.phase (inside ++ .returned oracle call output inner :: later) := by
  rw [inPhase_append, nothing, List.append_nil]
  refine ⟨within, rfl, ?_⟩
  have unset : (Step.returned oracle call output inner).entry.toList = [] := rfl
  rw [unset, List.append_nil]
  exact goesOn

private theorem entries_returned {inside later : List Step} {call : NestedCall}
    {output : AcvmExecutionOutput} {inner : PrivateExecutionOracle}
    (nothing : entries inside = []) :
    entries (inside ++ .returned oracle call output inner :: later) = entries later := by
  unfold entries at nothing ⊢
  rw [List.filterMap_append, nothing, List.nil_append, List.filterMap_cons]
  rfl

/-- At every point of a trace, the oracle knows what was set before it. -/
private theorem phase_at {trace first after : List Step} {step : Step}
    (inPhase : InPhase before trace) (point : trace = first ++ step :: after) :
    step.oracle.phase = before ++ entries first := by
  rw [point, inPhase_append] at inPhase
  exact inPhase.2.1

private theorem revertible_eq (oracle : PrivateExecutionOracle) (counter : Nat) :
    oracle.revertible counter = belongs oracle.phase counter := by
  unfold revertible belongs phase
  cases oracle.inRevertiblePhase <;> simp

private theorem phase_handled {handler : Handler}
    (done : oracle.Handled crypto args handler next) :
    next.phase = oracle.phase ++ (Step.foreign oracle handler args).entry.toList := by
  cases done with
  | entering outside given =>
    simp [phase, entering, outside, Step.entry, Args.counter, given]
  | notEntering missing =>
    simp [Step.entry, Args.counter, missing]
  | _ => exact (List.append_nil _).symm

private theorem phase_published {call : NestedCall} (done : oracle.Published crypto call next) :
    next.phase = oracle.phase := by
  cases done <;> rfl

/-- A call that returns as it was entered set no boundary. -/
private theorem entries_of_kept {inner : PrivateExecutionOracle} {inside : List Step}
    (kept : inner.inRevertiblePhase = oracle.inRevertiblePhase)
    (ended : inner.phase = oracle.phase ++ entries inside) : entries inside = [] := by
  have lengths := congrArg List.length ended
  rw [List.length_append] at lengths
  have same : inner.phase.length = oracle.phase.length := by
    unfold phase
    rw [kept]
    split <;> rfl
  exact List.eq_nil_of_length_eq_zero (by omega)

/-- As long as no call that returns has entered the phase, every oracle of a
tree knows exactly the boundaries set before, and so does the last. -/
theorem inPhase_steps (script : Script) (oracle : PrivateExecutionOracle)
    (kept : ∀ step ∈ script.steps crypto contracts oracle, step.KeepsPhase) :
    InPhase oracle.phase (script.steps crypto contracts oracle) ∧
      ∀ final, script.execute crypto contracts oracle = .ok final →
        final.phase = oracle.phase ++ entries (script.steps crypto contracts oracle) := by
  induction script generalizing oracle with
  | done =>
    refine ⟨trivial, ?_⟩
    intro final ran
    cases ran
    exact (List.append_nil _).symm
  | failed e =>
    refine ⟨trivial, ?_⟩
    intro final ran
    cases ran
  | foreign handler args rest ih =>
    simp only [Script.steps, Script.execute] at kept ⊢
    cases outcome : oracle.handleForeignCall crypto args handler with
    | error e =>
      refine ⟨⟨rfl, trivial⟩, ?_⟩
      intro final ran
      cases ran
    | ok reply =>
      obtain ⟨answer, next⟩ := reply
      simp only [outcome] at kept
      have moved := phase_handled (handled_of_ok outcome)
      obtain ⟨inPhase, ends⟩ := ih next (fun step inside => kept step (.tail _ inside))
      refine ⟨⟨rfl, ?_⟩, ?_⟩
      · rw [← moved]
        exact inPhase
      · intro final ran
        rw [ends final ran, moved, entries_cons, List.append_assoc]
  | callPrivate args body output rest inIh ih =>
    simp only [Script.steps, Script.execute] at kept ⊢
    cases outcome : oracle.enter crypto contracts args with
    | error e =>
      refine ⟨⟨rfl, trivial⟩, ?_⟩
      intro final ran
      cases ran
    | ok entry =>
      simp only [outcome] at kept
      cases entry with
      | handled answer next =>
        obtain ⟨call, -, -, published⟩ := enter_handled outcome
        obtain ⟨inPhase, ends⟩ := ih next (fun step inside => kept step (.tail _ inside))
        rw [phase_published published] at inPhase ends
        exact ⟨inPhase_called.mpr ⟨rfl, inPhase⟩, ends⟩
      | entered call =>
        have down : (oracle.nested call).phase = oracle.phase := rfl
        obtain ⟨inPhase, ends⟩ := inIh (oracle.nested call)
          (fun step inside => kept step (.tail _ (List.mem_append_left _ inside)))
        rw [down] at inPhase ends
        cases ran : body.execute crypto contracts (oracle.nested call) with
        | error e =>
          simp only [ran, List.append_nil]
          refine ⟨inPhase_called.mpr ⟨rfl, inPhase⟩, ?_⟩
          intro final failed
          cases failed
        | ok inner =>
          simp only [ran] at kept ⊢
          have none := entries_of_kept
            (kept (.returned oracle call output inner) (by simp)) (ends inner ran)
          have back : (oracle.merge crypto call output inner).2.phase = oracle.phase := rfl
          obtain ⟨later, lasts⟩ := ih (oracle.merge crypto call output inner).2
            (fun step inside => kept step (by simp [inside]))
          rw [back] at later lasts
          refine ⟨inPhase_called.mpr ⟨rfl, inPhase_returned none inPhase later⟩, ?_⟩
          intro final ended
          rw [lasts final ended, entries_called, entries_returned none]

end Phase

section Kernel
variable (poseidon2 : List Fr → Fr)
open SimulatedKernel

/-- The sections of a public transaction as a boundary demands them: an effect
of any kind is in the revertible section exactly when its counter is. -/
def boundarySections (revertible : Nat → Bool) (result : PrivateExecutionResult) :
    PartialPrivateTailPublicInputsForPublic :=
  let kept := survivors result
  let side (keep : Bool → Bool) : List Fr × List Fr × List PrivateLog × List ScopedLogHash ×
      List PublicCallRequest :=
    ((kept.noteHashes.filter (fun entry => keep (revertible entry.noteHash.counter))).map
        (siloedNoteHash poseidon2),
      (kept.nullifiers.filter (fun entry => keep (revertible entry.nullifier.counter))).map
        (siloedNullifier poseidon2),
      (kept.privateLogs.filter (fun log => keep (revertible log.counter))).map
        (siloedPrivateLog poseidon2),
      (result.allContractClassLogsSorted.filter (fun log => keep (revertible log.counter))).map
        (classLogHash poseidon2),
      (kept.publicCallRequests.filter (fun request => keep (revertible request.counter))).map
        publicCallRequest)
  let below := side not
  let above := side id
  { nonRevertibleAccumulatedData :=
      accumulated (uniqueNoteHashes poseidon2 result.firstNullifier below.1)
        (result.firstNullifier :: below.2.1) below.2.2.1 below.2.2.2.1 below.2.2.2.2
    revertibleAccumulatedData :=
      accumulated above.1 above.2.1 above.2.2.1 above.2.2.2.1 above.2.2.2.2
    publicTeardownCallRequest := (result.getTeardownCallRequest.map publicCallRequest).getD {} }

/-- The kernel splits as the root's boundary demands, if no contract class log
lies above it. -/
private theorem forPublic_eq {boundary : Nat} {result : PrivateExecutionResult}
    (atRoot : result.entrypoint.minRevertibleSideEffectCounter = boundary)
    (classLogs : ∀ log ∈ result.allContractClassLogsSorted, ¬ boundary ≤ log.counter) :
    forPublic poseidon2 result =
      boundarySections poseidon2 (fun counter => decide (boundary ≤ counter)) result := by
  have above : result.allContractClassLogsSorted.filter
      (fun log => id (decide (boundary ≤ log.counter))) = [] := by
    apply List.filter_eq_nil_iff.mpr
    intro log inside
    simpa using classLogs log inside
  have below : result.allContractClassLogsSorted.filter
      (fun log => not (decide (boundary ≤ log.counter))) = result.allContractClassLogsSorted := by
    apply List.filter_eq_self.mpr
    intro log inside
    simpa using classLogs log inside
  unfold forPublic boundarySections
  simp only [atRoot, splitByCounter_eq, above, below, List.map_nil]

end Kernel

/-- What `prove_tx` executes: the account's entrypoint, or each top-level call. -/
inductive Transaction where
  | entrypoint (origin : AztecAddress) (protocolNullifier : Fr) (argsOfCalls : List HashedValues)
      (capsules : List Capsule) (function : PrivateFunction) (script : Script)
      (output : AcvmExecutionOutput)
  | topLevel (origin : AztecAddress) (protocolNullifier : Fr) (capsules : List Capsule)
      (calls : List (DecodedEntrypointCall × EmbeddedPxe.Target))

namespace Transaction
open EmbeddedPxe
variable (crypto : Crypto) (contracts : ContractStore)

/-- The bundles of a transaction, and the result the kernel is given. -/
def execute : Transaction → Except Error (List CallExecutionBundle × PrivateExecutionResult)
  | .entrypoint origin protocolNullifier argsOfCalls capsules function script output =>
    (executeEntrypointViaAcvm crypto contracts origin protocolNullifier argsOfCalls capsules
      function script output).map (fun bundle => ([bundle], bundle.executionResult))
  | .topLevel origin protocolNullifier capsules calls =>
    (calls.mapM (fun entry => executeEntrypointCallBundle crypto contracts origin
      protocolNullifier capsules entry.1 entry.2)).map (fun bundles =>
        (bundles, (aggregateCallBundles origin bundles).executionResult))

section Executed
variable {crypto contracts} {origin : AztecAddress} {protocolNullifier : Fr}
  {argsOfCalls : List HashedValues} {capsules : List Capsule}
  {bundles : List CallExecutionBundle} {result : PrivateExecutionResult}

/-- An entrypoint that is executed gives one bundle, made of the oracle its script ends with. -/
theorem execute_entrypoint {function : PrivateFunction} {script : Script}
    {output : AcvmExecutionOutput}
    (ran : (entrypoint origin protocolNullifier argsOfCalls capsules function script output).execute
      crypto contracts = .ok (bundles, result)) :
    ∃ root final, root = Root.entrypoint origin protocolNullifier argsOfCalls capsules ∧
      script.execute crypto contracts root.oracle = .ok final ∧
      bundles = [root.bundle function output final] ∧
      result = (root.bundle function output final).executionResult := by
  obtain ⟨bundle, executed, same⟩ := map_eq_ok ran
  obtain ⟨final, ended, rfl⟩ := map_eq_ok executed
  cases same
  exact ⟨_, final, rfl, ended, rfl, rfl⟩

/-- Top-level calls that are executed give a bundle each, which are aggregated. -/
theorem execute_topLevel {calls : List (DecodedEntrypointCall × Target)}
    (ran : (topLevel origin protocolNullifier capsules calls).execute crypto contracts =
      .ok (bundles, result)) :
    List.Forall₂ (fun entry bundle => executeEntrypointCallBundle crypto contracts origin
        protocolNullifier capsules entry.1 entry.2 = .ok bundle) calls bundles ∧
      result = (aggregateCallBundles origin bundles).executionResult := by
  obtain ⟨made, executed, same⟩ := map_eq_ok ran
  cases same
  exact ⟨mapM_paired executed, rfl⟩

end Executed

/-- The foreign calls of a top-level call. -/
def callTree (origin : AztecAddress) (protocolNullifier : Fr) (call : DecodedEntrypointCall) :
    Target → List Step
  | .privateFunction _ script _ =>
    script.steps crypto contracts (callOracle call origin protocolNullifier)
  | _ => []

/-- The foreign calls of a transaction, one tree for each root. -/
def trees : Transaction → List (List Step)
  | .entrypoint origin protocolNullifier argsOfCalls capsules _ script _ =>
    [script.steps crypto contracts
      (entrypointOracle origin protocolNullifier argsOfCalls capsules)]
  | .topLevel origin protocolNullifier _ calls =>
    calls.map (fun entry => callTree crypto contracts origin protocolNullifier entry.1 entry.2)

/-- The boundaries a transaction sets, each shifted with the call it is set in. -/
def boundary (tx : Transaction) (bundles : List CallExecutionBundle) : List Nat :=
  ((tx.trees crypto contracts).zip (offsets 0 bundles)).flatMap (fun entry =>
    (entries entry.1).map (saturatingAdd · entry.2))

/-- Every answer of `isSideEffectCounterRevertible` goes by the boundaries set
before in the same tree. -/
def AnswersAgree (tree : List Step) : Prop :=
  ∀ before oracle args after,
    tree = before ++ .foreign oracle .isSideEffectCounterRevertible args :: after →
      oracle.isSideEffectCounterRevertible args =
        .ok ([[Fr.ofBool (belongs (entries before) ((args.counter 0).getD 0))]], oracle)

/-- One boundary for a transaction: the oracles answer by it, a second one is
refused, and the kernel splits every kind of effect at it. -/
structure OneBoundary (tx : Transaction) : Prop where
  answers : ∀ tree ∈ tx.trees crypto contracts, AnswersAgree tree
  refused : ∀ tree ∈ tx.trees crypto contracts, 2 ≤ (entries tree).length →
    ∃ e, tx.execute crypto contracts = .error e
  split : ∀ bundles result, tx.execute crypto contracts = .ok (bundles, result) →
    ∀ feePayer expirationTimestamp output sections,
      SimulatedKernel.process crypto.poseidon2 result feePayer expirationTimestamp = .ok output →
      output.forPublic = some sections →
        sections = boundarySections crypto.poseidon2
          (belongs (tx.boundary crypto contracts bundles)) result

/-- A public transaction enters the phase in its first tree, and makes no
contract class log at or above the boundary. -/
def Bounded (tx : Transaction) : Prop :=
  ∀ bundles result, tx.execute crypto contracts = .ok (bundles, result) →
    SimulatedKernel.isPrivateOnly result = false →
      (∃ tree ∈ (tx.trees crypto contracts).head?, entries tree ≠ []) ∧
      ∀ log ∈ result.allContractClassLogsSorted,
        belongs (tx.boundary crypto contracts bundles) log.counter = false

end Transaction

section Result
open EmbeddedPxe Transaction
variable {crypto : Crypto} {contracts : ContractStore}

/-- Both roots start outside the phase. -/
private theorem phase_root (root : Root) : root.oracle.phase = [] := by
  cases root <;> rfl

private theorem answersAgree_of_kept (script : Script) (root : Root)
    (kept : ∀ step ∈ script.steps crypto contracts root.oracle, step.KeepsPhase) :
    AnswersAgree (script.steps crypto contracts root.oracle) := by
  intro before oracle args after point
  obtain ⟨inPhase, -⟩ := inPhase_steps script root.oracle kept
  have known : oracle.phase = [] ++ entries before := by
    rw [← phase_root root]
    exact phase_at inPhase point
  rw [List.nil_append] at known
  unfold isSideEffectCounterRevertible
  rw [revertible_eq]
  change Except.ok ([[Fr.ofBool (belongs oracle.phase _)]], oracle) = _
  rw [known]

/-- A tree that ends has set no boundary or the one its root ends with. -/
private theorem phase_final {script : Script} {root : Root} {final : PrivateExecutionOracle}
    (kept : ∀ step ∈ script.steps crypto contracts root.oracle, step.KeepsPhase)
    (ran : script.execute crypto contracts root.oracle = .ok final) :
    entries (script.steps crypto contracts root.oracle) = final.phase := by
  obtain ⟨-, ends⟩ := inPhase_steps script root.oracle kept
  rw [ends final ran, phase_root, List.nil_append]

private theorem length_phase (oracle : PrivateExecutionOracle) : oracle.phase.length ≤ 1 := by
  unfold phase
  split <;> simp

/-- Every boundary set is a `u32`. -/
private theorem entry_le {tree : List Step} {m : Nat} (set : m ∈ entries tree) : m ≤ u32Max := by
  obtain ⟨step, -, set⟩ := List.mem_filterMap.mp set
  have bound : ∀ field : Fr, field.toU32 ≤ u32Max := fun field =>
    Nat.le_sub_one_of_lt (Nat.mod_lt _ (by decide))
  cases step with
  | foreign oracle handler args =>
    cases handler with
    | notifySetMinRevertibleSideEffectCounter =>
      obtain ⟨field, -, rfl⟩ := Option.map_eq_some_iff.mp set
      exact bound field
    | _ => cases set
  | called oracle args => cases set
  | returned oracle call output inner => cases set

/-- A tree of a transaction is empty, or the foreign calls below one of the two
roots, which end if the transaction is executed. -/
private theorem tree_cases {tx : Transaction} {tree : List Step}
    (listed : tree ∈ tx.trees crypto contracts) :
    tree = [] ∨ ∃ (script : Script) (root : Root),
      tree = script.steps crypto contracts root.oracle ∧
      ∀ done, tx.execute crypto contracts = .ok done →
        ∃ final, script.execute crypto contracts root.oracle = .ok final := by
  cases tx with
  | entrypoint origin protocolNullifier argsOfCalls capsules function script output =>
    obtain rfl := List.mem_singleton.mp listed
    refine .inr ⟨script, .entrypoint origin protocolNullifier argsOfCalls capsules, rfl, ?_⟩
    intro done ran
    obtain ⟨root, final, rfl, ended, -⟩ := execute_entrypoint ran
    exact ⟨final, ended⟩
  | topLevel origin protocolNullifier capsules calls =>
    obtain ⟨⟨call, target⟩, asked, rfl⟩ := List.mem_map.mp listed
    cases target with
    | publishClass => exact .inl rfl
    | publishInstance => exact .inl rfl
    | publicFunction selector => exact .inl rfl
    | privateFunction function script output =>
      refine .inr ⟨script, .topLevel call origin protocolNullifier, rfl, ?_⟩
      intro done ran
      obtain ⟨bundles, ran, -⟩ := map_eq_ok ran
      obtain ⟨bundle, -, made⟩ := mapM_each ran asked
      obtain ⟨final, ran, -⟩ := map_eq_ok made
      exact ⟨final, ran⟩

/-- A tree of a transaction that is executed sets at most one boundary. -/
private theorem entries_le_one {tx : Transaction}
    {done : List CallExecutionBundle × PrivateExecutionResult}
    (ran : tx.execute crypto contracts = .ok done) {tree : List Step}
    (listed : tree ∈ tx.trees crypto contracts) (kept : ∀ step ∈ tree, step.KeepsPhase) :
    (entries tree).length ≤ 1 := by
  rcases tree_cases listed with rfl | ⟨script, root, rfl, ends⟩
  · exact Nat.zero_le _
  · obtain ⟨final, ran⟩ := ends _ ran
    rw [phase_final kept ran]
    exact length_phase final

/-- A tree that entered the phase ends with its root knowing the boundary. -/
private theorem entries_of_entered {script : Script} (root : Root) {final : PrivateExecutionOracle}
    (kept : ∀ step ∈ script.steps crypto contracts root.oracle, step.KeepsPhase)
    (ran : script.execute crypto contracts root.oracle = .ok final)
    (entered : entries (script.steps crypto contracts root.oracle) ≠ []) :
    entries (script.steps crypto contracts root.oracle) =
      [final.minRevertibleSideEffectCounter] := by
  rw [phase_final kept ran] at entered ⊢
  unfold phase at entered ⊢
  split
  · rfl
  next outside => simp [outside] at entered

/-- The boundary the kernel reads is the one set in the first tree. -/
private theorem boundary_at_root {tx : Transaction} {bundles : List CallExecutionBundle}
    {result : PrivateExecutionResult} (ran : tx.execute crypto contracts = .ok (bundles, result))
    {tree : List Step} {others : List (List Step)}
    (listed : tx.trees crypto contracts = tree :: others)
    (kept : ∀ step ∈ tree, step.KeepsPhase) (entered : entries tree ≠ []) :
    entries tree = [result.entrypoint.minRevertibleSideEffectCounter] := by
  cases tx with
  | entrypoint origin protocolNullifier argsOfCalls capsules function script output =>
    cases listed
    obtain ⟨root, final, rfl, ended, rfl, rfl⟩ := execute_entrypoint ran
    exact entries_of_entered (.entrypoint origin protocolNullifier argsOfCalls capsules) kept ended
      entered
  | topLevel origin protocolNullifier capsules calls =>
    cases calls with
    | nil => cases listed
    | cons first rest =>
      obtain ⟨call, target⟩ := first
      cases listed
      obtain ⟨each, rfl⟩ := execute_topLevel ran
      obtain ⟨bundle, later, bundled, -, rfl⟩ := List.forall₂_cons_left_iff.mp each
      cases target with
      | publishClass => exact absurd rfl entered
      | publishInstance => exact absurd rfl entered
      | publicFunction selector => exact absurd rfl entered
      | privateFunction function script output =>
        obtain ⟨final, ended, rfl⟩ := map_eq_ok bundled
        exact entries_of_entered (.topLevel call origin protocolNullifier) kept ended entered

private theorem offsets_eq_cons (offset : Nat) (bundles : List CallExecutionBundle) :
    ∃ rest, offsets offset bundles = offset :: rest := by
  cases bundles <;> exact ⟨_, rfl⟩

/-- Where only the first tree sets a boundary, aggregation does not move it. -/
private theorem boundary_of_firstOnly {tx : Transaction} {bundles : List CallExecutionBundle}
    {tree : List Step} {others : List (List Step)}
    (listed : tx.trees crypto contracts = tree :: others)
    (firstOnly : ∀ tree ∈ others, entries tree = []) :
    tx.boundary crypto contracts bundles = entries tree := by
  obtain ⟨rest, shifts⟩ := offsets_eq_cons 0 bundles
  unfold boundary
  rw [listed, shifts, List.zip_cons_cons, List.flatMap_cons]
  have later : (others.zip rest).flatMap (fun entry =>
      (entries entry.1).map (saturatingAdd · entry.2)) = [] := by
    rw [List.flatMap_eq_nil_iff]
    intro entry inside
    rw [firstOnly entry.1 (List.of_mem_zip inside).1, List.map_nil]
  have first : (entries tree).map (saturatingAdd · 0) = entries tree := by
    rw [List.map_congr_left (g := id), List.map_id]
    intro m set
    have bound := entry_le set
    simp only [saturatingAdd, id]
    omega
  rw [later, List.append_nil, first]

/-- There is one boundary for a transaction in which no nested call enters the
phase, none but the first top-level call does, and, if it is public, the first
does and no contract class log lies above the boundary. -/
theorem one_boundary (crypto : Crypto) (contracts : ContractStore) (tx : Transaction)
    (kept : ∀ tree ∈ tx.trees crypto contracts, ∀ step ∈ tree, step.KeepsPhase)
    (firstOnly : ∀ tree ∈ (tx.trees crypto contracts).tail, entries tree = [])
    (bounded : tx.Bounded crypto contracts) : tx.OneBoundary crypto contracts where
  answers := by
    intro tree listed
    rcases tree_cases listed with rfl | ⟨script, root, rfl, -⟩
    · intro before oracle args after point
      cases before <;> cases point
    · exact answersAgree_of_kept script root (kept _ listed)
  refused := by
    intro tree listed twice
    cases outcome : tx.execute crypto contracts with
    | error e => exact ⟨e, rfl⟩
    | ok done =>
      have once := entries_le_one outcome listed (kept tree listed)
      omega
  split := by
    intro bundles result ran feePayer expirationTimestamp output sections processed shown
    obtain ⟨isPublic, rfl⟩ := SimulatedKernel.process_forPublic processed shown
    obtain ⟨⟨tree, first, entered⟩, classLogs⟩ := bounded bundles result ran isPublic
    obtain ⟨others, listed⟩ := List.head?_eq_some_iff.mp first
    rw [listed] at kept firstOnly
    have same : tx.boundary crypto contracts bundles = _ :=
      boundary_of_firstOnly listed firstOnly
    rw [boundary_at_root ran listed (kept tree List.mem_cons_self) entered] at same
    have alone : belongs [result.entrypoint.minRevertibleSideEffectCounter] = fun counter =>
        decide (result.entrypoint.minRevertibleSideEffectCounter ≤ counter) := by
      funext counter
      simp [belongs]
    rw [same, alone] at classLogs ⊢
    exact forPublic_eq crypto.poseidon2 rfl (fun log inside => by simpa using classLogs log inside)

/-- The root enters the phase at the counter three, nullifies a note before the
boundary and enqueues a public call after it. -/
def rootEntry : Transaction :=
  .entrypoint ⟨8⟩ 1 [] [] ⟨none, false, 0⟩
    (.foreign .notifyNullifiedNote [[11], [0], [2]]
      (.foreign .notifySetMinRevertibleSideEffectCounter [[3]]
        (.foreign .isSideEffectCounterRevertible [[4]]
          (.foreign .notifyEnqueuedPublicFunctionCall [[20], [0], [4], [0]] .done)))) {}

/-- That transaction has one boundary. -/
theorem rootEntry_one_boundary : rootEntry.OneBoundary .zero .empty := by
  apply one_boundary .zero .empty rootEntry
  · decide
  · decide
  · intro bundles result ran _
    cases ran
    exact ⟨⟨_, rfl, by decide⟩, by decide⟩

/-- A nested call enters the phase at the counter three, then its caller asks
about the counter five. -/
def nestedEntry : Transaction :=
  .entrypoint ⟨8⟩ 1 [] [] ⟨none, false, 0⟩
    (.callPrivate [[20], [5], [0], [2], [0]]
      (.foreign .notifySetMinRevertibleSideEffectCounter [[3]] .done) {}
      (.foreign .isSideEffectCounterRevertible [[5]] .done)) {}

/-- The one boundary of that transaction is forgotten when the call returns. -/
theorem nested_entry_forgotten :
    (nestedEntry.trees .zero (.one (.fromField 5))).flatMap entries = [3] ∧
      ¬ nestedEntry.OneBoundary .zero (.one (.fromField 5)) := by
  refine ⟨by decide, ?_⟩
  intro agreed
  have answer := agreed.answers _ List.mem_cons_self
    ((nestedEntry.trees .zero (.one (.fromField 5))).flatten.take 3) _ _ [] rfl
  have asked := congrArg (Except.map Prod.fst) answer
  exact absurd asked (by decide)

end Result

end RevertiblePhase

end AztecPxe
