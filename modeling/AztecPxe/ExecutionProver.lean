import AztecPxe.Json
import AztecPxe.Hash
import AztecPxe.Procedure

/-! The sequence of kernel circuits of `kernel/execution_prover.rs`: init for the
first call, one inner circuit for each later call, a reset that silos, the tail, and a
hiding circuit before the proof is made. The circuits are the prover's and stay a
parameter; what is shown is what they are asked, in which order, and that a simulation
tells what a proof will be of. -/
namespace AztecPxe

/-- `prover.rs::PrivateKernelSimulateOutput`. -/
structure PrivateKernelSimulateOutput where
  publicInputs : Json
  verificationKey : List UInt8 := []
  outputWitness : List UInt8 := []
  bytecode : List UInt8 := []

/-- `prover.rs::PrivateExecutionStep`, less its timings. -/
structure PrivateExecutionStep where
  functionName : String
  bytecode : List UInt8
  witness : List UInt8
  vk : List UInt8

/-- `prover.rs::ChonkProofWithPublicInputs`. -/
structure ChonkProofWithPublicInputs where
  proof : List UInt8
  publicInputs : List UInt8

/-- The circuits of the prover. -/
inductive KernelCircuit where
  | init
  | inner
  | reset
  | tail
  | hidingToRollup
  | hidingToPublic
  deriving DecidableEq

/-- `prover.rs::PrivateKernelProver`: a circuit simulated, a circuit run with its
witness, and the proof over all steps. Hiding circuits are never simulated. -/
structure PrivateKernelProver (τ : Type) where
  simulate : KernelCircuit → Json → Procedure Error τ PrivateKernelSimulateOutput
  generate : KernelCircuit → Json → Procedure Error τ PrivateKernelSimulateOutput
  createChonkProof : List PrivateExecutionStep → Procedure Error τ ChonkProofWithPublicInputs

/-- A circuit of the prover, simulated or with its witness. -/
def PrivateKernelProver.run {τ : Type} (prover : PrivateKernelProver τ) (simulate : Bool) :
    KernelCircuit → Json → Procedure Error τ PrivateKernelSimulateOutput :=
  if simulate then prover.simulate else prover.generate

/-- `execution_prover.rs::PrivateCallExecution`, with what a step reads of its result. -/
structure PrivateCallExecution where
  contractAddress : AztecAddress
  txRequest : Json
  callStackItem : Json
  executionResultJson : Json
  calledContract : AztecAddress
  functionSelector : Fr
  partialWitness : Except String (List UInt8)
  acir : List UInt8
  vk : List UInt8

/-- `kernel/oracle.rs::PrivateKernelOracle`, as the prover asks it. -/
structure PrivateKernelOracle where
  getContractAddressPreimage : AztecAddress → Except Error Json
  getVkMembershipWitness : Fr → Except Error Json
  getDebugFunctionName : AztecAddress → FunctionSelector → Except Error (Option String)

/-- `KernelProvingResult`, its timings by the names of the circuits. -/
structure KernelProvingResult where
  publicInputs : Json
  chonkProof : Option ChonkProofWithPublicInputs
  executionSteps : List PrivateExecutionStep
  timings : List String

namespace PrivateKernelExecutionProver

/-! ## Inputs -/

section Inputs
variable (oracle : PrivateKernelOracle)

/-- The members of a call in the inputs of its kernel circuit. -/
def privateCall (call : PrivateCallExecution) : Json :=
  .obj [("callStackItem", call.callStackItem), ("executionResult", call.executionResultJson)]

/-- The previous kernel's output in the inputs of the next. -/
def previousKernelData (output : PrivateKernelSimulateOutput) : String × Json :=
  ("previousKernelData", .obj [("publicInputs", output.publicInputs)])

/-- `build_init_inputs`. -/
def buildInitInputs (call : PrivateCallExecution) : Except Error Json := do
  let contractPreimage ← oracle.getContractAddressPreimage call.contractAddress
  return .obj [("txRequest", call.txRequest), ("privateCall", privateCall call),
    ("contractInstance", contractPreimage),
    ("vkMembershipWitness", ← oracle.getVkMembershipWitness 0)]

/-- `build_inner_inputs`. -/
def buildInnerInputs (call : PrivateCallExecution) (previous : PrivateKernelSimulateOutput) :
    Except Error Json := do
  let contractPreimage ← oracle.getContractAddressPreimage call.contractAddress
  return .obj [previousKernelData previous, ("privateCall", privateCall call),
    ("contractInstance", contractPreimage),
    ("vkMembershipWitness", ← oracle.getVkMembershipWitness 0)]

/-- `build_reset_inputs` and `build_final_reset_inputs`. -/
def buildResetInputs (current : PrivateKernelSimulateOutput) (silo : Bool) : Json :=
  .obj [previousKernelData current, ("silo", .bool silo)]

/-- `build_tail_inputs` and `build_hiding_inputs`. -/
def buildTailInputs (current : PrivateKernelSimulateOutput) : Json :=
  .obj [previousKernelData current]

/-- `needs_reset`. -/
def needsReset (_output : PrivateKernelSimulateOutput) : Bool := false

/-- `is_for_public`. -/
def isForPublic (output : PrivateKernelSimulateOutput) : Bool :=
  match (output.publicInputs.pointer ["end", "publicCallRequests"]).bind Json.asArray with
  | some requests => !requests.isEmpty
  | none => false

/-- `output_to_step`. -/
def outputToStep (output : PrivateKernelSimulateOutput) (functionName : String) :
    PrivateExecutionStep :=
  ⟨functionName, output.bytecode, output.outputWitness, output.verificationKey⟩

/-- `call_to_step`. -/
def callToStep (call : PrivateCallExecution) : Except Error PrivateExecutionStep := do
  let functionName ← oracle.getDebugFunctionName call.calledContract
    (FunctionSelector.fromField call.functionSelector)
  match call.partialWitness with
  | .error e => .error (.invalidData ("failed to serialize private app witness: " ++ e))
  | .ok witness => return ⟨functionName.getD "private_call", call.acir, witness, call.vk⟩

end Inputs

/-! ## The sequence -/

/-- How far a sequence has come: the last output, and the steps and timings so far. -/
structure Progress where
  current : PrivateKernelSimulateOutput
  steps : List PrivateExecutionStep
  timings : List String

variable {τ : Type} (oracle : PrivateKernelOracle) (prover : PrivateKernelProver τ)
variable (simulate : Bool)

/-- A check or a lookup that may fail. -/
def orFail {α : Type} (result : Except Error α) : Procedure Error τ α :=
  match result with
  | .error e => throw e
  | .ok a => pure a

/-- One kernel circuit: its output, and with a witness its step. -/
def runCircuit (circuit : KernelCircuit) (inputs : Json) (stepName timing : String)
    (steps : List PrivateExecutionStep) (timings : List String) : Procedure Error τ Progress := do
  let output ← prover.run simulate circuit inputs
  pure ⟨output, if simulate then steps else steps ++ [outputToStep output stepName],
    timings ++ [timing]⟩

/-- The app circuit's step, with a witness. -/
def appStep (call : PrivateCallExecution) (steps : List PrivateExecutionStep) :
    Procedure Error τ (List PrivateExecutionStep) :=
  if simulate then pure steps
  else do
    let step ← orFail (callToStep oracle call)
    pure (steps ++ [step])

/-- The init circuit, for the first call. -/
def initCircuit (call : PrivateCallExecution) : Procedure Error τ Progress := do
  let steps ← appStep oracle simulate call []
  let inputs ← orFail (buildInitInputs oracle call)
  runCircuit prover simulate .init inputs "private_kernel_init" "init" steps []

/-- An inner circuit, for the call of this index, and the reset that may follow it. -/
def innerCircuit (progress : Progress) (entry : PrivateCallExecution × Nat) :
    Procedure Error τ Progress := do
  let steps ← appStep oracle simulate entry.1 progress.steps
  let inputs ← orFail (buildInnerInputs oracle entry.1 progress.current)
  let inner ← runCircuit prover simulate .inner inputs
    ("private_kernel_inner_" ++ toString entry.2) ("inner_" ++ toString entry.2) steps
    progress.timings
  if needsReset inner.current then
    runCircuit prover simulate .reset (buildResetInputs inner.current false)
      ("private_kernel_reset_" ++ toString entry.2) ("reset_" ++ toString entry.2) inner.steps
      inner.timings
  else pure inner

/-- The inner circuits one after the other. -/
def innerCircuits (progress : Progress) :
    List (PrivateCallExecution × Nat) → Procedure Error τ Progress
  | [] => pure progress
  | entry :: rest => do
    let next ← innerCircuit oracle prover simulate progress entry
    innerCircuits next rest

/-- The hiding circuit and the proof, where a witness was made. -/
def prove (forPublic : Bool) (tail : Progress) :
    Procedure Error τ (Option ChonkProofWithPublicInputs × Progress) := do
  let hidden ← runCircuit prover false
    (if forPublic then .hidingToPublic else .hidingToRollup) (buildTailInputs tail.current)
    (if forPublic then "hiding_kernel_to_public" else "hiding_kernel_to_rollup") "hiding" tail.steps
    tail.timings
  -- the hiding circuit's step is among them, so that there are steps to prove
  let proof ← prover.createChonkProof hidden.steps
  pure (some proof, { hidden with timings := hidden.timings ++ ["chonk"] })

/-- The hiding circuit and the proof, unless the sequence is simulated. -/
def proveUnlessSimulated (forPublic : Bool) (tail : Progress) :
    Procedure Error τ (Option ChonkProofWithPublicInputs × Progress) :=
  if simulate then pure (none, tail) else prove prover forPublic tail

/-- The reset that silos, the tail, and what is made of them. -/
def finish (inner : Progress) : Procedure Error τ KernelProvingResult := do
  let reset ← runCircuit prover simulate .reset (buildResetInputs inner.current true)
    "private_kernel_reset_final" "reset_final" inner.steps inner.timings
  let forPublic := isForPublic reset.current
  let tail ← runCircuit prover simulate .tail (buildTailInputs reset.current)
    (if forPublic then "private_kernel_tail_to_public" else "private_kernel_tail") "tail"
    reset.steps reset.timings
  let proven ← proveUnlessSimulated prover simulate forPublic tail
  pure ⟨tail.current.publicInputs, proven.1, proven.2.steps, proven.2.timings⟩

/-- `prove_with_kernels`. -/
def proveWithKernels (calls : List PrivateCallExecution) : Procedure Error τ KernelProvingResult :=
  match calls with
  | [] => throw (.invalidData "no execution results to prove")
  | first :: rest => do
    let initial ← initCircuit oracle prover simulate first
    let inner ← innerCircuits oracle prover simulate initial (rest.zipIdx 1)
    finish prover simulate inner

/-! ## What the prover is asked -/

/-- A circuit that was run. -/
structure Run where
  circuit : KernelCircuit
  inputs : Json
  output : PrivateKernelSimulateOutput

/-- A prover's state with the circuits it ran and the proofs it made. -/
structure Recorded (τ : Type) where
  state : τ
  runs : List Run := []
  proofs : List (List PrivateExecutionStep × ChonkProofWithPublicInputs) := []

/-- A circuit of a prover, with a record of its run. -/
def recordRun (run : KernelCircuit → Json → Procedure Error τ PrivateKernelSimulateOutput)
    (circuit : KernelCircuit) (inputs : Json) :
    Procedure Error (Recorded τ) PrivateKernelSimulateOutput := fun recorded =>
  match (run circuit inputs).runFrom recorded.state with
  | none => none
  | some (.error e, state) => some (.error e, { recorded with state := state })
  | some (.ok output, state) => some (.ok output, { recorded with
      state := state, runs := recorded.runs ++ [⟨circuit, inputs, output⟩] })

/-- The making of a proof, with a record of it. -/
def recordProof (steps : List PrivateExecutionStep) :
    Procedure Error (Recorded τ) ChonkProofWithPublicInputs := fun recorded =>
  match (prover.createChonkProof steps).runFrom recorded.state with
  | none => none
  | some (.error e, state) => some (.error e, { recorded with state := state })
  | some (.ok proof, state) => some (.ok proof, { recorded with
      state := state, proofs := recorded.proofs ++ [(steps, proof)] })

/-- A prover that records what it is asked. -/
def recording : PrivateKernelProver (Recorded τ) where
  simulate := recordRun prover.simulate
  generate := recordRun prover.generate
  createChonkProof := recordProof prover

/-- The run that is due after these: the init circuit on the first call, an inner
circuit on each later call and the output before it, the reset that silos, the tail,
and the hiding circuit the reset's public calls decide on. -/
inductive Due (calls : List PrivateCallExecution) : List Run → Run → Prop where
  | init {call : PrivateCallExecution} {inputs : Json} (output : PrivateKernelSimulateOutput)
      (first : calls[0]? = some call) (built : buildInitInputs oracle call = .ok inputs) :
      Due calls [] ⟨.init, inputs, output⟩
  | inner {prior : List Run} {previous : Run} {call : PrivateCallExecution} {inputs : Json}
      (output : PrivateKernelSimulateOutput) (next : calls[prior.length + 1]? = some call)
      (built : buildInnerInputs oracle call previous.output = .ok inputs) :
      Due calls (prior ++ [previous]) ⟨.inner, inputs, output⟩
  | reset {prior : List Run} {previous : Run} (output : PrivateKernelSimulateOutput)
      (all : prior.length + 1 = calls.length) :
      Due calls (prior ++ [previous]) ⟨.reset, buildResetInputs previous.output true, output⟩
  | tail {prior : List Run} {previous : Run} (output : PrivateKernelSimulateOutput)
      (all : prior.length = calls.length) :
      Due calls (prior ++ [previous]) ⟨.tail, buildTailInputs previous.output, output⟩
  | hiding {prior : List Run} {reset tail : Run} (output : PrivateKernelSimulateOutput)
      (all : prior.length = calls.length) :
      Due calls (prior ++ [reset, tail])
        ⟨if isForPublic reset.output then .hidingToPublic else .hidingToRollup,
          buildTailInputs tail.output, output⟩

/-- Every run was due when it was made. -/
def Orderly (calls : List PrivateCallExecution) (runs : List Run) : Prop :=
  ∀ prior run later, runs = prior ++ run :: later → Due oracle calls prior run

/-- What a step contributes to the proof. -/
def contents (step : PrivateExecutionStep) : List UInt8 × List UInt8 × List UInt8 :=
  (step.bytecode, step.witness, step.vk)

/-- What a run contributes to the proof. -/
def Run.contents (run : Run) : List UInt8 × List UInt8 × List UInt8 :=
  (run.output.bytecode, run.output.outputWitness, run.output.verificationKey)

/-- Each call's circuit before its kernel circuit, then the remaining kernel circuits. -/
def interleave {α : Type} : List α → List α → List α
  | app :: apps, kernel :: kernels => app :: kernel :: interleave apps kernels
  | _, kernels => kernels

variable {oracle prover simulate}

theorem orderly_nil (calls : List PrivateCallExecution) : Orderly oracle calls [] := by
  intro prior run later split
  cases prior <;> cases split

theorem orderly_snoc {calls : List PrivateCallExecution} {runs : List Run} {run : Run}
    (orderly : Orderly oracle calls runs) (due : Due oracle calls runs run) :
    Orderly oracle calls (runs ++ [run]) := by
  intro prior other later split
  rcases List.append_eq_append_iff.mp split with ⟨more, rfl, rest⟩ | ⟨more, rfl, rest⟩
  · cases more with
    | nil =>
      obtain ⟨rfl, -⟩ := List.cons.inj rest
      rwa [List.append_nil]
    | cons first more =>
      obtain ⟨-, none⟩ := List.cons.inj rest
      exact absurd none.symm (by simp)
  · cases more with
    | nil =>
      obtain ⟨rfl, -⟩ := List.cons.inj rest
      rwa [List.append_nil] at due
    | cons first more =>
      obtain ⟨rfl, -⟩ := List.cons.inj rest
      exact orderly prior other more rfl

theorem interleave_pair {α : Type} {apps kernels : List α} (app kernel : α)
    (same : apps.length = kernels.length) :
    interleave (apps ++ [app]) (kernels ++ [kernel]) = interleave apps kernels ++ [app, kernel] := by
  induction apps generalizing kernels with
  | nil =>
    cases kernels with
    | nil => rfl
    | cons first rest => cases same
  | cons first rest ih =>
    cases kernels with
    | nil => cases same
    | cons second more => simp [interleave, ih (Nat.succ.inj same)]

theorem interleave_kernel {α : Type} {apps kernels : List α} (kernel : α)
    (fewer : apps.length ≤ kernels.length) :
    interleave apps (kernels ++ [kernel]) = interleave apps kernels ++ [kernel] := by
  induction apps generalizing kernels with
  | nil => cases kernels <;> rfl
  | cons first rest ih =>
    cases kernels with
    | nil => exact absurd fewer (by simp)
    | cons second more => simp [interleave, ih (Nat.le_of_succ_le_succ fewer)]

theorem run_recording (circuit : KernelCircuit) (inputs : Json) :
    (recording prover).run simulate circuit inputs =
      recordRun (prover.run simulate) circuit inputs := by
  cases simulate <;> rfl

/-- A circuit that came to an outcome: it failed, and nothing is recorded, or it ran, and
its run is. -/
theorem runCircuit_cases {circuit : KernelCircuit} {inputs : Json} {stepName timing : String}
    {steps : List PrivateExecutionStep} {timings : List String} {recorded last : Recorded τ}
    {result : Except Error Progress}
    (ended : (runCircuit (recording prover) simulate circuit inputs stepName timing steps
      timings).runFrom recorded = some (result, last)) :
    (∃ e state, result = .error e ∧ last = { recorded with state := state }) ∨
    ∃ output state, result = .ok ⟨output,
        if simulate then steps else steps ++ [outputToStep output stepName],
        timings ++ [timing]⟩ ∧
      last = { recorded with
        state := state, runs := recorded.runs ++ [⟨circuit, inputs, output⟩] } := by
  have asked {result : Except Error PrivateKernelSimulateOutput} {last : Recorded τ}
      (ended : ((recording prover).run simulate circuit inputs).runFrom recorded =
        some (result, last)) :
      (∃ e state, result = .error e ∧ last = { recorded with state := state }) ∨
      ∃ output state, result = .ok output ∧ last = { recorded with
        state := state, runs := recorded.runs ++ [⟨circuit, inputs, output⟩] } := by
    rw [run_recording] at ended
    change recordRun (prover.run simulate) circuit inputs recorded = _ at ended
    unfold recordRun at ended
    split at ended
    · cases ended
    · cases ended
      exact .inl ⟨_, _, rfl, rfl⟩
    · cases ended
      exact .inr ⟨_, _, rfl, rfl⟩
  unfold runCircuit at ended
  rcases Procedure.runFrom_bind_some ended with ⟨e, failed, rfl⟩ | ⟨output, next, ran, ended⟩
  · rcases asked failed with ⟨e', state, same, rfl⟩ | ⟨output, state, same, -⟩
    · exact .inl ⟨e, state, rfl, rfl⟩
    · cases same
  · rcases asked ran with ⟨e', state, same, -⟩ | ⟨output', state, same, rfl⟩
    · cases same
    · cases same
      cases ended
      exact .inr ⟨output, state, rfl, rfl⟩

theorem orFail_cases {α : Type} {result : Except Error α} {outcome : Except Error α}
    {recorded last : Recorded τ}
    (ended : (orFail result : Procedure Error _ α).runFrom recorded = some (outcome, last)) :
    outcome = result ∧ last = recorded := by
  cases result <;> (cases ended; exact ⟨rfl, rfl⟩)

/-- The steps after a call's own circuit is among them. -/
def Stepped (oracle : PrivateKernelOracle) (simulate : Bool) (call : PrivateCallExecution)
    (before after : List PrivateExecutionStep) : Prop :=
  if simulate then after = before
  else ∃ step, callToStep oracle call = .ok step ∧ after = before ++ [step]

theorem appStep_cases {call : PrivateCallExecution} {steps : List PrivateExecutionStep}
    {recorded last : Recorded τ} {result : Except Error (List PrivateExecutionStep)}
    (ended : (appStep oracle simulate call steps).runFrom recorded = some (result, last)) :
    last = recorded ∧ ∀ after, result = .ok after → Stepped oracle simulate call steps after := by
  unfold appStep at ended
  unfold Stepped
  cases simulate with
  | true =>
    cases ended
    exact ⟨rfl, fun after same => (Except.ok.inj same).symm⟩
  | false =>
    rcases Procedure.runFrom_bind_some ended with ⟨e, failed, rfl⟩ | ⟨step, next, built, going⟩
    · exact ⟨(orFail_cases failed).2, fun after same => nomatch same⟩
    · obtain ⟨made, rfl⟩ := orFail_cases built
      cases going
      exact ⟨rfl, fun after same => ⟨step, made.symm, (Except.ok.inj same).symm⟩⟩

/-- The steps there are after so many calls and these runs: none in a simulation, else
those of the calls' own circuits and of the runs. -/
def Steps (oracle : PrivateKernelOracle) (simulate : Bool) (calls : List PrivateCallExecution)
    (runs : List Run) (steps : List PrivateExecutionStep) : Prop :=
  if simulate then steps = []
  else ∃ apps, calls.mapM (callToStep oracle) = .ok apps ∧
    steps.map contents = interleave (apps.map contents) (runs.map Run.contents)

theorem length_of_mapM {calls : List PrivateCallExecution} {apps : List PrivateExecutionStep}
    (made : calls.mapM (callToStep oracle) = .ok apps) : apps.length = calls.length :=
  (mapM_paired made).length_eq.symm

/-- A call's own circuit and its kernel circuit are added as a pair. -/
theorem steps_call {calls : List PrivateCallExecution} {call : PrivateCallExecution}
    {runs : List Run} {run : Run} {steps after : List PrivateExecutionStep} (stepName : String)
    (held : Steps oracle simulate calls runs steps) (same : calls.length = runs.length)
    (stepped : Stepped oracle simulate call steps after) :
    Steps oracle simulate (calls ++ [call]) (runs ++ [run])
      (if simulate then after else after ++ [outputToStep run.output stepName]) := by
  unfold Steps Stepped at *
  cases simulate with
  | true =>
    rw [if_pos rfl] at *
    exact stepped.trans held
  | false =>
    obtain ⟨apps, made, contained⟩ := held
    obtain ⟨step, stepMade, rfl⟩ := stepped
    refine ⟨apps ++ [step], ?_, ?_⟩
    · rw [List.mapM_append, made, List.mapM_cons, stepMade]
      rfl
    · have lengths : (apps.map contents).length = (runs.map Run.contents).length := by
        rw [List.length_map, List.length_map, length_of_mapM made, same]
      simp only [Bool.false_eq_true, if_false, List.map_append, List.map_cons, List.map_nil,
        contained]
      rw [interleave_pair _ _ lengths, List.append_assoc]
      rfl

/-- A kernel circuit without a call is added behind them. -/
theorem steps_kernel {calls : List PrivateCallExecution} {runs : List Run} {run : Run}
    {steps : List PrivateExecutionStep} (stepName : String)
    (held : Steps oracle simulate calls runs steps) (fewer : calls.length ≤ runs.length) :
    Steps oracle simulate calls (runs ++ [run])
      (if simulate then steps else steps ++ [outputToStep run.output stepName]) := by
  unfold Steps at *
  cases simulate with
  | true => exact held
  | false =>
    obtain ⟨apps, made, contained⟩ := held
    have lengths : (apps.map contents).length ≤ (runs.map Run.contents).length := by
      rw [List.length_map, List.length_map, length_of_mapM made]
      exact fewer
    refine ⟨apps, made, ?_⟩
    simp only [Bool.false_eq_true, if_false, List.map_append, List.map_cons, List.map_nil,
      contained]
    rw [interleave_kernel _ lengths]
    rfl

/-- A sequence that has made so many runs, for so many calls: they were due, the last
gave the current output, and the steps are theirs. -/
structure Came (oracle : PrivateKernelOracle) (simulate : Bool) (calls : List PrivateCallExecution)
    (done : Nat) (progress : Progress) (recorded : Recorded τ) (prior : List Run) (run : Run) :
    Prop where
  runs : recorded.runs = prior ++ [run]
  current : run.output = progress.current
  orderly : Orderly oracle calls recorded.runs
  proofs : recorded.proofs = []
  steps : Steps oracle simulate (calls.take done) recorded.runs progress.steps

/-- What holds of the record however a part of the sequence ends. -/
def Sound (oracle : PrivateKernelOracle) (calls : List PrivateCallExecution)
    (recorded : Recorded τ) : Prop :=
  Orderly oracle calls recorded.runs ∧ recorded.proofs = []

variable {calls : List PrivateCallExecution}

/-- One kernel circuit after the others. -/
theorem came_runCircuit {circuit : KernelCircuit} {inputs : Json} {stepName timing : String}
    {steps : List PrivateExecutionStep} {timings : List String} {recorded last : Recorded τ}
    {result : Except Error Progress} {done : Nat}
    (ended : (runCircuit (recording prover) simulate circuit inputs stepName timing steps
      timings).runFrom recorded = some (result, last))
    (sound : Sound oracle calls recorded)
    (due : ∀ output, Due oracle calls recorded.runs ⟨circuit, inputs, output⟩)
    (added : ∀ run : Run, Steps oracle simulate (calls.take done) (recorded.runs ++ [run])
      (if simulate then steps else steps ++ [outputToStep run.output stepName])) :
    Sound oracle calls last ∧ ∀ progress, result = .ok progress →
      ∃ run, Came oracle simulate calls done progress last recorded.runs run := by
  rcases runCircuit_cases ended with ⟨e, state, rfl, rfl⟩ | ⟨output, state, rfl, rfl⟩
  · exact ⟨sound, fun progress same => nomatch same⟩
  · have orderly := orderly_snoc sound.1 (due output)
    refine ⟨⟨orderly, sound.2⟩, fun progress same => ⟨⟨circuit, inputs, output⟩, ?_⟩⟩
    cases same
    exact ⟨rfl, rfl, orderly, sound.2, added ⟨circuit, inputs, output⟩⟩

theorem came_init {call : PrivateCallExecution} {recorded last : Recorded τ}
    {result : Except Error Progress} (first : calls[0]? = some call)
    (fresh : recorded.runs = []) (unproven : recorded.proofs = [])
    (ended : (initCircuit oracle (recording prover) simulate call).runFrom recorded =
      some (result, last)) :
    Sound oracle calls last ∧ ∀ progress, result = .ok progress →
      ∃ run, Came oracle simulate calls 1 progress last [] run := by
  have sound : Sound oracle calls recorded := by
    refine ⟨?_, unproven⟩
    rw [fresh]
    exact orderly_nil calls
  have taken : calls.take 1 = [] ++ [call] := by
    cases calls with
    | nil => cases first
    | cons head rest =>
      cases first
      rfl
  unfold initCircuit at ended
  rcases Procedure.runFrom_bind_some ended with ⟨e, failed, rfl⟩ | ⟨steps, next, app, going⟩
  · obtain ⟨rfl, -⟩ := appStep_cases failed
    exact ⟨sound, fun progress same => nomatch same⟩
  obtain ⟨rfl, stepped⟩ := appStep_cases app
  rcases Procedure.runFrom_bind_some going with ⟨e, failed, rfl⟩ | ⟨inputs, next', built, running⟩
  · obtain ⟨-, rfl⟩ := orFail_cases failed
    exact ⟨sound, fun progress same => nomatch same⟩
  obtain ⟨given, rfl⟩ := orFail_cases built
  have nothing : Steps oracle simulate [] [] [] := by
    unfold Steps
    cases simulate with
    | true => rfl
    | false => exact ⟨[], rfl, rfl⟩
  have due (output : PrivateKernelSimulateOutput) :
      Due oracle calls next'.runs ⟨.init, inputs, output⟩ := by
    rw [fresh]
    exact .init output first given.symm
  have added (run : Run) : Steps oracle simulate (calls.take 1) (next'.runs ++ [run])
      (if simulate then steps else steps ++ [outputToStep run.output "private_kernel_init"]) := by
    rw [fresh, taken]
    exact steps_call _ nothing rfl (stepped steps rfl)
  have came := came_runCircuit running sound due added
  rwa [fresh] at came

/-- An inner circuit for the call that comes next. -/
theorem came_innerCircuit {progress : Progress} {entry : PrivateCallExecution × Nat}
    {recorded last : Recorded τ} {prior : List Run} {run : Run} {result : Except Error Progress}
    (next : calls[entry.2]? = some entry.1) (length : recorded.runs.length = entry.2)
    (came : Came oracle simulate calls entry.2 progress recorded prior run)
    (ended : (innerCircuit oracle (recording prover) simulate progress entry).runFrom recorded =
      some (result, last)) :
    Sound oracle calls last ∧ ∀ after, result = .ok after →
      ∃ run, Came oracle simulate calls (entry.2 + 1) after last recorded.runs run := by
  have sound : Sound oracle calls recorded := ⟨came.orderly, came.proofs⟩
  have inside : entry.2 < calls.length := (List.getElem?_eq_some_iff.mp next).1
  have taken : calls.take (entry.2 + 1) = calls.take entry.2 ++ [entry.1] := by
    rw [List.take_add_one, next]
    rfl
  unfold innerCircuit at ended
  rcases Procedure.runFrom_bind_some ended with ⟨e, failed, rfl⟩ | ⟨steps, next', app, going⟩
  · obtain ⟨rfl, -⟩ := appStep_cases failed
    exact ⟨sound, fun progress same => nomatch same⟩
  obtain ⟨rfl, stepped⟩ := appStep_cases app
  rcases Procedure.runFrom_bind_some going with ⟨e, failed, rfl⟩ | ⟨inputs, next'', built, running⟩
  · obtain ⟨-, rfl⟩ := orFail_cases failed
    exact ⟨sound, fun progress same => nomatch same⟩
  obtain ⟨given, rfl⟩ := orFail_cases built
  have due (output : PrivateKernelSimulateOutput) :
      Due oracle calls next''.runs ⟨.inner, inputs, output⟩ := by
    have before : entry.2 = prior.length + 1 := by
      rw [← length, came.runs, List.length_append]
      rfl
    rw [before] at next
    rw [← came.current] at given
    rw [came.runs]
    exact .inner output next given.symm
  have added (run : Run) : Steps oracle simulate (calls.take (entry.2 + 1)) (next''.runs ++ [run])
      (if simulate then steps
        else steps ++ [outputToStep run.output ("private_kernel_inner_" ++ toString entry.2)]) := by
    have same : (calls.take entry.2).length = next''.runs.length := by
      rw [List.length_take, length]
      omega
    rw [taken]
    exact steps_call _ came.steps same (stepped steps rfl)
  -- no reset ever follows: `needs_reset` says no to every output
  rcases Procedure.runFrom_bind_some running with ⟨e, failed, rfl⟩ | ⟨inner, after, ran, rest⟩
  · exact ⟨(came_runCircuit failed sound due added).1, fun progress same => nomatch same⟩
  · cases rest
    have circuit := came_runCircuit ran sound due added
    exact ⟨circuit.1, fun progress same => circuit.2 progress same⟩

/-- The inner circuits for all calls that are left. -/
theorem came_innerCircuits {rest : List PrivateCallExecution} {done : Nat} {progress : Progress}
    {recorded last : Recorded τ} {prior : List Run} {run : Run} {result : Except Error Progress}
    (left : calls.drop done = rest) (length : recorded.runs.length = done)
    (came : Came oracle simulate calls done progress recorded prior run)
    (ended : (innerCircuits oracle (recording prover) simulate progress
      (rest.zipIdx done)).runFrom recorded = some (result, last)) :
    Sound oracle calls last ∧ ∀ after, result = .ok after →
      last.runs.length = done + rest.length ∧
        ∃ prior run, Came oracle simulate calls (done + rest.length) after last prior run := by
  induction rest generalizing done progress recorded prior run with
  | nil =>
    cases ended
    refine ⟨⟨came.orderly, came.proofs⟩, fun after same => ?_⟩
    cases same
    exact ⟨length, prior, run, came⟩
  | cons call rest ih =>
    have next : calls[done]? = some call := by
      rw [← List.head?_drop, left]
      rfl
    have left' : calls.drop (done + 1) = rest := by
      rw [← List.tail_drop, left]
      rfl
    rw [List.zipIdx_cons, innerCircuits] at ended
    rcases Procedure.runFrom_bind_some ended with ⟨e, failed, rfl⟩ | ⟨inner, next', ran, going⟩
    · exact ⟨(came_innerCircuit next length came failed).1, fun progress same => nomatch same⟩
    · obtain ⟨run', came'⟩ := (came_innerCircuit next length came ran).2 inner rfl
      have length' : next'.runs.length = done + 1 := by
        rw [came'.runs, List.length_append, length]
        rfl
      have remaining := ih left' length' came' going
      rwa [List.length_cons, Nat.add_comm rest.length, ← Nat.add_assoc]

/-- A proof that came to an outcome. -/
theorem createChonkProof_cases {steps : List PrivateExecutionStep} {recorded last : Recorded τ}
    {result : Except Error ChonkProofWithPublicInputs}
    (ended : ((recording prover).createChonkProof steps).runFrom recorded = some (result, last)) :
    last.runs = recorded.runs ∧ (∀ e, result = .error e → last.proofs = recorded.proofs) ∧
      ∀ proof, result = .ok proof → last.proofs = recorded.proofs ++ [(steps, proof)] := by
  change recordProof prover steps recorded = _ at ended
  unfold recordProof at ended
  split at ended
  · cases ended
  · cases ended
    exact ⟨rfl, fun _ _ => rfl, fun proof same => nomatch same⟩
  · cases ended
    refine ⟨rfl, nofun, ?_⟩
    intro proof same
    cases same
    rfl

/-- What the record of a sequence that came to its result shows. -/
structure Proven (oracle : PrivateKernelOracle) (simulate : Bool)
    (calls : List PrivateCallExecution) (result : KernelProvingResult) (record : Recorded τ) :
    Prop where
  count : record.runs.length = calls.length + if simulate then 2 else 3
  publicInputs : ∃ tail, record.runs[calls.length + 1]? = some tail ∧
    result.publicInputs = tail.output.publicInputs
  steps : Steps oracle simulate calls record.runs result.executionSteps
  proofs : record.proofs = result.chonkProof.toList.map fun proof => (result.executionSteps, proof)
  proof : result.chonkProof.isSome = !simulate

/-- The hiding circuit the reset decides on, and the proof of all steps. -/
theorem prove_cases {tail : Progress} {recorded last : Recorded τ} {prior : List Run}
    {resetRun tailRun : Run}
    {result : Except Error (Option ChonkProofWithPublicInputs × Progress)}
    (all : prior.length = calls.length)
    (came : Came oracle false calls calls.length tail recorded (prior ++ [resetRun]) tailRun)
    (ended : (prove (recording prover) (isForPublic resetRun.output) tail).runFrom recorded =
      some (result, last)) :
    Orderly oracle calls last.runs ∧ (∀ e, result = .error e → last.proofs = []) ∧
      ∀ proven, result = .ok proven → ∃ proof run, proven.1 = some proof ∧
        last.runs = recorded.runs ++ [run] ∧ last.proofs = [(proven.2.steps, proof)] ∧
        Steps oracle false calls last.runs proven.2.steps := by
  have runs : recorded.runs = prior ++ [resetRun, tailRun] := by
    rw [came.runs, List.append_assoc]
    rfl
  have due (output : PrivateKernelSimulateOutput) : Due oracle calls recorded.runs
      ⟨if isForPublic resetRun.output then .hidingToPublic else .hidingToRollup,
        buildTailInputs tail.current, output⟩ := by
    rw [runs, ← came.current]
    exact .hiding output all
  have added (run : Run) (stepName : String) : Steps oracle false (calls.take calls.length)
      (recorded.runs ++ [run]) (tail.steps ++ [outputToStep run.output stepName]) := by
    refine steps_kernel stepName came.steps ?_
    rw [runs, List.length_append, List.take_length, all]
    omega
  have sound : Sound oracle calls recorded := ⟨came.orderly, came.proofs⟩
  unfold prove at ended
  rcases Procedure.runFrom_bind_some ended with ⟨e, failed, rfl⟩ | ⟨hidden, next, ran, going⟩
  · have kept := (came_runCircuit failed sound due fun run => added run _).1
    exact ⟨kept.1, fun _ _ => kept.2, fun proven same => nomatch same⟩
  obtain ⟨kept, came'⟩ := came_runCircuit ran sound due fun run => added run _
  obtain ⟨run, came'⟩ := came' hidden rfl
  rcases Procedure.runFrom_bind_some going with ⟨e, failed, rfl⟩ | ⟨proof, next', made, rest⟩
  · obtain ⟨same, unproven, -⟩ := createChonkProof_cases failed
    rw [same]
    exact ⟨kept.1, fun _ _ => (unproven e rfl).trans kept.2, fun proven same => nomatch same⟩
  · obtain ⟨same, -, proven⟩ := createChonkProof_cases made
    cases rest
    rw [same]
    refine ⟨kept.1, nofun, ?_⟩
    intro result same
    cases same
    refine ⟨proof, run, rfl, came'.runs, ?_, ?_⟩
    · rw [proven proof rfl, kept.2]
      rfl
    · have steps := came'.steps
      rwa [List.take_length] at steps

/-- What the record of a sequence shows, however it ends: every run was due, no proof
came before a failure, and a result is of the runs. -/
structure Kept (oracle : PrivateKernelOracle) (simulate : Bool)
    (calls : List PrivateCallExecution) (result : Except Error KernelProvingResult)
    (record : Recorded τ) : Prop where
  orderly : Orderly oracle calls record.runs
  unproven : ∀ e, result = .error e → record.proofs = []
  proven : ∀ proven, result = .ok proven → Proven oracle simulate calls proven record

theorem kept_failure {record : Recorded τ} (sound : Sound oracle calls record) (e : Error) :
    Kept oracle simulate calls (.error e) record where
  orderly := sound.1
  unproven := fun _ _ => sound.2
  proven := nofun

/-- What follows once all calls have had their circuits. -/
theorem kept_finish {inner : Progress} {recorded last : Recorded τ} {prior : List Run} {run : Run}
    {result : Except Error KernelProvingResult} (count : recorded.runs.length = calls.length)
    (came : Came oracle simulate calls calls.length inner recorded prior run)
    (ended : (finish (recording prover) simulate inner).runFrom recorded = some (result, last)) :
    Kept oracle simulate calls result last := by
  have sound : Sound oracle calls recorded := ⟨came.orderly, came.proofs⟩
  have all : prior.length + 1 = calls.length := by
    rw [← count, came.runs, List.length_append]
    rfl
  have enough : (calls.take calls.length).length ≤ recorded.runs.length := by
    rw [List.take_length, count]
  have due (output : PrivateKernelSimulateOutput) : Due oracle calls recorded.runs
      ⟨.reset, buildResetInputs inner.current true, output⟩ := by
    rw [came.runs, ← came.current]
    exact .reset output all
  have added (run : Run) : Steps oracle simulate (calls.take calls.length) (recorded.runs ++ [run])
      (if simulate then inner.steps
        else inner.steps ++ [outputToStep run.output "private_kernel_reset_final"]) :=
    steps_kernel _ came.steps enough
  unfold finish at ended
  rcases Procedure.runFrom_bind_some ended with ⟨e, failed, rfl⟩ | ⟨reset, next, ran, going⟩
  · exact kept_failure (came_runCircuit failed sound due added).1 e
  obtain ⟨sound', came'⟩ := came_runCircuit ran sound due added
  obtain ⟨resetRun, came'⟩ := came' reset rfl
  have due' (output : PrivateKernelSimulateOutput) : Due oracle calls next.runs
      ⟨.tail, buildTailInputs reset.current, output⟩ := by
    rw [came'.runs, ← came'.current]
    exact .tail output count
  have enough' : (calls.take calls.length).length ≤ next.runs.length := by
    rw [came'.runs, List.length_append]
    omega
  rcases Procedure.runFrom_bind_some going with ⟨e, failed, rfl⟩ | ⟨tail, next', ran', going'⟩
  · exact kept_failure
      (came_runCircuit failed sound' due' fun run => steps_kernel _ came'.steps enough').1 e
  obtain ⟨sound'', came''⟩ :=
    came_runCircuit ran' sound' due' fun run => steps_kernel _ came'.steps enough'
  obtain ⟨tailRun, came''⟩ := came'' tail rfl
  have atTail : next'.runs = recorded.runs ++ [resetRun, tailRun] := by
    rw [came''.runs, came'.runs, List.append_assoc]
    rfl
  have tailOf {run : List Run} : (next'.runs ++ run)[calls.length + 1]? = some tailRun := by
    rw [atTail, ← count]
    simp
  rcases Procedure.runFrom_bind_some going' with ⟨e, failed, rfl⟩ | ⟨proven, next'', made, rest⟩
  · cases simulate with
    | true => cases failed
    | false =>
      rw [came'.runs] at came''
      rw [← came'.current] at failed
      obtain ⟨orderly, unproven, -⟩ := prove_cases count came'' failed
      exact ⟨orderly, fun _ _ => unproven e rfl, nofun⟩
  cases rest
  cases simulate with
  | true =>
    cases made
    refine ⟨sound''.1, nofun, ?_⟩
    intro result same
    cases same
    have steps := came''.steps
    rw [List.take_length] at steps
    refine ⟨?_, ⟨tailRun, ?_, ?_⟩, steps, sound''.2, rfl⟩
    · rw [atTail, List.length_append, count]
      rfl
    · have here := @tailOf []
      rwa [List.append_nil] at here
    · rw [came''.current]
  | false =>
    rw [came'.runs] at came''
    rw [← came'.current] at made
    obtain ⟨orderly, -, done⟩ := prove_cases count came'' made
    obtain ⟨proof, run, isProof, runs, proofs, steps⟩ := done proven rfl
    refine ⟨orderly, nofun, ?_⟩
    intro result same
    cases same
    refine ⟨?_, ⟨tailRun, ?_, ?_⟩, steps, ?_, ?_⟩
    · rw [runs, atTail, List.length_append, List.length_append, count]
      rfl
    · rw [runs]
      exact tailOf
    · rw [came''.current]
    · rw [proofs, isProof]
      rfl
    · rw [isProof]
      rfl

/-- What a sequence asks of its prover, and what it makes of the answers. -/
theorem proveWithKernels_kept {recorded last : Recorded τ}
    {result : Except Error KernelProvingResult} (fresh : recorded.runs = [])
    (unproven : recorded.proofs = [])
    (ended : (proveWithKernels oracle (recording prover) simulate calls).runFrom recorded =
      some (result, last)) : Kept oracle simulate calls result last := by
  cases calls with
  | nil =>
    cases ended
    refine kept_failure ⟨?_, unproven⟩ _
    rw [fresh]
    exact orderly_nil []
  | cons first rest =>
    have atFirst : (first :: rest)[0]? = some first := rfl
    unfold proveWithKernels at ended
    rcases Procedure.runFrom_bind_some ended with ⟨e, failed, rfl⟩ | ⟨initial, next, ran, going⟩
    · exact kept_failure (came_init atFirst fresh unproven failed).1 e
    obtain ⟨-, came⟩ := came_init atFirst fresh unproven ran
    obtain ⟨run, came⟩ := came initial rfl
    have length : next.runs.length = 1 := by
      rw [came.runs]
      rfl
    have left : (first :: rest).drop 1 = rest := rfl
    rcases Procedure.runFrom_bind_some going with ⟨e, failed, rfl⟩ | ⟨inner, next', ran', going'⟩
    · exact kept_failure (came_innerCircuits left length came failed).1 e
    obtain ⟨-, came'⟩ := came_innerCircuits left length came ran'
    obtain ⟨count, prior, run', came'⟩ := came' inner rfl
    rw [Nat.add_comm] at count came'
    exact kept_finish count came' going'

/-! ## The record is only a record -/

theorem agrees_runCircuit (circuit : KernelCircuit) (inputs : Json) (stepName timing : String)
    (steps : List PrivateExecutionStep) (timings : List String) :
    Procedure.Agrees (fun recorded state => recorded.state = state)
      (runCircuit (recording prover) simulate circuit inputs stepName timing steps timings)
      (runCircuit prover simulate circuit inputs stepName timing steps timings) := by
  refine Procedure.agrees_bind ?_ fun output => Procedure.agrees_pure _
  rintro recorded _ rfl
  rw [run_recording]
  change (recordRun (prover.run simulate) circuit inputs recorded = none ∧ _) ∨
    ∃ result last last', recordRun (prover.run simulate) circuit inputs recorded =
      some (result, last) ∧ _ ∧ _
  unfold recordRun
  cases outcome : (prover.run simulate circuit inputs).runFrom recorded.state with
  | none => exact .inl ⟨rfl, rfl⟩
  | some pair =>
    obtain ⟨result, state⟩ := pair
    cases result <;> exact .inr ⟨_, _, _, rfl, rfl, rfl⟩

theorem agrees_createChonkProof (steps : List PrivateExecutionStep) :
    Procedure.Agrees (fun recorded state => recorded.state = state)
      ((recording prover).createChonkProof steps) (prover.createChonkProof steps) := by
  rintro recorded _ rfl
  change (recordProof prover steps recorded = none ∧ _) ∨
    ∃ result last last', recordProof prover steps recorded = some (result, last) ∧ _ ∧ _
  unfold recordProof
  cases outcome : (prover.createChonkProof steps).runFrom recorded.state with
  | none => exact .inl ⟨rfl, rfl⟩
  | some pair =>
    obtain ⟨result, state⟩ := pair
    cases result <;> exact .inr ⟨_, _, _, rfl, rfl, rfl⟩

theorem agrees_orFail {τ' α : Type} {S : τ → τ' → Prop} (result : Except Error α) :
    Procedure.Agrees S (orFail result) (orFail result) := by
  cases result with
  | error e => exact Procedure.agrees_throw e
  | ok a => exact Procedure.agrees_pure a

theorem agrees_appStep {τ' : Type} {S : τ → τ' → Prop} (call : PrivateCallExecution)
    (steps : List PrivateExecutionStep) :
    Procedure.Agrees S (appStep oracle simulate call steps) (appStep oracle simulate call steps) := by
  cases simulate with
  | true => exact Procedure.agrees_pure steps
  | false => exact Procedure.agrees_bind (agrees_orFail _) fun step => Procedure.agrees_pure _

theorem agrees_innerCircuits (entries : List (PrivateCallExecution × Nat)) (progress : Progress) :
    Procedure.Agrees (fun recorded state => recorded.state = state)
      (innerCircuits oracle (recording prover) simulate progress entries)
      (innerCircuits oracle prover simulate progress entries) := by
  induction entries generalizing progress with
  | nil => exact Procedure.agrees_pure progress
  | cons entry rest ih =>
    refine Procedure.agrees_bind ?_ ih
    refine Procedure.agrees_bind (agrees_appStep _ _) fun steps => ?_
    refine Procedure.agrees_bind (agrees_orFail _) fun inputs => ?_
    exact Procedure.agrees_bind (agrees_runCircuit _ _ _ _ _ _) fun inner =>
      Procedure.agrees_pure inner

theorem agrees_finish (inner : Progress) :
    Procedure.Agrees (fun recorded state => recorded.state = state)
      (finish (recording prover) simulate inner) (finish prover simulate inner) := by
  refine Procedure.agrees_bind (agrees_runCircuit _ _ _ _ _ _) fun reset => ?_
  refine Procedure.agrees_bind (agrees_runCircuit _ _ _ _ _ _) fun tail => ?_
  refine Procedure.agrees_bind ?_ fun proven => Procedure.agrees_pure _
  cases simulate with
  | true => exact Procedure.agrees_pure _
  | false =>
    refine Procedure.agrees_bind (agrees_runCircuit _ _ _ _ _ _) fun hidden => ?_
    exact Procedure.agrees_bind (agrees_createChonkProof _) fun proof => Procedure.agrees_pure _

theorem agrees_proveWithKernels (calls : List PrivateCallExecution) :
    Procedure.Agrees (fun recorded state => recorded.state = state)
      (proveWithKernels oracle (recording prover) simulate calls)
      (proveWithKernels oracle prover simulate calls) := by
  cases calls with
  | nil => exact Procedure.agrees_throw _
  | cons first rest =>
    refine Procedure.agrees_bind ?_ fun initial => ?_
    · refine Procedure.agrees_bind (agrees_appStep _ _) fun steps => ?_
      exact Procedure.agrees_bind (agrees_orFail _) fun inputs => agrees_runCircuit _ _ _ _ _ _
    · exact Procedure.agrees_bind (agrees_innerCircuits _ _) agrees_finish

/-- Whatever a sequence of kernel circuits comes to, the runs it made were each due when
made, a failure leaves no proof, and a result's public inputs are the tail's, its steps
the calls' own circuits and the runs in turn, and its proof of exactly these steps. -/
theorem prove_with_kernels_orderly {state last : τ} {result : Except Error KernelProvingResult}
    (ended : (proveWithKernels oracle prover simulate calls).runFrom state =
      some (result, last)) :
    ∃ record : Recorded τ, record.state = last ∧
      (proveWithKernels oracle (recording prover) simulate calls).runFrom ⟨state, [], []⟩ =
        some (result, record) ∧
      Kept oracle simulate calls result record := by
  have started : (⟨state, [], []⟩ : Recorded τ).state = state := rfl
  obtain ⟨record, recorded, same⟩ :=
    Procedure.outcome_of_agrees (agrees_proveWithKernels calls) started ended
  exact ⟨record, same, recorded, proveWithKernels_kept rfl rfl recorded⟩

/-- An oracle that knows every contract. -/
def knowingOracle : PrivateKernelOracle where
  getContractAddressPreimage := fun _ => .ok .null
  getVkMembershipWitness := fun _ => .ok .null
  getDebugFunctionName := fun _ _ => .ok none

/-- A prover whose circuits hand on what they are given, with one public call. -/
def handingOn : PrivateKernelProver Nat where
  simulate := fun _ inputs => Procedure.lift fun asked => (.ok ⟨.obj [("end", .obj
    [("publicCallRequests", .arr [.str "call"])]), ("inputs", inputs)], [], [], []⟩, asked + 1)
  generate := fun _ inputs => Procedure.lift fun asked => (.ok ⟨.obj [("end", .obj
    [("publicCallRequests", .arr [.str "call"])]), ("inputs", inputs)], [1], [2], [3]⟩, asked + 1)
  createChonkProof := fun steps => Procedure.lift fun asked =>
    (.ok ⟨steps.flatMap PrivateExecutionStep.witness, []⟩, asked)

/-- A call of this contract. -/
def callOf (contract : AztecAddress) : PrivateCallExecution :=
  ⟨contract, .null, .null, .null, contract, 0, .ok [7], [8], [9]⟩

theorem two_calls_orderly : ∃ result, ∃ record : Recorded Nat, record.runs.length = 5 ∧
    Kept knowingOracle false [callOf ⟨1⟩, callOf ⟨2⟩] (.ok result) record := by
  obtain ⟨result, last, ended⟩ : ∃ result last, (proveWithKernels knowingOracle handingOn false
      [callOf ⟨1⟩, callOf ⟨2⟩]).runFrom 0 = some (.ok result, last) := ⟨_, _, rfl⟩
  obtain ⟨record, -, -, kept⟩ := prove_with_kernels_orderly ended
  exact ⟨result, record, (kept.proven result rfl).count, kept⟩

/-! ## What a simulation tells -/

/-- A prover whose simulation of a circuit gives the public inputs its run with a
witness gives. -/
def Foretells (prover : PrivateKernelProver τ) : Prop :=
  ∀ circuit inputs, Procedure.Predicts
    (fun made simulated => simulated.publicInputs = made.publicInputs)
    (prover.generate circuit inputs) (prover.simulate circuit inputs)

/-- A simulated sequence that has come as far as one with witnesses. -/
def Foretold (made simulated : Progress) : Prop :=
  simulated.current.publicInputs = made.current.publicInputs ∧
    simulated.timings = made.timings ∧ simulated.steps = []

theorem predicts_orFail {α : Type} (result : Except Error α) :
    Procedure.Predicts (fun made simulated => simulated = made)
      (orFail result : Procedure Error τ α) (orFail result : Procedure Error τ α) := by
  cases result with
  | error e => exact fun state a last ended => nomatch ended
  | ok a => exact Procedure.predicts_pure rfl

theorem predicts_appStep (call : PrivateCallExecution) (steps : List PrivateExecutionStep) :
    Procedure.Predicts (fun _ simulated => simulated = [])
      (appStep oracle false call steps : Procedure Error τ _)
      (appStep oracle true call [] : Procedure Error τ _) :=
  fun _ _ _ _ other => ⟨[], other, rfl, rfl⟩

theorem predicts_runCircuit (foretells : Foretells prover) (circuit : KernelCircuit)
    (inputs : Json) (stepName other timing : String) (steps : List PrivateExecutionStep)
    (timings : List String) :
    Procedure.Predicts Foretold
      (runCircuit prover false circuit inputs stepName timing steps timings)
      (runCircuit prover true circuit inputs other timing [] timings) :=
  Procedure.predicts_bind (foretells circuit inputs) fun same =>
    Procedure.predicts_pure ⟨same, rfl, rfl⟩

theorem predicts_innerCircuits (foretells : Foretells prover)
    (entries : List (PrivateCallExecution × Nat)) {made simulated : Progress}
    (foretold : Foretold made simulated) :
    Procedure.Predicts Foretold (innerCircuits oracle prover false made entries)
      (innerCircuits oracle prover true simulated entries) := by
  induction entries generalizing made simulated with
  | nil => exact Procedure.predicts_pure foretold
  | cons entry rest ih =>
    obtain ⟨output, timings, steps⟩ := simulated
    obtain ⟨same, rfl, rfl⟩ := foretold
    have inputs : buildInnerInputs oracle entry.1 output =
        buildInnerInputs oracle entry.1 made.current := by
      unfold buildInnerInputs previousKernelData
      rw [same]
    refine Procedure.predicts_bind ?_ fun foretold => ih foretold
    unfold innerCircuit
    refine Procedure.predicts_bind (predicts_appStep entry.1 made.steps) ?_
    rintro steps _ rfl
    rw [inputs]
    refine Procedure.predicts_bind (predicts_orFail _) ?_
    rintro built _ rfl
    exact Procedure.predicts_bind (predicts_runCircuit foretells _ _ _ _ _ _ _) fun foretold =>
      Procedure.predicts_pure foretold

/-- A simulated sequence's result, and that of the sequence with witnesses. -/
def ResultForetold (made simulated : KernelProvingResult) : Prop :=
  simulated.publicInputs = made.publicInputs ∧ simulated.chonkProof = none ∧
    simulated.executionSteps = [] ∧ made.timings = simulated.timings ++ ["hiding", "chonk"]

theorem timings_of_prove {forPublic : Bool} {tail : Progress} {state last : τ}
    {proven : Option ChonkProofWithPublicInputs × Progress}
    (made : (prove prover forPublic tail).runFrom state = some (.ok proven, last)) :
    proven.2.timings = tail.timings ++ ["hiding", "chonk"] := by
  unfold prove runCircuit at made
  rcases Procedure.runFrom_bind_some made with ⟨e, -, failed⟩ | ⟨hidden, next, ran, going⟩
  · cases failed
  rcases Procedure.runFrom_bind_some ran with ⟨e, -, failed⟩ | ⟨output, next', -, rest⟩
  · cases failed
  cases rest
  rcases Procedure.runFrom_bind_some going with ⟨e, -, failed⟩ | ⟨proof, next'', -, rest⟩
  · cases failed
  cases rest
  simp

theorem predicts_finish (foretells : Foretells prover) {made simulated : Progress}
    (foretold : Foretold made simulated) :
    Procedure.Predicts ResultForetold (finish prover false made) (finish prover true simulated) := by
  obtain ⟨output, timings, steps⟩ := simulated
  obtain ⟨same, rfl, rfl⟩ := foretold
  have inputs : buildResetInputs output true = buildResetInputs made.current true := by
    unfold buildResetInputs previousKernelData
    rw [show output.publicInputs = made.current.publicInputs from same]
  unfold finish
  rw [inputs]
  refine Procedure.predicts_bind (predicts_runCircuit foretells _ _ _ _ _ _ _) ?_
  intro reset simulatedReset foretold'
  obtain ⟨simulatedOutput, timings', steps'⟩ := simulatedReset
  obtain ⟨same', rfl, rfl⟩ := foretold'
  have inputs' : buildTailInputs simulatedOutput = buildTailInputs reset.current := by
    unfold buildTailInputs previousKernelData
    rw [show simulatedOutput.publicInputs = reset.current.publicInputs from same']
  rw [inputs']
  refine Procedure.predicts_bind (predicts_runCircuit foretells _ _ _ _ _ _ _) ?_
  intro tail simulatedTail foretold''
  have proving : Procedure.Predicts
      (fun proven simulated => simulated = (none, simulatedTail) ∧
        proven.2.timings = tail.timings ++ ["hiding", "chonk"])
      (proveUnlessSimulated prover false (isForPublic reset.current) tail)
      (proveUnlessSimulated prover true (isForPublic simulatedOutput) simulatedTail) :=
    fun _ proven _ made other => ⟨_, other, rfl, rfl, timings_of_prove made⟩
  refine Procedure.predicts_bind proving ?_
  rintro proven _ ⟨rfl, timed⟩
  refine Procedure.predicts_pure ⟨foretold''.1, rfl, foretold''.2.2, ?_⟩
  rw [timed, foretold''.2.1]

/-- A proof that comes about is of the public inputs a simulation of the same calls
gives, from whatever state it is made; the simulation leaves no steps. -/
theorem prove_with_kernels_foretold (foretells : Foretells prover)
    (calls : List PrivateCallExecution) :
    Procedure.Predicts ResultForetold (proveWithKernels oracle prover false calls)
      (proveWithKernels oracle prover true calls) := by
  cases calls with
  | nil => exact fun state a last ended => nomatch ended
  | cons first rest =>
    have initial : Procedure.Predicts Foretold (initCircuit oracle prover false first)
        (initCircuit oracle prover true first) := by
      refine Procedure.predicts_bind (predicts_appStep first []) ?_
      rintro steps _ rfl
      refine Procedure.predicts_bind (predicts_orFail _) ?_
      rintro built _ rfl
      exact predicts_runCircuit foretells _ _ _ _ _ _ _
    refine Procedure.predicts_bind initial fun foretold => ?_
    exact Procedure.predicts_bind (predicts_innerCircuits foretells _ foretold) fun inner =>
      predicts_finish foretells inner

theorem two_calls_foretold : ∃ made simulated : KernelProvingResult, ∃ last last',
    (proveWithKernels knowingOracle handingOn false [callOf ⟨1⟩, callOf ⟨2⟩]).runFrom 0 =
      some (.ok made, last) ∧
    (proveWithKernels knowingOracle handingOn true [callOf ⟨1⟩, callOf ⟨2⟩]).runFrom 0 =
      some (.ok simulated, last') ∧
    ResultForetold made simulated := by
  have foretells : Foretells handingOn := by
    intro circuit inputs state output last ended other
    cases ended
    exact ⟨_, _, rfl, rfl⟩
  obtain ⟨made, last, ended⟩ : ∃ result last, (proveWithKernels knowingOracle handingOn false
      [callOf ⟨1⟩, callOf ⟨2⟩]).runFrom 0 = some (.ok result, last) := ⟨_, _, rfl⟩
  obtain ⟨simulated, last', ended', foretold⟩ :=
    prove_with_kernels_foretold foretells _ ended 0
  exact ⟨made, simulated, last, last', ended, ended', foretold⟩

end PrivateKernelExecutionProver
end AztecPxe
