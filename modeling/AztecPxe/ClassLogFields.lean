import AztecPxe.NestedMerge
import AztecPxe.RevertiblePhase

/-! The fields of contract class logs beside the log hashes of the kernel output, which a node
pairs by their index. The fields are collected as the logs are emitted, the hashes by counter.
Aggregation shifts a call by the own counters of the calls before it, so a log that its circuit
has numbered can come to lie behind, or on, a log of a later call. -/
namespace AztecPxe
open EmbeddedPxe RevertiblePhase SimulatedKernel

/-- `ScopedLogHash::is_empty`. -/
def ScopedLogHash.isEmpty (hash : ScopedLogHash) : Bool := hash.value = 0

/-- `PrivateKernelTailPublicInputs::get_non_empty_contract_class_logs_hashes`. -/
def PrivateKernelTailPublicInputs.getNonEmptyContractClassLogsHashes
    (inputs : PrivateKernelTailPublicInputs) : List ScopedLogHash :=
  match inputs.forPublic, inputs.forRollup with
  | some sections, _ =>
    (sections.nonRevertibleAccumulatedData.contractClassLogsHashes ++
      sections.revertibleAccumulatedData.contractClassLogsHashes).filter (!·.isEmpty)
  | none, some data => data.contractClassLogsHashes.filter (!·.isEmpty)
  | none, none => []

namespace ClassLogFields

/-- Each entry of the returned fields hashes to the log hash at its index, and there are as many
of both. -/
structure LinesUp (poseidon2 : List Fr → Fr) (output : PrivateKernelTailPublicInputs)
    (fields : List (List Fr)) : Prop where
  lengths : fields.length = output.getNonEmptyContractClassLogsHashes.length
  hashes : ∀ (i : Nat) entry hash, fields[i]? = some entry →
    output.getNonEmptyContractClassLogsHashes[i]? = some hash → poseidon2 entry = hash.value

section Kernel
variable {poseidon2 : List Fr → Fr} {result : PrivateExecutionResult} {feePayer : Fr}
  {expirationTimestamp : Nat} {output : PrivateKernelTailPublicInputs}

private theorem filter_padding (hashes : List ScopedLogHash) (len : Nat) :
    (padTo {} len hashes).filter (!·.isEmpty) = hashes.filter (!·.isEmpty) := by
  have none : (List.replicate (len - hashes.length) ({} : ScopedLogHash)).filter (!·.isEmpty) =
      [] := by
    apply List.filter_eq_nil_iff.mpr
    intro hash inside
    rw [List.eq_of_mem_replicate inside]
    decide
  rw [padTo, List.filter_append, none, List.append_nil]

/-- Either kind of output has the hashes of the collected logs, less the empty ones. -/
theorem nonEmptyHashes_process
    (processed : process poseidon2 result feePayer expirationTimestamp = .ok output) :
    output.getNonEmptyContractClassLogsHashes =
      (result.allContractClassLogsSorted.map (classLogHash poseidon2)).filter (!·.isEmpty) := by
  unfold process at processed
  split at processed <;> rw [← Except.ok.inj processed]
  · exact filter_padding _ _
  · simp only [PrivateKernelTailPublicInputs.getNonEmptyContractClassLogsHashes, forPublic,
      accumulated, List.filter_append, filter_padding, List.filter_nil, List.append_nil]

/-- The hash of the padded fields of a log. -/
def fieldsHash (poseidon2 : List Fr → Fr) (log : CountedContractClassLog) : Fr :=
  poseidon2 (fromEmittedFields log.log.fields)

/-- Fields line up when they have the listed hashes. -/
theorem linesUp_iff_hashes {fields : List (List Fr)} :
    LinesUp poseidon2 output fields ↔
      output.getNonEmptyContractClassLogsHashes.map (·.value) = fields.map poseidon2 := by
  constructor
  · intro lined
    apply List.ext_getElem
    · simpa using lined.lengths.symm
    · intro i first second
      rw [List.length_map] at first second
      rw [List.getElem_map, List.getElem_map]
      exact (lined.hashes i _ _ (List.getElem?_eq_getElem second)
        (List.getElem?_eq_getElem first)).symm
  · intro same
    refine ⟨by simpa using (congrArg List.length same).symm, ?_⟩
    intro i entry hash given listed
    have both := congrArg (fun hashes => hashes[i]?) same
    simpa [given, listed, eq_comm] using both

/-- The values of the hashes are those of the collected logs that are not zero. -/
theorem hashValues_process
    (processed : process poseidon2 result feePayer expirationTimestamp = .ok output) :
    output.getNonEmptyContractClassLogsHashes.map (·.value) =
      (result.allContractClassLogsSorted.map (fieldsHash poseidon2)).filter (· ≠ 0) := by
  rw [nonEmptyHashes_process processed, List.filter_map, List.filter_map, List.map_map]
  congr 1
  exact List.filter_congr (fun log _ => (decide_not (p := fieldsHash poseidon2 log = 0)).symm)

end Kernel

section Tree
variable {crypto : Crypto} {contracts : ContractStore} {script : Script} {trace : List Step}
  {final : PrivateExecutionOracle} {root : Root} {function : PrivateFunction}
  {output : AcvmExecutionOutput}

/-- The root's own logs are those of the steps of its tree, in their order. -/
private theorem classLogs_root
    (runs : Script.Runs crypto contracts script root.oracle trace final) :
    (root.bundle function output final).executionResult.entrypoint.contractClassLogs =
      trace.flatMap (Step.classLogs crypto contracts) := by
  have ended := (Recorder.classLogs crypto contracts).of_runs runs
  have started : root.oracle.contractClassLogs = [] := by cases root <;> rfl
  have own : (root.bundle function output final).executionResult.entrypoint.contractClassLogs =
      final.contractClassLogs := by cases root <;> rfl
  rw [own]
  exact ended.trans (congrArg (· ++ _) started)

/-- The results below the root show copies of them. -/
private theorem classLogs_below
    (runs : Script.Runs crypto contracts script root.oracle trace final) :
    ∀ log ∈ (PrivateCallExecutionResult.collectNested (root.bundle function output
      final).executionResult.entrypoint.nestedExecutionResults).flatMap (·.contractClassLogs),
        log ∈ trace.flatMap (Step.classLogs crypto contracts) := by
  refine NestedMerge.recorded_of_root (·.contractClassLogs) (Step.classLogs crypto contracts)
    (fun bare => bare.contractClassLogs) ?_ runs
  intro oracle inner call body output inside below log held
  have fresh : inner.contractClassLogs = inside.flatMap (Step.classLogs crypto contracts) :=
    (Recorder.classLogs crypto contracts).of_runs below
  change log ∈ inner.contractClassLogs at held
  exact .inl (fresh ▸ held)

private theorem mem_collected_tree
    (runs : Script.Runs crypto contracts script root.oracle trace final) :
    ∀ log ∈ (root.bundle function output final).executionResult.allContractClassLogsSorted,
      log ∈ trace.flatMap (Step.classLogs crypto contracts) := by
  intro log held
  have inside := FirstWins.mem_of_mem_collect held
  rw [PrivateExecutionResult.flatMap_iterAllCalls, classLogs_root runs] at inside
  exact (List.mem_append.mp inside).elim id (classLogs_below runs log)

private theorem collected_tree
    (runs : Script.Runs crypto contracts script root.oracle trace final)
    (ascending : (trace.flatMap (Step.classLogs crypto contracts)).Pairwise
      (fun a b => a.counter < b.counter)) :
    (root.bundle function output final).executionResult.allContractClassLogsSorted =
      trace.flatMap (Step.classLogs crypto contracts) := by
  apply FirstWins.collect_eq_of_ascending ascending
  rw [PrivateExecutionResult.flatMap_iterAllCalls, classLogs_root runs]
  have distinct := List.pairwise_map.mpr (ascending.imp Nat.ne_of_lt)
  exact FirstWins.collect_perm distinct (classLogs_below runs)

end Tree

section Calls
variable {crypto : Crypto} {contracts : ContractStore} {origin : AztecAddress}
  {protocolNullifier : Fr} {capsules : List Capsule} {call : DecodedEntrypointCall}
  {target : Target} {bundle : CallExecutionBundle}

/-- A top-level call has the fields of the logs it shows, by counter. -/
theorem fields_of_call
    (ran : executeEntrypointCallBundle crypto contracts origin protocolNullifier capsules call
      target = .ok bundle) :
    bundle.contractClassLogFields = bundle.executionResult.allContractClassLogsSorted.map
      (fun log => fromEmittedFields log.log.fields) := by
  cases target with
  | privateFunction function script output =>
    obtain ⟨final, -, rfl⟩ := map_eq_ok ran
    rfl
  | publicFunction selector =>
    cases ran
    rfl
  | publishClass =>
    simp only [executeEntrypointCallBundle, publishClassBundle] at ran
    split at ran
    · cases ran
    · cases ran
    · cases ran
    · cases ran
      rfl
  | publishInstance =>
    simp only [executeEntrypointCallBundle, publishInstanceBundle] at ran
    split at ran
    · cases ran
    · obtain ⟨address, -, rfl⟩ := map_eq_ok ran
      rfl

end Calls

/-! ## Transactions -/

/-- The contract class logs of a transaction as their fields are returned: those of the steps of
the entrypoint's tree, or those of each top-level call by counter, shifted with the call. -/
def emitted (crypto : Crypto) (contracts : ContractStore) (bundles : List CallExecutionBundle) :
    Transaction → List CountedContractClassLog
  | .entrypoint origin protocolNullifier argsOfCalls capsules _ script _ =>
    (script.steps crypto contracts
      (entrypointOracle origin protocolNullifier argsOfCalls capsules)).flatMap
        (Step.classLogs crypto contracts)
  | .topLevel .. => (placed bundles).flatMap (fun entry =>
      entry.1.executionResult.allContractClassLogsSorted.map
        (EffectKind.contractClassLogs.shift entry.2))

section Transactions
variable {crypto : Crypto} {contracts : ContractStore} {tx : Transaction}
  {bundles : List CallExecutionBundle} {result : PrivateExecutionResult}

/-- What `prove_tx` returns are the fields of these logs. -/
theorem fields_of_execute (ran : tx.execute crypto contracts = .ok (bundles, result)) :
    bundles.flatMap (·.contractClassLogFields) =
      (emitted crypto contracts bundles tx).map (fun log => fromEmittedFields log.log.fields) := by
  cases tx with
  | entrypoint origin protocolNullifier argsOfCalls capsules function script output =>
    obtain ⟨root, final, rfl, ended, rfl, rfl⟩ := Transaction.execute_entrypoint ran
    rw [List.flatMap_singleton]
    exact congrArg (List.map _)
      (@classLogs_root _ _ _ _ _ _ function output (Script.runs_of_execute ended))
  | topLevel origin protocolNullifier capsules calls =>
    obtain ⟨paired, rfl⟩ := Transaction.execute_topLevel ran
    have each : ∀ bundle ∈ bundles, bundle.contractClassLogFields =
        bundle.executionResult.allContractClassLogsSorted.map
          (fun log => fromEmittedFields log.log.fields) := by
      clear ran
      induction paired with
      | nil =>
        intro bundle held
        cases held
      | cons first _ ih => exact List.forall_mem_cons.mpr ⟨fields_of_call first, ih⟩
    rw [emitted, List.map_flatMap]
    nth_rewrite 1 [← EffectKind.map_fst_placed bundles]
    rw [List.flatMap_map]
    apply List.flatMap_congr
    intro entry listed
    have held : entry.1 ∈ bundles := by
      rw [← EffectKind.map_fst_placed bundles]
      exact List.mem_map_of_mem listed
    rw [each _ held, List.map_map]
    rfl

/-- What the kernel collects are such logs. -/
theorem mem_collected (ran : tx.execute crypto contracts = .ok (bundles, result)) :
    ∀ log ∈ result.allContractClassLogsSorted, log ∈ emitted crypto contracts bundles tx := by
  cases tx with
  | entrypoint origin protocolNullifier argsOfCalls capsules function script output =>
    obtain ⟨root, final, rfl, ended, rfl, rfl⟩ := Transaction.execute_entrypoint ran
    exact mem_collected_tree (Script.runs_of_execute ended)
  | topLevel origin protocolNullifier capsules calls =>
    obtain ⟨-, rfl⟩ := Transaction.execute_topLevel ran
    exact fun log held => EffectKind.contractClassLogs.mem_all_aggregate held

/-- Logs that ascend as they are emitted are collected in that order, and none is lost. -/
theorem collected_of_ascending (ran : tx.execute crypto contracts = .ok (bundles, result))
    (ascending : (emitted crypto contracts bundles tx).Pairwise
      (fun a b => a.counter < b.counter)) :
    result.allContractClassLogsSorted = emitted crypto contracts bundles tx := by
  cases tx with
  | entrypoint origin protocolNullifier argsOfCalls capsules function script output =>
    obtain ⟨root, final, rfl, ended, rfl, rfl⟩ := Transaction.execute_entrypoint ran
    exact collected_tree (Script.runs_of_execute ended) ascending
  | topLevel origin protocolNullifier capsules calls =>
    obtain ⟨-, rfl⟩ := Transaction.execute_topLevel ran
    exact EffectKind.contractClassLogs.all_aggregate_eq origin bundles ascending

/-- The returned fields line up with the log hashes of the kernel output where the logs are
emitted by ascending counters and none hashes to zero; and, of logs with different hashes, only
there. -/
theorem fields_line_up (crypto : Crypto) (contracts : ContractStore) (tx : Transaction)
    (bundles : List CallExecutionBundle) (result : PrivateExecutionResult) (feePayer : Fr)
    (expirationTimestamp : Nat) (output : PrivateKernelTailPublicInputs)
    (ran : tx.execute crypto contracts = .ok (bundles, result))
    (processed : process crypto.poseidon2 result feePayer expirationTimestamp = .ok output) :
    let logs := emitted crypto contracts bundles tx
    let fields := bundles.flatMap (·.contractClassLogFields)
    let Ascending := logs.Pairwise (fun a b => a.counter < b.counter) ∧
      ∀ log ∈ logs, fieldsHash crypto.poseidon2 log ≠ 0
    (Ascending → LinesUp crypto.poseidon2 output fields) ∧
      ((logs.map (fieldsHash crypto.poseidon2)).Nodup →
        LinesUp crypto.poseidon2 output fields → Ascending) := by
  intro logs fields Ascending
  have hashes : fields.map crypto.poseidon2 = logs.map (fieldsHash crypto.poseidon2) := by
    simp only [fields, fields_of_execute ran, List.map_map]
    rfl
  rw [linesUp_iff_hashes, hashValues_process processed, hashes]
  constructor
  · rintro ⟨ascending, filled⟩
    rw [collected_of_ascending ran ascending]
    apply List.filter_eq_self.mpr
    intro hash listed
    obtain ⟨log, held, rfl⟩ := List.mem_map.mp listed
    exact decide_eq_true (filled log held)
  · intro distinct same
    obtain ⟨equal, filled⟩ := FirstWins.collect_eq_of_images (mem_collected ran) distinct same
    refine ⟨?_, fun log held => of_decide_eq_true (filled log held)⟩
    have ascends := FirstWins.ascends CountedContractClassLog.counter
      (result.iterAllCalls.flatMap (·.contractClassLogs))
    rw [equal] at ascends
    exact ascends

/-- A call of the class registry at the top level. -/
def publishCall (artifactHash : Fr) : DecodedEntrypointCall × Target :=
  (⟨PrivateExecutionOracle.contractClassRegistry, .fromField 0, [artifactHash, 2, 3], false, false⟩,
    .publishClass)

/-- Two classes published one after the other. -/
def publishesTwo : Transaction := .topLevel ⟨8⟩ 1 [] [publishCall 1, publishCall 4]

/-- Their fields line up. -/
theorem publishesTwo_line_up :
    ∃ bundles result output,
      publishesTwo.execute .summed .empty = .ok (bundles, result) ∧
      process Crypto.summed.poseidon2 result 8 0 = .ok output ∧
      (bundles.flatMap (·.contractClassLogFields)).length = 2 ∧
      LinesUp Crypto.summed.poseidon2 output (bundles.flatMap (·.contractClassLogFields)) := by
  refine ⟨_, _, _, rfl, rfl, rfl, ?_⟩
  exact (fields_line_up .summed .empty publishesTwo _ _ 8 0 _ rfl rfl).1
    ⟨by decide +kernel, by decide +kernel⟩

/-- A private function emits a log its circuit numbers five, and then a class is published. -/
def emitsFirst : Transaction :=
  .topLevel ⟨8⟩ 1 []
    [(⟨⟨7⟩, .fromField 1, [], false, false⟩,
        .privateFunction ⟨none, false, 0⟩
          (.foreign .notifyCreatedContractClassLog [[7], [9], [1], [5]] .done) {}),
      publishCall 1]

/-- The log under number five is returned first and hashed last. -/
theorem emitsFirst_swapped :
    ∃ bundles result output,
      emitsFirst.execute .summed .empty = .ok (bundles, result) ∧
      process Crypto.summed.poseidon2 result 8 0 = .ok output ∧
      ¬ LinesUp Crypto.summed.poseidon2 output (bundles.flatMap (·.contractClassLogFields)) := by
  refine ⟨_, _, _, rfl, rfl, fun lined => ?_⟩
  exact absurd (linesUp_iff_hashes.mp lined) (by decide +kernel)

end Transactions

end ClassLogFields

end AztecPxe
