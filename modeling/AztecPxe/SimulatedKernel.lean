import AztecPxe.Aggregation
import Mathlib.Data.List.Sort

/-! The simulated kernel of `kernel/simulated.rs`: it collects the effects of a
call tree, drops note hashes together with the nullifiers that spend them in
the same transaction, silos the rest, and, for a transaction with public calls,
splits them at the boundary of the revertible phase. -/
namespace AztecPxe

/-- `kernel_types.rs::LogHash` with its scope, `ScopedLogHash`. -/
structure ScopedLogHash where
  value : Fr := 0
  length : Nat := 0
  contractAddress : AztecAddress := .zero
  deriving DecidableEq, Repr

/-- `kernel_types.rs::PrivateLog`. -/
structure PrivateLog where
  fields : List Fr := List.replicate 16 0
  emittedLength : Nat := 0
  deriving DecidableEq, Repr

/-- `kernel_types.rs::PublicCallRequest`. -/
structure PublicCallRequest where
  msgSender : AztecAddress := .zero
  contractAddress : AztecAddress := .zero
  isStaticCall : Bool := false
  calldataHash : Fr := 0
  deriving DecidableEq, Repr

/-- `kernel_types.rs::ScopedL2ToL1Message`, of which the kernel only makes empty
ones. -/
structure ScopedL2ToL1Message where
  recipient : Fin (2 ^ 160) := 0
  content : Fr := 0
  contractAddress : AztecAddress := .zero
  deriving DecidableEq, Repr

/-- `kernel_types.rs::PrivateToRollupAccumulatedData`. -/
structure PrivateToRollupAccumulatedData where
  noteHashes : List Fr
  nullifiers : List Fr
  l2ToL1Msgs : List ScopedL2ToL1Message
  privateLogs : List PrivateLog
  contractClassLogsHashes : List ScopedLogHash
  deriving DecidableEq, Repr

/-- `kernel_types.rs::PrivateToPublicAccumulatedData`. -/
structure PrivateToPublicAccumulatedData where
  noteHashes : List Fr
  nullifiers : List Fr
  l2ToL1Msgs : List ScopedL2ToL1Message
  privateLogs : List PrivateLog
  contractClassLogsHashes : List ScopedLogHash
  publicCallRequests : List PublicCallRequest
  deriving DecidableEq, Repr

/-- `kernel_types.rs::PartialPrivateTailPublicInputsForPublic`. -/
structure PartialPrivateTailPublicInputsForPublic where
  nonRevertibleAccumulatedData : PrivateToPublicAccumulatedData
  revertibleAccumulatedData : PrivateToPublicAccumulatedData
  publicTeardownCallRequest : PublicCallRequest
  deriving DecidableEq, Repr

/-- `fee.rs::Gas`. -/
structure Gas where
  daGas : Nat
  l2Gas : Nat
  deriving DecidableEq, Repr

/-- `kernel_types.rs::PrivateKernelTailPublicInputs`. -/
structure PrivateKernelTailPublicInputs where
  gasUsed : Gas
  feePayer : AztecAddress
  expirationTimestamp : Nat
  forPublic : Option PartialPrivateTailPublicInputsForPublic
  forRollup : Option PrivateToRollupAccumulatedData
  deriving DecidableEq, Repr

/-- `PublicCallRequest::is_empty`. -/
def PublicCallRequest.isEmpty (request : PublicCallRequest) : Bool :=
  request.contractAddress = .zero

namespace PrivateKernelTailPublicInputs
variable (inputs : PrivateKernelTailPublicInputs)

/-- `PrivateKernelTailPublicInputs::number_of_public_calls`. -/
def numberOfPublicCalls : Nat :=
  match inputs.forPublic with
  | some sections =>
    sections.nonRevertibleAccumulatedData.publicCallRequests.countP (!·.isEmpty) +
      sections.revertibleAccumulatedData.publicCallRequests.countP (!·.isEmpty) +
      if sections.publicTeardownCallRequest.isEmpty then 0 else 1
  | none => 0

/-- `PrivateKernelTailPublicInputs::get_all_public_call_requests`. -/
def getAllPublicCallRequests : List PublicCallRequest :=
  match inputs.forPublic with
  | some sections =>
    sections.nonRevertibleAccumulatedData.publicCallRequests.filter (!·.isEmpty) ++
      sections.revertibleAccumulatedData.publicCallRequests.filter (!·.isEmpty) ++
      if sections.publicTeardownCallRequest.isEmpty then []
      else [sections.publicTeardownCallRequest]
  | none => []

end PrivateKernelTailPublicInputs

namespace SimulatedKernel

/-- `while v.len() < len { v.push(empty) }`, and `pad_fields`. -/
def padTo {α : Type} (empty : α) (len : Nat) (items : List α) : List α :=
  items ++ List.replicate (len - items.length) empty

/-- `MAX_NOTE_HASHES_PER_TX`. -/
def maxNoteHashesPerTx : Nat := 64

/-- `MAX_NULLIFIERS_PER_TX`. -/
def maxNullifiersPerTx : Nat := 64

/-- `MAX_PRIVATE_LOGS_PER_TX`. -/
def maxPrivateLogsPerTx : Nat := 64

/-- `MAX_L2_TO_L1_MSGS_PER_TX`. -/
def maxL2ToL1MsgsPerTx : Nat := 8

/-- `MAX_CONTRACT_CLASS_LOGS_PER_TX`. -/
def maxContractClassLogsPerTx : Nat := 1

/-- `MAX_ENQUEUED_CALLS_PER_TX`. -/
def maxEnqueuedCallsPerTx : Nat := 32

/-- The number of entries that are not empty, which gas is metered by. -/
def countFields (fields : List Fr) : Nat := (fields.filter (· ≠ 0)).length

/-- The number of logs with a field that is not zero. -/
def countLogs (logs : List PrivateLog) : Nat :=
  (logs.filter (fun log => !log.fields.all (· = 0))).length

/-- `meter_gas_rollup`. -/
def meterGasRollup (data : PrivateToRollupAccumulatedData) : Gas where
  l2Gas := 440000 + countFields data.noteHashes * 9200 + countFields data.nullifiers * 16000 +
    (data.l2ToL1Msgs.filter (·.content ≠ 0)).length * 5200 + countLogs data.privateLogs * 2500 +
    (data.contractClassLogsHashes.filter (·.value ≠ 0)).length * 73000
  daGas := 96 + (countFields data.noteHashes + countFields data.nullifiers +
    countLogs data.privateLogs * 16) * 32

/-- `meter_gas_public`. -/
def meterGasPublic (nonRevertible revertible : PrivateToPublicAccumulatedData) : Gas :=
  let noteHashes := countFields nonRevertible.noteHashes + countFields revertible.noteHashes
  let nullifiers := countFields nonRevertible.nullifiers + countFields revertible.nullifiers
  let logs := countLogs nonRevertible.privateLogs + countLogs revertible.privateLogs
  { l2Gas := 540000 + noteHashes * 9200 + nullifiers * 16000 + logs * 2500
    daGas := 96 + (noteHashes + nullifiers + logs * 16) * 32 }

/-- The effects the kernel goes on with, once transient pairs are squashed. -/
structure Survivors where
  noteHashes : List ScopedNoteHash
  nullifiers : List ScopedNullifier
  privateLogs : List PrivateLogData
  publicCallRequests : List PublicCallRequestData

/-- `sort_by_key` on the counter, which is stable. -/
def sortByCounter {α : Type} (counter : α → Nat) (items : List α) : List α :=
  items.insertionSort (fun a b => counter a ≤ counter b)

/-- Steps one and two of `process`: the collected effects, less those that
`squash_transient_side_effects` removes. The boundary plays no part in it. -/
def survivors (result : PrivateExecutionResult) : Survivors :=
  let pairs := result.allNoteHashNullifierCounterMaps
  let squashedNoteHash (counter : Nat) : Bool := pairs.contains counter
  let squashedNullifier (counter : Nat) : Bool := pairs.toList.any (fun pair => pair.2 = counter)
  { noteHashes := sortByCounter (·.noteHash.counter) (result.allNoteHashes.filter (fun entry =>
      !squashedNoteHash entry.noteHash.counter))
    nullifiers := sortByCounter (·.nullifier.counter) (result.allNullifiers.filter (fun entry =>
      !squashedNullifier entry.nullifier.counter))
    privateLogs := sortByCounter (·.counter) (result.allPrivateLogs.filter (fun log =>
      !squashedNoteHash log.noteHashCounter))
    publicCallRequests := sortByCounter (·.counter) result.allPublicCallRequests }

/-- No public call and no teardown is enqueued. -/
def isPrivateOnly (result : PrivateExecutionResult) : Bool :=
  result.allPublicCallRequests.isEmpty && result.getTeardownCallRequest.isNone

variable (poseidon2 : List Fr → Fr)

/-- The siloed note hash of an entry. -/
def siloedNoteHash (entry : ScopedNoteHash) : Fr :=
  if entry.noteHash.value = 0 then 0
  else Hash.siloNoteHash poseidon2 entry.contractAddress entry.noteHash.value

/-- The siloed nullifier of an entry. -/
def siloedNullifier (entry : ScopedNullifier) : Fr :=
  if entry.nullifier.value = 0 then 0
  else Hash.siloNullifier poseidon2 entry.contractAddress entry.nullifier.value

/-- The log with its first field siloed. -/
def siloedPrivateLog (log : PrivateLogData) : PrivateLog where
  fields := padTo 0 16 (match log.fields with
    | first :: rest => if first ≠ 0
        then Hash.computeSiloedPrivateLogFirstField poseidon2 log.contractAddress first :: rest
        else first :: rest
    | [] => [])
  emittedLength := log.emittedLength

/-- The hash of a contract class log. -/
def classLogHash (log : CountedContractClassLog) : ScopedLogHash where
  value := poseidon2 (fromEmittedFields log.log.fields)
  length := log.log.emittedLength
  contractAddress := log.log.contractAddress

/-- Note hashes made unique by their position. -/
def uniqueNoteHashes (firstNullifier : Fr) (siloed : List Fr) : List Fr :=
  siloed.zipIdx.map (fun entry => if entry.1 = 0 then 0
    else Hash.computeUniqueNoteHash poseidon2
      (Hash.computeNoteHashNonce poseidon2 firstNullifier entry.2) entry.1)

/-- The request without its counter. -/
def publicCallRequest (request : PublicCallRequestData) : PublicCallRequest where
  msgSender := request.msgSender
  contractAddress := request.contractAddress
  isStaticCall := request.isStaticCall
  calldataHash := request.calldataHash

/-- `split_note_hashes_by_counter` and its siblings: the siloed values of the
originals below the boundary, and of the others. -/
def splitByCounter {α β : Type} (siloed : List α) (originals : List β) (counter : β → Nat)
    (minRevertible : Nat) : List α × List α :=
  let paired := siloed.zip originals
  ((paired.filter (fun pair => counter pair.2 < minRevertible)).map Prod.fst,
    (paired.filter (fun pair => ¬ counter pair.2 < minRevertible)).map Prod.fst)

/-- One section of a public transaction, padded. -/
def accumulated (noteHashes nullifiers : List Fr) (privateLogs : List PrivateLog)
    (classLogHashes : List ScopedLogHash) (publicCalls : List PublicCallRequest) :
    PrivateToPublicAccumulatedData where
  noteHashes := padTo 0 maxNoteHashesPerTx noteHashes
  nullifiers := padTo 0 maxNullifiersPerTx nullifiers
  l2ToL1Msgs := padTo {} maxL2ToL1MsgsPerTx []
  privateLogs := padTo {} maxPrivateLogsPerTx privateLogs
  contractClassLogsHashes := padTo {} maxContractClassLogsPerTx classLogHashes
  publicCallRequests := padTo {} maxEnqueuedCallsPerTx publicCalls

/-- The output for a private transaction. -/
def forRollup (result : PrivateExecutionResult) : PrivateToRollupAccumulatedData :=
  let kept := survivors result
  { noteHashes := padTo 0 maxNoteHashesPerTx (uniqueNoteHashes poseidon2 result.firstNullifier
      (kept.noteHashes.map (siloedNoteHash poseidon2)))
    nullifiers := padTo 0 maxNullifiersPerTx
      (result.firstNullifier :: kept.nullifiers.map (siloedNullifier poseidon2))
    l2ToL1Msgs := padTo {} maxL2ToL1MsgsPerTx []
    privateLogs := padTo {} maxPrivateLogsPerTx
      (kept.privateLogs.map (siloedPrivateLog poseidon2))
    contractClassLogsHashes := padTo {} maxContractClassLogsPerTx
      (result.allContractClassLogsSorted.map (classLogHash poseidon2)) }

/-- The output for a public transaction. Every contract class log is put in the
non-revertible section. -/
def forPublic (result : PrivateExecutionResult) : PartialPrivateTailPublicInputsForPublic :=
  let kept := survivors result
  let boundary := result.entrypoint.minRevertibleSideEffectCounter
  let noteHashes := splitByCounter (kept.noteHashes.map (siloedNoteHash poseidon2))
    kept.noteHashes (·.noteHash.counter) boundary
  let nullifiers := splitByCounter (kept.nullifiers.map (siloedNullifier poseidon2))
    kept.nullifiers (·.nullifier.counter) boundary
  let logs := splitByCounter (kept.privateLogs.map (siloedPrivateLog poseidon2))
    kept.privateLogs (·.counter) boundary
  let calls := splitByCounter (kept.publicCallRequests.map publicCallRequest)
    kept.publicCallRequests (·.counter) boundary
  { nonRevertibleAccumulatedData :=
      accumulated (uniqueNoteHashes poseidon2 result.firstNullifier noteHashes.1)
        (result.firstNullifier :: nullifiers.1) logs.1
        (result.allContractClassLogsSorted.map (classLogHash poseidon2)) calls.1
    revertibleAccumulatedData := accumulated noteHashes.2 nullifiers.2 logs.2 [] calls.2
    publicTeardownCallRequest := (result.getTeardownCallRequest.map publicCallRequest).getD {} }

/-- `SimulatedKernel::process`. -/
def process (result : PrivateExecutionResult) (feePayer : Fr) (expirationTimestamp : Nat) :
    Except Error PrivateKernelTailPublicInputs :=
  if isPrivateOnly result then
    let data := forRollup poseidon2 result
    .ok
      { gasUsed := meterGasRollup data
        feePayer := ⟨feePayer⟩
        expirationTimestamp := expirationTimestamp
        forPublic := none
        forRollup := some data }
  else
    let data := forPublic poseidon2 result
    .ok
      { gasUsed := meterGasPublic data.nonRevertibleAccumulatedData data.revertibleAccumulatedData
        feePayer := ⟨feePayer⟩
        expirationTimestamp := expirationTimestamp
        forPublic := some data
        forRollup := none }

/-! ## What the kernel's steps do -/

section Steps
variable {poseidon2}

/-- Splitting keeps the originals on each side, in their order. -/
theorem splitByCounter_eq {α β : Type} (silo : β → α) (counter : β → Nat) (boundary : Nat)
    (items : List β) :
    splitByCounter (items.map silo) items counter boundary =
      ((items.filter (fun item => not (decide (boundary ≤ counter item)))).map silo,
        (items.filter (fun item => id (decide (boundary ≤ counter item)))).map silo) := by
  unfold splitByCounter
  induction items with
  | nil => rfl
  | cons item rest ih =>
    simp only [Prod.mk.injEq] at ih ⊢
    by_cases below : counter item < boundary
    · have outside : ¬ boundary ≤ counter item := by omega
      simpa [below, outside] using ih
    · have inside : boundary ≤ counter item := by omega
      simpa [below, inside] using ih

/-- What is collected is sorted already, and squashing keeps it so. -/
theorem sortByCounter_filter_collect {α : Type} (counter : α → Nat) (items : List α)
    (keep : α → Bool) :
    sortByCounter counter ((FirstWins.collect counter items).filter keep) =
      (FirstWins.collect counter items).filter keep := by
  apply List.Pairwise.insertionSort_eq
  apply List.Pairwise.filter
  exact (FirstWins.ascends counter items).imp Nat.le_of_lt

/-- The kernel goes on with what the collectors yield, less what is squashed. -/
theorem survivors_eq (result : PrivateExecutionResult) :
    survivors result =
      { noteHashes := result.allNoteHashes.filter (fun entry =>
          !result.allNoteHashNullifierCounterMaps.contains entry.noteHash.counter)
        nullifiers := result.allNullifiers.filter (fun entry =>
          !result.allNoteHashNullifierCounterMaps.toList.any (fun pair =>
            pair.2 = entry.nullifier.counter))
        privateLogs := result.allPrivateLogs.filter (fun log =>
          !result.allNoteHashNullifierCounterMaps.contains log.noteHashCounter)
        publicCallRequests := result.allPublicCallRequests } := by
  have calls : sortByCounter (·.counter) result.allPublicCallRequests =
      result.allPublicCallRequests := by
    apply List.Pairwise.insertionSort_eq
    exact (FirstWins.ascends PublicCallRequestData.counter _).imp Nat.le_of_lt
  unfold survivors
  simp only [PrivateExecutionResult.allNoteHashes, PrivateExecutionResult.allNullifiers,
    PrivateExecutionResult.allPrivateLogs, sortByCounter_filter_collect, calls]

/-- The kernel makes sections for public transactions only. -/
theorem process_forPublic {result : PrivateExecutionResult} {feePayer : Fr}
    {expirationTimestamp : Nat} {output : PrivateKernelTailPublicInputs}
    {sections : PartialPrivateTailPublicInputsForPublic}
    (processed : process poseidon2 result feePayer expirationTimestamp = .ok output)
    (shown : output.forPublic = some sections) :
    isPrivateOnly result = false ∧ sections = forPublic poseidon2 result := by
  unfold process at processed
  split at processed
  · rw [← Except.ok.inj processed] at shown
    cases shown
  next isPublic =>
    rw [← Except.ok.inj processed] at shown
    exact ⟨by simpa using isPublic, (Option.some.inj shown).symm⟩

end Steps

end SimulatedKernel

end AztecPxe
