import AztecPxe.FirstWins
import AztecPxe.Hash

/-! The execution tree of `execution/execution_result.rs` with the counted
effects of `core/src/kernel_types.rs`. A call keeps its own effects and the
results of the calls it made; the collectors walk the tree from the root and
keep the first effect of each counter. -/
namespace AztecPxe

/-- `kernel_types.rs::NoteHash`. -/
structure NoteHash where
  value : Fr
  counter : Nat
  deriving DecidableEq, Repr

/-- `kernel_types.rs::ScopedNoteHash`. -/
structure ScopedNoteHash where
  noteHash : NoteHash
  contractAddress : AztecAddress
  deriving DecidableEq, Repr

/-- `kernel_types.rs::Nullifier`. -/
structure Nullifier where
  value : Fr
  noteHash : Fr
  counter : Nat
  deriving DecidableEq, Repr

/-- `kernel_types.rs::ScopedNullifier`. -/
structure ScopedNullifier where
  nullifier : Nullifier
  contractAddress : AztecAddress
  deriving DecidableEq, Repr

/-- `kernel_types.rs::NoteAndSlot`. -/
structure NoteAndSlot where
  contractAddress : AztecAddress
  owner : AztecAddress
  storageSlot : Fr
  randomness : Fr
  noteTypeId : Fr
  noteItems : List Fr
  noteHash : Fr
  counter : Nat
  deriving DecidableEq, Repr

/-- `kernel_types.rs::ContractClassLog`. -/
structure ContractClassLog where
  contractAddress : AztecAddress
  fields : List Fr
  emittedLength : Nat
  deriving DecidableEq, Repr

/-- `kernel_types.rs::CountedContractClassLog`. -/
structure CountedContractClassLog where
  log : ContractClassLog
  counter : Nat
  deriving DecidableEq, Repr

/-- `execution_result.rs::PrivateLogData`. -/
structure PrivateLogData where
  fields : List Fr
  emittedLength : Nat
  noteHashCounter : Nat
  counter : Nat
  contractAddress : AztecAddress
  deriving DecidableEq, Repr

/-- `execution_result.rs::PublicCallRequestData`. -/
structure PublicCallRequestData where
  contractAddress : AztecAddress
  msgSender : AztecAddress
  isStaticCall : Bool
  calldataHash : Fr
  counter : Nat
  deriving DecidableEq, Repr

/-- `kernel_types.rs::CallContext`. -/
structure CallContext where
  msgSender : AztecAddress := .zero
  contractAddress : AztecAddress := .zero
  functionSelector : Fr := 0
  isStaticCall : Bool := false
  deriving DecidableEq, Repr

/-- What a `PrivateCallExecutionResult` says of its own call. -/
structure CallEffects where
  contractAddress : AztecAddress := .zero
  callContext : CallContext := {}
  returnValues : List Fr := []
  publicInputsFields : List Fr := []
  newNotes : List NoteAndSlot := []
  noteHashNullifierCounterMap : Std.ExtTreeMap Nat Nat := ∅
  contractClassLogs : List CountedContractClassLog := []
  noteHashes : List ScopedNoteHash := []
  nullifiers : List ScopedNullifier := []
  privateLogs : List PrivateLogData := []
  publicCallRequests : List PublicCallRequestData := []
  publicTeardownCallRequest : Option PublicCallRequestData := none
  startSideEffectCounter : Nat := 0
  endSideEffectCounter : Nat := 0
  minRevertibleSideEffectCounter : Nat := 0

/-- `execution_result.rs::PrivateCallExecutionResult`. -/
structure PrivateCallExecutionResult extends CallEffects where
  nestedExecutionResults : List PrivateCallExecutionResult := []

namespace PrivateCallExecutionResult

mutual

/-- `PrivateExecutionResult::collect_calls`. -/
def collectCalls : PrivateCallExecutionResult → List PrivateCallExecutionResult
  | ⟨own, nested⟩ => ⟨own, nested⟩ :: collectNested nested

/-- The loop of `collect_calls` over the nested results. -/
def collectNested : List PrivateCallExecutionResult → List PrivateCallExecutionResult
  | [] => []
  | call :: rest => collectCalls call ++ collectNested rest

end

theorem collectCalls_eq (call : PrivateCallExecutionResult) :
    call.collectCalls = call :: collectNested call.nestedExecutionResults := by
  cases call
  rw [collectCalls]

theorem collectNested_eq (calls : List PrivateCallExecutionResult) :
    collectNested calls = calls.flatMap collectCalls := by
  induction calls with
  | nil => rfl
  | cons call rest ih => rw [collectNested, ih, List.flatMap_cons]

end PrivateCallExecutionResult

/-- `execution_result.rs::PrivateExecutionResult`. -/
structure PrivateExecutionResult where
  entrypoint : PrivateCallExecutionResult
  firstNullifier : Fr := 0
  expirationTimestamp : Nat := 0
  publicFunctionCalldata : List HashedValues := []

namespace PrivateExecutionResult
variable (result : PrivateExecutionResult)

/-- `PrivateExecutionResult::iter_all_calls`. -/
def iterAllCalls : List PrivateCallExecutionResult := result.entrypoint.collectCalls

/-- `PrivateExecutionResult::all_note_hashes`. -/
def allNoteHashes : List ScopedNoteHash :=
  FirstWins.collect (·.noteHash.counter) (result.iterAllCalls.flatMap (·.noteHashes))

/-- `PrivateExecutionResult::all_nullifiers`. -/
def allNullifiers : List ScopedNullifier :=
  FirstWins.collect (·.nullifier.counter) (result.iterAllCalls.flatMap (·.nullifiers))

/-- `PrivateExecutionResult::all_private_logs`. -/
def allPrivateLogs : List PrivateLogData :=
  FirstWins.collect (·.counter) (result.iterAllCalls.flatMap (·.privateLogs))

/-- `PrivateExecutionResult::all_contract_class_logs_sorted`. -/
def allContractClassLogsSorted : List CountedContractClassLog :=
  FirstWins.collect (·.counter) (result.iterAllCalls.flatMap (·.contractClassLogs))

/-- `PrivateExecutionResult::all_public_call_requests`. -/
def allPublicCallRequests : List PublicCallRequestData :=
  FirstWins.collect (·.counter) (result.iterAllCalls.flatMap (·.publicCallRequests))

/-- `PrivateExecutionResult::get_teardown_call_request`. -/
def getTeardownCallRequest : Option PublicCallRequestData :=
  result.iterAllCalls.findSome? (·.publicTeardownCallRequest)

/-- `PrivateExecutionResult::all_note_hash_nullifier_counter_maps`. -/
def allNoteHashNullifierCounterMaps : Std.ExtTreeMap Nat Nat :=
  result.iterAllCalls.foldl (fun map call =>
    map.insertMany call.noteHashNullifierCounterMap.toList) ∅

/-- A collector reads the root's own effects first. -/
theorem flatMap_iterAllCalls {ε : Type} (own : PrivateCallExecutionResult → List ε) :
    result.iterAllCalls.flatMap own = own result.entrypoint ++
      (PrivateCallExecutionResult.collectNested
        result.entrypoint.nestedExecutionResults).flatMap own := by
  unfold iterAllCalls
  rw [PrivateCallExecutionResult.collectCalls_eq, List.flatMap_cons]

end PrivateExecutionResult

end AztecPxe
