import AztecPxe.ExecutionResult
import AztecPxe.Json
import Std.Data.ExtTreeSet

/-! The private oracle of `execution/oracle.rs`: what each foreign call of a
running circuit does to the effects the oracle collects. Some handlers number
an effect with the counter the circuit passes, others draw the next number of
the oracle's own counter. -/
namespace AztecPxe

/-- The arguments of a foreign call. -/
abbrev Args := List (List Fr)

/-- The values a foreign call returns to the circuit. -/
abbrev Answer := List (List Fr)

/-- `args.get(i).and_then(|v| v.first())`. -/
def Args.first (args : Args) (i : Nat) : Option Fr := (args[i]?).bind List.head?

/-- A counter among the arguments, cut to a `u32`. -/
def Args.counter (args : Args) (i : Nat) : Option Nat := (args.first i).map Fr.toU32

/-- The `PrivateExecutionOracle` of one private call. -/
structure PrivateExecutionOracle where
  contractAddress : AztecAddress
  protocolNullifier : Fr := 0
  executionCache : Std.ExtTreeMap Fr (List Fr) := ∅
  senderForTags : Option AztecAddress := none
  callIsStatic : Bool := false
  sideEffectCounter : Nat := 0
  newNotes : List NoteAndSlot := []
  noteHashes : List ScopedNoteHash := []
  nullifiers : List ScopedNullifier := []
  noteHashNullifierCounterMap : Std.ExtTreeMap Nat Nat := ∅
  consumedDbNullifiers : Std.ExtTreeSet Fr := ∅
  privateLogs : List PrivateLogData := []
  contractClassLogs : List CountedContractClassLog := []
  publicCallRequests : List PublicCallRequestData := []
  publicTeardownCallRequest : Option PublicCallRequestData := none
  minRevertibleSideEffectCounter : Nat := 0
  inRevertiblePhase : Bool := false
  publicFunctionCalldata : List HashedValues := []
  nestedResults : List PrivateCallExecutionResult := []
  capsules : List Capsule := []

/-- The foreign calls that touch what the oracle collects. Every other handler
reads the stores or the node and leaves the oracle as it is; `query` stands
for it with the outcome it has. -/
inductive Handler where
  | notifyCreatedNote
  | notifyNullifiedNote
  | notifyCreatedNullifier
  | isNullifierPending
  | emitPrivateLog
  | notifyCreatedContractClassLog
  | storeInExecutionCache
  | loadFromExecutionCache
  | notifyEnqueuedPublicFunctionCall
  | notifySetPublicTeardownFunctionCall
  | notifySetMinRevertibleSideEffectCounter
  | isSideEffectCounterRevertible
  | getSenderForTags
  | setSenderForTags
  | query (outcome : Except Error Answer)

namespace PrivateExecutionOracle
variable (crypto : Crypto) (args : Args) (oracle : PrivateExecutionOracle)

/-- `ensure_mutable_context`, in front of a handler that returns nothing. -/
def mutating (next : PrivateExecutionOracle) : Except Error (Answer × PrivateExecutionOracle) :=
  if oracle.callIsStatic then .error (.invalidData "Static call cannot update the state")
  else .ok ([], next)

/-- The number of a new effect: the circuit's, or else the next of the oracle's
own counter. -/
def numbered (given : Option Nat) : Nat := given.getD (u32Succ oracle.sideEffectCounter)

/-- The own counter moves only when it gave the number. -/
def advanced (given : Option Nat) : PrivateExecutionOracle :=
  { oracle with sideEffectCounter :=
      if given.isSome then oracle.sideEffectCounter else u32Succ oracle.sideEffectCounter }

/-- The note hash `notify_created_note` records. -/
def createdNoteHash : ScopedNoteHash :=
  ⟨⟨(args.first 5).getD 0, oracle.numbered (args.counter 6)⟩, oracle.contractAddress⟩

/-- What `notify_created_note` records. -/
def withCreatedNote : PrivateExecutionOracle :=
  { oracle.advanced (args.counter 6) with
    newNotes := oracle.newNotes ++
      [{ contractAddress := oracle.contractAddress
         owner := ⟨(args.first 0).getD 0⟩
         storageSlot := (args.first 1).getD 0
         randomness := (args.first 2).getD 0
         noteTypeId := (args.first 3).getD 0
         noteItems := (args[4]?).getD []
         noteHash := (args.first 5).getD 0
         counter := oracle.numbered (args.counter 6) }]
    noteHashes := oracle.noteHashes ++ [oracle.createdNoteHash args] }

/-- `notify_created_note`. -/
def notifyCreatedNote : Except Error (Answer × PrivateExecutionOracle) :=
  oracle.mutating (oracle.withCreatedNote args)

/-- The squashing pair of a nullified note: the first recorded note hash of the
same value, whichever contract made it. -/
def counterMapWith (noteHash : Fr) (counter : Nat) : Std.ExtTreeMap Nat Nat :=
  if noteHash = 0 then oracle.noteHashNullifierCounterMap
  else match oracle.noteHashes.find? (fun other => other.noteHash.value = noteHash) with
    | some created =>
      oracle.noteHashNullifierCounterMap.insert created.noteHash.counter counter
    | none => oracle.noteHashNullifierCounterMap

/-- The nullifier `notify_nullified_note` records. -/
def nullifiedNote : ScopedNullifier :=
  ⟨⟨(args.first 0).getD 0, (args.first 1).getD 0, oracle.numbered (args.counter 2)⟩,
    oracle.contractAddress⟩

/-- What `notify_nullified_note` records. -/
def withNullifiedNote : PrivateExecutionOracle :=
  { oracle.advanced (args.counter 2) with
    consumedDbNullifiers := oracle.consumedDbNullifiers.insert
      (Hash.siloNullifier crypto.poseidon2 oracle.contractAddress ((args.first 0).getD 0))
    nullifiers := oracle.nullifiers ++ [oracle.nullifiedNote args]
    noteHashNullifierCounterMap :=
      oracle.counterMapWith ((args.first 1).getD 0) (oracle.numbered (args.counter 2)) }

/-- `notify_nullified_note`. -/
def notifyNullifiedNote : Except Error (Answer × PrivateExecutionOracle) :=
  oracle.mutating (oracle.withNullifiedNote crypto args)

/-- The nullifier `notify_created_nullifier` records, under a number of the
oracle's own. -/
def createdNullifier : ScopedNullifier :=
  ⟨⟨(args.first 0).getD 0, 0, u32Succ oracle.sideEffectCounter⟩, oracle.contractAddress⟩

/-- What `notify_created_nullifier` records. -/
def withCreatedNullifier : PrivateExecutionOracle :=
  { oracle with
    sideEffectCounter := u32Succ oracle.sideEffectCounter
    nullifiers := oracle.nullifiers ++ [oracle.createdNullifier args] }

/-- `notify_created_nullifier`. -/
def notifyCreatedNullifier : Except Error (Answer × PrivateExecutionOracle) :=
  oracle.mutating (oracle.withCreatedNullifier args)

/-- `is_nullifier_pending`. -/
def isNullifierPending : Except Error (Answer × PrivateExecutionOracle) :=
  match args.first 0 with
  | none => .error (.invalidData "missing nullifier")
  | some nullifier =>
    .ok ([[Fr.ofBool (oracle.nullifiers.any (fun n => n.nullifier.value = nullifier))]], oracle)

/-- The log `emit_private_log` records, under a number of the oracle's own. -/
def emittedLog : PrivateLogData where
  fields := (args[0]?).getD []
  emittedLength := ((args[0]?).getD []).length % 2 ^ 32
  noteHashCounter := 0
  counter := u32Succ oracle.sideEffectCounter
  contractAddress := oracle.contractAddress

/-- What `emit_private_log` records. -/
def withPrivateLog : PrivateExecutionOracle :=
  { oracle with
    sideEffectCounter := u32Succ oracle.sideEffectCounter
    privateLogs := oracle.privateLogs ++ [oracle.emittedLog args] }

/-- `emit_private_log`. -/
def emitPrivateLog : Except Error (Answer × PrivateExecutionOracle) :=
  oracle.mutating (oracle.withPrivateLog args)

/-- The log `emit_contract_class_log` records. -/
def emittedClassLog : CountedContractClassLog where
  log :=
    { contractAddress := ⟨(args.first 0).getD 0⟩
      fields := (args[1]?).getD []
      emittedLength := (args.counter 2).getD (((args[1]?).getD []).length % 2 ^ 32) }
  counter := oracle.numbered (args.counter 3)

/-- What `emit_contract_class_log` records. -/
def withContractClassLog : PrivateExecutionOracle :=
  { oracle.advanced (args.counter 3) with
    contractClassLogs := oracle.contractClassLogs ++ [oracle.emittedClassLog args] }

/-- `emit_contract_class_log`. -/
def emitContractClassLog : Except Error (Answer × PrivateExecutionOracle) :=
  oracle.mutating (oracle.withContractClassLog args)

/-- What `store_in_execution_cache` stores. -/
def withCachedValues : PrivateExecutionOracle :=
  { oracle with
    executionCache := oracle.executionCache.insert ((args.first 1).getD 0) ((args[0]?).getD []) }

/-- `store_in_execution_cache`. -/
def storeInExecutionCache : Except Error (Answer × PrivateExecutionOracle) :=
  .ok ([], oracle.withCachedValues args)

/-- `load_from_execution_cache`. -/
def loadFromExecutionCache : Except Error (Answer × PrivateExecutionOracle) :=
  match args.first 0 with
  | none => .error (.invalidData "missing hash")
  | some hash =>
    match oracle.executionCache[hash]? with
    | some values => .ok ([values], oracle)
    | none => .error (.invalidData "value not found in execution cache")

/-- The request `enqueue_public_function_call` records. The own counter moves
even when the circuit passes a counter. -/
def enqueuedRequest : PublicCallRequestData where
  contractAddress := ⟨(args.first 0).getD 0⟩
  msgSender := oracle.contractAddress
  isStaticCall := ((args.first 3).map (fun flag => decide (flag ≠ 0))).getD false
  calldataHash := (args.first 1).getD 0
  counter := oracle.numbered (args.counter 2)

/-- What `enqueue_public_function_call` records. -/
def withPublicCall (isTeardown : Bool) : PrivateExecutionOracle :=
  { oracle with
    sideEffectCounter := u32Succ oracle.sideEffectCounter
    publicFunctionCalldata := oracle.publicFunctionCalldata ++
      (oracle.executionCache[(oracle.enqueuedRequest args).calldataHash]?.map
        (Hash.fromCalldata crypto.poseidon2)).toList
    publicTeardownCallRequest := if isTeardown then some (oracle.enqueuedRequest args)
      else oracle.publicTeardownCallRequest
    publicCallRequests := if isTeardown then oracle.publicCallRequests
      else oracle.publicCallRequests ++ [oracle.enqueuedRequest args] }

/-- `enqueue_public_function_call`: a static call may enqueue too. -/
def enqueuePublicFunctionCall (isTeardown : Bool) :
    Except Error (Answer × PrivateExecutionOracle) :=
  .ok ([], oracle.withPublicCall crypto args isTeardown)

/-- The oracle in the revertible phase, from a counter on. -/
def entering (counter : Fr) : PrivateExecutionOracle :=
  { oracle with
    inRevertiblePhase := true
    minRevertibleSideEffectCounter := counter.toU32 }

/-- `notifySetMinRevertibleSideEffectCounter`. -/
def notifySetMinRevertibleSideEffectCounter : Except Error (Answer × PrivateExecutionOracle) :=
  match args.first 0 with
  | none => .ok ([], oracle)
  | some counter =>
    if oracle.inRevertiblePhase then
      .error (.invalidData ("cannot enter the revertible phase twice: previous " ++
        toString oracle.minRevertibleSideEffectCounter ++ ", new " ++ toString counter.toUsize))
    else .ok ([], oracle.entering counter)

/-- What `isSideEffectCounterRevertible` answers for a counter. -/
def revertible (counter : Nat) : Bool :=
  oracle.inRevertiblePhase && decide (oracle.minRevertibleSideEffectCounter ≤ counter)

/-- `isSideEffectCounterRevertible`. -/
def isSideEffectCounterRevertible : Except Error (Answer × PrivateExecutionOracle) :=
  .ok ([[Fr.ofBool (oracle.revertible ((args.counter 0).getD 0))]], oracle)

/-- `get_sender_for_tags`. -/
def getSenderForTags : Except Error (Answer × PrivateExecutionOracle) :=
  match oracle.senderForTags with
  | some sender => .ok ([[1], [sender.inner]], oracle)
  | none => .ok ([[0], [0]], oracle)

/-- `set_sender_for_tags`. -/
def setSenderForTags : Except Error (Answer × PrivateExecutionOracle) :=
  match args.first 0 with
  | none => .error (.invalidData "missing sender_for_tags")
  | some sender => .ok ([], { oracle with senderForTags := some ⟨sender⟩ })

/-- `handle_foreign_call`, less the nested private calls. -/
def handleForeignCall (handler : Handler) : Except Error (Answer × PrivateExecutionOracle) :=
  match handler with
  | .notifyCreatedNote => oracle.notifyCreatedNote args
  | .notifyNullifiedNote => oracle.notifyNullifiedNote crypto args
  | .notifyCreatedNullifier => oracle.notifyCreatedNullifier args
  | .isNullifierPending => oracle.isNullifierPending args
  | .emitPrivateLog => oracle.emitPrivateLog args
  | .notifyCreatedContractClassLog => oracle.emitContractClassLog args
  | .storeInExecutionCache => oracle.storeInExecutionCache args
  | .loadFromExecutionCache => oracle.loadFromExecutionCache args
  | .notifyEnqueuedPublicFunctionCall => oracle.enqueuePublicFunctionCall crypto args false
  | .notifySetPublicTeardownFunctionCall => oracle.enqueuePublicFunctionCall crypto args true
  | .notifySetMinRevertibleSideEffectCounter => oracle.notifySetMinRevertibleSideEffectCounter args
  | .isSideEffectCounterRevertible => oracle.isSideEffectCounterRevertible args
  | .getSenderForTags => oracle.getSenderForTags
  | .setSenderForTags => oracle.setSenderForTags args
  | .query outcome => outcome.map (·, oracle)

/-- Every change a successful foreign call can make. -/
inductive Handled : Handler → PrivateExecutionOracle → Prop where
  | createdNote (writable : oracle.callIsStatic = false) :
      Handled .notifyCreatedNote (oracle.withCreatedNote args)
  | nullifiedNote (writable : oracle.callIsStatic = false) :
      Handled .notifyNullifiedNote (oracle.withNullifiedNote crypto args)
  | createdNullifier (writable : oracle.callIsStatic = false) :
      Handled .notifyCreatedNullifier (oracle.withCreatedNullifier args)
  | privateLog (writable : oracle.callIsStatic = false) :
      Handled .emitPrivateLog (oracle.withPrivateLog args)
  | classLog (writable : oracle.callIsStatic = false) :
      Handled .notifyCreatedContractClassLog (oracle.withContractClassLog args)
  | cached : Handled .storeInExecutionCache (oracle.withCachedValues args)
  | enqueued : Handled .notifyEnqueuedPublicFunctionCall (oracle.withPublicCall crypto args false)
  | teardown : Handled .notifySetPublicTeardownFunctionCall (oracle.withPublicCall crypto args true)
  | entering (outside : oracle.inRevertiblePhase = false) (given : args.first 0 = some counter) :
      Handled .notifySetMinRevertibleSideEffectCounter (oracle.entering counter)
  | notEntering (missing : args.first 0 = none) :
      Handled .notifySetMinRevertibleSideEffectCounter oracle
  | sender (given : args.first 0 = some sender) :
      Handled .setSenderForTags { oracle with senderForTags := some ⟨sender⟩ }
  | pending : Handled .isNullifierPending oracle
  | loaded : Handled .loadFromExecutionCache oracle
  | asked : Handled .isSideEffectCounterRevertible oracle
  | askedSender : Handled .getSenderForTags oracle
  | query : Handled (.query outcome) oracle

variable {crypto args oracle} {answer : Answer} {next : PrivateExecutionOracle}

private theorem mutating_eq_ok {change : PrivateExecutionOracle}
    (done : oracle.mutating change = .ok (answer, next)) :
    oracle.callIsStatic = false ∧ next = change := by
  unfold mutating at done
  cases writable : oracle.callIsStatic with
  | true =>
    rw [writable] at done
    cases done
  | false =>
    rw [writable] at done
    cases done
    exact ⟨rfl, rfl⟩

theorem handled_of_ok {handler : Handler}
    (done : oracle.handleForeignCall crypto args handler = .ok (answer, next)) :
    oracle.Handled crypto args handler next := by
  cases handler with
  | notifyCreatedNote =>
    obtain ⟨writable, rfl⟩ := mutating_eq_ok done
    exact .createdNote writable
  | notifyNullifiedNote =>
    obtain ⟨writable, rfl⟩ := mutating_eq_ok done
    exact .nullifiedNote writable
  | notifyCreatedNullifier =>
    obtain ⟨writable, rfl⟩ := mutating_eq_ok done
    exact .createdNullifier writable
  | emitPrivateLog =>
    obtain ⟨writable, rfl⟩ := mutating_eq_ok done
    exact .privateLog writable
  | notifyCreatedContractClassLog =>
    obtain ⟨writable, rfl⟩ := mutating_eq_ok done
    exact .classLog writable
  | isNullifierPending =>
    simp only [handleForeignCall, isNullifierPending] at done
    split at done
    · cases done
    · cases done
      exact .pending
  | storeInExecutionCache =>
    cases done
    exact .cached
  | loadFromExecutionCache =>
    simp only [handleForeignCall, loadFromExecutionCache] at done
    split at done
    · cases done
    · split at done
      · cases done
        exact .loaded
      · cases done
  | notifyEnqueuedPublicFunctionCall =>
    cases done
    exact .enqueued
  | notifySetPublicTeardownFunctionCall =>
    cases done
    exact .teardown
  | notifySetMinRevertibleSideEffectCounter =>
    simp only [handleForeignCall, notifySetMinRevertibleSideEffectCounter] at done
    split at done
    next missing =>
      cases done
      exact .notEntering missing
    next counter given =>
      cases phase : oracle.inRevertiblePhase with
      | true =>
        rw [phase] at done
        cases done
      | false =>
        rw [phase] at done
        cases done
        exact .entering phase given
  | isSideEffectCounterRevertible =>
    cases done
    exact .asked
  | getSenderForTags =>
    simp only [handleForeignCall, getSenderForTags] at done
    split at done <;> cases done <;> exact .askedSender
  | setSenderForTags =>
    simp only [handleForeignCall, setSenderForTags] at done
    split at done
    · cases done
    next sender given =>
      cases done
      exact .sender given
  | query outcome =>
    cases outcome with
    | error e => cases done
    | ok values =>
      cases done
      exact .query

end PrivateExecutionOracle

end AztecPxe
