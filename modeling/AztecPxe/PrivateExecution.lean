import AztecPxe.PrivateOracle

/-! Nested private calls of `execution/oracle.rs` and whole executions. The
circuits themselves are not modelled: an execution is the tree of foreign calls
the circuits make, each nested call with the witness its circuit solves, and
the oracle is run over it. -/
namespace AztecPxe

/-- The function a selector names, with what a nested call reads of it. -/
structure FunctionArtifact where
  selector : Option FunctionSelector
  isStatic : Bool
  deriving DecidableEq, Repr

/-- `contract_store.rs::ContractStore`, as nested calls read it: the class of an
instance and the functions of a class. -/
structure ContractStore where
  getInstance : AztecAddress → Except Error (Option Fr)
  getArtifact : Fr → Except Error (Option (List FunctionArtifact))

/-- A store with no contracts. -/
def ContractStore.empty : ContractStore := ⟨fun _ => .ok none, fun _ => .ok none⟩

/-- A store that knows one private function, at every address. -/
def ContractStore.one (selector : FunctionSelector) : ContractStore :=
  ⟨fun _ => .ok (some 1), fun _ => .ok (some [⟨some selector, false⟩])⟩

/-- `AcvmExecutionOutput`, its witness counted from the first field of the
`PrivateCircuitPublicInputs`. -/
structure AcvmExecutionOutput where
  witness : Nat → Option Fr := fun _ => none
  returnValues : List Fr := []
  firstAcirCallReturnValues : List Fr := []

namespace AcvmExecutionOutput
variable (output : AcvmExecutionOutput) (contract : AztecAddress)

/-- A field of the public inputs, zero where the witness has none. -/
def field (i : Nat) : Fr := (output.witness i).getD 0

/-- `PrivateCallExecutionResult::extract_public_inputs_fields`. -/
def publicInputsFields : List Fr := (List.range 870).map output.field

/-- `PCPI_START_SIDE_EFFECT_COUNTER_OFFSET`. -/
def startCounter : Nat := (output.field 41).toU32

/-- `PCPI_END_SIDE_EFFECT_COUNTER_OFFSET`. -/
def endCounter : Nat := (output.field 42).toU32

/-- The note hashes of `extract_side_effects_from_witness`: the first entries,
as many as the array says, less the zero ones. -/
def noteHashes : List ScopedNoteHash :=
  (List.range (min (output.field (454 + 32)).toUsize 16)).filterMap (fun i =>
    let value := output.field (454 + 2 * i)
    if value ≠ 0 then some ⟨⟨value, (output.field (454 + 2 * i + 1)).toU32⟩, contract⟩ else none)

/-- The private logs of `extract_side_effects_from_witness`: the first entries,
as many as the array says, less those that emit nothing. -/
def privateLogs : List PrivateLogData :=
  (List.range (min (output.field (561 + 304)).toUsize 16)).filterMap (fun i =>
    let base := 561 + 19 * i
    let emittedLength := (output.field (base + 16)).toU32
    if 0 < emittedLength then
      some { fields := (List.range 16).map (fun j => output.field (base + j))
             emittedLength := emittedLength
             noteHashCounter := (output.field (base + 17)).toU32
             counter := (output.field (base + 18)).toU32
             contractAddress := contract }
    else none)

/-- The returns hash, from the return values where the witness has none. -/
def returnsHash (poseidon2 : List Fr → Fr) : Fr :=
  (output.witness 5).getD (Hash.computeVarArgsHash poseidon2 output.returnValues)

end AcvmExecutionOutput

/-- The arguments of `callPrivateFunction`. -/
structure NestedCall where
  target : AztecAddress
  selectorField : Fr
  argsHash : Fr
  counter : Nat
  isStatic : Bool
  deriving DecidableEq, Repr

namespace PrivateExecutionOracle

/-- One step of `merge_nested_private_logs`: the first log of the same counter
is replaced, else the log is pushed. -/
def replaceOrPush : List PrivateLogData → PrivateLogData → List PrivateLogData
  | [], log => [log]
  | existing :: rest, log =>
    if existing.counter = log.counter then log :: rest else existing :: replaceOrPush rest log

/-- `merge_nested_private_logs`. -/
def mergeNestedPrivateLogs (nestedLogs circuitLogs : List PrivateLogData) : List PrivateLogData :=
  circuitLogs.foldl replaceOrPush nestedLogs

/-- `contract_class_registry`. -/
def contractClassRegistry : AztecAddress := ⟨3⟩

/-- `contract_instance_registry`. -/
def contractInstanceRegistry : AztecAddress := ⟨2⟩

/-- `contract_class_published_magic_value`. -/
def contractClassPublishedMagicValue : Fr :=
  0x20f5895a4e837356c2d551743df6bf642756dcd93cd31cbd37c556c90bf7f244

/-- `contract_instance_published_magic_value`. -/
def contractInstancePublishedMagicValue : Fr :=
  0x174c6b3d0fd14728e4fc5e53f7b262ab943546a7e125e2ed5e9fde3cf0b3e22f

/-- `contract_class_registry_bytecode_capsule_slot`. -/
def contractClassRegistryBytecodeCapsuleSlot : Fr :=
  0x1f61038721b052d5389449bf44f73c817146aedfab1ef13d37f16ce928df1fb7

/-- The packed bytecode among the capsules, or nothing. -/
def bytecodeFields (capsules : List Capsule) : List Fr :=
  ((capsules.find? (fun capsule =>
    capsule.contractAddress = contractClassRegistry ∧
      capsule.storageSlot = contractClassRegistryBytecodeCapsuleSlot)).map (·.data)).getD []

variable (crypto : Crypto) (oracle : PrivateExecutionOracle)

/-- The end of a protocol handler: the own counter is raised to the end of the
call, an empty result is cached, and a bare result is recorded. -/
def finishProtocolCall (call : NestedCall) (selector : FunctionSelector) (endCounter : Nat)
    (next : PrivateExecutionOracle) : Answer × PrivateExecutionOracle :=
  let returnsHash := Hash.computeVarArgsHash crypto.poseidon2 []
  ([[Fr.ofU64 endCounter, returnsHash]],
    { next with
      sideEffectCounter := max next.sideEffectCounter endCounter
      executionCache := next.executionCache.insertIfNew returnsHash []
      nestedResults := next.nestedResults ++
        [{ contractAddress := call.target
           callContext :=
             { msgSender := oracle.contractAddress
               contractAddress := call.target
               functionSelector := selector.toField
               isStaticCall := false }
           startSideEffectCounter := call.counter
           endSideEffectCounter := endCounter
           minRevertibleSideEffectCounter := call.counter }] })

/-- The fields of the class log that publishes a class. -/
def publishedClassFields (capsules : List Capsule) (classId artifactHash privateFunctionsRoot : Fr) :
    List Fr :=
  [contractClassPublishedMagicValue, classId, 1, artifactHash, privateFunctionsRoot] ++
    bytecodeFields capsules

/-- `handle_nested_publish_class`. -/
def handleNestedPublishClass (call : NestedCall) (selector : FunctionSelector)
    (encodedArgs : List Fr) : Except Error (Answer × PrivateExecutionOracle) :=
  if encodedArgs.length < 3 then
    .error (.invalidData ("nested publish args too short: " ++ toString encodedArgs.length))
  else
    let artifactHash := encodedArgs.getD 0 0
    let privateFunctionsRoot := encodedArgs.getD 1 0
    let classId := Hash.computeContractClassId crypto.poseidon2 artifactHash privateFunctionsRoot
      (encodedArgs.getD 2 0)
    let fields := publishedClassFields oracle.capsules classId artifactHash privateFunctionsRoot
    let classLogCounter := saturatingAdd call.counter 1
    .ok (oracle.finishProtocolCall crypto call selector (saturatingAdd classLogCounter 1)
      { oracle with
        nullifiers := oracle.nullifiers ++ [⟨⟨classId, 0, call.counter⟩, call.target⟩]
        contractClassLogs := oracle.contractClassLogs ++
          [{ log :=
               { contractAddress := call.target
                 fields := fields
                 emittedLength := fields.length % 2 ^ 32 }
             counter := classLogCounter }] })

/-- A point among the encoded arguments. -/
def pointAt (encodedArgs : List Fr) (i : Nat) : Point :=
  ⟨encodedArgs.getD i 0, encodedArgs.getD (i + 1) 0, decide (encodedArgs.getD (i + 2) 0 ≠ 0)⟩

/-- The keys among the arguments of `publish_for_public_execution`. -/
def publishedKeys (encodedArgs : List Fr) : PublicKeys where
  masterNullifierPublicKey := pointAt encodedArgs 3
  masterIncomingViewingPublicKey := pointAt encodedArgs 6
  masterOutgoingViewingPublicKey := pointAt encodedArgs 9
  masterTaggingPublicKey := pointAt encodedArgs 12

/-- The fields of the log that publishes an instance, padded by one. -/
def publishedInstanceFields (instanceAddress deployer : AztecAddress) (encodedArgs : List Fr) :
    List Fr :=
  let keys := publishedKeys encodedArgs
  [contractInstancePublishedMagicValue, instanceAddress.inner, 1, encodedArgs.getD 0 0,
    encodedArgs.getD 1 0, encodedArgs.getD 2 0,
    keys.masterNullifierPublicKey.x, keys.masterNullifierPublicKey.y,
    keys.masterIncomingViewingPublicKey.x, keys.masterIncomingViewingPublicKey.y,
    keys.masterOutgoingViewingPublicKey.x, keys.masterOutgoingViewingPublicKey.y,
    keys.masterTaggingPublicKey.x, keys.masterTaggingPublicKey.y, deployer.inner, 0]

/-- The deployer of an instance published for public execution. -/
def publishingDeployer (encodedArgs : List Fr) : AztecAddress :=
  if encodedArgs.getD 15 0 ≠ 0 then .zero else oracle.senderForTags.getD oracle.contractAddress

/-- `handle_nested_publish_instance`. -/
def handleNestedPublishInstance (call : NestedCall) (selector : FunctionSelector)
    (encodedArgs : List Fr) : Except Error (Answer × PrivateExecutionOracle) :=
  if encodedArgs.length < 16 then
    .error (.invalidData ("nested publish_for_public_execution args too short: " ++
      toString encodedArgs.length))
  else
    match crypto.computeContractAddressFromInstance (encodedArgs.getD 0 0) (encodedArgs.getD 2 0)
        (oracle.publishingDeployer encodedArgs) (encodedArgs.getD 1 0)
        (publishedKeys encodedArgs) with
    | .error e => .error e
    | .ok instanceAddress =>
      let privateLogCounter := saturatingAdd call.counter 1
      .ok (oracle.finishProtocolCall crypto call selector (saturatingAdd privateLogCounter 1)
        { oracle with
          nullifiers := oracle.nullifiers ++
            [⟨⟨instanceAddress.inner, 0, call.counter⟩, call.target⟩]
          privateLogs := oracle.privateLogs ++
            [{ fields := publishedInstanceFields instanceAddress
                 (oracle.publishingDeployer encodedArgs) encodedArgs
               emittedLength := 15
               noteHashCounter := 0
               counter := privateLogCounter
               contractAddress := call.target }] })

/-- The signature of `publish` in the class registry. -/
def publishSignature : String := "publish(Field,Field,Field)"

/-- The signature of `publish_for_public_execution` in the instance registry. -/
def publishForPublicExecutionSignature : String :=
  "publish_for_public_execution(Field,(Field),Field,(((Field,Field,bool)),((Field,Field,bool))," ++
    "((Field,Field,bool)),((Field,Field,bool))),bool)"

/-- `try_handle_protocol_nested_private_call`. -/
def tryHandleProtocolNestedPrivateCall (call : NestedCall) (encodedArgs : List Fr) :
    Except Error (Option (Answer × PrivateExecutionOracle)) :=
  let selector := FunctionSelector.fromField call.selectorField
  if call.isStatic then .ok none
  else if call.target = contractClassRegistry ∧
      selector = Hash.selectorFromSignature crypto.poseidon2 publishSignature then
    (oracle.handleNestedPublishClass crypto call selector encodedArgs).map some
  else if call.target = contractInstanceRegistry ∧
      selector = Hash.selectorFromSignature crypto.poseidon2
        publishForPublicExecutionSignature then
    (oracle.handleNestedPublishInstance crypto call selector encodedArgs).map some
  else .ok none

/-- The arguments `call_private_function` reads. -/
def readCall (args : Args) : Except Error NestedCall :=
  match args.first 0, args.first 1, args.first 2 with
  | none, _, _ => .error (.invalidData "missing target address")
  | some _, none, _ => .error (.invalidData "missing function selector")
  | some _, some _, none => .error (.invalidData "missing args hash")
  | some target, some selectorField, some argsHash =>
    .ok { target := ⟨target⟩
          selectorField := selectorField
          argsHash := argsHash
          counter := (args.counter 3).getD oracle.sideEffectCounter
          isStatic := ((args.first 4).map (fun flag => decide (flag ≠ 0))).getD false }

/-- The function a nested call runs must be known and, if it is static, be
called statically. -/
def resolveFunction (contracts : ContractStore) (call : NestedCall) : Except Error Unit := do
  let target := hex32 call.target.inner.val
  let selector := FunctionSelector.fromField call.selectorField
  match ← contracts.getInstance call.target with
  | none => .error (.invalidData ("nested call: contract not found: " ++ target))
  | some classId =>
    match ← contracts.getArtifact classId with
    | none => .error (.invalidData ("nested call: artifact not found for contract " ++ target))
    | some functions =>
      match functions.find? (fun function => function.selector = some selector) with
      | none => .error (.invalidData ("nested call: function with selector " ++
          hexDigits 8 selector.bytes.val ++ " not found in " ++ target))
      | some function =>
        if function.isStatic ∧ call.isStatic = false then
          .error (.invalidData "can only be called statically")
        else .ok ()

/-- Where a nested call goes: to a protocol handler, or into its circuit. -/
inductive Entry where
  | handled (answer : Answer) (oracle : PrivateExecutionOracle)
  | entered (call : NestedCall)

/-- `call_private_function` up to the execution of the circuit. -/
def enter (contracts : ContractStore) (args : Args) : Except Error Entry :=
  match oracle.readCall args with
  | .error e => .error e
  | .ok call =>
    match oracle.tryHandleProtocolNestedPrivateCall crypto call
        (oracle.executionCache[call.argsHash]?.getD []) with
    | .error e => .error e
    | .ok (some (answer, next)) => .ok (.handled answer next)
    | .ok none =>
      match resolveFunction contracts call with
      | .error e => .error e
      | .ok () => .ok (.entered call)

/-- The oracle of a nested call: its own counter starts at the circuit's, it
sees the notes and nullifiers of its caller, and it starts in its phase. -/
def nested (call : NestedCall) : PrivateExecutionOracle where
  contractAddress := call.target
  protocolNullifier := oracle.protocolNullifier
  executionCache := oracle.executionCache
  senderForTags := oracle.senderForTags
  callIsStatic := call.isStatic
  sideEffectCounter := call.counter
  newNotes := oracle.newNotes
  noteHashes := oracle.noteHashes
  nullifiers := oracle.nullifiers
  noteHashNullifierCounterMap := oracle.noteHashNullifierCounterMap
  consumedDbNullifiers := oracle.consumedDbNullifiers
  minRevertibleSideEffectCounter := oracle.minRevertibleSideEffectCounter
  inRevertiblePhase := oracle.inRevertiblePhase
  capsules := oracle.capsules

/-- The cache after a nested call: its return values, then everything it
stored under a hash the caller has no entry for. -/
def mergedCache (output : AcvmExecutionOutput) (inner : PrivateExecutionOracle) :
    Std.ExtTreeMap Fr (List Fr) :=
  let returnsHash := output.returnsHash crypto.poseidon2
  let cache := if oracle.executionCache.contains returnsHash then oracle.executionCache
    else oracle.executionCache.insert returnsHash
      (inner.executionCache[returnsHash]?.getD output.returnValues)
  inner.executionCache.toList.foldl (fun cache entry => cache.insertIfNew entry.1 entry.2) cache

/-- The squashing pairs a nested call added. -/
def newPairs (inner : PrivateExecutionOracle) : Std.ExtTreeMap Nat Nat :=
  inner.noteHashNullifierCounterMap.filter (fun counter _ =>
    !oracle.noteHashNullifierCounterMap.contains counter)

/-- The note hashes a nested call added. -/
def newNoteHashes (inner : PrivateExecutionOracle) : List ScopedNoteHash :=
  inner.noteHashes.drop oracle.noteHashes.length

/-- The result recorded for a nested call. -/
def nestedResult (call : NestedCall) (output : AcvmExecutionOutput)
    (inner : PrivateExecutionOracle) : PrivateCallExecutionResult where
  contractAddress := call.target
  callContext :=
    { msgSender := oracle.contractAddress
      contractAddress := call.target
      functionSelector := call.selectorField
      isStaticCall := call.isStatic }
  returnValues := if output.firstAcirCallReturnValues.isEmpty then output.returnValues
    else output.firstAcirCallReturnValues
  publicInputsFields := output.publicInputsFields
  newNotes := inner.newNotes.drop oracle.newNotes.length
  noteHashNullifierCounterMap := oracle.newPairs inner
  nestedExecutionResults := inner.nestedResults
  contractClassLogs := inner.contractClassLogs
  noteHashes := oracle.newNoteHashes inner
  nullifiers := inner.nullifiers.drop oracle.nullifiers.length
  privateLogs := mergeNestedPrivateLogs inner.privateLogs (output.privateLogs call.target)
  publicCallRequests := inner.publicCallRequests
  publicTeardownCallRequest := inner.publicTeardownCallRequest
  startSideEffectCounter := output.startCounter
  endSideEffectCounter := output.endCounter
  minRevertibleSideEffectCounter := inner.minRevertibleSideEffectCounter

/-- The end of `call_private_function`: what the nested call added is merged
into the caller. Its note hashes come from the witness only when it recorded
none, its logs are the recorded ones corrected by the witness, and its phase
does not come back. -/
def merge (call : NestedCall) (output : AcvmExecutionOutput) (inner : PrivateExecutionOracle) :
    Answer × PrivateExecutionOracle :=
  ([[Fr.ofU64 output.endCounter, output.returnsHash crypto.poseidon2]],
    { oracle with
      executionCache := oracle.mergedCache crypto output inner
      nestedResults := oracle.nestedResults ++ [oracle.nestedResult call output inner]
      noteHashes := oracle.noteHashes ++
        (if (oracle.newNoteHashes inner).isEmpty then output.noteHashes call.target
          else oracle.newNoteHashes inner)
      nullifiers := oracle.nullifiers ++ inner.nullifiers.drop oracle.nullifiers.length
      privateLogs := oracle.privateLogs ++
        mergeNestedPrivateLogs inner.privateLogs (output.privateLogs call.target)
      contractClassLogs := oracle.contractClassLogs ++ inner.contractClassLogs
      newNotes := oracle.newNotes ++ inner.newNotes.drop oracle.newNotes.length
      publicCallRequests := oracle.publicCallRequests ++ inner.publicCallRequests
      publicFunctionCalldata := oracle.publicFunctionCalldata ++ inner.publicFunctionCalldata
      noteHashNullifierCounterMap :=
        oracle.noteHashNullifierCounterMap.insertMany (oracle.newPairs inner).toList
      publicTeardownCallRequest := inner.publicTeardownCallRequest.or
        oracle.publicTeardownCallRequest
      consumedDbNullifiers := oracle.consumedDbNullifiers.insertMany inner.consumedDbNullifiers.toList
      sideEffectCounter := output.endCounter })

/-- Every change a protocol handler can make: the nullifier under the counter of
the call, the log under the next. -/
inductive Published (call : NestedCall) : PrivateExecutionOracle → Prop where
  | classLog (selector : FunctionSelector) (classId : Fr) (log : ContractClassLog) :
      Published call (oracle.finishProtocolCall crypto call selector
        (saturatingAdd (saturatingAdd call.counter 1) 1)
        { oracle with
          nullifiers := oracle.nullifiers ++ [⟨⟨classId, 0, call.counter⟩, call.target⟩]
          contractClassLogs := oracle.contractClassLogs ++
            [⟨log, saturatingAdd call.counter 1⟩] }).2
  | privateLog (selector : FunctionSelector) (address : Fr) (log : PrivateLogData)
      (counted : log.counter = saturatingAdd call.counter 1) :
      Published call (oracle.finishProtocolCall crypto call selector
        (saturatingAdd (saturatingAdd call.counter 1) 1)
        { oracle with
          nullifiers := oracle.nullifiers ++ [⟨⟨address, 0, call.counter⟩, call.target⟩]
          privateLogs := oracle.privateLogs ++ [log] }).2

variable {crypto oracle} {contracts : ContractStore} {args : Args} {call : NestedCall}
variable {answer : Answer} {next : PrivateExecutionOracle}

private theorem published_class {selector : FunctionSelector} {encodedArgs : List Fr}
    (done : oracle.handleNestedPublishClass crypto call selector encodedArgs = .ok (answer, next)) :
    oracle.Published crypto call next := by
  unfold handleNestedPublishClass at done
  split at done
  · cases done
  · cases done
    exact .classLog _ _ _

private theorem published_instance {selector : FunctionSelector} {encodedArgs : List Fr}
    (done : oracle.handleNestedPublishInstance crypto call selector encodedArgs =
      .ok (answer, next)) : oracle.Published crypto call next := by
  unfold handleNestedPublishInstance at done
  split at done
  · cases done
  · split at done
    · cases done
    · cases done
      exact .privateLog _ _ _ rfl

private theorem published_of_tried {encodedArgs : List Fr}
    (tried : oracle.tryHandleProtocolNestedPrivateCall crypto call encodedArgs =
      .ok (some (answer, next))) :
    call.isStatic = false ∧ oracle.Published crypto call next := by
  simp only [tryHandleProtocolNestedPrivateCall] at tried
  split at tried
  · cases tried
  next writable =>
    refine ⟨by simpa using writable, ?_⟩
    split at tried
    · obtain ⟨reply, published, same⟩ := map_eq_ok tried
      rw [Option.some.inj same] at published
      exact published_class published
    · split at tried
      · obtain ⟨reply, published, same⟩ := map_eq_ok tried
        rw [Option.some.inj same] at published
        exact published_instance published
      · cases tried

/-- A call handled without running a circuit published something. -/
theorem enter_handled (done : oracle.enter crypto contracts args = .ok (.handled answer next)) :
    ∃ call, oracle.readCall args = .ok call ∧ call.isStatic = false ∧
      oracle.Published crypto call next := by
  unfold enter at done
  cases read : oracle.readCall args with
  | error e =>
    rw [read] at done
    cases done
  | ok call =>
    simp only [read] at done
    split at done
    · cases done
    next tried =>
      cases done
      exact ⟨call, rfl, published_of_tried tried⟩
    · split at done <;> cases done

/-- The circuit's counter, where a nested call passes one. -/
theorem counter_of_readCall {counter : Nat} (read : oracle.readCall args = .ok call)
    (given : args.counter 3 = some counter) : call.counter = counter := by
  unfold readCall at read
  split at read
  · cases read
  · cases read
  · cases read
  · cases read
    simp [given]

end PrivateExecutionOracle

/-- The foreign calls of a running circuit, to its end or to the error the ACVM
stops with. A nested call comes with the calls of the circuit it would run and
the output of that circuit. -/
inductive Script where
  | done
  | failed (error : Error)
  | foreign (handler : Handler) (args : Args) (rest : Script)
  | callPrivate (args : Args) (body : Script) (output : AcvmExecutionOutput) (rest : Script)

/-- A point of an execution with the oracle it finds: a foreign call, the call
of a private function, or the return from one with the callee's oracle. -/
inductive Step where
  | foreign (oracle : PrivateExecutionOracle) (handler : Handler) (args : Args)
  | called (oracle : PrivateExecutionOracle) (args : Args)
  | returned (oracle : PrivateExecutionOracle) (call : NestedCall) (output : AcvmExecutionOutput)
      (inner : PrivateExecutionOracle)

namespace Step
open PrivateExecutionOracle
variable (crypto : Crypto) (contracts : ContractStore)

/-- Whether a step records an effect under the counter the circuit passes with
it: that counter. The counter of an ordinary nested call numbers no effect; the
counter of a call to a registry numbers the nullifier it publishes. -/
def circuitCounter : Step → Option Nat
  | .foreign _ .notifyCreatedNote args => args.counter 6
  | .foreign _ .notifyNullifiedNote args => args.counter 2
  | .foreign _ .notifyCreatedContractClassLog args => args.counter 3
  | .foreign _ .notifyEnqueuedPublicFunctionCall args => args.counter 2
  | .foreign _ .notifySetPublicTeardownFunctionCall args => args.counter 2
  | .foreign .. => none
  | .called oracle args =>
    match oracle.enter crypto contracts args with
    | .ok (.handled ..) => args.counter 3
    | _ => none
  | .returned .. => none

/-- The counters a circuit gives to the effects it announces. -/
def circuitCounters (trace : List Step) : List Nat :=
  trace.filterMap (circuitCounter crypto contracts)

end Step

namespace Script
open PrivateExecutionOracle
variable (crypto : Crypto) (contracts : ContractStore)

/-- The execution of a circuit's foreign calls by its oracle. -/
def execute : Script → PrivateExecutionOracle → Except Error PrivateExecutionOracle
  | .done, oracle => .ok oracle
  | .failed e, _ => .error e
  | .foreign handler args rest, oracle =>
    match oracle.handleForeignCall crypto args handler with
    | .error e => .error e
    | .ok (_, next) => execute rest next
  | .callPrivate args body output rest, oracle =>
    match oracle.enter crypto contracts args with
    | .error e => .error e
    | .ok (.handled _ next) => execute rest next
    | .ok (.entered call) =>
      match execute body (oracle.nested call) with
      | .error e => .error e
      | .ok inner => execute rest (oracle.merge crypto call output inner).2

/-- The points of an execution in order, up to an error. -/
def steps : Script → PrivateExecutionOracle → List Step
  | .done, _ => []
  | .failed _, _ => []
  | .foreign handler args rest, oracle =>
    .foreign oracle handler args ::
      match oracle.handleForeignCall crypto args handler with
      | .error _ => []
      | .ok (_, next) => steps rest next
  | .callPrivate args body output rest, oracle =>
    .called oracle args ::
      match oracle.enter crypto contracts args with
      | .error _ => []
      | .ok (.handled _ next) => steps rest next
      | .ok (.entered call) =>
        steps body (oracle.nested call) ++
          match execute crypto contracts body (oracle.nested call) with
          | .error _ => []
          | .ok inner => .returned oracle call output inner ::
              steps rest (oracle.merge crypto call output inner).2

/-- Successful executions, with the points they pass. -/
inductive Runs : Script → PrivateExecutionOracle → List Step → PrivateExecutionOracle → Prop where
  | done {oracle : PrivateExecutionOracle} : Runs .done oracle [] oracle
  | foreign {oracle next final : PrivateExecutionOracle} {handler : Handler} {args : Args}
      {answer : Answer} {rest : Script} {trace : List Step}
      (handled : oracle.handleForeignCall crypto args handler = .ok (answer, next))
      (later : Runs rest next trace final) :
      Runs (.foreign handler args rest) oracle (.foreign oracle handler args :: trace) final
  | handled {oracle next final : PrivateExecutionOracle} {args : Args} {answer : Answer}
      {body rest : Script} {output : AcvmExecutionOutput} {trace : List Step}
      (protocol : oracle.enter crypto contracts args = .ok (.handled answer next))
      (later : Runs rest next trace final) :
      Runs (.callPrivate args body output rest) oracle (.called oracle args :: trace) final
  | entered {oracle inner final : PrivateExecutionOracle} {args : Args} {call : NestedCall}
      {body rest : Script} {output : AcvmExecutionOutput} {inside after : List Step}
      (enters : oracle.enter crypto contracts args = .ok (.entered call))
      (below : Runs body (oracle.nested call) inside inner)
      (later : Runs rest (oracle.merge crypto call output inner).2 after final) :
      Runs (.callPrivate args body output rest) oracle
        (.called oracle args :: inside ++ .returned oracle call output inner :: after) final

variable {crypto contracts} {script : Script} {oracle final : PrivateExecutionOracle}

theorem runs_of_execute (ran : script.execute crypto contracts oracle = .ok final) :
    Runs crypto contracts script oracle (script.steps crypto contracts oracle) final := by
  induction script generalizing oracle final with
  | done =>
    cases ran
    exact .done
  | failed e => cases ran
  | foreign handler args rest ih =>
    unfold execute at ran
    unfold steps
    cases outcome : oracle.handleForeignCall crypto args handler with
    | error e =>
      rw [outcome] at ran
      cases ran
    | ok reply =>
      rw [outcome] at ran
      exact .foreign outcome (ih ran)
  | callPrivate args body output rest below later =>
    unfold execute at ran
    unfold steps
    cases outcome : oracle.enter crypto contracts args with
    | error e =>
      rw [outcome] at ran
      cases ran
    | ok entry =>
      rw [outcome] at ran
      cases entry with
      | handled answer next => exact .handled outcome (later ran)
      | entered call =>
        cases inside : body.execute crypto contracts (oracle.nested call) with
        | error e =>
          simp only [inside] at ran
          cases ran
        | ok inner =>
          simp only [inside] at ran ⊢
          exact .entered outcome (below inside) (later ran)

theorem execute_of_runs {trace : List Step} (runs : Runs crypto contracts script oracle trace final) :
    script.execute crypto contracts oracle = .ok final := by
  induction runs with
  | done => rfl
  | foreign handled later ih =>
    simp only [execute, handled]
    exact ih
  | handled protocol later ih =>
    simp only [execute, protocol]
    exact ih
  | entered enters below later inIh ih =>
    simp only [execute, enters, inIh]
    exact ih

/-- The states an execution comes through, each with the points passed before
it: the oracle of whichever call is running, whether or not the execution ends
well. -/
inductive Reaches (crypto : Crypto) (contracts : ContractStore) :
    Script → PrivateExecutionOracle → List Step → PrivateExecutionOracle → Prop where
  | here {script : Script} {oracle : PrivateExecutionOracle} :
      Reaches crypto contracts script oracle [] oracle
  | foreign {oracle next state : PrivateExecutionOracle} {handler : Handler} {args : Args}
      {answer : Answer} {rest : Script} {passed : List Step}
      (handled : oracle.handleForeignCall crypto args handler = .ok (answer, next))
      (later : Reaches crypto contracts rest next passed state) :
      Reaches crypto contracts (.foreign handler args rest) oracle
        (.foreign oracle handler args :: passed) state
  | handled {oracle next state : PrivateExecutionOracle} {args : Args} {answer : Answer}
      {body rest : Script} {output : AcvmExecutionOutput} {passed : List Step}
      (protocol : oracle.enter crypto contracts args = .ok (.handled answer next))
      (later : Reaches crypto contracts rest next passed state) :
      Reaches crypto contracts (.callPrivate args body output rest) oracle
        (.called oracle args :: passed) state
  | inside {oracle state : PrivateExecutionOracle} {args : Args} {call : NestedCall}
      {body rest : Script} {output : AcvmExecutionOutput} {passed : List Step}
      (enters : oracle.enter crypto contracts args = .ok (.entered call))
      (below : Reaches crypto contracts body (oracle.nested call) passed state) :
      Reaches crypto contracts (.callPrivate args body output rest) oracle
        (.called oracle args :: passed) state
  | after {oracle inner state : PrivateExecutionOracle} {args : Args} {call : NestedCall}
      {body rest : Script} {output : AcvmExecutionOutput} {inside passed : List Step}
      (enters : oracle.enter crypto contracts args = .ok (.entered call))
      (below : Runs crypto contracts body (oracle.nested call) inside inner)
      (later : Reaches crypto contracts rest (oracle.merge crypto call output inner).2 passed
        state) :
      Reaches crypto contracts (.callPrivate args body output rest) oracle
        (.called oracle args :: inside ++ .returned oracle call output inner :: passed) state

/-- A run reaches its end. -/
theorem reaches_of_runs {trace : List Step} (runs : Runs crypto contracts script oracle trace final) :
    Reaches crypto contracts script oracle trace final := by
  induction runs with
  | done => exact .here
  | foreign handled later ih => exact .foreign handled ih
  | handled protocol later ih => exact .handled protocol ih
  | entered enters below later inIh ih => exact .after enters below ih

/-- A list is split at another item than its first one after that. -/
private theorem split_after {passed before after : List Step} {x y : Step}
    (split : x :: passed = before ++ y :: after) (other : x ≠ y) :
    ∃ more, before = x :: more ∧ passed = more ++ y :: after := by
  cases before with
  | nil => exact absurd (List.cons.inj split).1 other
  | cons first more =>
    obtain ⟨rfl, rests⟩ := List.cons.inj split
    exact ⟨more, rfl, rests⟩

/-- Where a list with an item in it is split at another item, that one comes
before or after the first. -/
private theorem split_around {inside passed before after : List Step} {x y : Step}
    (split : inside ++ x :: passed = before ++ y :: after) (other : x ≠ y) :
    (∃ more, inside = before ++ y :: more) ∨
      ∃ more, before = inside ++ x :: more ∧ passed = more ++ y :: after := by
  rcases List.append_eq_append_iff.mp split with ⟨more, rfl, late⟩ | ⟨more, rfl, late⟩
  · obtain ⟨more, rfl, rests⟩ := split_after late other
    exact .inr ⟨more, rfl, rests⟩
  · obtain ⟨more, rfl, -⟩ := split_after late other.symm
    exact .inl ⟨more, rfl⟩

section Before
variable {before after : List Step} {found : PrivateExecutionOracle} {kind : Handler} {given : Args}

/-- A run comes through the oracle of each of its foreign calls. -/
theorem reaches_of_runs_split {trace : List Step}
    (runs : Runs crypto contracts script oracle trace final)
    (split : trace = before ++ .foreign found kind given :: after) :
    Reaches crypto contracts script oracle before found := by
  induction runs generalizing before after with
  | done => cases before <;> cases split
  | foreign handled later ih =>
    cases before with
    | nil =>
      cases (List.cons.inj split).1
      exact .here
    | cons first before =>
      obtain ⟨rfl, rests⟩ := List.cons.inj split
      exact .foreign handled (ih rests)
  | handled protocol later ih =>
    obtain ⟨before, rfl, rests⟩ := split_after split nofun
    exact .handled protocol (ih rests)
  | entered enters below later inIh ih =>
    obtain ⟨before, rfl, rests⟩ := split_after split nofun
    rcases split_around rests nofun with ⟨more, early⟩ | ⟨more, rfl, late⟩
    · exact .inside enters (inIh early)
    · exact .after enters below (ih late)

/-- The states on the way to a state: the oracle of each foreign call passed. -/
theorem reaches_of_split {passed : List Step} {state : PrivateExecutionOracle}
    (reaches : Reaches crypto contracts script oracle passed state)
    (split : passed = before ++ .foreign found kind given :: after) :
    Reaches crypto contracts script oracle before found := by
  induction reaches generalizing before after with
  | here => cases before <;> cases split
  | foreign handled later ih =>
    cases before with
    | nil =>
      cases (List.cons.inj split).1
      exact .here
    | cons first before =>
      obtain ⟨rfl, rests⟩ := List.cons.inj split
      exact .foreign handled (ih rests)
  | handled protocol later ih =>
    obtain ⟨before, rfl, rests⟩ := split_after split nofun
    exact .handled protocol (ih rests)
  | inside enters below ih =>
    obtain ⟨before, rfl, rests⟩ := split_after split nofun
    exact .inside enters (ih rests)
  | after enters below later ih =>
    obtain ⟨before, rfl, rests⟩ := split_after split nofun
    rcases split_around rests nofun with ⟨more, early⟩ | ⟨more, rfl, late⟩
    · exact .inside enters (reaches_of_runs_split below early)
    · exact .after enters below (ih late)

end Before

/-- A statement about the points passed and the oracle then running, kept by
every step: by a foreign call, by a call to a registry, on the way down into a
nested call and on the way back up from it. -/
structure Invariant (crypto : Crypto) (contracts : ContractStore)
    (P : List Step → PrivateExecutionOracle → Prop) : Prop where
  foreign : ∀ {passed oracle next args handler}, P passed oracle →
    oracle.Handled crypto args handler next → P (passed ++ [.foreign oracle handler args]) next
  handled : ∀ {passed oracle next args answer}, P passed oracle →
    oracle.enter crypto contracts args = .ok (.handled answer next) →
      P (passed ++ [.called oracle args]) next
  entered : ∀ {passed oracle args call}, P passed oracle →
    oracle.enter crypto contracts args = .ok (.entered call) →
      P (passed ++ [.called oracle args]) (oracle.nested call)
  returned : ∀ {passed oracle args call body inside inner} (output : AcvmExecutionOutput),
    P passed oracle → oracle.enter crypto contracts args = .ok (.entered call) →
      Runs crypto contracts body (oracle.nested call) inside inner →
      P (passed ++ .called oracle args :: inside) inner →
      P (passed ++ .called oracle args :: inside ++ [.returned oracle call output inner])
        (oracle.merge crypto call output inner).2

namespace Invariant
variable {P : List Step → PrivateExecutionOracle → Prop}

/-- An invariant holds at the end of a run. -/
theorem of_runs (inv : Invariant crypto contracts P) {passed trace : List Step}
    (runs : Runs crypto contracts script oracle trace final) (held : P passed oracle) :
    P (passed ++ trace) final := by
  induction runs generalizing passed with
  | done => rwa [List.append_nil]
  | foreign handled later ih =>
    have next := ih (inv.foreign held (handled_of_ok handled))
    rwa [List.append_assoc] at next
  | handled protocol later ih =>
    have next := ih (inv.handled held protocol)
    rwa [List.append_assoc] at next
  | @entered oracle inner final args call body rest output inside after enters below later inIh ih =>
    have ended := inIh (inv.entered held enters)
    rw [List.append_assoc] at ended
    have next := ih (inv.returned output held enters below ended)
    simpa using next

/-- An invariant holds in every state an execution comes through. -/
theorem of_reaches (inv : Invariant crypto contracts P) {passed trace : List Step}
    {state : PrivateExecutionOracle}
    (reaches : Reaches crypto contracts script oracle trace state) (held : P passed oracle) :
    P (passed ++ trace) state := by
  induction reaches generalizing passed with
  | here => rwa [List.append_nil]
  | foreign handled later ih =>
    have next := ih (inv.foreign held (handled_of_ok handled))
    rwa [List.append_assoc] at next
  | handled protocol later ih =>
    have next := ih (inv.handled held protocol)
    rwa [List.append_assoc] at next
  | inside enters below ih =>
    have next := ih (inv.entered held enters)
    rwa [List.append_assoc] at next
  | @after oracle inner state args call body rest output inside passed enters below later ih =>
    have ended := inv.of_runs below (inv.entered held enters)
    rw [List.append_assoc] at ended
    have next := ih (inv.returned output held enters below ended)
    simpa using next

/-- At the end of a run, from its start. -/
theorem at_end (inv : Invariant crypto contracts P) {trace : List Step}
    (runs : Runs crypto contracts script oracle trace final) (held : P [] oracle) :
    P trace final :=
  inv.of_runs runs held

/-- In every state, from the start. -/
theorem at_state (inv : Invariant crypto contracts P) {passed : List Step}
    {state : PrivateExecutionOracle}
    (reaches : Reaches crypto contracts script oracle passed state) (held : P [] oracle) :
    P passed state :=
  inv.of_reaches reaches held

end Invariant

end Script

end AztecPxe
