import AztecPxe.PrivateExecution

/-! The bundles of `embedded_pxe.rs`: one for each top-level call of a
transaction, synthesised for public functions and for the registries and taken
from the oracle for private functions, then aggregated under one root whose
counters follow each other. -/
namespace AztecPxe
open PrivateExecutionOracle

/-- `embedded_pxe.rs::CallExecutionBundle`. -/
structure CallExecutionBundle where
  executionResult : PrivateExecutionResult
  contractClassLogFields : List (List Fr) := []
  publicFunctionCalldata : List HashedValues := []
  firstAcirCallReturnValues : List Fr := []
  simulatedReturnValues : List Fr := []

/-- `ContractClassLogFields::from_emitted_fields`. -/
def fromEmittedFields (emittedFields : List Fr) : List Fr :=
  emittedFields ++ List.replicate (3023 - emittedFields.length) 0

/-- `extract_expiration_timestamp_from_witness`. -/
def AcvmExecutionOutput.expirationTimestamp (output : AcvmExecutionOutput)
    (contextInputsSize : Nat) : Nat :=
  (output.field (contextInputsSize - 5 + 8)).toUsize

/-- `PrivateExecutionOracle::build_execution_result`. -/
def PrivateExecutionOracle.buildExecutionResult (oracle : PrivateExecutionOracle)
    (output : AcvmExecutionOutput) (contractAddress : AztecAddress) (expirationTimestamp : Nat) :
    PrivateExecutionResult where
  entrypoint :=
    { contractAddress := contractAddress
      callContext :=
        { msgSender := .zero
          contractAddress := contractAddress
          functionSelector := 0
          isStaticCall := oracle.callIsStatic }
      returnValues := output.returnValues
      newNotes := oracle.newNotes
      noteHashNullifierCounterMap := oracle.noteHashNullifierCounterMap
      nestedExecutionResults := oracle.nestedResults
      contractClassLogs := oracle.contractClassLogs
      noteHashes := oracle.noteHashes
      nullifiers := oracle.nullifiers
      privateLogs := oracle.privateLogs
      publicCallRequests := oracle.publicCallRequests
      publicTeardownCallRequest := oracle.publicTeardownCallRequest
      startSideEffectCounter := 0
      endSideEffectCounter := oracle.sideEffectCounter
      minRevertibleSideEffectCounter := oracle.minRevertibleSideEffectCounter }
  firstNullifier := oracle.protocolNullifier
  expirationTimestamp := expirationTimestamp
  publicFunctionCalldata := oracle.publicFunctionCalldata

/-- A private function of an artifact, with what its execution reads of it. -/
structure PrivateFunction where
  selector : Option FunctionSelector
  isStatic : Bool
  contextInputsSize : Nat
  deriving DecidableEq, Repr

/-- `DecodedEntrypointCall`. -/
structure DecodedEntrypointCall where
  toAddress : AztecAddress
  selector : FunctionSelector
  encodedArgs : List Fr
  hideMsgSender : Bool
  isStatic : Bool
  deriving DecidableEq, Repr

namespace EmbeddedPxe
variable (crypto : Crypto) (contracts : ContractStore)

/-- `null_msg_sender`. -/
def nullMsgSender : AztecAddress :=
  ⟨0x30644e72e131a029b85045b68181585d2833e84879b9709143e1f593f0000000⟩

/-- The oracle the account entrypoint starts with: the hashed values of the
request are in its cache, its capsules at hand. -/
def entrypointOracle (origin : AztecAddress) (protocolNullifier : Fr)
    (argsOfCalls : List HashedValues) (capsules : List Capsule) : PrivateExecutionOracle where
  contractAddress := origin
  protocolNullifier := protocolNullifier
  senderForTags := some origin
  executionCache := argsOfCalls.foldl (fun cache hashed => cache.insert hashed.hash hashed.values) ∅
  capsules := capsules

/-- The bundle `execute_entrypoint_via_acvm` makes of the oracle: the root's own
witness adds no effect. -/
def entrypointBundle (origin : AztecAddress) (protocolNullifier : Fr) (function : PrivateFunction)
    (output : AcvmExecutionOutput) (oracle : PrivateExecutionOracle) : CallExecutionBundle where
  simulatedReturnValues := if output.firstAcirCallReturnValues.isEmpty then output.returnValues
    else output.firstAcirCallReturnValues
  firstAcirCallReturnValues := output.firstAcirCallReturnValues
  executionResult :=
    { entrypoint :=
        { contractAddress := origin
          callContext :=
            { msgSender := nullMsgSender
              contractAddress := origin
              functionSelector := (function.selector.map (·.toField)).getD 0
              isStaticCall := false }
          returnValues := output.returnValues
          publicInputsFields := output.publicInputsFields
          newNotes := oracle.newNotes
          noteHashNullifierCounterMap := oracle.noteHashNullifierCounterMap
          noteHashes := oracle.noteHashes
          nullifiers := oracle.nullifiers
          privateLogs := oracle.privateLogs
          contractClassLogs := oracle.contractClassLogs
          publicCallRequests := oracle.publicCallRequests
          publicTeardownCallRequest := oracle.publicTeardownCallRequest
          startSideEffectCounter := 2
          endSideEffectCounter := oracle.sideEffectCounter
          minRevertibleSideEffectCounter := oracle.minRevertibleSideEffectCounter
          nestedExecutionResults := oracle.nestedResults }
      firstNullifier := protocolNullifier
      expirationTimestamp := output.expirationTimestamp function.contextInputsSize
      publicFunctionCalldata := oracle.publicFunctionCalldata }
  contractClassLogFields := oracle.contractClassLogs.map (fun log => fromEmittedFields log.log.fields)
  publicFunctionCalldata := oracle.publicFunctionCalldata

/-- `execute_entrypoint_via_acvm`, from the account's entrypoint function on. -/
def executeEntrypointViaAcvm (origin : AztecAddress) (protocolNullifier : Fr)
    (argsOfCalls : List HashedValues) (capsules : List Capsule) (function : PrivateFunction)
    (script : Script) (output : AcvmExecutionOutput) : Except Error CallExecutionBundle :=
  (script.execute crypto contracts
    (entrypointOracle origin protocolNullifier argsOfCalls capsules)).map
      (entrypointBundle origin protocolNullifier function output)

/-- The oracle a private top-level call starts with: an empty cache and no
capsules. -/
def callOracle (call : DecodedEntrypointCall) (origin : AztecAddress) (protocolNullifier : Fr) :
    PrivateExecutionOracle where
  contractAddress := call.toAddress
  protocolNullifier := protocolNullifier
  senderForTags := some origin
  callIsStatic := call.isStatic

/-- The result of a private top-level call: the oracle's, with the circuit's
note hashes where the oracle recorded none, and followed by the circuit's logs. -/
def privateCallResult (call : DecodedEntrypointCall) (origin : AztecAddress)
    (function : PrivateFunction) (output : AcvmExecutionOutput) (oracle : PrivateExecutionOracle) :
    PrivateExecutionResult :=
  let built := oracle.buildExecutionResult output call.toAddress 0
  { built with
    expirationTimestamp := output.expirationTimestamp function.contextInputsSize
    entrypoint :=
      { built.entrypoint with
        callContext :=
          { msgSender := origin
            contractAddress := call.toAddress
            functionSelector := (function.selector.map (·.toField)).getD 0
            isStaticCall := function.isStatic }
        publicInputsFields := output.publicInputsFields
        noteHashes := if built.entrypoint.noteHashes.isEmpty then output.noteHashes call.toAddress
          else built.entrypoint.noteHashes
        privateLogs := built.entrypoint.privateLogs ++ output.privateLogs call.toAddress } }

/-- The bundle of a private top-level call. -/
def privateCallBundle (call : DecodedEntrypointCall) (origin : AztecAddress)
    (function : PrivateFunction) (output : AcvmExecutionOutput) (oracle : PrivateExecutionOracle) :
    CallExecutionBundle :=
  let result := privateCallResult call origin function output oracle
  let acirCallReturns := match output.witness 5 with
    | some hash => oracle.executionCache[hash]?.getD []
    | none => output.firstAcirCallReturnValues
  { executionResult := result
    contractClassLogFields :=
      result.allContractClassLogsSorted.map (fun log => fromEmittedFields log.log.fields)
    publicFunctionCalldata := result.publicFunctionCalldata
    firstAcirCallReturnValues := acirCallReturns
    simulatedReturnValues := if acirCallReturns.isEmpty then result.entrypoint.returnValues
      else acirCallReturns }

/-- `build_public_call_execution` and `protocol_public_execution`: one request
under the counter two. -/
def publicCallBundle (call : DecodedEntrypointCall) (origin : AztecAddress) (firstNullifier : Fr)
    (selector : FunctionSelector) : CallExecutionBundle :=
  let hashed := Hash.fromCalldata crypto.poseidon2 (selector.toField :: call.encodedArgs)
  { executionResult :=
      { entrypoint :=
          { contractAddress := origin
            publicCallRequests :=
              [{ contractAddress := call.toAddress
                 msgSender := if call.hideMsgSender then .zero else origin
                 isStaticCall := call.isStatic
                 calldataHash := hashed.hash
                 counter := 2 }]
            startSideEffectCounter := 2
            minRevertibleSideEffectCounter := 2
            endSideEffectCounter := 3 }
        firstNullifier := firstNullifier
        publicFunctionCalldata := [hashed] }
    publicFunctionCalldata := [hashed] }

/-- `protocol_private_execution` for the class registry's `publish`. -/
def publishClassBundle (call : DecodedEntrypointCall) (origin : AztecAddress) (firstNullifier : Fr)
    (capsules : List Capsule) : Except Error CallExecutionBundle :=
  match call.encodedArgs[0]?, call.encodedArgs[1]?, call.encodedArgs[2]? with
  | none, _, _ => .error (.invalidData "publish missing artifact_hash")
  | some _, none, _ => .error (.invalidData "publish missing private_functions_root")
  | some _, some _, none => .error (.invalidData "publish missing public_bytecode_commitment")
  | some artifactHash, some privateFunctionsRoot, some publicBytecodeCommitment =>
    let classId := Hash.computeContractClassId crypto.poseidon2 artifactHash privateFunctionsRoot
      publicBytecodeCommitment
    let fields := publishedClassFields capsules classId artifactHash privateFunctionsRoot
    .ok
      { executionResult :=
          { entrypoint :=
              { contractAddress := call.toAddress
                callContext :=
                  { msgSender := origin
                    contractAddress := call.toAddress
                    functionSelector :=
                      (Hash.selectorFromSignature crypto.poseidon2 publishSignature).toField
                    isStaticCall := false }
                nullifiers := [⟨⟨classId, 0, 2⟩, call.toAddress⟩]
                contractClassLogs :=
                  [{ log :=
                       { contractAddress := call.toAddress
                         fields := fields
                         emittedLength := fields.length % 2 ^ 32 }
                     counter := 3 }]
                startSideEffectCounter := 2
                endSideEffectCounter := 4
                minRevertibleSideEffectCounter := 2 }
            firstNullifier := firstNullifier }
        contractClassLogFields := [fromEmittedFields fields] }

/-- `protocol_private_execution` for the instance registry's
`publish_for_public_execution`. -/
def publishInstanceBundle (call : DecodedEntrypointCall) (origin : AztecAddress)
    (firstNullifier : Fr) : Except Error CallExecutionBundle :=
  if call.encodedArgs.length < 16 then
    .error (.invalidData ("publish_for_public_execution args too short: " ++
      toString call.encodedArgs.length))
  else
    let args := call.encodedArgs
    let deployer := if args.getD 15 0 ≠ 0 then AztecAddress.zero else origin
    (crypto.computeContractAddressFromInstance (args.getD 0 0) (args.getD 2 0) deployer
      (args.getD 1 0) (publishedKeys args)).map (fun instanceAddress =>
        { executionResult :=
            { entrypoint :=
                { contractAddress := call.toAddress
                  callContext :=
                    { msgSender := origin
                      contractAddress := call.toAddress
                      functionSelector := (Hash.selectorFromSignature crypto.poseidon2
                        publishForPublicExecutionSignature).toField
                      isStaticCall := false }
                  nullifiers := [⟨⟨instanceAddress.inner, 0, 2⟩, call.toAddress⟩]
                  privateLogs :=
                    [{ fields := publishedInstanceFields instanceAddress deployer args
                       emittedLength := 15
                       noteHashCounter := 0
                       counter := 3
                       contractAddress := call.toAddress }]
                  startSideEffectCounter := 2
                  endSideEffectCounter := 4
                  minRevertibleSideEffectCounter := 2 }
              firstNullifier := firstNullifier } })

/-- What the function of a top-level call turns out to be. -/
inductive Target where
  | publishClass
  | publishInstance
  | publicFunction (selector : FunctionSelector)
  | privateFunction (function : PrivateFunction) (script : Script) (output : AcvmExecutionOutput)

/-- `execute_entrypoint_call_bundle`, once the function is resolved. -/
def executeEntrypointCallBundle (origin : AztecAddress) (protocolNullifier : Fr)
    (capsules : List Capsule) (call : DecodedEntrypointCall) (target : Target) :
    Except Error CallExecutionBundle :=
  match target with
  | .publishClass => publishClassBundle crypto call origin protocolNullifier capsules
  | .publishInstance => publishInstanceBundle crypto call origin protocolNullifier
  | .publicFunction selector => .ok (publicCallBundle crypto call origin protocolNullifier selector)
  | .privateFunction function script output =>
    (script.execute crypto contracts (callOracle call origin protocolNullifier)).map
      (privateCallBundle call origin function output)

/-- The two roots a tree of private calls can have: the account's entrypoint,
or a private function called at the top level. -/
inductive Root where
  | entrypoint (origin : AztecAddress) (protocolNullifier : Fr) (argsOfCalls : List HashedValues)
      (capsules : List Capsule)
  | topLevel (call : DecodedEntrypointCall) (origin : AztecAddress) (protocolNullifier : Fr)

namespace Root

/-- The oracle the root starts with. -/
def oracle : Root → PrivateExecutionOracle
  | .entrypoint origin protocolNullifier argsOfCalls capsules =>
    entrypointOracle origin protocolNullifier argsOfCalls capsules
  | .topLevel call origin protocolNullifier => callOracle call origin protocolNullifier

/-- The bundle made of the oracle the root ends with. -/
def bundle (root : Root) (function : PrivateFunction) (output : AcvmExecutionOutput)
    (final : PrivateExecutionOracle) : CallExecutionBundle :=
  match root with
  | .entrypoint origin protocolNullifier _ _ =>
    entrypointBundle origin protocolNullifier function output final
  | .topLevel call origin _ => privateCallBundle call origin function output final

end Root

/-- A tree executed as a top-level call. -/
theorem executeEntrypointCallBundle_private (origin : AztecAddress) (protocolNullifier : Fr)
    (capsules : List Capsule) (call : DecodedEntrypointCall) (function : PrivateFunction)
    (script : Script) (output : AcvmExecutionOutput) :
    let root := Root.topLevel call origin protocolNullifier
    executeEntrypointCallBundle crypto contracts origin protocolNullifier capsules call
      (.privateFunction function script output) = (script.execute crypto contracts root.oracle).map
        (root.bundle function output) :=
  rfl

end EmbeddedPxe

end AztecPxe
