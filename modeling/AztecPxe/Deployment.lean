import AztecPxe.ExecutionPayload
import AztecPxe.PrivateExecution

/-! The deployments of `contract/src/deployment.rs`: the instance an artifact
is deployed as, and the payloads that publish its class, publish the instance
and call its constructor. -/
namespace AztecPxe

/-- A function of an artifact as deployments read it: its selector, given or
derived from its signature, and what `encode_arguments` makes of arguments. -/
structure DeployFunction where
  name : String
  functionType : FunctionType
  selector : FunctionSelector
  encodeArguments : List AbiValue → Except Error (List Fr)

/-- An artifact as deployments read it: its functions, the hashes of
`hash.rs` over it, and `buffer_as_fields` of its packed bytecode, which is empty
where there is no bytecode. -/
structure DeployArtifact where
  name : String
  functions : List DeployFunction
  artifactHash : Fr
  privateFunctionsRoot : Except Error Fr
  publicBytecodeCommitment : Fr
  bytecodeFields : Except Error (List Fr)

/-- `ContractArtifact::find_function`. -/
def DeployArtifact.findFunction (artifact : DeployArtifact) (name : String) :
    Except Error DeployFunction :=
  match artifact.functions.find? (·.name = name) with
  | some function => .ok function
  | none => .error (.abi ("function '" ++ name ++ "' not found in artifact '" ++ artifact.name ++
      "'"))

/-- `types.rs::ContractInstance` with the address of
`ContractInstanceWithAddress`. -/
structure ContractInstance where
  address : AztecAddress
  version : Nat := 1
  salt : Fr
  deployer : AztecAddress
  currentContractClassId : Fr
  originalContractClassId : Fr
  initializationHash : Fr
  publicKeys : PublicKeys
  deriving DecidableEq, Repr

/-- `deployment.rs::DeployOptions`. -/
structure DeployOptions where
  contractAddressSalt : Option Fr := none
  skipClassPublication : Bool := false
  skipInstancePublication : Bool := false
  skipInitialization : Bool := false
  skipRegistration : Bool := false
  universalDeploy : Bool := false
  fromAddress : Option AztecAddress := none
  deriving DecidableEq, Repr

/-- `deployment.rs::DeployMethod`, the wallet apart. -/
structure DeployMethod where
  artifact : DeployArtifact
  args : List AbiValue
  publicKeys : PublicKeys
  constructorName : Option String
  defaultSalt : Fr

/-- What a deployment asks outside: the hashes, the `bb.js` helper (which keeps
every instance unless real proofs are benchmarked), and the wallet's answers to
a registration and to whether a class is publicly registered. -/
structure DeployEnvironment where
  crypto : Crypto
  canonicalizeInstance : ContractInstance → Fr → Fr → Fr → Except Error ContractInstance
  registerContract : ContractInstance → Except Error Unit
  isClassPubliclyRegistered : Fr → Except Error Bool

/-- `compute_initialization_hash`, with `domain_separator::INITIALIZER`. -/
def computeInitializationHash (crypto : Crypto) (initFn : Option DeployFunction)
    (args : List AbiValue) : Except Error Fr :=
  match initFn with
  | none => .ok 0
  | some function => do
    let encodedArgs ← function.encodeArguments args
    let argsHash := Hash.computeVarArgsHash crypto.poseidon2 encodedArgs
    .ok (Hash.poseidon2HashWithSeparator crypto.poseidon2 [function.selector.toField, argsHash]
      385396519)

/-- `point_to_abi_value`. -/
def pointToAbiValue (point : Point) : AbiValue :=
  .tuple [.field point.x, .field point.y, .boolean point.isInfinite]

/-- `public_keys_to_abi_value`. -/
def publicKeysToAbiValue (publicKeys : PublicKeys) : AbiValue :=
  .tuple [pointToAbiValue publicKeys.masterNullifierPublicKey,
    pointToAbiValue publicKeys.masterIncomingViewingPublicKey,
    pointToAbiValue publicKeys.masterOutgoingViewingPublicKey,
    pointToAbiValue publicKeys.masterTaggingPublicKey]

/-- `publish_contract_class`. -/
def publishContractClass (crypto : Crypto) (artifact : DeployArtifact) :
    Except Error ContractFunctionInteraction := do
  let privateFunctionsRoot ← artifact.privateFunctionsRoot
  let bytecodeFields ← artifact.bytecodeFields
  .ok
    { call :=
        { toAddress := PrivateExecutionOracle.contractClassRegistry
          selector := Hash.selectorFromSignature crypto.poseidon2
            PrivateExecutionOracle.publishSignature
          args := [.field artifact.artifactHash, .field privateFunctionsRoot,
            .field artifact.publicBytecodeCommitment]
          functionType := .privateFunction }
      capsules :=
        if bytecodeFields.isEmpty then []
        else [⟨PrivateExecutionOracle.contractClassRegistry,
          PrivateExecutionOracle.contractClassRegistryBytecodeCapsuleSlot, bytecodeFields⟩] }

/-- `publish_instance`. -/
def publishInstance (crypto : Crypto) (contract : ContractInstance) :
    ContractFunctionInteraction where
  call :=
    { toAddress := PrivateExecutionOracle.contractInstanceRegistry
      selector := Hash.selectorFromSignature crypto.poseidon2
        PrivateExecutionOracle.publishForPublicExecutionSignature
      args := [.field contract.salt, .tuple [.field contract.currentContractClassId],
        .field contract.initializationHash, publicKeysToAbiValue contract.publicKeys,
        .boolean (contract.deployer = .zero)]
      functionType := .privateFunction }

namespace DeployMethod
variable (environment : DeployEnvironment) (method : DeployMethod) (opts : DeployOptions)

/-- `DeployMethod::with_effective_from`. -/
def withEffectiveFrom (fromAddress : AztecAddress) : DeployOptions :=
  if opts.universalDeploy ∨ opts.fromAddress.isSome then opts
  else { opts with fromAddress := some fromAddress }

/-- `DeployMethod::get_instance`, through
`get_contract_instance_from_instantiation_params`. -/
def getInstance : Except Error ContractInstance := do
  let salt := opts.contractAddressSalt.getD method.defaultSalt
  let deployer := if opts.universalDeploy then .zero else opts.fromAddress.getD .zero
  let privateFunctionsRoot ← method.artifact.privateFunctionsRoot
  let classId := Hash.computeContractClassId environment.crypto.poseidon2
    method.artifact.artifactHash privateFunctionsRoot method.artifact.publicBytecodeCommitment
  let initFn ← method.constructorName.mapM method.artifact.findFunction
  let initializationHash ← computeInitializationHash environment.crypto initFn method.args
  let address ← environment.crypto.computeContractAddressFromInstance salt initializationHash
    deployer classId method.publicKeys
  environment.canonicalizeInstance
    { address := address
      salt := salt
      deployer := deployer
      currentContractClassId := classId
      originalContractClassId := classId
      initializationHash := initializationHash
      publicKeys := method.publicKeys }
    method.artifact.artifactHash privateFunctionsRoot method.artifact.publicBytecodeCommitment

/-- The first part of `DeployMethod::request`. -/
def registration (contract : ContractInstance) : Except Error Unit :=
  if opts.skipRegistration then .ok () else environment.registerContract contract

/-- The second part of `DeployMethod::request`: the class is published unless
that is skipped or the wallet finds it registered. -/
def classPublication (contract : ContractInstance) : Except Error (List ExecutionPayload) :=
  if opts.skipClassPublication then .ok []
  else match environment.isClassPubliclyRegistered contract.currentContractClassId with
    | .ok true => .ok []
    | _ => (publishContractClass environment.crypto method.artifact).map (fun interaction =>
        [interaction.request])

/-- The third part of `DeployMethod::request`. -/
def instancePublication (contract : ContractInstance) : List ExecutionPayload :=
  if opts.skipInstancePublication then []
  else [(publishInstance environment.crypto contract).request]

/-- The fourth part of `DeployMethod::request`: the call of the constructor. -/
def initialization (contract : ContractInstance) : Except Error (List ExecutionPayload) :=
  if opts.skipInitialization then .ok []
  else match method.constructorName with
    | none => .ok []
    | some constructorName => do
      let function ← method.artifact.findFunction constructorName
      let encodedFields ← function.encodeArguments method.args
      .ok [{ calls :=
               [{ toAddress := contract.address
                  selector := function.selector
                  args := encodedFields.map AbiValue.field
                  functionType := function.functionType }] }]

/-- The payloads `DeployMethod::request` merges. -/
def payloads : Except Error (List ExecutionPayload) := do
  let contract ← method.getInstance environment opts
  registration environment opts contract
  let classPayloads ← method.classPublication environment opts contract
  let constructorPayloads ← method.initialization opts contract
  .ok (classPayloads ++ instancePublication environment opts contract ++ constructorPayloads)

/-- `DeployMethod::request`. -/
def request : Except Error ExecutionPayload := do
  ExecutionPayload.merge (← method.payloads environment opts)

variable {environment method opts}

theorem classPublication_no_payer {contract : ContractInstance} {published : List ExecutionPayload}
    (done : method.classPublication environment opts contract = .ok published) :
    ∀ payload ∈ published, payload.feePayer = none := by
  intro payload held
  simp only [classPublication] at done
  split at done
  · cases done
    cases held
  · split at done
    · cases done
      cases held
    · obtain ⟨interaction, -, rfl⟩ := map_eq_ok done
      rw [List.mem_singleton.mp held]
      rfl

theorem initialization_no_payer {contract : ContractInstance} {called : List ExecutionPayload}
    (done : method.initialization opts contract = .ok called) :
    ∀ payload ∈ called, payload.feePayer = none := by
  intro payload held
  simp only [initialization] at done
  split at done
  · cases done
    cases held
  · split at done
    · cases done
      cases held
    · obtain ⟨function, -, done⟩ := bind_eq_ok.mp done
      obtain ⟨encodedFields, -, done⟩ := bind_eq_ok.mp done
      cases done
      rw [List.mem_singleton.mp held]

/-- No part of a deployment names a fee payer. -/
theorem payloads_no_payer {parts : List ExecutionPayload}
    (done : method.payloads environment opts = .ok parts) :
    ∀ payload ∈ parts, payload.feePayer = none := by
  obtain ⟨contract, -, done⟩ := bind_eq_ok.mp done
  obtain ⟨-, -, done⟩ := bind_eq_ok.mp done
  obtain ⟨published, classDone, done⟩ := bind_eq_ok.mp done
  obtain ⟨called, constructorDone, done⟩ := bind_eq_ok.mp done
  cases done
  intro payload held
  rcases List.mem_append.mp held with held | held
  · rcases List.mem_append.mp held with held | held
    · exact classPublication_no_payer classDone payload held
    · simp only [instancePublication] at held
      split at held
      · cases held
      · rw [List.mem_singleton.mp held]
        rfl
  · exact initialization_no_payer constructorDone payload held

/-- So the merge at the end of a deployment's request refuses nothing. -/
theorem request_of_payloads {parts : List ExecutionPayload}
    (done : method.payloads environment opts = .ok parts) :
    method.request environment opts = .ok (parts.foldl ExecutionPayload.extend {}) := by
  simp only [request, done, ok_bind]
  exact ExecutionPayload.merge_of_no_payer (payloads_no_payer done)

end DeployMethod

end AztecPxe
