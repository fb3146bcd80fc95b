import AztecPxe.AccountEntrypoint
import AztecPxe.Entrypoints

/-! The address a published instance gets. `deployment.rs` flattens an instance into sixteen
fields, of which the deployer is only a flag; `embedded_pxe.rs` and `oracle.rs` put the
instance together again and hash it. A call at the top level is deployed by its origin. A
nested call is deployed by the sender for tags, whoever calls. -/
namespace AztecPxe.PublishedAddress
open AztecPxe PrivateExecutionOracle EmbeddedPxe

/-- The arguments of `publish_instance` as the registry gets them. -/
def flattenedArgs (crypto : Crypto) (contract : ContractInstance) : List Fr :=
  AccountEntrypoint.abiValuesToFields (publishInstance crypto contract).call.args

/-- The address an instance has under another deployer. -/
def addressUnder (crypto : Crypto) (contract : ContractInstance) (deployer : AztecAddress) :
    Except Error AztecAddress :=
  crypto.computeContractAddressFromInstance contract.salt contract.initializationHash deployer
    contract.originalContractClassId contract.publicKeys

/-- An instance whose address is that of its own fields, its class never updated. -/
structure Derived (crypto : Crypto) (contract : ContractInstance) : Prop where
  address : addressUnder crypto contract contract.deployer = .ok contract.address
  original : contract.currentContractClassId = contract.originalContractClassId

/-- What the `bb.js` helper is relied on for: it answers with an instance that has the address
of its fields. -/
def HelperDerives (environment : DeployEnvironment) : Prop :=
  ∀ ⦃given kept artifactHash privateFunctionsRoot commitment⦄, Derived environment.crypto given →
    environment.canonicalizeInstance given artifactHash privateFunctionsRoot commitment = .ok kept →
      Derived environment.crypto kept

/-- The instance of a deployment has the address of its fields. -/
theorem derived_of_getInstance {environment : DeployEnvironment} {method : DeployMethod}
    {opts : DeployOptions} {contract : ContractInstance} (helper : HelperDerives environment)
    (predicted : method.getInstance environment opts = .ok contract) :
    Derived environment.crypto contract := by
  simp only [DeployMethod.getInstance, bind_eq_ok] at predicted
  obtain ⟨privateFunctionsRoot, -, initFn, -, initializationHash, -, address, computed, kept⟩ :=
    predicted
  refine helper (Derived.mk ?_ rfl) kept
  exact computed

section Arguments
variable {crypto : Crypto} {contract : ContractInstance}

/-- The sixteen fields, in their places. -/
theorem flattenedArgs_eq :
    flattenedArgs crypto contract =
      [contract.salt, contract.currentContractClassId, contract.initializationHash] ++
        [contract.publicKeys.masterNullifierPublicKey,
          contract.publicKeys.masterIncomingViewingPublicKey,
          contract.publicKeys.masterOutgoingViewingPublicKey,
          contract.publicKeys.masterTaggingPublicKey].flatMap
            (fun point => [point.x, point.y, Fr.ofBool point.isInfinite]) ++
        [Fr.ofBool (contract.deployer = .zero)] :=
  rfl

theorem length_flattenedArgs : (flattenedArgs crypto contract).length = 16 := rfl

/-- The keys come back, points at infinity included. -/
theorem publishedKeys_flattenedArgs :
    publishedKeys (flattenedArgs crypto contract) = contract.publicKeys := by
  have point_comes_back (point : Point) :
      (⟨point.x, point.y, decide (Fr.ofBool point.isInfinite ≠ 0)⟩ : Point) = point := by
    rw [AccountEntrypoint.ofBool_ne_zero]
  rw [publishedKeys, flattenedArgs_eq]
  exact congr (congr (congr (congrArg PublicKeys.mk (point_comes_back _)) (point_comes_back _))
    (point_comes_back _)) (point_comes_back _)

/-- The flag is set for an instance without a deployer only. -/
theorem universalDeploy_flattenedArgs :
    (flattenedArgs crypto contract).getD 15 0 ≠ 0 ↔ contract.deployer = .zero := by
  have flag := AccountEntrypoint.ofBool_ne_zero (decide (contract.deployer = .zero))
  rw [decide_eq_decide] at flag
  exact flag

/-- The registry's handlers hash the fields of the instance under the deployer they take. -/
theorem address_of_flattenedArgs (derived : Derived crypto contract) (deployer : AztecAddress) :
    let args := flattenedArgs crypto contract
    crypto.computeContractAddressFromInstance (args.getD 0 0) (args.getD 2 0) deployer
      (args.getD 1 0) (publishedKeys args) = addressUnder crypto contract deployer := by
  intro args
  rw [addressUnder, ← derived.original, publishedKeys_flattenedArgs]
  rfl

end Arguments

/-- What is recorded of a published instance: one nullifier and one log, with its address. -/
structure Publishes (address : AztecAddress) (nullifiers : List ScopedNullifier)
    (privateLogs : List PrivateLogData) : Prop where
  nullifier : nullifiers.map (·.nullifier.value) = [address.inner]
  log : privateLogs.map (fun log => log.fields[1]?) = [some address.inner]

/-- A call to the registry at the top level that publishes an instance under this address. -/
def PublishesAtTop (crypto : Crypto) (contracts : ContractStore) (origin : AztecAddress)
    (protocolNullifier : Fr) (capsules : List Capsule) (call : DecodedEntrypointCall)
    (address : AztecAddress) : Prop :=
  ∃ bundle, executeEntrypointCallBundle crypto contracts origin protocolNullifier capsules call
    .publishInstance = .ok bundle ∧
      Publishes address bundle.executionResult.entrypoint.nullifiers
        bundle.executionResult.entrypoint.privateLogs

/-- A nested call that adds to its caller's effects an instance under this address. -/
def PublishesNested (crypto : Crypto) (contracts : ContractStore) (oracle : PrivateExecutionOracle)
    (args : Args) (address : AztecAddress) : Prop :=
  ∃ answer next nullifiers privateLogs,
    oracle.enter crypto contracts args = .ok (.handled answer next) ∧
      next.nullifiers = oracle.nullifiers ++ nullifiers ∧
      next.privateLogs = oracle.privateLogs ++ privateLogs ∧
      Publishes address nullifiers privateLogs

/-- A private function calls the registry with the arguments of `publish_instance`. -/
structure CallsRegistry (crypto : Crypto) (contract : ContractInstance)
    (oracle : PrivateExecutionOracle) (args : Args) (call : NestedCall) : Prop where
  read : oracle.readCall args = .ok call
  target : call.target = contractInstanceRegistry
  selector : FunctionSelector.fromField call.selectorField =
    Hash.selectorFromSignature crypto.poseidon2 publishForPublicExecutionSignature
  mutable : call.isStatic = false
  cached : oracle.executionCache[call.argsHash]? = some (flattenedArgs crypto contract)

section Handlers
variable {crypto : Crypto} {contracts : ContractStore} {contract : ContractInstance}

/-- At the top level the deployer is the origin, unless the instance has none. -/
theorem publishes_at_top (derived : Derived crypto contract) {origin : AztecAddress}
    {call : DecodedEntrypointCall} (encoded : call.encodedArgs = flattenedArgs crypto contract)
    (deployed : contract.deployer = .zero ∨ contract.deployer = origin) (protocolNullifier : Fr)
    (capsules : List Capsule) :
    PublishesAtTop crypto contracts origin protocolNullifier capsules call contract.address := by
  have long : ¬ (flattenedArgs crypto contract).length < 16 := by
    rw [length_flattenedArgs]
    exact lt_irrefl 16
  have deployer : (if (flattenedArgs crypto contract).getD 15 0 ≠ 0 then AztecAddress.zero
      else origin) = contract.deployer := by
    split
    next universal => exact (universalDeploy_flattenedArgs.mp universal).symm
    next owned =>
      exact (deployed.resolve_left (fun none => owned (universalDeploy_flattenedArgs.mpr none))).symm
  have address := (address_of_flattenedArgs derived contract.deployer).trans derived.address
  simp only [PublishesAtTop, executeEntrypointCallBundle, publishInstanceBundle, encoded,
    if_neg long, deployer, address]
  exact ⟨_, rfl, rfl, rfl⟩

/-- A nested call to the registry goes to its handler. -/
theorem enter_callsRegistry {oracle : PrivateExecutionOracle} {args : Args} {call : NestedCall}
    (calls : CallsRegistry crypto contract oracle args call) :
    oracle.enter crypto contracts args =
      (oracle.handleNestedPublishInstance crypto call
        (Hash.selectorFromSignature crypto.poseidon2 publishForPublicExecutionSignature)
        (flattenedArgs crypto contract)).map (fun reply => .handled reply.1 reply.2) := by
  have other : contractInstanceRegistry ≠ contractClassRegistry := by decide
  simp only [enter, calls.read, calls.cached, tryHandleProtocolNestedPrivateCall, calls.mutable,
    calls.target, calls.selector, other, Option.getD_some]
  cases oracle.handleNestedPublishInstance crypto call
      (Hash.selectorFromSignature crypto.poseidon2 publishForPublicExecutionSignature)
      (flattenedArgs crypto contract) with
  | error e => rfl
  | ok reply => rfl

/-- A nested call publishes the address the instance has under the deployer the handler
takes. -/
theorem publishesNested_iff (derived : Derived crypto contract) {oracle : PrivateExecutionOracle}
    {args : Args} {call : NestedCall} (calls : CallsRegistry crypto contract oracle args call)
    (address : AztecAddress) :
    PublishesNested crypto contracts oracle args address ↔
      addressUnder crypto contract (oracle.publishingDeployer (flattenedArgs crypto contract)) =
        .ok address := by
  have long : ¬ (flattenedArgs crypto contract).length < 16 := by
    rw [length_flattenedArgs]
    exact lt_irrefl 16
  simp only [PublishesNested, enter_callsRegistry calls, handleNestedPublishInstance, if_neg long,
    address_of_flattenedArgs derived]
  cases addressUnder crypto contract
      (oracle.publishingDeployer (flattenedArgs crypto contract)) with
  | error e =>
    constructor
    · rintro ⟨answer, next, nullifiers, privateLogs, ⟨⟩, -⟩
    · intro none
      cases none
  | ok published =>
    constructor
    · rintro ⟨answer, next, nullifiers, privateLogs, entered, added, -, recorded, -⟩
      cases entered
      rw [← List.append_cancel_left added] at recorded
      have same : published.inner = address.inner := List.singleton_inj.mp recorded
      exact congrArg (fun inner => Except.ok (AztecAddress.mk inner)) same
    · intro same
      cases same
      exact ⟨_, _, _, _, rfl, rfl, rfl, rfl, rfl⟩

/-- The handler takes the instance's own deployer where there is none, or where the sender for
tags is the caller. -/
theorem publishingDeployer_iff {oracle : PrivateExecutionOracle} {sender : AztecAddress}
    (tagged : oracle.senderForTags = some sender)
    (deployed : contract.deployer = .zero ∨ contract.deployer = oracle.contractAddress) :
    oracle.publishingDeployer (flattenedArgs crypto contract) = contract.deployer ↔
      contract.deployer = .zero ∨ oracle.senderForTags = some oracle.contractAddress := by
  by_cases universal : contract.deployer = .zero
  · rw [publishingDeployer, if_pos (universalDeploy_flattenedArgs.mpr universal)]
    exact iff_of_true universal.symm (.inl universal)
  · rw [publishingDeployer, if_neg (fun set => universal (universalDeploy_flattenedArgs.mp set)),
      tagged, Option.getD_some, deployed.resolve_left universal, Option.some.injEq]
    exact ⟨.inr, fun same => same.resolve_left (fun none =>
      universal ((deployed.resolve_left universal).trans none))⟩

end Handlers

/-! ## Runs -/

/-- The account a tree of private calls is executed for. -/
def originOf : Root → AztecAddress
  | .entrypoint origin _ _ _ => origin
  | .topLevel _ origin _ => origin

/-- A call of `setSenderForTags` among these points, with its argument. -/
def Sets (passed : List Step) (sender : AztecAddress) : Prop :=
  ∃ found args, .foreign found .setSenderForTags args ∈ passed ∧ args.first 0 = some sender.inner

theorem Sets.mono {passed later : List Step} {sender : AztecAddress} (sets : Sets passed sender)
    (kept : passed ⊆ later) : Sets later sender := by
  obtain ⟨found, args, held, given⟩ := sets
  exact ⟨found, args, kept held, given⟩

section Runs
variable {crypto : Crypto} {contracts : ContractStore}

/-- The sender for tags is the origin or one that was set. -/
def SenderFrom (origin : AztecAddress) (passed : List Step) (oracle : PrivateExecutionOracle) :
    Prop :=
  ∃ sender, oracle.senderForTags = some sender ∧ (sender = origin ∨ Sets passed sender)

theorem SenderFrom.mono {origin : AztecAddress} {passed later : List Step}
    {oracle next : PrivateExecutionOracle} (held : SenderFrom origin passed oracle)
    (kept : passed ⊆ later) (same : next.senderForTags = oracle.senderForTags) :
    SenderFrom origin later next := by
  obtain ⟨sender, tagged, source⟩ := held
  exact ⟨sender, same.trans tagged, source.imp_right (fun sets => sets.mono kept)⟩

theorem senderFrom_invariant (origin : AztecAddress) :
    Script.Invariant crypto contracts (SenderFrom origin) where
  foreign {passed oracle next args handler} held done := by
    have kept : passed ⊆ passed ++ [.foreign oracle handler args] :=
      List.subset_append_left _ _
    cases done with
    | sender given =>
      exact ⟨_, rfl, .inr ⟨oracle, args, by simp, given⟩⟩
    | _ => exact held.mono kept rfl
  handled {passed oracle next args answer} held done := by
    obtain ⟨call, -, -, published⟩ := enter_handled done
    refine held.mono (List.subset_append_left _ _) ?_
    cases published <;> rfl
  entered held enters := held.mono (List.subset_append_left _ _) rfl
  returned output held enters below ended := by
    refine held.mono ?_ rfl
    rw [List.append_assoc]
    exact List.subset_append_left _ _

/-- In every state of a tree of private calls there is a sender for tags. -/
theorem sender_reached {root : Root} {script : Script} {passed : List Step}
    {oracle : PrivateExecutionOracle}
    (reaches : Script.Reaches crypto contracts script root.oracle passed oracle) :
    SenderFrom (originOf root) passed oracle :=
  (senderFrom_invariant _).at_state reaches (by
    cases root <;> exact ⟨_, rfl, .inl rfl⟩)

/-- An instance of a deployment whose deployer is zero or the caller of the registry is
published under its own address: at the top level always; by a nested call if there is no
deployer or the sender for tags is the calling contract, and only then, unless the address is
also that of another deployer's instance. -/
theorem published_as_predicted {environment : DeployEnvironment} {method : DeployMethod}
    {opts : DeployOptions} {contract : ContractInstance} (helper : HelperDerives environment)
    (predicted : method.getInstance environment opts = .ok contract) :
    (∀ contracts origin protocolNullifier capsules call,
      call.encodedArgs = flattenedArgs environment.crypto contract →
        contract.deployer = .zero ∨ contract.deployer = origin →
          PublishesAtTop environment.crypto contracts origin protocolNullifier capsules call
            contract.address) ∧
    ∀ contracts root script passed oracle,
      Script.Reaches environment.crypto contracts script (Root.oracle root) passed oracle →
        ∀ args call, CallsRegistry environment.crypto contract oracle args call →
          contract.deployer = .zero ∨ contract.deployer = oracle.contractAddress →
            (contract.deployer = .zero ∨ oracle.senderForTags = some oracle.contractAddress →
              PublishesNested environment.crypto contracts oracle args contract.address) ∧
            ((∀ other, addressUnder environment.crypto contract other = .ok contract.address →
                other = contract.deployer) →
              PublishesNested environment.crypto contracts oracle args contract.address →
                contract.deployer = .zero ∨
                  oracle.senderForTags = some oracle.contractAddress) := by
  have derived := derived_of_getInstance helper predicted
  refine ⟨fun contracts origin protocolNullifier capsules call encoded deployed =>
    publishes_at_top derived encoded deployed protocolNullifier capsules, ?_⟩
  intro contracts root script passed oracle reaches args call calls deployed
  obtain ⟨sender, tagged, -⟩ := sender_reached reaches
  have own := @publishingDeployer_iff environment.crypto contract oracle sender tagged deployed
  rw [publishesNested_iff derived calls]
  constructor
  · intro condition
    rw [own.mpr condition]
    exact derived.address
  · intro separate published
    exact own.mp (separate _ published)

/-- Where no call sets the sender for tags, it is the calling contract in the origin's own calls
only. -/
theorem sender_is_caller_iff {root : Root} {script : Script} {passed : List Step}
    {oracle : PrivateExecutionOracle}
    (reaches : Script.Reaches crypto contracts script root.oracle passed oracle)
    (unset : ∀ sender, ¬ Sets passed sender) :
    oracle.senderForTags = some oracle.contractAddress ↔ oracle.contractAddress = originOf root := by
  obtain ⟨sender, tagged, source⟩ := sender_reached reaches
  rw [tagged, Option.some.injEq, source.resolve_right (unset sender)]
  exact eq_comm

end Runs

/-! ## Samples -/

/-- Hashes that add up, with an address for every sum. -/
def summedAddresses : Crypto := { Crypto.summed with computeAddress := fun _ hash => .ok ⟨hash⟩ }

/-- An environment without the `bb.js` helper. -/
def sampleEnvironment : DeployEnvironment where
  crypto := summedAddresses
  canonicalizeInstance := fun contract _ _ _ => .ok contract
  registerContract := fun _ => .ok ()
  isClassPubliclyRegistered := fun _ => .ok false

/-- A deployment of an artifact without a constructor. -/
def sampleMethod : DeployMethod where
  artifact := ⟨"Sample", [], 1, .ok 2, 3, .ok []⟩
  args := []
  publicKeys := ⟨⟨1, 2, false⟩, ⟨3, 4, false⟩, ⟨0, 0, true⟩, ⟨5, 6, false⟩⟩
  constructorName := none
  defaultSalt := 4

/-- The deployment by the contract at address seven. -/
def sampleOptions : DeployOptions := { fromAddress := some ⟨7⟩ }

/-- The instance of that deployment. -/
def sampleContract : ContractInstance :=
  let classId := Hash.computeContractClassId summedAddresses.poseidon2 1 2 3
  { address := ⟨summedAddresses.poseidon2 [2103633018, classId, summedAddresses.poseidon2
      [2103633018, 4, 0, 7]]⟩
    salt := 4
    deployer := ⟨7⟩
    currentContractClassId := classId
    originalContractClassId := classId
    initializationHash := 0
    publicKeys := sampleMethod.publicKeys }

theorem sampleContract_predicted :
    sampleMethod.getInstance sampleEnvironment sampleOptions = .ok sampleContract :=
  rfl

/-- The contract at address seven, called by the account at address one. -/
def sampleRoot : Root := .topLevel ⟨⟨7⟩, ⟨0⟩, [], false, false⟩ ⟨1⟩ 0

/-- A call to the registry with the arguments cached under nine. -/
def publishArgs : Args :=
  [[2], [(Hash.selectorFromSignature summedAddresses.poseidon2
    publishForPublicExecutionSignature).toField], [9]]

/-- What is cached before the call. -/
def cacheArgs : Args := [flattenedArgs summedAddresses sampleContract, [9]]

theorem callsRegistry_of_cached (oracle : PrivateExecutionOracle) :
    CallsRegistry summedAddresses sampleContract (oracle.withCachedValues cacheArgs) publishArgs
      ⟨contractInstanceRegistry, (Hash.selectorFromSignature summedAddresses.poseidon2
        publishForPublicExecutionSignature).toField, 9, oracle.sideEffectCounter, false⟩ where
  read := rfl
  target := rfl
  selector := AccountEntrypoint.fromField_toField _
  mutable := rfl
  cached := Std.ExtTreeMap.getElem?_insert_self

/-- A contract that has set itself as the sender for tags publishes the instance it deploys
under the predicted address, and so does an account that publishes its own. -/
theorem own_sender_publishes :
    PublishesNested summedAddresses .empty
      ({ sampleRoot.oracle with senderForTags := some ⟨7⟩ }.withCachedValues cacheArgs) publishArgs
      sampleContract.address ∧
    PublishesAtTop summedAddresses .empty ⟨7⟩ 0 []
      ⟨⟨2⟩, ⟨0⟩, flattenedArgs summedAddresses sampleContract, false, false⟩
      sampleContract.address :=
  have helper : HelperDerives sampleEnvironment := fun _ _ _ _ _ derived kept => by
    cases kept
    exact derived
  have both := published_as_predicted helper sampleContract_predicted
  have reaches : Script.Reaches summedAddresses .empty
      (.foreign .setSenderForTags [[7]] (.foreign .storeInExecutionCache cacheArgs .done))
      sampleRoot.oracle _ _ := .foreign rfl (.foreign rfl .here)
  ⟨(both.2 _ sampleRoot _ _ _ reaches _ _ (callsRegistry_of_cached _) (.inr rfl)).1 (.inr rfl),
    both.1 _ _ _ _ _ rfl (.inr rfl)⟩

/-- A contract called by an account publishes the instance it deploys under another address. -/
theorem called_contract_publishes_other_address :
    let oracle := sampleRoot.oracle.withCachedValues cacheArgs
    sampleMethod.getInstance sampleEnvironment sampleOptions = .ok sampleContract ∧
      Script.Reaches summedAddresses .empty
        (.foreign .storeInExecutionCache cacheArgs (.callPrivate publishArgs .done {} .done))
        sampleRoot.oracle [.foreign sampleRoot.oracle .storeInExecutionCache cacheArgs] oracle ∧
      (∃ call, CallsRegistry summedAddresses sampleContract oracle publishArgs call) ∧
      sampleContract.deployer = oracle.contractAddress ∧
      ¬ PublishesNested summedAddresses .empty oracle publishArgs sampleContract.address := by
  intro oracle
  have calls := callsRegistry_of_cached sampleRoot.oracle
  refine ⟨rfl, .foreign rfl .here, ⟨_, calls⟩, rfl, fun published => ?_⟩
  have address := (publishesNested_iff ⟨rfl, rfl⟩ calls _).mp published
  have origin : oracle.publishingDeployer (flattenedArgs summedAddresses sampleContract) = ⟨1⟩ :=
    if_neg (fun set => absurd (universalDeploy_flattenedArgs.mp set) (by decide))
  rw [origin] at address
  have inner := congrArg AztecAddress.inner (Except.ok.inj address)
  exact absurd inner (by decide)

end AztecPxe.PublishedAddress
