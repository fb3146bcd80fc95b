import AztecPxe.ClassId
import AztecPxe.Deployment
import AztecPxe.Run

/-! The contract store of the PXE and the three calls that write it,
`stores/contract_store.rs` and `embedded_pxe.rs`. Instances are stored under their
address and artifacts under a class id, which all instances of the class share; each
call checks another part of what should bind the two. -/
namespace AztecPxe.ContractRegistry
open AztecPxe Abi ClassId

/-- What the calls ask outside: the hashes of an artifact, the address of an instance
and the node's answer to the registration of function signatures. -/
structure Environment extends Digests where
  computeAddress : PublicKeys → Fr → Except Error AztecAddress
  registerContractFunctionSignatures : List String → Except Error Unit

/-- `contract_store.rs::ContractStore`, each entry as it is read back. -/
structure ContractTables where
  instances : Std.ExtTreeMap AztecAddress ContractInstance := ∅
  artifacts : Std.ExtTreeMap Fr ContractArtifact := ∅

/-- An artifact that went through `serde_json`: an `outputs` that is JSON null is read
as none. -/
def readBack (artifact : ContractArtifact) : ContractArtifact :=
  match artifact.outputs with
  | some .null => { artifact with outputs := none }
  | _ => artifact

namespace ContractTables

/-- `add_instance`. -/
def addInstance (tables : ContractTables) (contract : ContractInstance) : ContractTables :=
  { tables with instances := tables.instances.insert contract.address contract }

/-- `add_artifact`. -/
def addArtifact (tables : ContractTables) (classId : Fr) (artifact : ContractArtifact) :
    ContractTables :=
  { tables with artifacts := tables.artifacts.insert classId (readBack artifact) }

end ContractTables

/-- `public_function_signatures`. -/
def publicFunctionSignatures (artifact : ContractArtifact) : List String :=
  (artifact.functions.filter (fun function => function.functionType = .publicFunction)).map
    (fun function => function.name ++ "(" ++
      ",".intercalate (AbiType.memberSignatures function.parameters) ++ ")")

section Calls
variable (env : Environment)

/-- `compute_contract_address_from_instance`. -/
def computeContractAddressFromInstance (contract : ContractInstance) : Except Error AztecAddress :=
  Crypto.computeContractAddressFromInstance ⟨env.poseidon2, env.computeAddress⟩ contract.salt
    contract.initializationHash contract.deployer contract.originalContractClassId
    contract.publicKeys

/-- `register_contract_class`, or nothing where the class id panics. -/
def registerContractClass (artifact : ContractArtifact) (tables : ContractTables) :
    Option (Except Error ContractTables) := do
  let classId ← computeContractClassIdFromArtifact env.toDigests artifact
  return .ok (tables.addArtifact classId artifact)

/-- The checks of `register_contract` on an artifact of this class id, and the
registration of its public signatures with the node. -/
def checkArtifact (allowBbjsCanonicalIds : Bool) (contract : ContractInstance)
    (artifact : ContractArtifact) (computedClassId : Fr) : Except Error Unit :=
  if computedClassId ≠ contract.currentContractClassId ∧ allowBbjsCanonicalIds = false then
    .error (.invalidData ("artifact class id " ++ hex32 computedClassId.val ++
      " does not match instance class id " ++ hex32 contract.currentContractClassId.val))
  else do
    let computedAddress ← computeContractAddressFromInstance env contract
    if computedAddress ≠ contract.address ∧ allowBbjsCanonicalIds = false then
      .error (.invalidData ("artifact instance address " ++ hex32 contract.address.inner.val ++
        " does not match computed contract address " ++ hex32 computedAddress.inner.val))
    else
      let signatures := publicFunctionSignatures artifact
      if signatures.isEmpty then .ok () else env.registerContractFunctionSignatures signatures

/-- `register_contract`, where the variable `PXE_BENCH_REAL_PROOFS` has this value; or
nothing where the class id panics. -/
def registerContract (benchRealProofs : Option String) (contract : ContractInstance)
    (artifact : Option ContractArtifact) (tables : ContractTables) :
    Option (Except Error ContractTables) :=
  match artifact with
  | some artifact => do
    let allowBbjsCanonicalIds := benchRealProofs.any (fun value =>
      value = "1" || value = "true" || value = "TRUE")
    let computedClassId ← computeContractClassIdFromArtifact env.toDigests artifact
    return (checkArtifact env allowBbjsCanonicalIds contract artifact computedClassId).map
      (fun _ => (tables.addInstance contract).addArtifact contract.currentContractClassId artifact)
  | none => match tables.artifacts[contract.currentContractClassId]? with
    | none => some (.error (.invalidData ("artifact not found for contract class " ++
        hex32 contract.currentContractClassId.val)))
    | some _ => some (.ok (tables.addInstance contract))

/-- `update_contract`, through `update_artifact`. -/
def updateContract (address : AztecAddress) (artifact : ContractArtifact)
    (tables : ContractTables) : Except Error ContractTables :=
  match tables.instances[address]? with
  | none => .error (.invalidData ("contract not found at " ++ hex32 address.inner.val))
  | some contract => .ok (tables.addArtifact contract.currentContractClassId artifact)

/-- A call that writes the contract store. -/
inductive Call where
  | registerContractClass (artifact : ContractArtifact)
  | registerContract (contract : ContractInstance) (artifact : Option ContractArtifact)
  | updateContract (address : AztecAddress) (artifact : ContractArtifact)

/-- The store a call leaves where it returns `Ok`, with `PXE_BENCH_REAL_PROOFS` unset. -/
def succeeds (tables : ContractTables) : Call → Option ContractTables
  | .registerContractClass artifact =>
    (registerContractClass env artifact tables).bind Except.toOption
  | .registerContract contract artifact =>
    (registerContract env none contract artifact tables).bind Except.toOption
  | .updateContract address artifact => (updateContract address artifact tables).toOption

/-- The store after a call: nothing is written before the last thing that can fail. -/
def step (tables : ContractTables) (call : Call) : ContractTables :=
  (succeeds env tables call).getD tables

/-- The store after a run. -/
def run (calls : List Call) : ContractTables := calls.foldl (step env) {}

/-- Every artifact is under its own class id, every instance under the address of its
own data, and every instance's class is known. -/
structure Bound (tables : ContractTables) : Prop where
  classes : ∀ {classId : Fr} {artifact : ContractArtifact}, tables.artifacts[classId]? = some artifact →
    computeContractClassIdFromArtifact env.toDigests artifact = some classId
  addresses : ∀ {address : AztecAddress} {contract : ContractInstance}, tables.instances[address]? = some contract →
    computeContractAddressFromInstance env contract = .ok contract.address
  known : ∀ {address : AztecAddress} {contract : ContractInstance}, tables.instances[address]? = some contract →
    ∃ artifact, tables.artifacts[contract.currentContractClassId]? = some artifact

/-- The artifact a call brings is, as it is read back, of the class it is stored
under, and an instance that comes without one has the address of its data. -/
def Proper (tables : ContractTables) (call : Call) : Prop :=
  succeeds env tables call = none ∨ match call with
  | .registerContractClass artifact =>
    computeContractClassIdFromArtifact env.toDigests (readBack artifact) =
      computeContractClassIdFromArtifact env.toDigests artifact
  | .registerContract contract (some artifact) =>
    computeContractClassIdFromArtifact env.toDigests (readBack artifact) =
      some contract.currentContractClassId
  | .registerContract contract none =>
    computeContractAddressFromInstance env contract = .ok contract.address
  | .updateContract address artifact => ∀ contract, tables.instances[address]? = some contract →
    computeContractClassIdFromArtifact env.toDigests (readBack artifact) =
      some contract.currentContractClassId

end Calls

section Steps
variable {env : Environment} {tables : ContractTables}

theorem bound_addArtifact_iff (bound : Bound env tables) (classId : Fr) (artifact : ContractArtifact) :
    Bound env (tables.addArtifact classId artifact) ↔
      computeContractClassIdFromArtifact env.toDigests (readBack artifact) = some classId := by
  have artifacts : ∀ asked, (tables.addArtifact classId artifact).artifacts[asked]? =
      if classId = asked then some (readBack artifact) else tables.artifacts[asked]? := by
    intro asked
    unfold ContractTables.addArtifact
    rw [Std.ExtTreeMap.getElem?_insert]
    simp only [compare_eq_iff_eq]
  constructor
  · intro after
    refine after.classes ?_
    rw [artifacts, if_pos rfl]
  · intro right
    constructor
    case classes =>
      intro asked stored found
      rw [artifacts] at found
      split at found
      next same =>
        cases found
        exact same ▸ right
      next => exact bound.classes found
    case addresses => exact bound.addresses
    case known =>
      intro address contract found
      rw [artifacts]
      split
      next => exact ⟨_, rfl⟩
      next => exact bound.known found

theorem bound_addInstance_iff (bound : Bound env tables) {contract : ContractInstance}
    (known : ∃ artifact, tables.artifacts[contract.currentContractClassId]? = some artifact) :
    Bound env (tables.addInstance contract) ↔
      computeContractAddressFromInstance env contract = .ok contract.address := by
  have instances : ∀ asked, (tables.addInstance contract).instances[asked]? =
      if contract.address = asked then some contract else tables.instances[asked]? := by
    intro asked
    unfold ContractTables.addInstance
    rw [Std.ExtTreeMap.getElem?_insert]
    simp only [Std.LawfulEqCmp.compare_eq_iff_eq]
  constructor
  · intro after
    have stored : (tables.addInstance contract).instances[contract.address]? = some contract := by
      rw [instances, if_pos rfl]
    exact after.addresses stored
  · intro right
    constructor
    case classes => exact bound.classes
    case addresses =>
      intro asked stored found
      rw [instances] at found
      split at found
      next =>
        cases found
        exact right
      next => exact bound.addresses found
    case known =>
      intro asked stored found
      rw [instances] at found
      split at found
      next =>
        cases found
        exact known
      next => exact bound.known found

/-- The checks of `register_contract` bind the artifact and the address. -/
theorem checkArtifact_ok {contract : ContractInstance} {artifact : ContractArtifact} {classId : Fr}
    (passed : checkArtifact env false contract artifact classId = .ok ()) :
    classId = contract.currentContractClassId ∧
      computeContractAddressFromInstance env contract = .ok contract.address := by
  unfold checkArtifact at passed
  split at passed
  next => cases passed
  next classes =>
    obtain ⟨address, computed, passed⟩ := bind_eq_ok.mp passed
    split at passed
    next => cases passed
    next addresses =>
      have sameClass : classId = contract.currentContractClassId := by
        by_contra different
        exact classes ⟨different, rfl⟩
      have sameAddress : address = contract.address := by
        by_contra different
        exact addresses ⟨different, rfl⟩
      exact ⟨sameClass, sameAddress ▸ computed⟩

/-- What a call that succeeds has written. -/
theorem succeeds_cases {call : Call} {after : ContractTables}
    (done : succeeds env tables call = some after) :
    (∃ artifact classId, call = .registerContractClass artifact ∧
      computeContractClassIdFromArtifact env.toDigests artifact = some classId ∧
      after = tables.addArtifact classId artifact) ∨
    (∃ contract artifact, call = .registerContract contract (some artifact) ∧
      computeContractAddressFromInstance env contract = .ok contract.address ∧
      after = (tables.addArtifact contract.currentContractClassId artifact).addInstance contract) ∨
    (∃ contract artifact, call = .registerContract contract none ∧
      tables.artifacts[contract.currentContractClassId]? = some artifact ∧
      after = tables.addInstance contract) ∨
    ∃ address artifact contract, call = .updateContract address artifact ∧
      tables.instances[address]? = some contract ∧
      after = tables.addArtifact contract.currentContractClassId artifact := by
  cases call with
  | registerContractClass artifact =>
    left
    unfold succeeds registerContractClass at done
    dsimp only at done
    cases computed : computeContractClassIdFromArtifact env.toDigests artifact with
    | none =>
      rw [computed] at done
      cases done
    | some classId =>
      rw [computed] at done
      cases done
      exact ⟨artifact, classId, rfl, computed, rfl⟩
  | registerContract contract artifact =>
    right
    unfold succeeds registerContract at done
    cases artifact with
    | some artifact =>
      left
      dsimp only at done
      cases computed : computeContractClassIdFromArtifact env.toDigests artifact with
      | none =>
        rw [computed] at done
        cases done
      | some classId =>
        rw [computed] at done
        cases passed : checkArtifact env false contract artifact classId with
        | error e =>
          simp [passed, Except.map, Except.toOption] at done
        | ok _ =>
          obtain ⟨-, address⟩ := checkArtifact_ok passed
          simp [passed, Except.map, Except.toOption] at done
          exact ⟨contract, artifact, rfl, address, done.symm⟩
    | none =>
      right
      left
      dsimp only at done
      split at done
      next => cases done
      next artifact held =>
        cases done
        exact ⟨contract, artifact, rfl, held, rfl⟩
  | updateContract address artifact =>
    right
    right
    right
    unfold succeeds updateContract at done
    dsimp only at done
    split at done
    next => cases done
    next contract held =>
      cases done
      exact ⟨address, artifact, contract, rfl, held, rfl⟩

/-- A call keeps the binding exactly where it is proper. -/
theorem bound_step_iff (bound : Bound env tables) (call : Call) :
    Bound env (step env tables call) ↔ Proper env tables call := by
  unfold step Proper
  cases done : succeeds env tables call with
  | none => exact ⟨fun _ => .inl rfl, fun _ => bound⟩
  | some after =>
    rw [Option.getD_some]
    have only : ∀ {P : Prop}, (some after = none ∨ P) ↔ P := by simp
    rw [only]
    rcases succeeds_cases done with ⟨artifact, classId, rfl, computed, rfl⟩ |
      ⟨contract, artifact, rfl, address, rfl⟩ | ⟨contract, artifact, rfl, held, rfl⟩ |
      ⟨address, artifact, contract, rfl, held, rfl⟩
    · rw [bound_addArtifact_iff bound]
      dsimp only
      rw [computed]
    · -- The artifact is there for the instance, whichever of the two is written first.
      constructor
      · intro after
        refine after.classes ?_
        unfold ContractTables.addInstance ContractTables.addArtifact
        exact Std.ExtTreeMap.getElem?_insert_self
      · intro right
        refine (bound_addInstance_iff ((bound_addArtifact_iff bound _ _).mpr right) ?_).mpr address
        unfold ContractTables.addArtifact
        exact ⟨_, Std.ExtTreeMap.getElem?_insert_self⟩
    · exact bound_addInstance_iff bound ⟨artifact, held⟩
    · rw [bound_addArtifact_iff bound]
      constructor
      · intro right other found
        cases held.symm.trans found
        exact right
      · intro right
        exact right contract held

theorem bound_empty : Bound env {} where
  classes found := by simp at found
  addresses found := by simp at found
  known found := by simp at found

end Steps

/-- Artifacts and instances stay bound in every state of a run exactly where every call
is proper. -/
theorem registry_bound_iff (env : Environment) (calls : List Call) :
    (∀ before after, calls = before ++ after → Bound env (run env before)) ↔
      Run.Admitted (step env) (Proper env) {} calls :=
  Run.always_iff bound_empty (fun call bound => bound_step_iff bound call) calls

/-- An artifact without functions. -/
def token : ContractArtifact := { name := "Token" }

/-- Another one, under another name. -/
def faucet : ContractArtifact := { name := "Faucet" }

/-- An instance of this class at address 42. -/
def tokenInstance (classId : Fr) : ContractInstance where
  address := ⟨42⟩
  salt := 0
  deployer := .zero
  currentContractClassId := classId
  originalContractClassId := classId
  initializationHash := 0
  publicKeys := ⟨⟨0, 0, false⟩, ⟨0, 0, false⟩, ⟨0, 0, false⟩, ⟨0, 0, false⟩⟩

/-- With hashes that tell the two artifacts apart, an update puts one under the class
id of the other. -/
theorem update_breaks_binding : ¬ ∃ env : Environment,
    computeContractClassIdFromArtifact env.toDigests token ≠
      computeContractClassIdFromArtifact env.toDigests faucet ∧
    ∀ calls, Bound env (run env calls) := by
  rintro ⟨env, different, always⟩
  obtain ⟨classId, computed⟩ : ∃ classId,
      computeContractClassIdFromArtifact env.toDigests token = some classId := ⟨_, rfl⟩
  have bound := always [.registerContractClass token, .registerContract (tokenInstance classId) none,
    .updateContract ⟨42⟩ faucet]
  have stored : (run env [.registerContractClass token, .registerContract (tokenInstance classId) none,
      .updateContract ⟨42⟩ faucet]).artifacts[classId]? = some faucet := by
    have begun : step env {} (.registerContractClass token) =
        ({} : ContractTables).addArtifact classId token := by
      unfold step succeeds registerContractClass
      dsimp only
      rw [computed]
      rfl
    have held : (({} : ContractTables).addArtifact classId token).artifacts[classId]? = some token :=
      Std.ExtTreeMap.getElem?_insert_self
    have registered : step env (({} : ContractTables).addArtifact classId token)
        (.registerContract (tokenInstance classId) none) =
        (({} : ContractTables).addArtifact classId token).addInstance (tokenInstance classId) := by
      have class_of : (tokenInstance classId).currentContractClassId = classId := rfl
      unfold step succeeds registerContract
      dsimp only
      rw [class_of, held]
      rfl
    have found : ((({} : ContractTables).addArtifact classId token).addInstance
        (tokenInstance classId)).instances[(⟨42⟩ : AztecAddress)]? = some (tokenInstance classId) :=
      Std.ExtTreeMap.getElem?_insert_self
    simp only [run, List.foldl_cons, List.foldl_nil, begun, registered]
    unfold step succeeds updateContract
    dsimp only
    rw [found]
    exact Std.ExtTreeMap.getElem?_insert_self
  exact different (computed.trans (bound.classes stored).symm)

end AztecPxe.ContractRegistry
