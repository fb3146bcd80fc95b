import AztecPxe.BlockSync
import AztecPxe.KernelTypes

/-! The context of a transaction, which `prove_tx` reads twice from one request.
`tx_request_hash` deserializes it with `serde`, which takes a struct as an object
or as the array of its fields; `build_tx_constant_data` follows pointers of member
names and makes zeros of what it does not find. The fee caps of the second are
then raised to the anchor's fees. -/
namespace AztecPxe

/-! ## By pointers -/

/-- `u128::from_str_radix(..).ok()`. -/
def u128FromStrRadix (text : List Char) (radix : Nat) : Option Nat :=
  let digits := match text with
    | '+' :: rest => rest
    | all => all
  if digits = [] then none
  else digits.foldlM (fun value c => do
    let digit ← toDigit c radix
    let value := value * radix + digit
    if value < 2 ^ 128 then some value else none) 0

/-- `parse_u128_str`, if it reads anything. -/
def parseU128Str (text : String) : Option Nat :=
  match text.toList with
  | '0' :: 'x' :: hex => u128FromStrRadix hex 16
  | decimal => u128FromStrRadix decimal 10

namespace Json
variable (value : Json) (path : List String)

/-- `fr_at`. -/
def frAt : Fr :=
  match value.pointer path with
  | some (.str text) => (Fr.fromHex text).toOption.getD 0
  | some (.posInt n) => Fr.ofU64 n.toNat
  | _ => 0

/-- A number, or a text read as one. -/
def numberAt (parse : String → Option Nat) : Nat :=
  match value.pointer path with
  | some (.posInt n) => n.toNat
  | some (.str text) => (parse text).getD 0
  | _ => 0

/-- `u64_at`. -/
def u64At : Nat := value.numberAt path parseBlockNumber

/-- `u32_at`. -/
def u32At : Nat := value.u64At path % 2 ^ 32

/-- `u128_at`. -/
def u128At : Nat := value.numberAt path parseU128Str

/-- `eth_at`: the low twenty bytes. -/
def ethAt : Fin (2 ^ 160) :=
  (((value.pointer path).bind Json.asStr).map (fun text =>
    ⟨((Fr.fromHex text).toOption.getD 0).val % 2 ^ 160, Nat.mod_lt _ (Nat.two_pow_pos 160)⟩)).getD
      ⟨0, Nat.two_pow_pos 160⟩

/-- `snap`. -/
def snapshotAt : AppendOnlyTreeSnapshot where
  root := value.frAt (path ++ ["root"])
  nextAvailableLeafIndex := value.u32At (path ++ ["nextAvailableLeafIndex"])

end Json

/-- The gas limits `build_tx_constant_data` reads under a name. -/
def gasAt (request : Json) (name : String) : Gas where
  daGas := request.u64At ["txContext", "gasSettings", name, "daGas"]
  l2Gas := request.u64At ["txContext", "gasSettings", name, "l2Gas"]

/-- The fees `build_tx_constant_data` reads under a name. -/
def gasFeesAt (request : Json) (name : String) : GasFees where
  feePerDaGas := request.u128At ["txContext", "gasSettings", name, "feePerDaGas"]
  feePerL2Gas := request.u128At ["txContext", "gasSettings", name, "feePerL2Gas"]

namespace EmbeddedPxe

/-- `build_tx_constant_data`. -/
def buildTxConstantData (anchor : AnchorBlockHeader) (request : Json)
    (vkTreeRoot protocolContractsHash : Fr) : TxConstantData where
  anchorBlockHeader :=
    { lastArchive := anchor.data.snapshotAt ["lastArchive"]
      state :=
        { l1ToL2MessageTree := anchor.data.snapshotAt ["state", "l1ToL2MessageTree"]
          partialState :=
            { noteHashTree := anchor.data.snapshotAt ["state", "partial", "noteHashTree"]
              nullifierTree := anchor.data.snapshotAt ["state", "partial", "nullifierTree"]
              publicDataTree := anchor.data.snapshotAt ["state", "partial", "publicDataTree"] } }
      spongeBlobHash := anchor.data.frAt ["spongeBlobHash"]
      globalVariables :=
        { chainId := anchor.data.frAt ["globalVariables", "chainId"]
          version := anchor.data.frAt ["globalVariables", "version"]
          blockNumber := anchor.data.u64At ["globalVariables", "blockNumber"]
          slotNumber := anchor.data.u64At ["globalVariables", "slotNumber"]
          timestamp := anchor.data.u64At ["globalVariables", "timestamp"]
          coinbase := anchor.data.ethAt ["globalVariables", "coinbase"]
          feeRecipient := ⟨anchor.data.frAt ["globalVariables", "feeRecipient"]⟩
          gasFees :=
            { feePerDaGas := anchor.data.u128At ["globalVariables", "gasFees", "feePerDaGas"]
              feePerL2Gas := anchor.data.u128At ["globalVariables", "gasFees", "feePerL2Gas"] } }
      totalFees := anchor.data.frAt ["totalFees"]
      totalManaUsed := anchor.data.frAt ["totalManaUsed"] }
  txContext :=
    { chainId := request.frAt ["txContext", "chainId"]
      version := request.frAt ["txContext", "version"]
      gasSettings :=
        { gasLimits := some (gasAt request "gasLimits")
          teardownGasLimits := some (gasAt request "teardownGasLimits")
          maxFeePerGas := some (gasFeesAt request "maxFeePerGas")
          maxPriorityFeePerGas := some (gasFeesAt request "maxPriorityFeePerGas") } }
  vkTreeRoot := vkTreeRoot
  protocolContractsHash := protocolContractsHash

/-- The least fee `ensure_min_fees` accepts: the anchor's and a half, which wraps
in a release build. -/
def minFee (anchor : AnchorBlockHeader) (name : String) : Nat :=
  let fee := anchor.data.u128At ["globalVariables", "gasFees", name]
  (fee + fee / 2) % 2 ^ 128

/-- The two least fees. -/
def minFees (anchor : AnchorBlockHeader) : GasFees where
  feePerDaGas := minFee anchor "feePerDaGas"
  feePerL2Gas := minFee anchor "feePerL2Gas"

/-- `ensure_min_fees`. -/
def ensureMinFees (anchor : AnchorBlockHeader) (constants : TxConstantData) : TxConstantData :=
  let settings := constants.txContext.gasSettings
  let raised : GasFees := match settings.maxFeePerGas with
    | some fees =>
      { feePerDaGas := if fees.feePerDaGas < (minFees anchor).feePerDaGas
          then (minFees anchor).feePerDaGas else fees.feePerDaGas
        feePerL2Gas := if fees.feePerL2Gas < (minFees anchor).feePerL2Gas
          then (minFees anchor).feePerL2Gas else fees.feePerL2Gas }
    | none => minFees anchor
  { constants with
    txContext := { constants.txContext with
      gasSettings := { settings with maxFeePerGas := some raised } } }

end EmbeddedPxe

/-! ## By `serde` -/

/-- A field element is read from a text only. -/
def Fr.deserialize : Json → Option Fr
  | .str text => (Fr.fromHex text).toOption
  | _ => none

/-- `FunctionSelector::from_hex`: an optional `0x` and at most eight digits. -/
def FunctionSelector.fromHex (text : String) : Except Error FunctionSelector :=
  let bytes := text.toUTF8.toList.map (fun byte => Char.ofNat byte.toNat)
  let raw := match bytes with
    | '0' :: 'x' :: rest => rest
    | all => all
  if 8 < raw.length then .error (.invalidData "function selector must fit in 4 bytes")
  else (hexValue raw).map (fun value => ⟨Fin.ofNat _ value⟩)

/-- A selector is read from a text only. -/
def FunctionSelector.deserialize : Json → Option FunctionSelector
  | .str text => (FunctionSelector.fromHex text).toOption
  | _ => none

/-- An `Option`: null is nothing, and so is a member that is missing. -/
def deserializeOption {α : Type} (read : Json → Option α) : Option Json → Option (Option α)
  | none => some none
  | some .null => some none
  | some value => (read value).map some

/-- A struct of two unsigned numbers; neither a negative number nor one with a
fraction is read. -/
def deserializePair {α : Type} (make : Nat → Nat → α) (first second : String) : Json → Option α
  | .obj members => do
    let a ← (members.lookup first).bind Json.asU64
    let b ← (members.lookup second).bind Json.asU64
    return make a b
  | .arr [a, b] => do return make (← a.asU64) (← b.asU64)
  | _ => none

/-- `Gas::deserialize`. -/
def Gas.deserialize : Json → Option Gas := deserializePair Gas.mk "daGas" "l2Gas"

/-- `GasFees::deserialize`; a `u128` is read from the numbers a value can hold. -/
def GasFees.deserialize : Json → Option GasFees :=
  deserializePair GasFees.mk "feePerDaGas" "feePerL2Gas"

/-- `GasSettings::deserialize`, from its four fields. -/
def GasSettings.ofFields (gasLimits teardownGasLimits maxFeePerGas maxPriorityFeePerGas :
    Option Json) : Option GasSettings := do
  return { gasLimits := ← deserializeOption Gas.deserialize gasLimits
           teardownGasLimits := ← deserializeOption Gas.deserialize teardownGasLimits
           maxFeePerGas := ← deserializeOption GasFees.deserialize maxFeePerGas
           maxPriorityFeePerGas := ← deserializeOption GasFees.deserialize maxPriorityFeePerGas }

/-- `GasSettings::deserialize`. -/
def GasSettings.deserialize : Json → Option GasSettings
  | .obj members =>
    GasSettings.ofFields (members.lookup "gasLimits") (members.lookup "teardownGasLimits")
      (members.lookup "maxFeePerGas") (members.lookup "maxPriorityFeePerGas")
  | .arr [gasLimits, teardownGasLimits, maxFeePerGas, maxPriorityFeePerGas] =>
    GasSettings.ofFields (some gasLimits) (some teardownGasLimits) (some maxFeePerGas)
      (some maxPriorityFeePerGas)
  | _ => none

/-- `tx.rs::TxContext::deserialize`, from its three fields. -/
def TxContext.ofFields (chainId version gasSettings : Json) : Option TxContext := do
  return { chainId := ← Fr.deserialize chainId
           version := ← Fr.deserialize version
           gasSettings := ← GasSettings.deserialize gasSettings }

/-- `tx.rs::TxContext::deserialize`. -/
def TxContext.deserialize : Json → Option TxContext
  | .obj members => do
    TxContext.ofFields (← members.lookup "chainId") (← members.lookup "version")
      (← members.lookup "gasSettings")
  | .arr [chainId, version, gasSettings] => TxContext.ofFields chainId version gasSettings
  | _ => none

deriving instance DecidableEq for TxContext

/-- The `WireTxRequest` of `tx_request_hash`. -/
structure WireTxRequest where
  origin : AztecAddress
  functionSelector : FunctionSelector
  firstCallArgsHash : Fr
  txContext : TxContext
  salt : Fr
  deriving DecidableEq

namespace WireTxRequest

/-- `WireTxRequest::deserialize`, from its five fields. -/
def ofFields (origin functionSelector firstCallArgsHash txContext salt : Json) :
    Option WireTxRequest := do
  return { origin := ⟨← Fr.deserialize origin⟩
           functionSelector := ← FunctionSelector.deserialize functionSelector
           firstCallArgsHash := ← Fr.deserialize firstCallArgsHash
           txContext := ← TxContext.deserialize txContext
           salt := ← Fr.deserialize salt }

/-- `WireTxRequest::deserialize`. -/
def deserialize : Json → Option WireTxRequest
  | .obj members => do
    ofFields (← members.lookup "origin") (← members.lookup "functionSelector")
      (← members.lookup "firstCallArgsHash") (← members.lookup "txContext")
      (← members.lookup "salt")
  | .arr [origin, functionSelector, firstCallArgsHash, txContext, salt] =>
    ofFields origin functionSelector firstCallArgsHash txContext salt
  | _ => none

end WireTxRequest

namespace EmbeddedPxe

/-- `tx.rs::compute_tx_request_hash` of a private entrypoint, with
`domain_separator::TX_REQUEST`; `TxContext::to_fields` lists what `write_fields`
does. -/
def computeTxRequestHash (poseidon2 : List Fr → Fr) (request : WireTxRequest) : Fr :=
  Hash.poseidon2HashWithSeparator poseidon2
    ([request.origin.inner, request.firstCallArgsHash] ++ request.txContext.writeFields ++
      [request.functionSelector.toField, Fr.ofBool true, request.salt]) 3763737512

/-- `tx_request_hash`, if the request is read. -/
def txRequestHash (poseidon2 : List Fr → Fr) (request : Json) : Option Fr :=
  (WireTxRequest.deserialize request).map (computeTxRequestHash poseidon2)

end EmbeddedPxe

/-- A `Vec` of what the items are read as. -/
def deserializeVec {α : Type} (read : Json → Option α) : Json → Option (List α)
  | .arr items => items.mapM read
  | _ => none

/-- `HashedValues::deserialize`; both fields have defaults. -/
def HashedValues.deserialize : Json → Option HashedValues
  | .obj members => do
    let values ← ((members.lookup "values").map (deserializeVec Fr.deserialize)).getD (some [])
    let hash ← ((members.lookup "hash").map Fr.deserialize).getD (some 0)
    return { values := values, hash := hash }
  | .arr [] => some { values := [], hash := 0 }
  | .arr [values] => do return { values := ← deserializeVec Fr.deserialize values, hash := 0 }
  | .arr [values, hash] => do
    return { values := ← deserializeVec Fr.deserialize values, hash := ← Fr.deserialize hash }
  | _ => none

/-- `embedded_pxe.rs::DecodedTxExecutionRequest`. -/
structure DecodedTxExecutionRequest where
  origin : AztecAddress
  firstCallArgsHash : Fr
  argsOfCalls : List HashedValues
  feePayer : Option AztecAddress

namespace DecodedTxExecutionRequest

/-- `DecodedTxExecutionRequest::deserialize`, from its four fields; the last has a
default. -/
def ofFields (origin firstCallArgsHash argsOfCalls : Json) (feePayer : Option Json) :
    Option DecodedTxExecutionRequest := do
  return { origin := ⟨← Fr.deserialize origin⟩
           firstCallArgsHash := ← Fr.deserialize firstCallArgsHash
           argsOfCalls := ← deserializeVec HashedValues.deserialize argsOfCalls
           feePayer := (← deserializeOption Fr.deserialize feePayer).map AztecAddress.mk }

/-- `DecodedTxExecutionRequest::deserialize`. -/
def deserialize : Json → Option DecodedTxExecutionRequest
  | .obj members => do
    ofFields (← members.lookup "origin") (← members.lookup "firstCallArgsHash")
      (← members.lookup "argsOfCalls") (members.lookup "feePayer")
  | .arr [origin, firstCallArgsHash, argsOfCalls] =>
    ofFields origin firstCallArgsHash argsOfCalls none
  | .arr [origin, firstCallArgsHash, argsOfCalls, feePayer] =>
    ofFields origin firstCallArgsHash argsOfCalls (some feePayer)
  | _ => none

end DecodedTxExecutionRequest

namespace TxConstants
open EmbeddedPxe

/-! ## The two readings -/

/-- A request that `prove_tx` reads as both of its structs. -/
structure Accepted (request : Json) (wire : WireTxRequest) : Prop where
  hashed : WireTxRequest.deserialize request = some wire
  decoded : (DecodedTxExecutionRequest.deserialize request).isSome

/-- Where a request has the context and the structs in it. -/
def contextPaths : List (List String) :=
  [["txContext"], ["txContext", "gasSettings"], ["txContext", "gasSettings", "gasLimits"],
    ["txContext", "gasSettings", "teardownGasLimits"], ["txContext", "gasSettings", "maxFeePerGas"],
    ["txContext", "gasSettings", "maxPriorityFeePerGas"]]

/-- None of them is spelled as the array of its fields. -/
def SpelledAsObjects (request : Json) : Prop :=
  ∀ path ∈ contextPaths, ((request.pointer path).bind Json.asArray).isNone

/-- One context: the same chain, limits and fees, where no limit or fee is none. -/
structure SameContext (first second : TxContext) : Prop where
  chainId : first.chainId = second.chainId
  version : first.version = second.version
  gasLimits : first.gasSettings.gasLimits.getD ⟨0, 0⟩ = second.gasSettings.gasLimits.getD ⟨0, 0⟩
  teardownGasLimits : first.gasSettings.teardownGasLimits.getD ⟨0, 0⟩ =
    second.gasSettings.teardownGasLimits.getD ⟨0, 0⟩
  maxFeePerGas : first.gasSettings.maxFeePerGas.getD ⟨0, 0⟩ =
    second.gasSettings.maxFeePerGas.getD ⟨0, 0⟩
  maxPriorityFeePerGas : first.gasSettings.maxPriorityFeePerGas.getD ⟨0, 0⟩ =
    second.gasSettings.maxPriorityFeePerGas.getD ⟨0, 0⟩

/-- The context with every fee cap raised to a least one. -/
def raisedTo (least : GasFees) (context : TxContext) : TxContext :=
  { context with gasSettings := { context.gasSettings with
      maxFeePerGas :=
        let cap := context.gasSettings.maxFeePerGas.getD ⟨0, 0⟩
        some ⟨max cap.feePerDaGas least.feePerDaGas, max cap.feePerL2Gas least.feePerL2Gas⟩ } }

/-- The context `prove_tx` puts into the kernel's constants. -/
def kernelContext (anchor : AnchorBlockHeader) (request : Json)
    (vkTreeRoot protocolContractsHash : Fr) : TxContext :=
  (ensureMinFees anchor
    (buildTxConstantData anchor request vkTreeRoot protocolContractsHash)).txContext

section Read
variable {value : Json} {name : String} {path : List String}

theorem pointer_cons : value.pointer (name :: path) = (value.get name).bind (·.pointer path) := by
  unfold Json.pointer
  rw [List.foldlM_cons]
  rfl

/-- A number is found under a member where the member has it. -/
theorem numberAt_cons {inner : Json} {parse : String → Option Nat} (found : value.get name = some inner) :
    value.numberAt (name :: path) parse = inner.numberAt path parse := by
  unfold Json.numberAt
  rw [pointer_cons, found]
  rfl

theorem numberAt_of_none {parse : String → Option Nat} (missing : value.get name = none) :
    value.numberAt (name :: path) parse = 0 := by
  unfold Json.numberAt
  rw [pointer_cons, missing]
  rfl

theorem numberAt_of_asU64 {inner : Json} {n : Nat} {parse : String → Option Nat}
    (found : value.get name = some inner) (read : inner.asU64 = some n) :
    value.numberAt [name] parse = n := by
  rw [numberAt_cons found]
  cases inner with
  | posInt m => exact Option.some.inj read
  | null | bool | negInt | float | str | arr | obj => cases read

/-- Two numbers that `serde` reads from an object are found by their names. -/
theorem numberAt_of_pair {α : Type} {make : Nat → Nat → α} {first second : String} {made : α}
    (parse : String → Option Nat) (read : deserializePair make first second value = some made)
    (object : ∀ items, value ≠ .arr items) :
    made = make (value.numberAt [first] parse) (value.numberAt [second] parse) := by
  cases value with
  | null | bool | posInt | negInt | float | str => cases read
  | arr items => exact absurd rfl (object items)
  | obj members =>
    unfold deserializePair at read
    obtain ⟨a, foundA, read⟩ := Option.bind_eq_some_iff.mp read
    obtain ⟨b, foundB, read⟩ := Option.bind_eq_some_iff.mp read
    obtain ⟨innerA, heldA, numberA⟩ := Option.bind_eq_some_iff.mp foundA
    obtain ⟨innerB, heldB, numberB⟩ := Option.bind_eq_some_iff.mp foundB
    have memberA : (Json.obj members).get first = some innerA := heldA
    have memberB : (Json.obj members).get second = some innerB := heldB
    rw [numberAt_of_asU64 memberA numberA, numberAt_of_asU64 memberB numberB]
    exact (Option.some.inj read).symm

/-- And zeros where `serde` reads nothing. -/
theorem numberAt_of_option {α : Type} {make : Nat → Nat → α} {first second : String}
    {made : Option α} (parse : String → Option Nat)
    (read : deserializeOption (deserializePair make first second) (value.get name) = some made)
    (object : ∀ items, value.get name ≠ some (.arr items)) :
    made.getD (make 0 0) =
      make (value.numberAt [name, first] parse) (value.numberAt [name, second] parse) := by
  cases found : value.get name with
  | none =>
    rw [found] at read
    cases read
    rw [numberAt_of_none found, numberAt_of_none found]
    rfl
  | some inner =>
    rw [found] at read object
    rw [numberAt_cons found, numberAt_cons found]
    by_cases null : inner = .null
    · subst null
      cases read
      rfl
    · have some_read : (deserializePair make first second inner).map some = some made := by
        cases inner with
        | null => exact absurd rfl null
        | bool | posInt | negInt | float | str | arr | obj => exact read
      obtain ⟨pair, paired, rfl⟩ := Option.map_eq_some_iff.mp some_read
      exact numberAt_of_pair parse paired (fun items same => object items (congrArg some same))

/-- A field element that `serde` reads is found by its name. -/
theorem frAt_of_deserialize {inner : Json} {field : Fr} (found : value.get name = some inner)
    (read : Fr.deserialize inner = some field) : value.frAt [name] = field := by
  unfold Json.frAt
  rw [pointer_cons, found]
  cases inner with
  | str text =>
    change (Fr.fromHex text).toOption = some field at read
    change (Fr.fromHex text).toOption.getD 0 = field
    rw [read]
    rfl
  | null | bool | posInt | negInt | float | arr | obj => cases read

theorem frAt_cons {inner : Json} (found : value.get name = some inner) :
    value.frAt (name :: path) = inner.frAt path := by
  unfold Json.frAt
  rw [pointer_cons, found]
  rfl

end Read

section Context
variable {request context settings : Json}

/-- A struct that `serde` reads and that is no array is an object. -/
private theorem object_of_settings {made : GasSettings}
    (read : GasSettings.deserialize settings = some made) (object : ∀ items, settings ≠ .arr items) :
    ∃ members, settings = .obj members := by
  cases settings with
  | obj members => exact ⟨members, rfl⟩
  | arr items => exact absurd rfl (object items)
  | null | bool | posInt | negInt | float | str => cases read

private theorem object_of_context {made : TxContext}
    (read : TxContext.deserialize context = some made) (object : ∀ items, context ≠ .arr items) :
    ∃ members, context = .obj members := by
  cases context with
  | obj members => exact ⟨members, rfl⟩
  | arr items => exact absurd rfl (object items)
  | null | bool | posInt | negInt | float | str => cases read

/-- No array is read as both structs: their lengths differ. -/
private theorem object_of_accepted {wire : WireTxRequest} (accepted : Accepted request wire) :
    ∃ members, request = .obj members := by
  obtain ⟨hashed, decoded⟩ := accepted
  cases request with
  | obj members => exact ⟨members, rfl⟩
  | arr items =>
    unfold WireTxRequest.deserialize at hashed
    split at hashed
    next same => cases same
    next same =>
      cases same
      cases decoded
    · cases hashed
  | null | bool | posInt | negInt | float | str => cases hashed

/-- What `serde` reads the context of a request from. -/
private theorem context_of_wire {members : List (String × Json)} {wire : WireTxRequest}
    (read : WireTxRequest.deserialize (.obj members) = some wire) :
    ∃ context, (Json.obj members).get "txContext" = some context ∧
      TxContext.deserialize context = some wire.txContext := by
  obtain ⟨origin, -, read⟩ := Option.bind_eq_some_iff.mp read
  obtain ⟨selector, -, read⟩ := Option.bind_eq_some_iff.mp read
  obtain ⟨argsHash, -, read⟩ := Option.bind_eq_some_iff.mp read
  obtain ⟨context, found, read⟩ := Option.bind_eq_some_iff.mp read
  obtain ⟨salt, -, read⟩ := Option.bind_eq_some_iff.mp read
  refine ⟨context, found, ?_⟩
  obtain ⟨o, -, read⟩ := Option.bind_eq_some_iff.mp read
  obtain ⟨f, -, read⟩ := Option.bind_eq_some_iff.mp read
  obtain ⟨a, -, read⟩ := Option.bind_eq_some_iff.mp read
  obtain ⟨made, same, read⟩ := Option.bind_eq_some_iff.mp read
  obtain ⟨s, -, read⟩ := Option.bind_eq_some_iff.mp read
  cases read
  exact same

/-- What `serde` reads the fields of a context from. -/
private theorem settings_of_context {members : List (String × Json)} {made : TxContext}
    (read : TxContext.deserialize (.obj members) = some made) :
    ∃ chainId version settings, (Json.obj members).get "chainId" = some chainId ∧
      (Json.obj members).get "version" = some version ∧
      (Json.obj members).get "gasSettings" = some settings ∧
      Fr.deserialize chainId = some made.chainId ∧ Fr.deserialize version = some made.version ∧
      GasSettings.deserialize settings = some made.gasSettings := by
  obtain ⟨chainId, chainFound, read⟩ := Option.bind_eq_some_iff.mp read
  obtain ⟨version, versionFound, read⟩ := Option.bind_eq_some_iff.mp read
  obtain ⟨settings, settingsFound, read⟩ := Option.bind_eq_some_iff.mp read
  refine ⟨chainId, version, settings, chainFound, versionFound, settingsFound, ?_⟩
  obtain ⟨c, chain, read⟩ := Option.bind_eq_some_iff.mp read
  obtain ⟨v, ver, read⟩ := Option.bind_eq_some_iff.mp read
  obtain ⟨g, gas, read⟩ := Option.bind_eq_some_iff.mp read
  cases read
  exact ⟨chain, ver, gas⟩

/-- What `serde` reads the fields of the gas settings from. -/
private theorem fields_of_settings {members : List (String × Json)} {made : GasSettings}
    (read : GasSettings.deserialize (.obj members) = some made) :
    deserializeOption Gas.deserialize ((Json.obj members).get "gasLimits") = some made.gasLimits ∧
    deserializeOption Gas.deserialize ((Json.obj members).get "teardownGasLimits") =
      some made.teardownGasLimits ∧
    deserializeOption GasFees.deserialize ((Json.obj members).get "maxFeePerGas") =
      some made.maxFeePerGas ∧
    deserializeOption GasFees.deserialize ((Json.obj members).get "maxPriorityFeePerGas") =
      some made.maxPriorityFeePerGas := by
  obtain ⟨l, limits, read⟩ := Option.bind_eq_some_iff.mp read
  obtain ⟨t, teardown, read⟩ := Option.bind_eq_some_iff.mp read
  obtain ⟨f, fees, read⟩ := Option.bind_eq_some_iff.mp read
  obtain ⟨p, priority, read⟩ := Option.bind_eq_some_iff.mp read
  cases read
  exact ⟨limits, teardown, fees, priority⟩

section Settings
variable (found : request.get "txContext" = some context)
variable (below : context.get "gasSettings" = some settings)
include found below

private theorem pointer_settings (name : String) :
    request.pointer ["txContext", "gasSettings", name] = settings.get name := by
  rw [pointer_cons, found, Option.bind_some, pointer_cons, below, Option.bind_some, pointer_cons]
  cases settings.get name <;> rfl

private theorem numberAt_settings (name field : String) (parse : String → Option Nat) :
    request.numberAt ["txContext", "gasSettings", name, field] parse =
      settings.numberAt [name, field] parse := by
  rw [numberAt_cons found, numberAt_cons below]

/-- Limits that `serde` reads under a name are those the pointers find there. -/
private theorem gasAt_eq {name : String} {made : Option Gas}
    (read : deserializeOption Gas.deserialize (settings.get name) = some made)
    (object : ∀ items, request.pointer ["txContext", "gasSettings", name] ≠ some (.arr items)) :
    gasAt request name = made.getD ⟨0, 0⟩ := by
  rw [pointer_settings found below] at object
  rw [numberAt_of_option parseBlockNumber read object]
  unfold gasAt Json.u64At
  rw [numberAt_settings found below, numberAt_settings found below]

/-- And so are fees. -/
private theorem gasFeesAt_eq {name : String} {made : Option GasFees}
    (read : deserializeOption GasFees.deserialize (settings.get name) = some made)
    (object : ∀ items, request.pointer ["txContext", "gasSettings", name] ≠ some (.arr items)) :
    gasFeesAt request name = made.getD ⟨0, 0⟩ := by
  rw [pointer_settings found below] at object
  rw [numberAt_of_option parseU128Str read object]
  unfold gasFeesAt Json.u128At
  rw [numberAt_settings found below, numberAt_settings found below]

end Settings

/-- Both readings of a request that spells its context with objects agree. -/
theorem readings_agree {wire : WireTxRequest} (accepted : Accepted request wire)
    (objects : SpelledAsObjects request) (anchor : AnchorBlockHeader)
    (vkTreeRoot protocolContractsHash : Fr) :
    SameContext (buildTxConstantData anchor request vkTreeRoot protocolContractsHash).txContext
      wire.txContext := by
  have none_listed {path : List String} (listed : path ∈ contextPaths) :
      ∀ items, request.pointer path ≠ some (.arr items) := by
    intro items found
    have none_there := objects path listed
    rw [found] at none_there
    cases none_there
  have object {path : List String} {value : Json} (listed : path ∈ contextPaths)
      (found : request.pointer path = some value) : ∀ items, value ≠ .arr items :=
    fun items same => none_listed listed items (same ▸ found)
  obtain ⟨members, rfl⟩ := object_of_accepted accepted
  obtain ⟨context, found, read⟩ := context_of_wire accepted.hashed
  have context_at : (Json.obj members).pointer ["txContext"] = some context := by
    rw [pointer_cons, found]
    rfl
  obtain ⟨inner, rfl⟩ := object_of_context read (object (by decide) context_at)
  obtain ⟨chainId, version, settings, chain_at, version_at, below, chain, ver, gas⟩ :=
    settings_of_context read
  have settings_at : (Json.obj members).pointer ["txContext", "gasSettings"] = some settings := by
    rw [pointer_cons, found, Option.bind_some, pointer_cons, below]
    rfl
  obtain ⟨entries, rfl⟩ := object_of_settings gas (object (by decide) settings_at)
  obtain ⟨limits, teardown, fees, priority⟩ := fields_of_settings gas
  exact
    { chainId := (frAt_cons found).trans (frAt_of_deserialize chain_at chain)
      version := (frAt_cons found).trans (frAt_of_deserialize version_at ver)
      gasLimits := gasAt_eq found below limits (none_listed (by decide))
      teardownGasLimits := gasAt_eq found below teardown (none_listed (by decide))
      maxFeePerGas := gasFeesAt_eq found below fees (none_listed (by decide))
      maxPriorityFeePerGas := gasFeesAt_eq found below priority (none_listed (by decide)) }

end Context

private theorem raised_eq_max (cap least : Nat) : (if cap < least then least else cap) = max cap least := by
  split <;> omega

/-- For every request that is accepted and spells its context with objects, and
every anchor, the kernel's constants have the context that is hashed into the
protocol nullifier, with its fee caps raised to the anchor's fees and a half. -/
theorem kernel_context_is_hashed_with_raised_fees (request : Json) (wire : WireTxRequest)
    (anchor : AnchorBlockHeader) (vkTreeRoot protocolContractsHash : Fr)
    (accepted : Accepted request wire) (objects : SpelledAsObjects request) :
    SameContext (kernelContext anchor request vkTreeRoot protocolContractsHash)
      (raisedTo (minFees anchor) wire.txContext) := by
  have agree := readings_agree accepted objects anchor vkTreeRoot protocolContractsHash
  have fees : gasFeesAt request "maxFeePerGas" =
      wire.txContext.gasSettings.maxFeePerGas.getD ⟨0, 0⟩ := agree.maxFeePerGas
  refine ⟨agree.chainId, agree.version, agree.gasLimits, agree.teardownGasLimits, ?_,
    agree.maxPriorityFeePerGas⟩
  unfold kernelContext ensureMinFees raisedTo
  simp only [Option.getD_some, raised_eq_max]
  change GasFees.mk (max (gasFeesAt request "maxFeePerGas").feePerDaGas _)
    (max (gasFeesAt request "maxFeePerGas").feePerL2Gas _) = _
  rw [fees]

/-- A request with its gas limits and its fee caps. -/
private def requestWith (gasLimits maxFeePerGas : Json) : Json :=
  .obj [("origin", .str "0x8"), ("functionSelector", .str "0x5"),
    ("firstCallArgsHash", .str "0x7"), ("salt", .str "0x9"), ("argsOfCalls", .arr []),
    ("txContext", .obj [("chainId", .str "0x1"), ("version", .str "0x2"),
      ("gasSettings", .obj [("gasLimits", gasLimits), ("maxFeePerGas", maxFeePerGas)])])]

/-- What is hashed of it. -/
private def hashedWith (gasLimits : Gas) (maxFeePerGas : GasFees) : WireTxRequest where
  origin := ⟨8⟩
  functionSelector := ⟨5⟩
  firstCallArgsHash := 7
  txContext := ⟨1, 2, ⟨some gasLimits, none, some maxFeePerGas, none⟩⟩
  salt := 9

/-- An anchor with one fee for both kinds of gas. -/
private def anchorWithFee (fee : UInt64) : AnchorBlockHeader :=
  .fromHeaderJson (.obj [("globalVariables", .obj [("gasFees",
    .obj [("feePerDaGas", .posInt fee), ("feePerL2Gas", .posInt fee)])])])

private def numbers (first second : String) (a b : UInt64) : Json :=
  .obj [(first, .posInt a), (second, .posInt b)]

/-- A request that spells everything with objects. -/
private def plainRequest : Json :=
  requestWith (numbers "daGas" "l2Gas" 3 4) (numbers "feePerDaGas" "feePerL2Gas" 1 20)

private theorem plain_accepted : Accepted plainRequest (hashedWith ⟨3, 4⟩ ⟨1, 20⟩) where
  hashed := by decide +kernel
  decoded := by decide +kernel

private theorem plain_objects : SpelledAsObjects plainRequest := by
  unfold SpelledAsObjects
  decide +kernel

/-- At a fee of ten, one of two caps is raised. -/
theorem one_cap_is_raised :
    SameContext (kernelContext (anchorWithFee 10) plainRequest 0 0)
      (raisedTo (minFees (anchorWithFee 10)) ⟨1, 2, ⟨some ⟨3, 4⟩, none, some ⟨1, 20⟩, none⟩⟩) ∧
    minFees (anchorWithFee 10) = ⟨15, 15⟩ :=
  ⟨kernel_context_is_hashed_with_raised_fees plainRequest (hashedWith ⟨3, 4⟩ ⟨1, 20⟩)
    (anchorWithFee 10) 0 0 plain_accepted plain_objects, by decide +kernel⟩

/-- So the cap in the constants is not the one that was hashed. -/
theorem raised_cap_is_not_hashed :
    ∃ wire, Accepted plainRequest wire ∧
      ¬ SameContext (kernelContext (anchorWithFee 10) plainRequest 0 0) wire.txContext := by
  refine ⟨hashedWith ⟨3, 4⟩ ⟨1, 20⟩, plain_accepted, ?_⟩
  intro same
  exact absurd same.maxFeePerGas (by decide +kernel)

/-- Limits spelled as an array are hashed, but the constants have none. -/
theorem limits_of_array_are_lost :
    ∃ wire, Accepted (requestWith (.arr [.posInt 3, .posInt 4]) .null) wire ∧
      wire.txContext.gasSettings.gasLimits = some ⟨3, 4⟩ ∧
      (kernelContext (anchorWithFee 0) (requestWith (.arr [.posInt 3, .posInt 4]) .null) 0
        0).gasSettings.gasLimits = some ⟨0, 0⟩ := by
  refine ⟨{ hashedWith ⟨3, 4⟩ ⟨0, 0⟩ with
    txContext := ⟨1, 2, ⟨some ⟨3, 4⟩, none, none, none⟩⟩ }, ⟨?_, ?_⟩, rfl, ?_⟩
  · decide +kernel
  · decide +kernel
  · decide +kernel

end TxConstants

end AztecPxe
