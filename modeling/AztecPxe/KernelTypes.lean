import AztecPxe.FeePayload
import AztecPxe.FixedWidth

/-! The two serializations of the kernel's public inputs in `kernel_types.rs`:
the fields the transaction hash is computed from, and the buffer sent to the
node. Neither writes the length of an array, so a reader has to know them all. -/
namespace AztecPxe

/-! ## The constants of a transaction -/

/-- `kernel_types.rs::AppendOnlyTreeSnapshot`. -/
structure AppendOnlyTreeSnapshot where
  root : Fr
  nextAvailableLeafIndex : Nat

/-- `kernel_types.rs::PartialStateReference`. -/
structure PartialStateReference where
  noteHashTree : AppendOnlyTreeSnapshot
  nullifierTree : AppendOnlyTreeSnapshot
  publicDataTree : AppendOnlyTreeSnapshot

/-- `kernel_types.rs::StateReference`. -/
structure StateReference where
  l1ToL2MessageTree : AppendOnlyTreeSnapshot
  partialState : PartialStateReference

/-- `kernel_types.rs::GlobalVariables`. -/
structure GlobalVariables where
  chainId : Fr
  version : Fr
  blockNumber : Nat
  slotNumber : Nat
  timestamp : Nat
  coinbase : Fin (2 ^ 160)
  feeRecipient : AztecAddress
  gasFees : GasFees

/-- `kernel_types.rs::BlockHeader`. -/
structure BlockHeader where
  lastArchive : AppendOnlyTreeSnapshot
  state : StateReference
  spongeBlobHash : Fr
  globalVariables : GlobalVariables
  totalFees : Fr
  totalManaUsed : Fr

/-- `kernel_types.rs::TxContext`. -/
structure TxContext where
  chainId : Fr
  version : Fr
  gasSettings : GasSettings

/-- `kernel_types.rs::TxConstantData`, which `process` passes on as it is. -/
structure TxConstantData where
  anchorBlockHeader : BlockHeader
  txContext : TxContext
  vkTreeRoot : Fr
  protocolContractsHash : Fr

/-! ## Fields -/

/-- `Fr::from` on a `u128`. -/
def Fr.ofU128 (n : Nat) : Fr := Fin.ofNat frModulus (n % 2 ^ 128)

/-- `eth_address_to_fr`. -/
def ethAddressToFr (address : Fin (2 ^ 160)) : Fr := Fin.ofNat frModulus address.val

/-- The fields `L2ToL1Message::write_fields` and its scope append. -/
def ScopedL2ToL1Message.writeFields (message : ScopedL2ToL1Message) : List Fr :=
  [ethAddressToFr message.recipient, message.content, message.contractAddress.inner]

/-- The fields `LogHash::write_fields` and its scope append. -/
def ScopedLogHash.writeFields (hash : ScopedLogHash) : List Fr :=
  [hash.value, Fr.ofU64 hash.length, hash.contractAddress.inner]

/-- The fields `PrivateLog::write_fields` appends. -/
def PrivateLog.writeFields (log : PrivateLog) : List Fr :=
  log.fields ++ [Fr.ofU64 log.emittedLength]

/-- The fields `PublicCallRequest::write_fields` appends. -/
def PublicCallRequest.writeFields (request : PublicCallRequest) : List Fr :=
  [request.msgSender.inner, request.contractAddress.inner, Fr.ofBool request.isStaticCall,
    request.calldataHash]

/-- The fields `PrivateToPublicAccumulatedData::write_fields` appends. -/
def PrivateToPublicAccumulatedData.writeFields (data : PrivateToPublicAccumulatedData) : List Fr :=
  data.noteHashes ++ data.nullifiers ++ data.l2ToL1Msgs.flatMap (·.writeFields) ++
    data.privateLogs.flatMap (·.writeFields) ++
    data.contractClassLogsHashes.flatMap (·.writeFields) ++
    data.publicCallRequests.flatMap (·.writeFields)

/-- The fields `PrivateToRollupAccumulatedData::write_fields` appends. -/
def PrivateToRollupAccumulatedData.writeFields (data : PrivateToRollupAccumulatedData) : List Fr :=
  data.noteHashes ++ data.nullifiers ++ data.l2ToL1Msgs.flatMap (·.writeFields) ++
    data.privateLogs.flatMap (·.writeFields) ++
    data.contractClassLogsHashes.flatMap (·.writeFields)

/-- The fields `AppendOnlyTreeSnapshot::write_fields` appends. -/
def AppendOnlyTreeSnapshot.writeFields (snapshot : AppendOnlyTreeSnapshot) : List Fr :=
  [snapshot.root, Fr.ofU64 snapshot.nextAvailableLeafIndex]

/-- The fields `PartialStateReference::write_fields` appends. -/
def PartialStateReference.writeFields (state : PartialStateReference) : List Fr :=
  state.noteHashTree.writeFields ++ state.nullifierTree.writeFields ++
    state.publicDataTree.writeFields

/-- The fields `StateReference::write_fields` appends. -/
def StateReference.writeFields (state : StateReference) : List Fr :=
  state.l1ToL2MessageTree.writeFields ++ state.partialState.writeFields

/-- The fields `Gas::write_fields` appends. -/
def Gas.writeFields (gas : Gas) : List Fr := [Fr.ofU64 gas.daGas, Fr.ofU64 gas.l2Gas]

/-- The fields `GasFees::write_fields` appends. -/
def GasFees.writeFields (fees : GasFees) : List Fr :=
  [Fr.ofU128 fees.feePerDaGas, Fr.ofU128 fees.feePerL2Gas]

/-- The fields `GasSettings::write_fields` appends. -/
def GasSettings.writeFields (settings : GasSettings) : List Fr :=
  (settings.gasLimits.getD ⟨0, 0⟩).writeFields ++
    (settings.teardownGasLimits.getD ⟨0, 0⟩).writeFields ++
    (settings.maxFeePerGas.getD ⟨0, 0⟩).writeFields ++
    (settings.maxPriorityFeePerGas.getD ⟨0, 0⟩).writeFields

/-- The fields `GlobalVariables::write_fields` appends. -/
def GlobalVariables.writeFields (globals : GlobalVariables) : List Fr :=
  [globals.chainId, globals.version, Fr.ofU64 globals.blockNumber,
    Fr.ofU64 globals.slotNumber, Fr.ofU64 globals.timestamp,
    ethAddressToFr globals.coinbase, globals.feeRecipient.inner] ++
    globals.gasFees.writeFields

/-- The fields `BlockHeader::write_fields` appends. -/
def BlockHeader.writeFields (header : BlockHeader) : List Fr :=
  header.lastArchive.writeFields ++ header.state.writeFields ++ [header.spongeBlobHash] ++
    header.globalVariables.writeFields ++ [header.totalFees, header.totalManaUsed]

/-- The fields `TxContext::write_fields` appends. -/
def TxContext.writeFields (context : TxContext) : List Fr :=
  [context.chainId, context.version] ++ context.gasSettings.writeFields

/-- The fields `TxConstantData::write_fields` appends. -/
def TxConstantData.writeFields (constants : TxConstantData) : List Fr :=
  constants.anchorBlockHeader.writeFields ++ constants.txContext.writeFields ++
    [constants.vkTreeRoot, constants.protocolContractsHash]

/-- The fields `PartialPrivateTailPublicInputsForPublic::write_fields` appends. -/
def PartialPrivateTailPublicInputsForPublic.writeFields
    (sections : PartialPrivateTailPublicInputsForPublic) : List Fr :=
  sections.nonRevertibleAccumulatedData.writeFields ++
    sections.revertibleAccumulatedData.writeFields ++ sections.publicTeardownCallRequest.writeFields

/-- `PrivateKernelTailPublicInputs::to_fields`. -/
def PrivateKernelTailPublicInputs.toFields (constants : TxConstantData)
    (inputs : PrivateKernelTailPublicInputs) : List Fr :=
  let payment := inputs.gasUsed.writeFields ++
    [inputs.feePayer.inner, Fr.ofU64 inputs.expirationTimestamp]
  match inputs.forPublic, inputs.forRollup with
  | some sections, _ => constants.writeFields ++ sections.writeFields ++ payment
  | none, some data => constants.writeFields ++ data.writeFields ++ payment
  | none, none => constants.writeFields

/-! ## Bytes -/

/-- The low bytes of a number, the most significant first. -/
def beBytes : Nat → Nat → List UInt8
  | 0, _ => []
  | len + 1, n => beBytes len (n / 256) ++ [UInt8.ofNat n]

/-- `write_fr`. -/
def writeFr (field : Fr) : List UInt8 := beBytes 32 field.val

/-- `write_bool`. -/
def writeBool (flag : Bool) : List UInt8 := [if flag then 1 else 0]

/-- `write_u32`, also of a wider number, which is cut. -/
def writeU32 (n : Nat) : List UInt8 := beBytes 4 n

/-- `write_u64`. -/
def writeU64 (n : Nat) : List UInt8 := beBytes 8 n

/-- `write_u128`. -/
def writeU128 (n : Nat) : List UInt8 := beBytes 16 n

/-- `write_eth_address`. -/
def writeEthAddress (address : Fin (2 ^ 160)) : List UInt8 := beBytes 20 address.val

/-- `write_tree_snapshot`. -/
def writeTreeSnapshot (snapshot : AppendOnlyTreeSnapshot) : List UInt8 :=
  writeFr snapshot.root ++ writeU32 snapshot.nextAvailableLeafIndex

/-- The gas limits of `write_tx_constant_data`. -/
def writeGasLimits (limits : Option Gas) : List UInt8 :=
  writeU32 ((limits.map (·.daGas)).getD 0) ++ writeU32 ((limits.map (·.l2Gas)).getD 0)

/-- The fees of `write_tx_constant_data`. -/
def writeGasFees (fees : Option GasFees) : List UInt8 :=
  writeU128 ((fees.map (·.feePerDaGas)).getD 0) ++ writeU128 ((fees.map (·.feePerL2Gas)).getD 0)

/-- The global variables of `write_tx_constant_data`. -/
def writeGlobalVariables (globals : GlobalVariables) : List UInt8 :=
  writeFr globals.chainId ++ writeFr globals.version ++ writeU32 globals.blockNumber ++
    writeU32 globals.slotNumber ++ writeU64 globals.timestamp ++
    writeEthAddress globals.coinbase ++ writeFr globals.feeRecipient.inner ++
    writeGasFees (some globals.gasFees)

/-- `write_tx_constant_data`. -/
def writeTxConstantData (constants : TxConstantData) : List UInt8 :=
  let header := constants.anchorBlockHeader
  let settings := constants.txContext.gasSettings
  writeTreeSnapshot header.lastArchive ++ writeTreeSnapshot header.state.l1ToL2MessageTree ++
    writeTreeSnapshot header.state.partialState.noteHashTree ++
    writeTreeSnapshot header.state.partialState.nullifierTree ++
    writeTreeSnapshot header.state.partialState.publicDataTree ++ writeFr header.spongeBlobHash ++
    writeGlobalVariables header.globalVariables ++ writeFr header.totalFees ++
    writeFr header.totalManaUsed ++ writeFr constants.txContext.chainId ++
    writeFr constants.txContext.version ++ writeGasLimits settings.gasLimits ++
    writeGasLimits settings.teardownGasLimits ++ writeGasFees settings.maxFeePerGas ++
    writeGasFees settings.maxPriorityFeePerGas ++ writeFr constants.vkTreeRoot ++
    writeFr constants.protocolContractsHash

/-- The loop body over `l2_to_l1_msgs`. -/
def writeL2ToL1Message (message : ScopedL2ToL1Message) : List UInt8 :=
  writeEthAddress message.recipient ++ writeFr message.content ++
    writeFr message.contractAddress.inner

/-- The loop body over `private_logs`. -/
def writePrivateLog (log : PrivateLog) : List UInt8 :=
  log.fields.flatMap writeFr ++ writeU32 log.emittedLength

/-- The loop body over `contract_class_logs_hashes`. -/
def writeLogHash (hash : ScopedLogHash) : List UInt8 :=
  writeFr hash.value ++ writeU32 hash.length ++ writeFr hash.contractAddress.inner

/-- `write_public_call_request`. -/
def writePublicCallRequest (request : PublicCallRequest) : List UInt8 :=
  writeFr request.msgSender.inner ++ writeFr request.contractAddress.inner ++
    writeBool request.isStaticCall ++ writeFr request.calldataHash

/-- `write_rollup_accumulated_data`. -/
def writeRollupAccumulatedData (data : PrivateToRollupAccumulatedData) : List UInt8 :=
  data.noteHashes.flatMap writeFr ++ data.nullifiers.flatMap writeFr ++
    data.l2ToL1Msgs.flatMap writeL2ToL1Message ++ data.privateLogs.flatMap writePrivateLog ++
    data.contractClassLogsHashes.flatMap writeLogHash

/-- `write_public_accumulated_data`. -/
def writePublicAccumulatedData (data : PrivateToPublicAccumulatedData) : List UInt8 :=
  data.noteHashes.flatMap writeFr ++ data.nullifiers.flatMap writeFr ++
    data.l2ToL1Msgs.flatMap writeL2ToL1Message ++ data.privateLogs.flatMap writePrivateLog ++
    data.contractClassLogsHashes.flatMap writeLogHash ++
    data.publicCallRequests.flatMap writePublicCallRequest

/-- `PrivateKernelTailPublicInputs::to_buffer`. -/
def PrivateKernelTailPublicInputs.toBuffer (constants : TxConstantData)
    (inputs : PrivateKernelTailPublicInputs) : List UInt8 :=
  let start := writeBool inputs.forPublic.isSome ++ writeTxConstantData constants ++
    writeU32 inputs.gasUsed.daGas ++ writeU32 inputs.gasUsed.l2Gas ++
    writeFr inputs.feePayer.inner ++ writeU64 inputs.expirationTimestamp
  match inputs.forPublic, inputs.forRollup with
  | some sections, _ => start ++
      writePublicAccumulatedData sections.nonRevertibleAccumulatedData ++
      writePublicAccumulatedData sections.revertibleAccumulatedData ++
      writePublicCallRequest sections.publicTeardownCallRequest
  | none, some data => start ++ writeRollupAccumulatedData data
  | none, none => start

/-! ## Lengths -/

@[simp] theorem length_beBytes (len n : Nat) : (beBytes len n).length = len := by
  induction len generalizing n with
  | zero => rfl
  | succ len ih => simp [beBytes, ih]

@[simp] theorem length_writeFr (field : Fr) : (writeFr field).length = 32 := length_beBytes 32 _

@[simp] theorem length_writeU32 (n : Nat) : (writeU32 n).length = 4 := length_beBytes 4 n

@[simp] theorem length_writeU64 (n : Nat) : (writeU64 n).length = 8 := length_beBytes 8 n

@[simp] theorem length_writeU128 (n : Nat) : (writeU128 n).length = 16 := length_beBytes 16 n

@[simp] theorem length_writeEthAddress (address : Fin (2 ^ 160)) :
    (writeEthAddress address).length = 20 := length_beBytes 20 _

@[simp] theorem length_writeBool (flag : Bool) : (writeBool flag).length = 1 := rfl

/-- The constants of a transaction take 34 fields. -/
theorem length_constants_fields (constants : TxConstantData) :
    constants.writeFields.length = 34 := rfl

/-- The constants of a transaction take 648 bytes. -/
theorem length_constants_bytes (constants : TxConstantData) :
    (writeTxConstantData constants).length = 648 := by
  simp only [writeTxConstantData, writeTreeSnapshot, writeGlobalVariables, writeGasLimits,
    writeGasFees, List.length_append, length_writeFr, length_writeU32, length_writeU64,
    length_writeU128, length_writeEthAddress]

@[simp] theorem length_writeL2ToL1Message (message : ScopedL2ToL1Message) :
    (writeL2ToL1Message message).length = 84 := by
  simp [writeL2ToL1Message]

@[simp] theorem length_writeLogHash (hash : ScopedLogHash) : (writeLogHash hash).length = 68 := by
  simp [writeLogHash]

@[simp] theorem length_writePublicCallRequest (request : PublicCallRequest) :
    (writePublicCallRequest request).length = 97 := by
  simp [writePublicCallRequest]

/-- A log takes the bytes of its fields and four for its length. -/
theorem length_writePrivateLog (log : PrivateLog) :
    (writePrivateLog log).length = log.fields.length * 32 + 4 := by
  have fields := FixedWidth.length_flatMap_fixed log.fields (fun field _ => length_writeFr field)
  rw [writePrivateLog, List.length_append, fields, length_writeU32]

end AztecPxe
