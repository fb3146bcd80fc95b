import AztecPxe.BigEndian
import AztecPxe.Hash
import AztecPxe.KernelCapacity

/-! What the bytes that are sent tell about the transaction hash. The kernel's public inputs
are written twice: as fields, which are hashed, and as bytes, which go to the node. Eight
numbers of 64 bits are fields as they are, and lose their upper halves as bytes. -/
namespace AztecPxe.SentBytes
open AztecPxe BigEndian KernelCapacity FixedWidth Hash SimulatedKernel

/-- `kernel_types.rs::PrivateKernelTailPublicInputs` with its constants. -/
structure TailInputs where
  constants : TxConstantData
  inputs : PrivateKernelTailPublicInputs

namespace TailInputs

/-- `PrivateKernelTailPublicInputs::to_fields`. -/
def toFields (tail : TailInputs) : List Fr := tail.inputs.toFields tail.constants

/-- `PrivateKernelTailPublicInputs::to_buffer`. -/
def toBuffer (tail : TailInputs) : List UInt8 := tail.inputs.toBuffer tail.constants

/-- `PrivateKernelTailPublicInputs::hash`, with `PUBLIC_TX_HASH` or `PRIVATE_TX_HASH`. -/
def hash (poseidon2 : List Fr → Fr) (tail : TailInputs) : Fr :=
  poseidon2HashWithSeparator poseidon2 tail.toFields
    (if tail.inputs.forPublic.isSome then 1630108851 else 1971680439)

end TailInputs

/-! ## Values of the source's types -/

/-- The index is a `u32`. -/
def SnapshotTyped (snapshot : AppendOnlyTreeSnapshot) : Prop :=
  snapshot.nextAvailableLeafIndex < 2 ^ 32

/-- Both are `u64`. -/
def GasTyped (gas : Gas) : Prop := gas.daGas < 2 ^ 64 ∧ gas.l2Gas < 2 ^ 64

/-- Both are `u128`. -/
def FeesTyped (fees : GasFees) : Prop := fees.feePerDaGas < 2 ^ 128 ∧ fees.feePerL2Gas < 2 ^ 128

/-- The numbers of the constants fit their types. -/
structure ConstantsTyped (constants : TxConstantData) : Prop where
  lastArchive : SnapshotTyped constants.anchorBlockHeader.lastArchive
  messages : SnapshotTyped constants.anchorBlockHeader.state.l1ToL2MessageTree
  noteHashes : SnapshotTyped constants.anchorBlockHeader.state.partialState.noteHashTree
  nullifiers : SnapshotTyped constants.anchorBlockHeader.state.partialState.nullifierTree
  publicData : SnapshotTyped constants.anchorBlockHeader.state.partialState.publicDataTree
  blockNumber : constants.anchorBlockHeader.globalVariables.blockNumber < 2 ^ 64
  slotNumber : constants.anchorBlockHeader.globalVariables.slotNumber < 2 ^ 64
  timestamp : constants.anchorBlockHeader.globalVariables.timestamp < 2 ^ 64
  gasFees : FeesTyped constants.anchorBlockHeader.globalVariables.gasFees
  gasLimits : ∀ gas ∈ constants.txContext.gasSettings.gasLimits, GasTyped gas
  teardownGasLimits : ∀ gas ∈ constants.txContext.gasSettings.teardownGasLimits, GasTyped gas
  maxFeePerGas : ∀ fees ∈ constants.txContext.gasSettings.maxFeePerGas, FeesTyped fees
  maxPriorityFeePerGas : ∀ fees ∈ constants.txContext.gasSettings.maxPriorityFeePerGas,
    FeesTyped fees

/-- The lengths of logs and of log hashes are `u32`. -/
def LogsTyped (privateLogs : List PrivateLog) (logHashes : List ScopedLogHash) : Prop :=
  (∀ log ∈ privateLogs, log.emittedLength < 2 ^ 32) ∧ ∀ hash ∈ logHashes, hash.length < 2 ^ 32

/-- The public inputs are values of their type, with arrays of the protocol's lengths. -/
structure WellFormed (tail : TailInputs) : Prop where
  constants : ConstantsTyped tail.constants
  gasUsed : GasTyped tail.inputs.gasUsed
  expiration : tail.inputs.expirationTimestamp < 2 ^ 64
  exact : Exact tail.inputs
  publicLogs : ∀ sections ∈ tail.inputs.forPublic,
    LogsTyped sections.nonRevertibleAccumulatedData.privateLogs
        sections.nonRevertibleAccumulatedData.contractClassLogsHashes ∧
      LogsTyped sections.revertibleAccumulatedData.privateLogs
        sections.revertibleAccumulatedData.contractClassLogsHashes
  rollupLogs : ∀ data ∈ tail.inputs.forRollup,
    LogsTyped data.privateLogs data.contractClassLogsHashes

/-! ## What is sent -/

/-- Both numbers `as u32`. -/
def gasAsU32 (gas : Gas) : Gas := ⟨gas.daGas % 2 ^ 32, gas.l2Gas % 2 ^ 32⟩

/-- The settings with all that is left out written as zero. -/
def resolved (settings : GasSettings) : GasSettings where
  gasLimits := some (settings.gasLimits.getD ⟨0, 0⟩)
  teardownGasLimits := some (settings.teardownGasLimits.getD ⟨0, 0⟩)
  maxFeePerGas := some (settings.maxFeePerGas.getD ⟨0, 0⟩)
  maxPriorityFeePerGas := some (settings.maxPriorityFeePerGas.getD ⟨0, 0⟩)

/-- The settings as they are sent. -/
def settingsSent (settings : GasSettings) : GasSettings :=
  { resolved settings with
    gasLimits := some (gasAsU32 (settings.gasLimits.getD ⟨0, 0⟩))
    teardownGasLimits := some (gasAsU32 (settings.teardownGasLimits.getD ⟨0, 0⟩)) }

/-- The global variables as they are sent. -/
def globalsSent (globals : GlobalVariables) : GlobalVariables :=
  { globals with
    blockNumber := globals.blockNumber % 2 ^ 32
    slotNumber := globals.slotNumber % 2 ^ 32 }

/-- The constants as they are sent. -/
def constantsSent (constants : TxConstantData) : TxConstantData :=
  { constants with
    anchorBlockHeader := { constants.anchorBlockHeader with
      globalVariables := globalsSent constants.anchorBlockHeader.globalVariables }
    txContext := { constants.txContext with
      gasSettings := settingsSent constants.txContext.gasSettings } }

/-- The rest as it is sent; only one kind of accumulated data is. -/
def inputsSent (inputs : PrivateKernelTailPublicInputs) : PrivateKernelTailPublicInputs :=
  { inputs with
    gasUsed := gasAsU32 inputs.gasUsed
    forRollup := if inputs.forPublic.isSome then none else inputs.forRollup }

/-- Two public inputs differ in the upper halves of the narrowed numbers at most. -/
def Alike (first second : TailInputs) : Prop :=
  constantsSent first.constants = constantsSent second.constants ∧
    inputsSent first.inputs = inputsSent second.inputs

/-- Both numbers of a gas amount. -/
def gasNumbers (gas : Gas) : List Nat := [gas.daGas, gas.l2Gas]

/-- The narrowed numbers of the constants. -/
def constantsNumbers (constants : TxConstantData) : List Nat :=
  [constants.anchorBlockHeader.globalVariables.blockNumber,
    constants.anchorBlockHeader.globalVariables.slotNumber] ++
    gasNumbers (constants.txContext.gasSettings.gasLimits.getD ⟨0, 0⟩) ++
    gasNumbers (constants.txContext.gasSettings.teardownGasLimits.getD ⟨0, 0⟩)

/-- The gas used, which is hashed with accumulated data only. -/
def usedNumbers (inputs : PrivateKernelTailPublicInputs) : List Nat :=
  if inputs.forPublic.isSome ∨ inputs.forRollup.isSome then gasNumbers inputs.gasUsed else []

/-- The narrowed numbers that are hashed. -/
def wideNumbers (tail : TailInputs) : List Nat :=
  constantsNumbers tail.constants ++ usedNumbers tail.inputs

/-! ## Numbers and fields as bytes -/

theorem tells_beBytes (len : Nat) :
    Tells len (fun _ => True) (beBytes len) (fun n => n % 256 ^ len) where
  length _ := length_beBytes len _
  eq_iff _ _ := beBytes_eq_iff len _ _

/-- A number that fits is told. -/
theorem tells_fitting {len bound : Nat} (fits : bound ≤ 256 ^ len) :
    Tells len (· < bound) (beBytes len) id :=
  ((tells_beBytes len).comap id (fun _ => trivial)).congr (fun validA validB => by
    rw [id, id, Nat.mod_eq_of_lt (validA.trans_le fits), Nat.mod_eq_of_lt (validB.trans_le fits)])

/-- An element of a bounded type is told. -/
theorem tells_fin {len bound : Nat} (fits : bound ≤ 256 ^ len) :
    Tells len (fun _ : Fin bound => True) (fun n => beBytes len n.val) id :=
  ((tells_fitting fits).comap Fin.val (fun {n} _ => n.isLt)).congr (fun _ _ => Fin.val_inj)

theorem tells_writeFr : Tells 32 (fun _ => True) writeFr id := tells_fin (by decide)

theorem tells_writeEthAddress : Tells 20 (fun _ => True) writeEthAddress id :=
  tells_fin (by decide)

theorem tells_writeBool : Tells 1 (fun _ => True) writeBool id where
  length _ := rfl
  eq_iff {a b} _ _ := by cases a <;> cases b <;> decide

/-- A wider number is told but for its upper part. -/
theorem tells_cut : Tells 4 (fun _ => True) writeU32 (· % 2 ^ 32) := tells_beBytes 4

theorem tells_writeU32 : Tells 4 (· < 2 ^ 32) writeU32 id := tells_fitting (by decide)

theorem tells_writeU64 : Tells 8 (· < 2 ^ 64) writeU64 id := tells_fitting (by decide)

theorem tells_writeU128 : Tells 16 (· < 2 ^ 128) writeU128 id := tells_fitting (by decide)

/-! ## The constants as bytes -/

theorem tells_writeTreeSnapshot : Tells 36 SnapshotTyped writeTreeSnapshot id := by
  have word := (tells_writeFr.comap AppendOnlyTreeSnapshot.root
      (fun (_ : SnapshotTyped _) => trivial)).append
    (tells_writeU32.comap AppendOnlyTreeSnapshot.nextAvailableLeafIndex id)
  refine word.congr ?_
  rintro ⟨root, index⟩ ⟨root', index'⟩ _ _
  simp

theorem tells_writeGasLimits : Tells 8 (fun _ => True) writeGasLimits
    (fun limits => gasAsU32 (limits.getD ⟨0, 0⟩)) := by
  have word := (tells_cut.comap (fun limits : Option Gas => (limits.map (·.daGas)).getD 0)
      (fun (_ : True) => trivial)).append
    (tells_cut.comap (fun limits : Option Gas => (limits.map (·.l2Gas)).getD 0)
      (fun (_ : True) => trivial))
  refine word.congr ?_
  rintro (_ | limits) (_ | limits') _ _ <;> simp [gasAsU32]

/-- Fees that may be left out are told with zero in their place. -/
theorem tells_writeGasFees : Tells 32 (fun fees => ∀ some ∈ fees, FeesTyped some) writeGasFees
    (fun fees => fees.getD ⟨0, 0⟩) := by
  have fitting : ∀ {fees : Option GasFees}, (∀ some ∈ fees, FeesTyped some) →
      FeesTyped (fees.getD ⟨0, 0⟩) := by
    rintro (_ | fees) typed
    · exact ⟨by decide, by decide⟩
    · exact typed fees rfl
  have swap : ∀ (fees : Option GasFees) (part : GasFees → Nat), part ⟨0, 0⟩ = 0 →
      (fees.map part).getD 0 = part (fees.getD ⟨0, 0⟩) := by
    rintro (_ | fees) part zero
    · exact zero.symm
    · rfl
  have word := (tells_writeU128.comap (fun fees : Option GasFees => (fees.getD ⟨0, 0⟩).feePerDaGas)
      (fun typed => (fitting typed).1)).append
    (tells_writeU128.comap (fun fees : Option GasFees => (fees.getD ⟨0, 0⟩).feePerL2Gas)
      (fun typed => (fitting typed).2))
  have same : writeGasFees = fun fees => writeU128 (fees.getD ⟨0, 0⟩).feePerDaGas ++
      writeU128 (fees.getD ⟨0, 0⟩).feePerL2Gas := by
    funext fees
    rw [writeGasFees, swap fees _ rfl, swap fees _ rfl]
  rw [same]
  refine word.congr (fun {fees fees'} _ _ => ?_)
  obtain ⟨da, l2⟩ := fees.getD ⟨0, 0⟩
  obtain ⟨da', l2'⟩ := fees'.getD ⟨0, 0⟩
  simp

/-- The numbers of the global variables that are sent whole fit their types. -/
def GlobalsTyped (globals : GlobalVariables) : Prop :=
  globals.timestamp < 2 ^ 64 ∧ FeesTyped globals.gasFees

theorem tells_writeGlobalVariables :
    Tells 164 GlobalsTyped writeGlobalVariables globalsSent := by
  have free : ∀ {globals : GlobalVariables}, GlobalsTyped globals → True := fun _ => trivial
  have word := (((((((tells_writeFr.comap GlobalVariables.chainId free).append
    (tells_writeFr.comap GlobalVariables.version free)).append
    (tells_cut.comap GlobalVariables.blockNumber free)).append
    (tells_cut.comap GlobalVariables.slotNumber free)).append
    (tells_writeU64.comap GlobalVariables.timestamp And.left)).append
    (tells_writeEthAddress.comap GlobalVariables.coinbase free)).append
    (tells_writeFr.comap (fun globals : GlobalVariables => globals.feeRecipient.inner) free)).append
    (tells_writeGasFees.comap (fun globals : GlobalVariables => some globals.gasFees)
      (fun {globals} (typed : GlobalsTyped globals) => by simpa using typed.2))
  refine word.congr ?_
  rintro ⟨chain, version, block, slot, time, coinbase, ⟨recipient⟩, fees⟩
    ⟨chain', version', block', slot', time', coinbase', ⟨recipient'⟩, fees'⟩ _ _
  simp [globalsSent, and_assoc]

/-- The constants in the order they are written. -/
theorem tells_writeTxConstantData :
    Tells 648 ConstantsTyped writeTxConstantData constantsSent := by
  have free : ∀ {constants : TxConstantData}, ConstantsTyped constants → True := fun _ => trivial
  have trees := ((((tells_writeTreeSnapshot.comap
    (fun c : TxConstantData => c.anchorBlockHeader.lastArchive) ConstantsTyped.lastArchive).append
    (tells_writeTreeSnapshot.comap (fun c : TxConstantData =>
      c.anchorBlockHeader.state.l1ToL2MessageTree) ConstantsTyped.messages)).append
    (tells_writeTreeSnapshot.comap (fun c : TxConstantData =>
      c.anchorBlockHeader.state.partialState.noteHashTree) ConstantsTyped.noteHashes)).append
    (tells_writeTreeSnapshot.comap (fun c : TxConstantData =>
      c.anchorBlockHeader.state.partialState.nullifierTree) ConstantsTyped.nullifiers)).append
    (tells_writeTreeSnapshot.comap (fun c : TxConstantData =>
      c.anchorBlockHeader.state.partialState.publicDataTree) ConstantsTyped.publicData)
  have header := (((trees.append
    (tells_writeFr.comap (fun c : TxConstantData => c.anchorBlockHeader.spongeBlobHash) free)).append
    (tells_writeGlobalVariables.comap (fun c : TxConstantData =>
      c.anchorBlockHeader.globalVariables) (fun typed => ⟨typed.timestamp, typed.gasFees⟩))).append
    (tells_writeFr.comap (fun c : TxConstantData => c.anchorBlockHeader.totalFees) free)).append
    (tells_writeFr.comap (fun c : TxConstantData => c.anchorBlockHeader.totalManaUsed) free)
  have settings := (((((header.append
    (tells_writeFr.comap (fun c : TxConstantData => c.txContext.chainId) free)).append
    (tells_writeFr.comap (fun c : TxConstantData => c.txContext.version) free)).append
    (tells_writeGasLimits.comap (fun c : TxConstantData =>
      c.txContext.gasSettings.gasLimits) free)).append
    (tells_writeGasLimits.comap (fun c : TxConstantData =>
      c.txContext.gasSettings.teardownGasLimits) free)).append
    (tells_writeGasFees.comap (fun c : TxConstantData =>
      c.txContext.gasSettings.maxFeePerGas) ConstantsTyped.maxFeePerGas)).append
    (tells_writeGasFees.comap (fun c : TxConstantData =>
      c.txContext.gasSettings.maxPriorityFeePerGas) ConstantsTyped.maxPriorityFeePerGas)
  have word := (settings.append
    (tells_writeFr.comap (fun c : TxConstantData => c.vkTreeRoot) free)).append
    (tells_writeFr.comap (fun c : TxConstantData => c.protocolContractsHash) free)
  refine word.congr ?_
  rintro ⟨⟨archive, ⟨messages, ⟨notes, nullifiers, data⟩⟩, sponge, globals, fees, mana⟩,
      ⟨chain, version, ⟨limits, teardown, max, priority⟩⟩, vk, protocol⟩
    ⟨⟨archive', ⟨messages', ⟨notes', nullifiers', data'⟩⟩, sponge', globals', fees', mana'⟩,
      ⟨chain', version', ⟨limits', teardown', max', priority'⟩⟩, vk', protocol'⟩ _ _
  simp [constantsSent, settingsSent, resolved, and_assoc]

/-! ## The arrays as bytes -/

theorem tells_writeL2ToL1Message : Tells 84 (fun _ => True) writeL2ToL1Message id := by
  have word := ((tells_writeEthAddress.comap ScopedL2ToL1Message.recipient id).append
    (tells_writeFr.comap ScopedL2ToL1Message.content id)).append
    (tells_writeFr.comap (fun message : ScopedL2ToL1Message => message.contractAddress.inner) id)
  refine word.congr ?_
  rintro ⟨recipient, content, ⟨contract⟩⟩ ⟨recipient', content', ⟨contract'⟩⟩ _ _
  simp [and_assoc]

theorem tells_writePublicCallRequest : Tells 97 (fun _ => True) writePublicCallRequest id := by
  have word := (((tells_writeFr.comap
      (fun request : PublicCallRequest => request.msgSender.inner) id).append
    (tells_writeFr.comap (fun request : PublicCallRequest => request.contractAddress.inner)
      id)).append
    (tells_writeBool.comap PublicCallRequest.isStaticCall id)).append
    (tells_writeFr.comap PublicCallRequest.calldataHash id)
  refine word.congr ?_
  rintro ⟨⟨sender⟩, ⟨contract⟩, static, hash⟩ ⟨⟨sender'⟩, ⟨contract'⟩, static', hash'⟩ _ _
  simp [and_assoc]

theorem tells_writeLogHash :
    Tells 68 (fun hash => hash.length < 2 ^ 32) writeLogHash id := by
  have free : ∀ {hash : ScopedLogHash}, hash.length < 2 ^ 32 → True := fun _ => trivial
  have word := ((tells_writeFr.comap ScopedLogHash.value free).append
    (tells_writeU32.comap ScopedLogHash.length id)).append
    (tells_writeFr.comap (fun hash : ScopedLogHash => hash.contractAddress.inner) free)
  refine word.congr ?_
  rintro ⟨value, length, ⟨contract⟩⟩ ⟨value', length', ⟨contract'⟩⟩ _ _
  simp [and_assoc]

/-- A log has sixteen fields and a `u32`. -/
def LogTyped (log : PrivateLog) : Prop :=
  log.fields.length = privateLogSizeInFields ∧ log.emittedLength < 2 ^ 32

theorem tells_writePrivateLog : Tells 516 LogTyped writePrivateLog id := by
  have word := ((tells_writeFr.flatMap privateLogSizeInFields).comap PrivateLog.fields
      (fun {log} (typed : LogTyped log) => ⟨typed.1, fun _ _ => trivial⟩)).append
    (tells_writeU32.comap PrivateLog.emittedLength And.right)
  refine word.congr ?_
  rintro ⟨fields, length⟩ ⟨fields', length'⟩ _ _
  simp

section Arrays
variable {δ : Type} {Valid : δ → Prop} {noteHashes nullifiers : δ → List Fr}
variable {messages : δ → List ScopedL2ToL1Message} {privateLogs : δ → List PrivateLog}
variable {logHashes : δ → List ScopedLogHash}

/-- The arrays both kinds of accumulated data have. -/
theorem tells_arrays (exact : ∀ {d}, Valid d →
      ArraysExact (noteHashes d) (nullifiers d) (messages d) (privateLogs d) (logHashes d))
    (typed : ∀ {d}, Valid d → LogsTyped (privateLogs d) (logHashes d)) :
    Tells 37860 Valid (fun d => (noteHashes d).flatMap writeFr ++ (nullifiers d).flatMap writeFr ++
        (messages d).flatMap writeL2ToL1Message ++ (privateLogs d).flatMap writePrivateLog ++
        (logHashes d).flatMap writeLogHash)
      (fun d => ((((noteHashes d, nullifiers d), messages d), privateLogs d), logHashes d)) := by
  have word := (((((tells_writeFr.flatMap maxNoteHashesPerTx).comap noteHashes
      (fun valid => ⟨(exact valid).noteHashes, fun _ _ => trivial⟩)).append
    ((tells_writeFr.flatMap maxNullifiersPerTx).comap nullifiers
      (fun valid => ⟨(exact valid).nullifiers, fun _ _ => trivial⟩))).append
    ((tells_writeL2ToL1Message.flatMap maxL2ToL1MsgsPerTx).comap messages
      (fun valid => ⟨(exact valid).messages, fun _ _ => trivial⟩))).append
    ((tells_writePrivateLog.flatMap maxPrivateLogsPerTx).comap privateLogs
      (fun valid => ⟨(exact valid).logs, fun log inside =>
        ⟨(exact valid).logFields log inside, (typed valid).1 log inside⟩⟩))).append
    ((tells_writeLogHash.flatMap maxContractClassLogsPerTx).comap logHashes
      (fun valid => ⟨(exact valid).hashes, (typed valid).2⟩))
  refine word.congr (fun _ _ => ?_)
  simp

end Arrays

/-- A rollup section of the protocol's lengths with `u32` lengths in it. -/
def RollupTyped (data : PrivateToRollupAccumulatedData) : Prop :=
  RollupExact data ∧ LogsTyped data.privateLogs data.contractClassLogsHashes

/-- The same of a section for public execution. -/
def SectionTyped (data : PrivateToPublicAccumulatedData) : Prop :=
  PublicExact data ∧ LogsTyped data.privateLogs data.contractClassLogsHashes

theorem tells_writeRollupAccumulatedData :
    Tells 37860 RollupTyped writeRollupAccumulatedData id := by
  have word := tells_arrays (fun {data} (typed : RollupTyped data) => typed.1) And.right
  refine word.congr ?_
  rintro ⟨notes, nullifiers, messages, logs, hashes⟩
    ⟨notes', nullifiers', messages', logs', hashes'⟩ _ _
  simp [and_assoc]

theorem tells_writePublicAccumulatedData :
    Tells 40964 SectionTyped writePublicAccumulatedData id := by
  have word := (tells_arrays (fun {data} (typed : SectionTyped data) => typed.1.1)
      And.right).append
    ((tells_writePublicCallRequest.flatMap maxEnqueuedCallsPerTx).comap
      PrivateToPublicAccumulatedData.publicCallRequests
      (fun typed => ⟨typed.1.2, fun _ _ => trivial⟩))
  refine word.congr ?_
  rintro ⟨notes, nullifiers, messages, logs, hashes, requests⟩
    ⟨notes', nullifiers', messages', logs', hashes', requests'⟩ _ _
  simp [and_assoc]

/-! ## The whole buffer -/

/-- What the buffer starts with, whatever the kind. -/
def startWord (tail : TailInputs) : List UInt8 :=
  writeBool tail.inputs.forPublic.isSome ++ writeTxConstantData tail.constants ++
    writeU32 tail.inputs.gasUsed.daGas ++ writeU32 tail.inputs.gasUsed.l2Gas ++
    writeFr tail.inputs.feePayer.inner ++ writeU64 tail.inputs.expirationTimestamp

/-- Both sections of a public transaction and its teardown call. -/
def sectionsWord (sections : PartialPrivateTailPublicInputsForPublic) : List UInt8 :=
  writePublicAccumulatedData sections.nonRevertibleAccumulatedData ++
    writePublicAccumulatedData sections.revertibleAccumulatedData ++
    writePublicCallRequest sections.publicTeardownCallRequest

/-- What the buffer ends with. -/
def endWord (inputs : PrivateKernelTailPublicInputs) : List UInt8 :=
  match inputs.forPublic, inputs.forRollup with
  | some sections, _ => sectionsWord sections
  | none, some data => writeRollupAccumulatedData data
  | none, none => []

theorem toBuffer_eq (tail : TailInputs) :
    tail.toBuffer = startWord tail ++ endWord tail.inputs := by
  unfold TailInputs.toBuffer PrivateKernelTailPublicInputs.toBuffer endWord
  cases held : tail.inputs.forPublic with
  | some sections => simp [startWord, sectionsWord, held]
  | none => cases tail.inputs.forRollup <;> simp [startWord, held]

theorem tells_startWord : Tells 697 WellFormed startWord (fun tail =>
    (((((tail.inputs.forPublic.isSome, constantsSent tail.constants),
      tail.inputs.gasUsed.daGas % 2 ^ 32), tail.inputs.gasUsed.l2Gas % 2 ^ 32),
      tail.inputs.feePayer.inner), tail.inputs.expirationTimestamp)) := by
  have free : ∀ {tail : TailInputs}, WellFormed tail → True := fun _ => trivial
  exact (((((tells_writeBool.comap
    (fun tail : TailInputs => tail.inputs.forPublic.isSome) free).append
    (tells_writeTxConstantData.comap TailInputs.constants WellFormed.constants)).append
    (tells_cut.comap (fun tail : TailInputs => tail.inputs.gasUsed.daGas) free)).append
    (tells_cut.comap (fun tail : TailInputs => tail.inputs.gasUsed.l2Gas) free)).append
    (tells_writeFr.comap (fun tail : TailInputs => tail.inputs.feePayer.inner) free)).append
    (tells_writeU64.comap (fun tail : TailInputs => tail.inputs.expirationTimestamp)
      WellFormed.expiration)

/-- Both sections of a public transaction are values of their type. -/
def SectionsTyped (sections : PartialPrivateTailPublicInputsForPublic) : Prop :=
  SectionTyped sections.nonRevertibleAccumulatedData ∧
    SectionTyped sections.revertibleAccumulatedData

theorem tells_sectionsWord : Tells 82025 SectionsTyped sectionsWord id := by
  have word := ((tells_writePublicAccumulatedData.comap
      PartialPrivateTailPublicInputsForPublic.nonRevertibleAccumulatedData
      (fun {sections} (typed : SectionsTyped sections) => typed.1)).append
    (tells_writePublicAccumulatedData.comap
      PartialPrivateTailPublicInputsForPublic.revertibleAccumulatedData And.right)).append
    (tells_writePublicCallRequest.comap
      PartialPrivateTailPublicInputsForPublic.publicTeardownCallRequest (fun _ => trivial))
  refine word.congr ?_
  rintro ⟨first, second, teardown⟩ ⟨first', second', teardown'⟩ _ _
  simp [and_assoc]

variable {first second : TailInputs}

theorem WellFormed.sections (formed : WellFormed first)
    {sections : PartialPrivateTailPublicInputsForPublic}
    (held : first.inputs.forPublic = some sections) : SectionsTyped sections := by
  obtain ⟨exact1, exact2⟩ := formed.exact.forPublic sections held
  obtain ⟨typed1, typed2⟩ := formed.publicLogs sections held
  exact ⟨⟨exact1, typed1⟩, exact2, typed2⟩

theorem WellFormed.rollup (formed : WellFormed first) {data : PrivateToRollupAccumulatedData}
    (held : first.inputs.forRollup = some data) : RollupTyped data :=
  ⟨formed.exact.forRollup data held, formed.rollupLogs data held⟩

/-- Rollup data never reads as nothing. -/
theorem rollup_ne_nil {data : PrivateToRollupAccumulatedData} (typed : RollupTyped data) :
    writeRollupAccumulatedData data ≠ [] := by
  intro empty
  have length := tells_writeRollupAccumulatedData.length typed
  rw [empty] at length
  cases length

/-- The end of a buffer tells the accumulated data, once the kind is known. -/
theorem endWord_eq_iff (formed : WellFormed first) (formed' : WellFormed second)
    (kind : first.inputs.forPublic.isSome = second.inputs.forPublic.isSome) :
    endWord first.inputs = endWord second.inputs ↔
      first.inputs.forPublic = second.inputs.forPublic ∧
        (inputsSent first.inputs).forRollup = (inputsSent second.inputs).forRollup := by
  unfold endWord inputsSent
  cases held : first.inputs.forPublic with
  | some sections =>
    rw [held, Option.isSome_some] at kind
    obtain ⟨sections', held'⟩ := Option.isSome_iff_exists.mp kind.symm
    rw [held']
    simpa using tells_sectionsWord.eq_iff (formed.sections held) (formed'.sections held')
  | none =>
    have held' : second.inputs.forPublic = none := by simpa [held] using kind.symm
    rw [held']
    cases rolled : first.inputs.forRollup with
    | some data =>
      cases rolled' : second.inputs.forRollup with
      | some data' =>
        simpa using tells_writeRollupAccumulatedData.eq_iff (formed.rollup rolled)
          (formed'.rollup rolled')
      | none => simpa using rollup_ne_nil (formed.rollup rolled)
    | none =>
      cases rolled' : second.inputs.forRollup with
      | some data' => simpa using (rollup_ne_nil (formed'.rollup rolled')).symm
      | none => simp

theorem inputsSent_eq_iff (inputs inputs' : PrivateKernelTailPublicInputs) :
    inputsSent inputs = inputsSent inputs' ↔
      (inputs.gasUsed.daGas % 2 ^ 32 = inputs'.gasUsed.daGas % 2 ^ 32 ∧
        inputs.gasUsed.l2Gas % 2 ^ 32 = inputs'.gasUsed.l2Gas % 2 ^ 32) ∧
      inputs.feePayer.inner = inputs'.feePayer.inner ∧
      inputs.expirationTimestamp = inputs'.expirationTimestamp ∧
      inputs.forPublic = inputs'.forPublic ∧
      (inputsSent inputs).forRollup = (inputsSent inputs').forRollup := by
  have payers : inputs.feePayer = inputs'.feePayer ↔
      inputs.feePayer.inner = inputs'.feePayer.inner := by
    obtain ⟨payer⟩ := inputs.feePayer
    obtain ⟨payer'⟩ := inputs'.feePayer
    simp
  rw [← payers]
  simp [inputsSent, gasAsU32]

/-- Two buffers are the same exactly when the public inputs are alike. -/
theorem toBuffer_eq_iff (formed : WellFormed first) (formed' : WellFormed second) :
    first.toBuffer = second.toBuffer ↔ Alike first second := by
  have starts := tells_startWord.eq_iff formed formed'
  simp only [Prod.mk.injEq] at starts
  rw [toBuffer_eq, toBuffer_eq, Alike, inputsSent_eq_iff]
  constructor
  · intro same
    obtain ⟨front, back⟩ := List.append_inj same
      ((tells_startWord.length formed).trans (tells_startWord.length formed').symm)
    obtain ⟨⟨⟨⟨⟨kind, constants⟩, da⟩, l2⟩, payer⟩, expiration⟩ := starts.mp front
    exact ⟨constants, ⟨da, l2⟩, payer, expiration, (endWord_eq_iff formed formed' kind).mp back⟩
  · rintro ⟨constants, ⟨da, l2⟩, payer, expiration, sections, rolled⟩
    have kind := congrArg Option.isSome sections
    rw [starts.mpr ⟨⟨⟨⟨⟨kind, constants⟩, da⟩, l2⟩, payer⟩, expiration⟩,
      (endWord_eq_iff formed formed' kind).mpr ⟨sections, rolled⟩]

/-! ## What is hashed -/

/-- The constants with all that is left out of the gas settings written as zero. -/
def constantsResolved (constants : TxConstantData) : TxConstantData :=
  { constants with txContext := { constants.txContext with
      gasSettings := resolved constants.txContext.gasSettings } }

theorem writeFields_resolved (constants : TxConstantData) :
    (constantsResolved constants).writeFields = constants.writeFields := rfl

theorem gasFields_inj {gas gas' : Gas} (typed : GasTyped gas) (typed' : GasTyped gas') :
    gas.writeFields = gas'.writeFields ↔ gasNumbers gas = gasNumbers gas' := by
  simp [Gas.writeFields, gasNumbers, Fr.ofU64_inj typed.1 typed'.1, Fr.ofU64_inj typed.2 typed'.2]

theorem gasTyped_getD {gas : Option Gas} (typed : ∀ some ∈ gas, GasTyped some) :
    GasTyped (gas.getD ⟨0, 0⟩) := by
  cases gas with
  | none => exact ⟨by decide, by decide⟩
  | some gas => exact typed gas rfl

/-- The fields of the constants hold the narrowed numbers at fixed places. -/
theorem constantsNumbers_of_fields {c c' : TxConstantData} (typed : ConstantsTyped c)
    (typed' : ConstantsTyped c') (same : c.writeFields = c'.writeFields) :
    constantsNumbers c = constantsNumbers c' := by
  have block := (Fr.ofU64_inj typed.blockNumber typed'.blockNumber).mp
    (Option.some.inj (congrArg (fun fields => fields[13]?) same))
  have slot := (Fr.ofU64_inj typed.slotNumber typed'.slotNumber).mp
    (Option.some.inj (congrArg (fun fields => fields[14]?) same))
  have limits := (gasFields_inj (gasTyped_getD typed.gasLimits) (gasTyped_getD typed'.gasLimits)).mp
    (congrArg (fun fields => (fields.drop 24).take 2) same)
  have teardown := (gasFields_inj (gasTyped_getD typed.teardownGasLimits)
    (gasTyped_getD typed'.teardownGasLimits)).mp
    (congrArg (fun fields => (fields.drop 26).take 2) same)
  rw [constantsNumbers, constantsNumbers, block, slot, limits, teardown]

/-- Constants that are sent alike are the same, but for what is left out, where the narrowed
numbers are. -/
theorem resolved_of_numbers {c c' : TxConstantData} (sent : constantsSent c = constantsSent c')
    (numbers : constantsNumbers c = constantsNumbers c') :
    constantsResolved c = constantsResolved c' := by
  obtain ⟨⟨archive, state, sponge, ⟨_, _, _, _, _, _, _, _⟩, fees, mana⟩,
    ⟨chain, version, settings⟩, vk, protocol⟩ := c
  obtain ⟨⟨archive', state', sponge', ⟨_, _, _, _, _, _, _, _⟩, fees', mana'⟩,
    ⟨chain', version', settings'⟩, vk', protocol'⟩ := c'
  have gas_ext : ∀ {gas gas' : Gas}, gas.daGas = gas'.daGas → gas.l2Gas = gas'.l2Gas →
      gas = gas' := by
    rintro ⟨da, l2⟩ ⟨da', l2'⟩ rfl rfl
    rfl
  simp only [constantsNumbers, gasNumbers, List.cons_append, List.nil_append, List.cons.injEq,
    and_true] at numbers
  obtain ⟨block, slot, da, l2, da', l2'⟩ := numbers
  have limits := gas_ext da l2
  have teardown := gas_ext da' l2'
  simp only [constantsSent, settingsSent, globalsSent, resolved, TxConstantData.mk.injEq,
    BlockHeader.mk.injEq, GlobalVariables.mk.injEq, TxContext.mk.injEq, GasSettings.mk.injEq]
    at sent
  simp only [constantsResolved, resolved, TxConstantData.mk.injEq, BlockHeader.mk.injEq,
    GlobalVariables.mk.injEq, TxContext.mk.injEq, GasSettings.mk.injEq, limits, teardown]
  tauto

/-- Constants that are sent alike are hashed alike where the narrowed numbers are the same. -/
theorem constantsFields_eq_iff {c c' : TxConstantData} (typed : ConstantsTyped c)
    (typed' : ConstantsTyped c') (sent : constantsSent c = constantsSent c') :
    c.writeFields = c'.writeFields ↔ constantsNumbers c = constantsNumbers c' := by
  refine ⟨constantsNumbers_of_fields typed typed', fun numbers => ?_⟩
  rw [← writeFields_resolved c, resolved_of_numbers sent numbers, writeFields_resolved]

/-- The accumulated data and what is hashed after it, if there is any. -/
def endFields (inputs : PrivateKernelTailPublicInputs) : List Fr :=
  let payment := inputs.gasUsed.writeFields ++
    [inputs.feePayer.inner, Fr.ofU64 inputs.expirationTimestamp]
  match inputs.forPublic, inputs.forRollup with
  | some sections, _ => sections.writeFields ++ payment
  | none, some data => data.writeFields ++ payment
  | none, none => []

theorem toFields_eq (tail : TailInputs) :
    tail.toFields = tail.constants.writeFields ++ endFields tail.inputs := by
  unfold TailInputs.toFields PrivateKernelTailPublicInputs.toFields endFields
  cases tail.inputs.forPublic with
  | some sections => simp
  | none => cases tail.inputs.forRollup <;> simp

/-- Inputs that are sent alike are hashed alike where the gas used is the same, if it is
hashed. -/
theorem endFields_eq_iff (formed : WellFormed first) (formed' : WellFormed second)
    (sent : inputsSent first.inputs = inputsSent second.inputs) :
    endFields first.inputs = endFields second.inputs ↔
      usedNumbers first.inputs = usedNumbers second.inputs := by
  obtain ⟨-, payer, expiration, sections, rolled⟩ := (inputsSent_eq_iff _ _).mp sent
  have used := gasFields_inj formed.gasUsed formed'.gasUsed
  unfold endFields usedNumbers
  rw [payer, expiration, sections]
  simp only [inputsSent, sections] at rolled
  cases held : second.inputs.forPublic with
  | some both => simpa using used
  | none =>
    simp only [held, Option.isSome_none, Bool.false_eq_true, if_false] at rolled
    rw [rolled]
    cases second.inputs.forRollup with
    | some data => simpa using used
    | none => simp

theorem toFields_eq_iff (formed : WellFormed first) (formed' : WellFormed second)
    (alike : Alike first second) :
    first.toFields = second.toFields ↔ wideNumbers first = wideNumbers second := by
  have constants := constantsFields_eq_iff formed.constants formed'.constants alike.1
  have ends := endFields_eq_iff formed formed' alike.2
  rw [toFields_eq, toFields_eq, wideNumbers, wideNumbers]
  constructor
  · intro same
    obtain ⟨front, back⟩ := List.append_inj same rfl
    rw [constants.mp front, ends.mp back]
  · intro same
    obtain ⟨front, back⟩ := List.append_inj same rfl
    rw [constants.mpr front, ends.mpr back]

/-- Bytes that are the same are of one hash exactly where the narrowed numbers that are
hashed are the same in public inputs that are alike. -/
theorem bytes_determine_hash_iff (poseidon2 : List Fr → Fr) (first second : TailInputs)
    (formed : WellFormed first) (formed' : WellFormed second) :
    (first.toBuffer = second.toBuffer →
      first.toFields = second.toFields ∧ first.hash poseidon2 = second.hash poseidon2) ↔
    (Alike first second → wideNumbers first = wideNumbers second) := by
  rw [toBuffer_eq_iff formed formed']
  constructor
  · intro determined alike
    exact (toFields_eq_iff formed formed' alike).mp (determined alike).1
  · intro same alike
    have fields := (toFields_eq_iff formed formed' alike).mpr (same alike)
    have sections := ((inputsSent_eq_iff _ _).mp alike.2).2.2.2.1
    exact ⟨fields, by rw [TailInputs.hash, TailInputs.hash, fields, sections]⟩

/-- `PrivateToRollupAccumulatedData::empty`. -/
def emptyRollup : PrivateToRollupAccumulatedData :=
  let empty := accumulated [] [] [] [] []
  { noteHashes := empty.noteHashes
    nullifiers := empty.nullifiers
    l2ToL1Msgs := empty.l2ToL1Msgs
    privateLogs := empty.privateLogs
    contractClassLogsHashes := empty.contractClassLogsHashes }

private theorem ethAddress_zero : 0 < 2 ^ 160 := by decide

/-- A private transaction without effects, anchored at this block. -/
def sampleTail (blockNumber : Nat) (gasLimits : Option Gas) : TailInputs :=
  let nil := Fr.ofU64 0
  let tree : AppendOnlyTreeSnapshot := ⟨nil, 0⟩
  { constants := ⟨⟨tree, ⟨tree, ⟨tree, tree, tree⟩⟩, nil,
      ⟨nil, nil, blockNumber, 0, 0, ⟨0, ethAddress_zero⟩, .zero, ⟨0, 0⟩⟩, nil, nil⟩,
      ⟨nil, nil, { gasLimits := gasLimits }⟩, nil, nil⟩
    inputs := ⟨⟨0, 0⟩, .zero, 0, none, some emptyRollup⟩ }

theorem sampleTail_wellFormed {blockNumber : Nat} {gasLimits : Option Gas}
    (block : blockNumber < 2 ^ 64) (limits : ∀ gas ∈ gasLimits, GasTyped gas) :
    WellFormed (sampleTail blockNumber gasLimits) where
  constants := by
    constructor <;> first
      | exact block
      | exact limits
      | simp [sampleTail, SnapshotTyped, GasTyped, FeesTyped]
  gasUsed := by simp [sampleTail, GasTyped]
  expiration := by simp [sampleTail]
  exact := by
    refine ⟨by simp [sampleTail], fun data held => ?_⟩
    cases held
    refine ⟨List.length_replicate, List.length_replicate, List.length_replicate,
      List.length_replicate, fun log inside => ?_, List.length_replicate⟩
    rw [List.eq_of_mem_replicate inside]
    rfl
  publicLogs := by simp [sampleTail]
  rollupLogs := by
    intro data held
    cases held
    refine ⟨fun log inside => ?_, fun hash inside => ?_⟩
    · rw [List.eq_of_mem_replicate inside]
      decide
    · rw [List.eq_of_mem_replicate inside]
      decide

/-- Gas limits that are left out and limits of zero are sent and hashed as one. -/
theorem left_out_limits_determine_hash :
    let left := sampleTail 7 none
    let zero := sampleTail 7 (some ⟨0, 0⟩)
    left.toBuffer = zero.toBuffer → left.toFields = zero.toFields ∧
      left.hash Crypto.summed.poseidon2 = zero.hash Crypto.summed.poseidon2 :=
  (bytes_determine_hash_iff _ (sampleTail 7 none) (sampleTail 7 (some ⟨0, 0⟩))
    (sampleTail_wellFormed (by decide) (by simp))
    (sampleTail_wellFormed (by decide) (by simp [GasTyped]))).mpr (fun _ => rfl)

/-- Two gas limits that are 2^32 apart are sent as the same bytes. -/
theorem far_limits_share_bytes :
    let low := sampleTail 7 (some ⟨1000, 0⟩)
    let high := sampleTail 7 (some ⟨2 ^ 32 + 1000, 0⟩)
    ¬ (low.toBuffer = high.toBuffer → low.toFields = high.toFields ∧
      low.hash Crypto.summed.poseidon2 = high.hash Crypto.summed.poseidon2) := by
  intro low high determined
  have formed : WellFormed low := sampleTail_wellFormed (by decide) (by simp [GasTyped])
  have formed' : WellFormed high := sampleTail_wellFormed (by decide) (by simp [GasTyped])
  have alike : Alike low high := by
    simp [Alike, low, high, sampleTail, constantsSent, settingsSent, resolved, gasAsU32]
  have bytes : low.toBuffer = high.toBuffer := (toBuffer_eq_iff formed formed').mpr alike
  have fields := congrArg (fun fields => fields[24]?) (determined bytes).1
  have limits : Fr.ofU64 1000 = Fr.ofU64 (2 ^ 32 + 1000) := Option.some.inj fields
  exact absurd limits (by decide)

end AztecPxe.SentBytes
