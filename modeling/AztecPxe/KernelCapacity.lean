import AztecPxe.KernelConservation
import AztecPxe.KernelTypes

/-! The capacities of the kernel's public inputs. The arrays are padded to the
protocol's lengths but never refused or cut when they are longer, and both
serializations write them without their lengths. So the output is well formed
exactly when the effects that survive fit, and `process` never fails. -/
namespace AztecPxe

/-- `PRIVATE_LOG_SIZE_IN_FIELDS`. -/
def privateLogSizeInFields : Nat := 16

namespace KernelCapacity
open SimulatedKernel KernelConservation FixedWidth

/-- The arrays both kinds of accumulated data have are as long as the protocol
says. -/
structure ArraysExact (noteHashes nullifiers : List Fr) (messages : List ScopedL2ToL1Message)
    (privateLogs : List PrivateLog) (logHashes : List ScopedLogHash) : Prop where
  noteHashes : noteHashes.length = maxNoteHashesPerTx
  nullifiers : nullifiers.length = maxNullifiersPerTx
  messages : messages.length = maxL2ToL1MsgsPerTx
  logs : privateLogs.length = maxPrivateLogsPerTx
  logFields : ∀ log ∈ privateLogs, log.fields.length = privateLogSizeInFields
  hashes : logHashes.length = maxContractClassLogsPerTx

/-- The arrays of a private transaction are exact. -/
def RollupExact (data : PrivateToRollupAccumulatedData) : Prop :=
  ArraysExact data.noteHashes data.nullifiers data.l2ToL1Msgs data.privateLogs
    data.contractClassLogsHashes

/-- The arrays of a section of a public transaction are exact. -/
def PublicExact (data : PrivateToPublicAccumulatedData) : Prop :=
  ArraysExact data.noteHashes data.nullifiers data.l2ToL1Msgs data.privateLogs
      data.contractClassLogsHashes ∧
    data.publicCallRequests.length = maxEnqueuedCallsPerTx

/-- All arrays of the public inputs are exact. -/
structure Exact (inputs : PrivateKernelTailPublicInputs) : Prop where
  forPublic : ∀ sections, inputs.forPublic = some sections →
    PublicExact sections.nonRevertibleAccumulatedData ∧
      PublicExact sections.revertibleAccumulatedData
  forRollup : ∀ data, inputs.forRollup = some data → RollupExact data

/-- The effects of a result with counters on one side of the boundary that are
not squashed fit in a section with this room for nullifiers. -/
structure SectionFits (result : PrivateExecutionResult) (side : Nat → Bool) (room : Nat) :
    Prop where
  noteHashes : result.allNoteHashes.countP (fun entry => side entry.noteHash.counter &&
    !result.allNoteHashNullifierCounterMaps.contains entry.noteHash.counter) ≤ maxNoteHashesPerTx
  nullifiers : result.allNullifiers.countP (fun entry => side entry.nullifier.counter &&
    !result.allNoteHashNullifierCounterMaps.toList.any (fun pair =>
      pair.2 = entry.nullifier.counter)) ≤ room
  logs : result.allPrivateLogs.countP (fun log => side log.counter &&
    !result.allNoteHashNullifierCounterMaps.contains log.noteHashCounter) ≤ maxPrivateLogsPerTx
  logFields : ∀ log ∈ result.allPrivateLogs, (side log.counter &&
    !result.allNoteHashNullifierCounterMaps.contains log.noteHashCounter) = true →
      log.fields.length ≤ privateLogSizeInFields
  requests : result.allPublicCallRequests.countP (fun request => side request.counter) ≤
    maxEnqueuedCallsPerTx

/-- The effects of a result fit. The protocol nullifier takes one place, and all
contract class logs are in one section. -/
structure Fits (result : PrivateExecutionResult) : Prop where
  classLogs : result.allContractClassLogsSorted.length ≤ maxContractClassLogsPerTx
  privateOnly : isPrivateOnly result = true →
    SectionFits result (fun _ => true) (maxNullifiersPerTx - 1)
  nonRevertible : isPrivateOnly result = false →
    SectionFits result (belowBoundary result) (maxNullifiersPerTx - 1)
  revertible : isPrivateOnly result = false →
    SectionFits result (aboveBoundary result) maxNullifiersPerTx

/-- What is made of a result has exact arrays and the one size of its kind, and
a result whose effects do not fit is refused. -/
structure Capacity (poseidon2 : List Fr → Fr) (result : PrivateExecutionResult) : Prop where
  exact : ∀ feePayer expirationTimestamp output,
    process poseidon2 result feePayer expirationTimestamp = .ok output → Exact output
  fields : ∀ constants feePayer expirationTimestamp output,
    process poseidon2 result feePayer expirationTimestamp = .ok output →
      (output.toFields constants).length = if output.forPublic.isSome then 2784 else 1281
  bytes : ∀ constants feePayer expirationTimestamp output,
    process poseidon2 result feePayer expirationTimestamp = .ok output →
      (output.toBuffer constants).length = if output.forPublic.isSome then 82722 else 38557
  refused : ¬ Fits result → ∀ feePayer expirationTimestamp,
    ∃ e, process poseidon2 result feePayer expirationTimestamp = .error e

section Padding

private theorem length_padTo_iff {α : Type} {empty : α} {len : Nat} {items : List α} :
    (padTo empty len items).length = len ↔ items.length ≤ len := by
  unfold padTo
  rw [List.length_append, List.length_replicate]
  omega

/-- Padded arrays are exact when what they are made of fits. -/
private theorem arraysExact_iff {noteHashes nullifiers : List Fr} {logs : List PrivateLog}
    {hashes : List ScopedLogHash} :
    ArraysExact (padTo 0 maxNoteHashesPerTx noteHashes) (padTo 0 maxNullifiersPerTx nullifiers)
        (padTo {} maxL2ToL1MsgsPerTx []) (padTo {} maxPrivateLogsPerTx logs)
        (padTo {} maxContractClassLogsPerTx hashes) ↔
      noteHashes.length ≤ maxNoteHashesPerTx ∧ nullifiers.length ≤ maxNullifiersPerTx ∧
        logs.length ≤ maxPrivateLogsPerTx ∧
        (∀ log ∈ logs, log.fields.length = privateLogSizeInFields) ∧
        hashes.length ≤ maxContractClassLogsPerTx := by
  constructor
  · intro exact
    refine ⟨length_padTo_iff.mp exact.noteHashes, length_padTo_iff.mp exact.nullifiers,
      length_padTo_iff.mp exact.logs, ?_, length_padTo_iff.mp exact.hashes⟩
    intro log inside
    exact exact.logFields log (List.mem_append_left _ inside)
  · rintro ⟨noteHashes, nullifiers, logs, fields, hashes⟩
    refine ⟨length_padTo_iff.mpr noteHashes, length_padTo_iff.mpr nullifiers, rfl,
      length_padTo_iff.mpr logs, ?_, length_padTo_iff.mpr hashes⟩
    intro log inside
    rcases List.mem_append.mp inside with own | empty
    · exact fields log own
    · rw [List.eq_of_mem_replicate empty]
      rfl

private theorem length_siloed_iff {poseidon2 : List Fr → Fr} {log : PrivateLogData} :
    (siloedPrivateLog poseidon2 log).fields.length = privateLogSizeInFields ↔
      log.fields.length ≤ privateLogSizeInFields := by
  have same : ∀ siloed : List Fr, siloed.length = log.fields.length →
      ((padTo 0 16 siloed).length = privateLogSizeInFields ↔
        log.fields.length ≤ privateLogSizeInFields) := by
    intro siloed lengths
    rw [← lengths]
    exact length_padTo_iff
  unfold siloedPrivateLog
  apply same
  cases log.fields with
  | nil => rfl
  | cons first rest =>
    by_cases zero : first = 0
    · simp [zero]
    · simp [zero]

end Padding

section Sizes
variable {noteHashes nullifiers : List Fr} {messages : List ScopedL2ToL1Message}
variable {logs : List PrivateLog} {hashes : List ScopedLogHash}

/-- The arrays both kinds have take 1243 fields. -/
private theorem length_arrays_fields
    (exact : ArraysExact noteHashes nullifiers messages logs hashes) :
    (noteHashes ++ nullifiers ++ messages.flatMap (·.writeFields) ++
      logs.flatMap (·.writeFields) ++ hashes.flatMap (·.writeFields)).length = 1243 := by
  have ofMessages : (messages.flatMap (·.writeFields)).length = messages.length * 3 :=
    length_flatMap_fixed messages (fun _ _ => rfl)
  have ofLogs : (logs.flatMap (·.writeFields)).length = logs.length * 17 := by
    apply length_flatMap_fixed logs
    intro log inside
    rw [PrivateLog.writeFields, List.length_append, exact.logFields log inside]
    rfl
  have ofHashes : (hashes.flatMap (·.writeFields)).length = hashes.length * 3 :=
    length_flatMap_fixed hashes (fun _ _ => rfl)
  simp only [List.length_append, ofMessages, ofLogs, ofHashes, exact.noteHashes, exact.nullifiers,
    exact.messages, exact.logs, exact.hashes]
  rfl

/-- The arrays both kinds have take 37860 bytes. -/
private theorem length_arrays_bytes
    (exact : ArraysExact noteHashes nullifiers messages logs hashes) :
    (noteHashes.flatMap writeFr ++ nullifiers.flatMap writeFr ++
      messages.flatMap writeL2ToL1Message ++ logs.flatMap writePrivateLog ++
        hashes.flatMap writeLogHash).length = 37860 := by
  have ofNoteHashes : (noteHashes.flatMap writeFr).length = noteHashes.length * 32 :=
    length_flatMap_fixed noteHashes (fun field _ => length_writeFr field)
  have ofNullifiers : (nullifiers.flatMap writeFr).length = nullifiers.length * 32 :=
    length_flatMap_fixed nullifiers (fun field _ => length_writeFr field)
  have ofMessages : (messages.flatMap writeL2ToL1Message).length = messages.length * 84 :=
    length_flatMap_fixed messages (fun message _ => length_writeL2ToL1Message message)
  have ofLogs : (logs.flatMap writePrivateLog).length = logs.length * 516 := by
    apply length_flatMap_fixed logs
    intro log inside
    rw [length_writePrivateLog, exact.logFields log inside]
    rfl
  have ofHashes : (hashes.flatMap writeLogHash).length = hashes.length * 68 :=
    length_flatMap_fixed hashes (fun hash _ => length_writeLogHash hash)
  simp only [List.length_append, ofNoteHashes, ofNullifiers, ofMessages, ofLogs, ofHashes,
    exact.noteHashes, exact.nullifiers, exact.messages, exact.logs, exact.hashes]
  rfl

private theorem length_rollup_fields {data : PrivateToRollupAccumulatedData}
    (exact : RollupExact data) : data.writeFields.length = 1243 :=
  length_arrays_fields exact

private theorem length_rollup_bytes {data : PrivateToRollupAccumulatedData}
    (exact : RollupExact data) : (writeRollupAccumulatedData data).length = 37860 :=
  length_arrays_bytes exact

private theorem length_section_fields {data : PrivateToPublicAccumulatedData}
    (exact : PublicExact data) : data.writeFields.length = 1371 := by
  have ofRequests : (data.publicCallRequests.flatMap (·.writeFields)).length =
      data.publicCallRequests.length * 4 :=
    length_flatMap_fixed data.publicCallRequests (fun _ _ => rfl)
  rw [PrivateToPublicAccumulatedData.writeFields, List.length_append, ofRequests, exact.2,
    length_arrays_fields exact.1]
  rfl

private theorem length_section_bytes {data : PrivateToPublicAccumulatedData}
    (exact : PublicExact data) : (writePublicAccumulatedData data).length = 40964 := by
  have ofRequests : (data.publicCallRequests.flatMap writePublicCallRequest).length =
      data.publicCallRequests.length * 97 :=
    length_flatMap_fixed data.publicCallRequests
      (fun request _ => length_writePublicCallRequest request)
  rw [writePublicAccumulatedData, List.length_append, ofRequests, exact.2,
    length_arrays_bytes exact.1]
  rfl

end Sizes

section Kernel
variable {poseidon2 : List Fr → Fr} {result : PrivateExecutionResult}

/-- A section fits when what survives on its side does. -/
private theorem sectionFits_iff {side : Nat → Bool} {room : Nat} :
    SectionFits result side room ↔
      (onSide result side).noteHashes.length ≤ maxNoteHashesPerTx ∧
        (onSide result side).nullifiers.length ≤ room ∧
        (onSide result side).privateLogs.length ≤ maxPrivateLogsPerTx ∧
        (∀ log ∈ (onSide result side).privateLogs, log.fields.length ≤ privateLogSizeInFields) ∧
        (onSide result side).publicCallRequests.length ≤ maxEnqueuedCallsPerTx := by
  simp only [onSide, survivors_eq, List.filter_filter, ← List.countP_eq_length_filter,
    List.mem_filter, and_imp]
  constructor
  · rintro ⟨noteHashes, nullifiers, logs, logFields, requests⟩
    exact ⟨noteHashes, nullifiers, logs, logFields, requests⟩
  · rintro ⟨noteHashes, nullifiers, logs, logFields, requests⟩
    exact ⟨noteHashes, nullifiers, logs, logFields, requests⟩

private theorem siloed_exact_iff {logs : List PrivateLogData} :
    (∀ log ∈ logs.map (siloedPrivateLog poseidon2), log.fields.length = privateLogSizeInFields) ↔
      ∀ log ∈ logs, log.fields.length ≤ privateLogSizeInFields := by
  rw [List.forall_mem_map]
  exact forall₂_congr (fun log _ => length_siloed_iff)

private theorem length_uniqueNoteHashes (firstNullifier : Fr) (siloed : List Fr) :
    (uniqueNoteHashes poseidon2 firstNullifier siloed).length = siloed.length := by
  unfold uniqueNoteHashes
  rw [List.length_map, List.length_zipIdx]

private theorem rollupExact_iff (privateOnly : isPrivateOnly result = true) :
    RollupExact (forRollup poseidon2 result) ↔ Fits result := by
  have noCalls : (onSide result (fun _ => true)).publicCallRequests.length ≤
      maxEnqueuedCallsPerTx := by
    rw [isPrivateOnly, Bool.and_eq_true, List.isEmpty_iff] at privateOnly
    simp only [onSide, survivors_eq, privateOnly.1, List.filter_nil]
    exact Nat.zero_le _
  have fits : SectionFits result (fun _ => true) (maxNullifiersPerTx - 1) ↔ _ := sectionFits_iff
  rw [onSide_all] at fits noCalls
  have arrays : RollupExact (forRollup poseidon2 result) ↔ _ := arraysExact_iff
  rw [arrays, length_uniqueNoteHashes, siloed_exact_iff, List.length_cons, List.length_map,
    List.length_map, List.length_map, List.length_map]
  constructor
  · rintro ⟨noteHashes, nullifiers, logs, logFields, hashes⟩
    refine ⟨hashes, fun _ => ?_, ?_, ?_⟩
    · exact fits.mpr ⟨noteHashes, Nat.le_sub_one_of_lt nullifiers, logs, logFields, noCalls⟩
    · intro isPublic
      rw [privateOnly] at isPublic
      cases isPublic
    · intro isPublic
      rw [privateOnly] at isPublic
      cases isPublic
  · intro all
    obtain ⟨noteHashes, nullifiers, logs, logFields, -⟩ := fits.mp (all.privateOnly privateOnly)
    exact ⟨noteHashes, Nat.add_le_of_le_sub (by decide) nullifiers, logs, logFields, all.classLogs⟩

private theorem accumulated_exact_iff {noteHashes nullifiers : List Fr}
    {logs : List PrivateLogData} {hashes : List ScopedLogHash} {requests : List PublicCallRequest} :
    PublicExact (accumulated noteHashes nullifiers (logs.map (siloedPrivateLog poseidon2)) hashes
        requests) ↔
      noteHashes.length ≤ maxNoteHashesPerTx ∧ nullifiers.length ≤ maxNullifiersPerTx ∧
        logs.length ≤ maxPrivateLogsPerTx ∧
        (∀ log ∈ logs, log.fields.length ≤ privateLogSizeInFields) ∧
        requests.length ≤ maxEnqueuedCallsPerTx ∧ hashes.length ≤ maxContractClassLogsPerTx := by
  unfold PublicExact accumulated
  rw [arraysExact_iff, siloed_exact_iff, List.length_map, length_padTo_iff]
  tauto

private theorem publicExact_iff (isPublic : isPrivateOnly result = false) :
    PublicExact (forPublic poseidon2 result).nonRevertibleAccumulatedData ∧
        PublicExact (forPublic poseidon2 result).revertibleAccumulatedData ↔ Fits result := by
  have below : SectionFits result (belowBoundary result) (maxNullifiersPerTx - 1) ↔ _ :=
    sectionFits_iff
  have above : SectionFits result (aboveBoundary result) maxNullifiersPerTx ↔ _ := sectionFits_iff
  rw [forPublic_onSide]
  simp only [accumulated_exact_iff, length_uniqueNoteHashes, List.length_map, List.length_cons,
    List.length_nil]
  constructor
  · rintro ⟨⟨noteHashes, nullifiers, logs, logFields, requests, hashes⟩, ⟨noteHashes', nullifiers',
      logs', logFields', requests', -⟩⟩
    refine ⟨hashes, ?_, fun _ => ?_, fun _ => ?_⟩
    · intro privateOnly
      rw [isPublic] at privateOnly
      cases privateOnly
    · exact below.mpr ⟨noteHashes, Nat.le_sub_one_of_lt nullifiers, logs, logFields, requests⟩
    · exact above.mpr ⟨noteHashes', nullifiers', logs', logFields', requests'⟩
  · intro all
    obtain ⟨noteHashes, nullifiers, logs, logFields, requests⟩ :=
      below.mp (all.nonRevertible isPublic)
    obtain ⟨noteHashes', nullifiers', logs', logFields', requests'⟩ :=
      above.mp (all.revertible isPublic)
    exact ⟨⟨noteHashes, Nat.add_le_of_le_sub (by decide) nullifiers, logs, logFields, requests,
      all.classLogs⟩, ⟨noteHashes', nullifiers', logs', logFields', requests', Nat.zero_le _⟩⟩

/-- The arrays are exact exactly when the effects fit. -/
private theorem exact_iff_fits {feePayer : Fr} {expirationTimestamp : Nat}
    {output : PrivateKernelTailPublicInputs}
    (processed : process poseidon2 result feePayer expirationTimestamp = .ok output) :
    Exact output ↔ Fits result := by
  unfold process at processed
  split at processed
  next privateOnly =>
    rw [← Except.ok.inj processed, ← rollupExact_iff privateOnly]
    constructor
    · intro exact
      exact exact.forRollup _ rfl
    · intro rollup
      refine ⟨?_, ?_⟩
      · intro sections none
        cases none
      · intro data shown
        cases shown
        exact rollup
  next isPublic =>
    rw [← Except.ok.inj processed, ← publicExact_iff (by simpa using isPublic)]
    constructor
    · intro exact
      exact exact.forPublic _ rfl
    · intro both
      refine ⟨?_, ?_⟩
      · intro sections shown
        cases shown
        exact both
      · intro data none
        cases none

/-- `process` makes one of the two kinds of output. -/
private theorem kinds_of_process {feePayer : Fr} {expirationTimestamp : Nat}
    {output : PrivateKernelTailPublicInputs}
    (processed : process poseidon2 result feePayer expirationTimestamp = .ok output) :
    (∃ sections, output.forPublic = some sections) ∨
      (output.forPublic = none ∧ ∃ data, output.forRollup = some data) := by
  unfold process at processed
  split at processed
  · rw [← Except.ok.inj processed]
    exact .inr ⟨rfl, _, rfl⟩
  · rw [← Except.ok.inj processed]
    exact .inl ⟨_, rfl⟩

private theorem length_toFields {constants : TxConstantData}
    {output : PrivateKernelTailPublicInputs} (exact : Exact output)
    (kinds : (∃ sections, output.forPublic = some sections) ∨
      (output.forPublic = none ∧ ∃ data, output.forRollup = some data)) :
    (output.toFields constants).length = if output.forPublic.isSome then 2784 else 1281 := by
  rcases kinds with ⟨sections, shown⟩ | ⟨none, data, shown⟩
  · obtain ⟨below, above⟩ := exact.forPublic sections shown
    simp only [PrivateKernelTailPublicInputs.toFields, shown,
      PartialPrivateTailPublicInputsForPublic.writeFields, List.length_append,
      length_constants_fields, length_section_fields below, length_section_fields above]
    rfl
  · simp only [PrivateKernelTailPublicInputs.toFields, none, shown, List.length_append,
      length_constants_fields, length_rollup_fields (exact.forRollup data shown)]
    rfl

private theorem length_toBuffer {constants : TxConstantData}
    {output : PrivateKernelTailPublicInputs} (exact : Exact output)
    (kinds : (∃ sections, output.forPublic = some sections) ∨
      (output.forPublic = none ∧ ∃ data, output.forRollup = some data)) :
    (output.toBuffer constants).length = if output.forPublic.isSome then 82722 else 38557 := by
  rcases kinds with ⟨sections, shown⟩ | ⟨none, data, shown⟩
  · obtain ⟨below, above⟩ := exact.forPublic sections shown
    simp only [PrivateKernelTailPublicInputs.toBuffer, shown, List.length_append,
      length_constants_bytes, length_section_bytes below, length_section_bytes above,
      length_writeBool, length_writeU32, length_writeU64, length_writeFr,
      length_writePublicCallRequest]
    rfl
  · simp only [PrivateKernelTailPublicInputs.toBuffer, none, shown, List.length_append,
      length_constants_bytes, length_rollup_bytes (exact.forRollup data shown),
      length_writeBool, length_writeU32, length_writeU64, length_writeFr]
    rfl

/-- `process` returns public inputs for every result. -/
private theorem process_total (poseidon2 : List Fr → Fr) (result : PrivateExecutionResult)
    (feePayer : Fr) (expirationTimestamp : Nat) :
    ∃ output, process poseidon2 result feePayer expirationTimestamp = .ok output := by
  unfold process
  split
  · exact ⟨_, rfl⟩
  · exact ⟨_, rfl⟩

/-- The kernel keeps to the capacities exactly for the results whose surviving
effects fit. -/
theorem capacity_iff_fits (poseidon2 : List Fr → Fr) (result : PrivateExecutionResult) :
    Capacity poseidon2 result ↔ Fits result := by
  constructor
  · intro capacity
    obtain ⟨output, processed⟩ := process_total poseidon2 result 0 0
    exact (exact_iff_fits processed).mp (capacity.exact 0 0 output processed)
  · intro fits
    refine ⟨?_, ?_, ?_, fun overflows => (overflows fits).elim⟩
    · intro feePayer expirationTimestamp output processed
      exact (exact_iff_fits processed).mpr fits
    · intro constants feePayer expirationTimestamp output processed
      exact length_toFields ((exact_iff_fits processed).mpr fits) (kinds_of_process processed)
    · intro constants feePayer expirationTimestamp output processed
      exact length_toBuffer ((exact_iff_fits processed).mpr fits) (kinds_of_process processed)

/-- A call that publishes two contract classes. -/
def twoClasses : PrivateExecutionResult where
  entrypoint :=
    { contractAddress := ⟨3⟩
      contractClassLogs := [⟨⟨⟨3⟩, [1], 1⟩, 4⟩, ⟨⟨⟨3⟩, [2], 1⟩, 5⟩] }
  firstNullifier := 1

/-- Its output has two contract class log hashes where the protocol has one. -/
theorem twoClasses_exceed : ¬ Capacity Crypto.zero.poseidon2 twoClasses := by
  intro capacity
  have exact := capacity.exact 0 0 _ rfl
  exact absurd (exact.forRollup _ rfl).hashes (by decide)

end Kernel

end KernelCapacity

end AztecPxe
