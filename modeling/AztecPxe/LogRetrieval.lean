import AztecPxe.CapsuleArrays
import AztecPxe.HexText
import AztecPxe.LogService
import AztecPxe.PrivateOracle

/-! Logs on request: a contract's sync function queues requests in one capsule array,
`bulkRetrieveLogs` asks the node for each and leaves the answers in another. What the
circuit reads there at one position is the log that answers the request of that
position. -/
namespace AztecPxe

/-- `log_service.rs::LogRetrievalRequest`. -/
structure LogRetrievalRequest where
  isPublic : Bool
  tag : Fr
  contractAddress : Option AztecAddress
  deriving DecidableEq, Repr

namespace LogService
variable (poseidon2 : List Fr → Fr) (privateNode : List Fr → Except Error Json)
variable (publicNode : AztecAddress → List Fr → Except Error Json)

/-- `LogService::get_public_logs_by_tag`: every log of every list in the answer. -/
def getPublicLogsByTag (contract : AztecAddress) (tag : Fr) : Except Error (List TaggedLog) := do
  let response ← publicNode contract [tag]
  let lists ← (response.asArray.getD []).mapM fun tagLogs => (tagLogs.asArray.getD []).mapM
    fun entry => (parseEntry tag entry).map fun log => { log with isPublic := true }
  return lists.flatten

/-- `compute_siloed_private_log_first_field`. -/
def computeSiloedPrivateLogFirstField (contract : AztecAddress) (field : Fr) : Fr :=
  Hash.poseidon2HashWithSeparator poseidon2 [contract.inner, field] 2769976252

/-- The tag the node indexes the private logs of a request by. -/
def siloedTag (request : LogRetrievalRequest) : Fr :=
  match request.contractAddress with
  | some contract => computeSiloedPrivateLogFirstField poseidon2 contract request.tag
  | none => request.tag

/-- The body of the loop of `bulk_retrieve_logs`. -/
def retrieveLogs (request : LogRetrievalRequest) : Except Error (List TaggedLog) := do
  let publicLogs ← match request.contractAddress with
    | some contract => getPublicLogsByTag publicNode contract request.tag
    | none => .ok []
  let privateLists ← getPrivateLogsByTags privateNode [siloedTag poseidon2 request]
  let privateLogs := privateLists.getLast?.getD []
  if publicLogs ≠ [] ∧ privateLogs ≠ [] then
    .error (.invalidData ("found both a public and private log for tag " ++
      hex32 request.tag.val))
  else return if publicLogs ≠ [] then publicLogs else privateLogs

/-- `LogService::bulk_retrieve_logs`. -/
def bulkRetrieveLogs (requests : List LogRetrievalRequest) : Except Error (List (List TaggedLog)) :=
  requests.mapM (retrieveLogs poseidon2 privateNode publicNode)

end LogService

namespace LogRetrieval

/-- `MAX_NOTE_HASHES_PER_TX`. -/
def maxNoteHashesPerTx : Nat := 64

/-- `PRIVATE_LOG_SIZE_IN_FIELDS`. -/
def privateLogSizeInFields : Nat := 16

/-- `MAX_NOTE_PACKED_LEN.max(PRIVATE_LOG_CIPHERTEXT_LEN)`. -/
def maxPayloadLen : Nat := max UtilityOracle.maxNotePackedLen 15

/-- `parse_log_retrieval_request`. -/
def parseLogRetrievalRequest (fields : List Fr) : Except Error LogRetrievalRequest :=
  match fields with
  | contract :: tag :: _ => .ok ⟨true, tag, some ⟨contract⟩⟩
  | _ => .error (.invalidData "log retrieval request too short")

/-- `serialize_bounded_vec`. -/
def serializeBoundedVec (values : List Fr) (maxLength : Nat) : Except Error (List Fr) :=
  if maxLength < values.length then
    .error (.invalidData ("bounded vec overflow: " ++ toString values.length ++ " > " ++
      toString maxLength))
  else .ok (values ++ List.replicate (maxLength - values.length) 0 ++ [Fr.ofU64 values.length])

/-- `tx_hash_to_field`. -/
def txHashToField (txHash : TxHash) : Except Error Fr := Fr.fromHex (hex32 txHash.bytes.val)

/-- `serialize_log_retrieval_option`. -/
def serializeLogRetrievalOption (log : Option TaggedLog) : Except Error (List Fr) :=
  match log with
  | some log => do
    let payload ← serializeBoundedVec log.data.tail maxPayloadLen
    let txHash ← txHashToField log.txHash
    let noteHashes ← serializeBoundedVec log.noteHashes maxNoteHashesPerTx
    return 1 :: (payload ++ txHash :: (noteHashes ++ [log.firstNullifier]))
  | none => .ok (0 :: (List.replicate (maxPayloadLen + 1) 0 ++
      0 :: (List.replicate (maxNoteHashesPerTx + 1) 0 ++ [0])))

/-- `serialize_pending_tagged_log`. -/
def serializePendingTaggedLog (log : TaggedLog) (recipient : AztecAddress) :
    Except Error (List Fr) := do
  let data ← serializeBoundedVec log.data privateLogSizeInFields
  let txHash ← txHashToField log.txHash
  let noteHashes ← serializeBoundedVec log.noteHashes maxNoteHashesPerTx
  return data ++ txHash :: (noteHashes ++ [log.firstNullifier, recipient.inner])

/-- An argument of a handler, with the error for a missing one. -/
def argument (handler : String) (args : Args) (i : Nat) (name : String) : Except Error Fr :=
  match args.first i with
  | some field => .ok field
  | none => .error (.invalidData (handler ++ ": missing " ++ name))

/-- `ensure_contract_db_access`. -/
def ensureContractDbAccess (self contract : AztecAddress) : Except Error Unit :=
  if contract = self then .ok ()
  else .error (.invalidData ("contract " ++ hex32 contract.inner.val ++
    " is not allowed to access " ++ hex32 self.inner.val ++ "'s PXE DB"))

/-- The arguments of `bulk_retrieve_logs`, and the check that the contract reads its
own slots. -/
def parseArguments (self : AztecAddress) (args : Args) : Except Error (AztecAddress × Fr × Fr) := do
  let contract : AztecAddress := ⟨← argument "bulkRetrieveLogs" args 0 "contract address"⟩
  let requestsSlot ← argument "bulkRetrieveLogs" args 1 "requests slot"
  let responsesSlot ← argument "bulkRetrieveLogs" args 2 "responses slot"
  ensureContractDbAccess self contract
  return (contract, requestsSlot, responsesSlot)

section Handler
variable (poseidon2 : List Fr → Fr) (privateNode : List Fr → Except Error Json)
variable (publicNode : AztecAddress → List Fr → Except Error Json)

/-- The logs for the requests an array holds. -/
def retrieved (requests : List (List Fr)) : Except Error (List (List TaggedLog)) := do
  LogService.bulkRetrieveLogs poseidon2 privateNode publicNode
    (← requests.mapM parseLogRetrievalRequest)

/-- `bulk_retrieve_logs` of the oracle. The requests are gone before the answers are
written out. -/
def bulkRetrieveLogs (self : AztecAddress) (args : Args) (store : CapsuleStore) :
    Except Error Answer × CapsuleStore :=
  match parseArguments self args with
  | .error e => (.error e, store)
  | .ok (contract, requestsSlot, responsesSlot) =>
    match store.readCapsuleArray contract requestsSlot >>=
        retrieved poseidon2 privateNode publicNode with
    | .error e => (.error e, store)
    | .ok responses =>
      let emptied := store.setCapsuleArray contract requestsSlot []
      match responses.mapM fun logs => serializeLogRetrievalOption logs.head? with
      | .error e => (.error e, emptied)
      | .ok serialized => (.ok [], emptied.setCapsuleArray contract responsesSlot serialized)

end Handler

/-! ## What a circuit reads of an answer -/

/-- The answer to a request, as a circuit has it. -/
structure LogRetrievalResponse where
  logPayload : List Fr
  txHash : Fr
  uniqueNoteHashes : List Fr
  firstNullifier : Fr
  deriving DecidableEq, Repr

/-- A bounded vector: as many of its storage as the length behind the storage says. -/
def readBoundedVec (maxLength : Nat) (fields : List Fr) : List Fr :=
  fields.take (fields.getD maxLength 0).toUsize

/-- An optional answer: the flag, then the members one behind the other. -/
def readLogRetrievalOption (fields : List Fr) : Option LogRetrievalResponse :=
  if fields.getD 0 0 = 0 then none
  else some
    { logPayload := readBoundedVec 15 (fields.drop 1)
      txHash := fields.getD 17 0
      uniqueNoteHashes := readBoundedVec 64 (fields.drop 18)
      firstNullifier := fields.getD 83 0 }

/-- The answer a log makes: its data without the tag, and its transaction's hash as a
field. -/
def responseOf (log : TaggedLog) : LogRetrievalResponse where
  logPayload := log.data.tail
  txHash := Fin.ofNat frModulus log.txHash.bytes.val
  uniqueNoteHashes := log.noteHashes
  firstNullifier := log.firstNullifier

/-- A log fits into an answer. -/
def Fits (log : TaggedLog) : Prop := log.data.tail.length ≤ 15 ∧ log.noteHashes.length ≤ 64

instance (log : TaggedLog) : Decidable (Fits log) := inferInstanceAs (Decidable (_ ∧ _))

theorem txHashToField_eq (txHash : TxHash) :
    txHashToField txHash = .ok (Fin.ofNat frModulus txHash.bytes.val) := by
  have bound : 2 ^ 256 ≤ 16 ^ 64 := by decide
  unfold txHashToField Fr.fromHex
  rw [HexText.decodeFixedHex_hex32 (txHash.bytes.isLt.trans_le bound)]
  rfl

theorem serializeBoundedVec_ok {values fields : List Fr} {maxLength : Nat} :
    serializeBoundedVec values maxLength = .ok fields ↔ values.length ≤ maxLength ∧
      fields = values ++ List.replicate (maxLength - values.length) 0 ++
        [Fr.ofU64 values.length] := by
  unfold serializeBoundedVec
  split
  next above => simp [Nat.not_le.mpr above]
  next within =>
    rw [Except.ok.injEq]
    constructor
    · exact fun same => ⟨Nat.le_of_not_lt within, same.symm⟩
    · exact fun fits => fits.2.symm

/-- A bounded vector has one width. -/
theorem length_serializeBoundedVec {values fields : List Fr} {maxLength : Nat}
    (done : serializeBoundedVec values maxLength = .ok fields) :
    fields.length = maxLength + 1 := by
  obtain ⟨fits, rfl⟩ := serializeBoundedVec_ok.mp done
  simp
  omega

/-- A bounded vector is read back, whatever follows it. -/
theorem readBoundedVec_serialize {values fields : List Fr} {maxLength : Nat}
    (small : maxLength < 2 ^ 64) (done : serializeBoundedVec values maxLength = .ok fields)
    (rest : List Fr) : readBoundedVec maxLength (fields ++ rest) = values := by
  obtain ⟨fits, rfl⟩ := serializeBoundedVec_ok.mp done
  have storage : (values ++ List.replicate (maxLength - values.length) 0).length = maxLength := by
    simp [Nat.add_sub_cancel' fits]
  have last : (values ++ List.replicate (maxLength - values.length) (0 : Fr) ++
      [Fr.ofU64 values.length] ++ rest).getD maxLength 0 = Fr.ofU64 values.length := by
    rw [List.append_assoc, List.getD_append_right _ _ _ _ storage.le, storage]
    simp
  rw [readBoundedVec, last, Fr.toUsize_ofU64 (fits.trans_lt small)]
  simp

/-- A log is written out exactly where it fits. -/
theorem serializeLogRetrievalOption_some_iff {log : TaggedLog} :
    (∃ fields, serializeLogRetrievalOption (some log) = .ok fields) ↔ Fits log := by
  constructor
  · rintro ⟨fields, done⟩
    obtain ⟨payload, first, done⟩ := bind_eq_ok.mp done
    obtain ⟨txHash, -, done⟩ := bind_eq_ok.mp done
    obtain ⟨noteHashes, second, -⟩ := bind_eq_ok.mp done
    exact ⟨(serializeBoundedVec_ok.mp first).1, (serializeBoundedVec_ok.mp second).1⟩
  · rintro ⟨payload, noteHashes⟩
    exact ⟨_, bind_eq_ok.mpr ⟨_, serializeBoundedVec_ok.mpr ⟨payload, rfl⟩,
      bind_eq_ok.mpr ⟨_, txHashToField_eq _, bind_eq_ok.mpr
        ⟨_, serializeBoundedVec_ok.mpr ⟨noteHashes, rfl⟩, rfl⟩⟩⟩⟩

/-- Every answer has one width, and reads as the log it was written for. -/
theorem read_serializeLogRetrievalOption {log : Option TaggedLog} {fields : List Fr}
    (done : serializeLogRetrievalOption log = .ok fields) :
    fields.length = 84 ∧ readLogRetrievalOption fields = log.map responseOf := by
  cases log with
  | none =>
    cases done
    exact ⟨by simp [maxPayloadLen, maxNoteHashesPerTx, UtilityOracle.maxNotePackedLen], rfl⟩
  | some log =>
    obtain ⟨payload, first, done⟩ := bind_eq_ok.mp done
    obtain ⟨txHash, hashed, done⟩ := bind_eq_ok.mp done
    obtain ⟨noteHashes, second, done⟩ := bind_eq_ok.mp done
    rw [txHashToField_eq] at hashed
    cases hashed
    cases done
    change serializeBoundedVec log.data.tail 15 = .ok payload at first
    change serializeBoundedVec log.noteHashes 64 = .ok noteHashes at second
    have width := length_serializeBoundedVec first
    have width' := length_serializeBoundedVec second
    have behind : (payload ++ Fin.ofNat frModulus log.txHash.bytes.val ::
        (noteHashes ++ [log.firstNullifier])).drop 17 = noteHashes ++ [log.firstNullifier] := by
      rw [List.drop_append, width]
      simp [width]
    have one : (1 : Fr) ≠ 0 := by decide
    refine ⟨by simp [width, width'], ?_⟩
    simp only [readLogRetrievalOption, Option.map_some, responseOf, List.getD_cons_zero, one,
      if_false, List.drop_succ_cons, List.drop_zero, behind, List.getD_cons_succ]
    rw [readBoundedVec_serialize (by decide) first, readBoundedVec_serialize (by decide) second]
    congr 2
    · rw [List.getD_append_right _ _ _ _ (by omega), width]
      rfl
    · rw [List.getD_append_right _ _ _ _ (by omega), width, List.getD_cons_succ,
        List.getD_append_right _ _ _ _ (by omega), width']
      rfl

/-- What a request is answered with fits, for every request. -/
def AllFit (found : List (List TaggedLog)) : Prop :=
  ∀ logs ∈ found, ∀ log, logs.head? = some log → Fits log

theorem serialize_all_iff {found : List (List TaggedLog)} :
    (∃ serialized, (found.mapM fun logs => serializeLogRetrievalOption logs.head?) =
      .ok serialized) ↔ AllFit found := by
  constructor
  · rintro ⟨serialized, done⟩ logs inside log first
    obtain ⟨fields, -, written⟩ := mapM_each done inside
    rw [first] at written
    exact serializeLogRetrievalOption_some_iff.mp ⟨fields, written⟩
  · intro fit
    have each : ∀ logs ∈ found, serializeLogRetrievalOption logs.head? =
        .ok (((serializeLogRetrievalOption logs.head?).toOption).getD []) := by
      intro logs inside
      cases first : logs.head? with
      | none => rfl
      | some log =>
        obtain ⟨fields, written⟩ := serializeLogRetrievalOption_some_iff.mpr (fit logs inside log first)
        rw [written]
        rfl
    exact ⟨_, mapM_eq_ok each⟩

/-! ## The exchange -/

section Exchange
open CapsuleArrays CapsuleStore
variable {poseidon2 : List Fr → Fr} {privateNode : List Fr → Except Error Json}
variable {publicNode : AztecAddress → List Fr → Except Error Json}
variable {store : CapsuleStore} {contract : AztecAddress} {requestsSlot responsesSlot : Fr}
variable {requests old : List (List Fr)}

/-- Both arrays lie apart, as long as either was or becomes. -/
def Apart (contract : AztecAddress) (requestsSlot responsesSlot : Fr) (requests old : Nat) : Prop :=
  ∀ slot, ¬ (InRegion contract requestsSlot requests contract slot ∧
    InRegion contract responsesSlot (max old requests) contract slot)

/-- An array is where it was if its slots are. -/
theorem holds_of_same {after : CapsuleStore} {base : Fr} {list : List (List Fr)}
    (holds : Holds store contract base list)
    (same : ∀ slot, InRegion contract base list.length contract slot →
      after.slots contract slot = store.slots contract slot) : Holds after contract base list where
  length := by
    have first := same base ⟨rfl, .inl rfl⟩
    rw [← holds.length, CapsuleStore.arrayLength, CapsuleStore.arrayLength,
      CapsuleStore.loadCapsule, CapsuleStore.loadCapsule, first]
  entries i inside := by
    rw [same _ ⟨rfl, .inr ⟨i, inside, rfl⟩⟩]
    exact holds.entries i inside

/-- Each request has its answer, at its own position: the first of the logs retrieved
for it, or the answer that there are none. -/
def Answers (poseidon2 : List Fr → Fr) (privateNode : List Fr → Except Error Json)
    (publicNode : AztecAddress → List Fr → Except Error Json) (requests responses : List (List Fr)) :
    Prop :=
  List.Forall₂ (fun fields answer => ∃ request logs,
    parseLogRetrievalRequest fields = .ok request ∧
    LogService.retrieveLogs poseidon2 privateNode publicNode request = .ok logs ∧
    answer.length = 84 ∧ readLogRetrievalOption answer = logs.head?.map responseOf) requests responses

/-- Requests and logs, logs and answers: requests and answers. -/
theorem answers_of_serialized {found : List (List TaggedLog)} {responses : List (List Fr)}
    (retrieval : retrieved poseidon2 privateNode publicNode requests = .ok found)
    (written : (found.mapM fun logs => serializeLogRetrievalOption logs.head?) = .ok responses) :
    Answers poseidon2 privateNode publicNode requests responses := by
  obtain ⟨parsed, read, looked⟩ := bind_eq_ok.mp retrieval
  have first := mapM_paired read
  have second := mapM_paired looked
  have third := mapM_paired written
  clear retrieval read looked written
  unfold Answers
  induction first generalizing found responses with
  | nil =>
    cases second
    cases third
    exact .nil
  | cons asked later ih =>
    cases second with
    | cons looked second =>
      cases third with
      | cons wrote third =>
        exact .cons ⟨_, _, asked, looked, read_serializeLogRetrievalOption wrote⟩ (ih second third)

/-- An exchange. Where a request cannot be read or the node does not answer, nothing
has changed. Else the requests are taken; each has its answer at its own position if
every log fits, and if one does not the answers stay what they were, with the requests
lost. No other slot is touched. -/
theorem bulk_retrieve_exchange {self : AztecAddress} {args : Args}
    (parsed : parseArguments self args = .ok (contract, requestsSlot, responsesSlot))
    (asked : Holds store contract requestsSlot requests)
    (held : Holds store contract responsesSlot old)
    (short : requests.length < 2 ^ 64) (short' : old.length < 2 ^ 64)
    (apart : Apart contract requestsSlot responsesSlot requests.length old.length) :
    let outcome := bulkRetrieveLogs poseidon2 privateNode publicNode self args store
    (∀ e, retrieved poseidon2 privateNode publicNode requests = .error e →
      outcome = (.error e, store)) ∧
    ∀ found, retrieved poseidon2 privateNode publicNode requests = .ok found →
      Holds outcome.2 contract requestsSlot [] ∧
      (∀ other slot, ¬ InRegion contract requestsSlot requests.length other slot →
        ¬ InRegion contract responsesSlot (max old.length requests.length) other slot →
        outcome.2.slots other slot = store.slots other slot) ∧
      (AllFit found → outcome.1 = .ok [] ∧ ∃ responses,
        Holds outcome.2 contract responsesSlot responses ∧
        Answers poseidon2 privateNode publicNode requests responses) ∧
      (¬ AllFit found → (∃ e, outcome.1 = .error e) ∧ Holds outcome.2 contract responsesSlot old) := by
  intro outcome
  have unfolded : outcome = bulkRetrieveLogs poseidon2 privateNode publicNode self args store := rfl
  unfold bulkRetrieveLogs at unfolded
  simp only [parsed, asked.read, ok_bind] at unfolded
  refine ⟨fun e failed => ?_, fun found retrieval => ?_⟩
  · rw [unfolded, failed]
  simp only [retrieval] at unfolded
  have taken : Holds (store.setCapsuleArray contract requestsSlot []) contract requestsSlot [] :=
    asked.set short (by decide)
  have takenOutside := sameOutside_set asked []
  rw [List.length_nil, Nat.max_zero] at takenOutside
  -- The answers' array is not touched while the requests are taken.
  have waiting : Holds (store.setCapsuleArray contract requestsSlot []) contract responsesSlot old := by
    refine holds_of_same held (fun slot inside => takenOutside contract slot (fun both => ?_))
    refine apart slot ⟨both, inside.1, inside.2.imp id ?_⟩
    rintro ⟨i, below, same⟩
    exact ⟨i, lt_max_of_lt_left below, same⟩
  by_cases fit : AllFit found
  · obtain ⟨serialized, written⟩ := serialize_all_iff.mpr fit
    have answers := answers_of_serialized retrieval written
    simp only [written] at unfolded
    have count : serialized.length = requests.length := answers.length_eq.symm
    have room : serialized.length < 2 ^ 64 := by omega
    have setOutside := sameOutside_set waiting serialized
    rw [count] at setOutside
    have left : outcome.2 = (store.setCapsuleArray contract requestsSlot []).setCapsuleArray contract
        responsesSlot serialized := by rw [unfolded]
    rw [left]
    refine ⟨?_, fun other slot first second => ?_, fun _ => ⟨by rw [unfolded], serialized,
      waiting.set short' room, answers⟩, fun none => absurd fit none⟩
    · refine holds_of_same taken (fun slot inside => setOutside contract slot (fun both => ?_))
      refine apart slot ⟨⟨rfl, inside.2.imp id ?_⟩, both⟩
      rintro ⟨i, below, -⟩
      exact absurd below (Nat.not_lt_zero i)
    · exact (setOutside other slot second).trans (takenOutside other slot first)
  · have refused : ∃ e, (found.mapM fun logs => serializeLogRetrievalOption logs.head?) =
        .error e := by
      cases written : found.mapM fun logs => serializeLogRetrievalOption logs.head? with
      | error e => exact ⟨e, rfl⟩
      | ok serialized => exact absurd (serialize_all_iff.mp ⟨serialized, written⟩) fit
    obtain ⟨e, refused⟩ := refused
    simp only [refused] at unfolded
    have left : outcome.2 = store.setCapsuleArray contract requestsSlot [] := by rw [unfolded]
    rw [left]
    exact ⟨taken, fun other slot first _ => takenOutside other slot first,
      fun all => absurd all fit, fun _ => ⟨⟨e, by rw [unfolded]⟩, waiting⟩⟩

/-- A store in which a contract asks for the logs of one tag. -/
def oneRequest : CapsuleStore := ({} : CapsuleStore).setCapsuleArray ⟨3⟩ 10 [[3, 7]]

private theorem holds_nothing (base : Fr) : Holds {} ⟨3⟩ base [] :=
  ⟨rfl, fun _ inside => absurd inside (Nat.not_lt_zero _)⟩

private theorem one_request_apart : Apart ⟨3⟩ 10 20 1 0 := by
  have few : ∀ i < 1, arraySlot 10 i = 11 ∧ arraySlot 20 i = 21 := by decide
  rintro slot ⟨⟨-, first⟩, ⟨-, second⟩⟩
  rcases first with rfl | ⟨i, small, rfl⟩ <;> rcases second with same | ⟨j, small', same⟩
  · exact absurd same (by decide)
  · rw [(few j small').2] at same
    exact absurd same (by decide)
  · rw [(few i small).1] at same
    exact absurd same (by decide)
  · rw [(few i small).1, (few j small').2] at same
    exact absurd same (by decide)

/-- A node with one public log for every tag, whose request is answered. -/
theorem one_request_exchange : ∃ responses,
    Holds (bulkRetrieveLogs (fun _ => 0) (fun _ => .ok (.arr [])) (fun _ _ => .ok (.arr [.arr [.obj []]]))
      ⟨3⟩ [[3], [10], [20]] oneRequest).2 ⟨3⟩ 20 responses ∧
    Answers (fun _ => 0) (fun _ => .ok (.arr [])) (fun _ _ => .ok (.arr [.arr [.obj []]])) [[3, 7]]
      responses := by
  have asked : Holds oneRequest ⟨3⟩ 10 [[3, 7]] := (holds_nothing 10).set (by decide) (by decide)
  have held : Holds oneRequest ⟨3⟩ 20 [] := by
    refine holds_of_same (holds_nothing 20) (fun slot inside => ?_)
    refine sameOutside_set (holds_nothing 10) [[3, 7]] ⟨3⟩ slot (fun both => ?_)
    refine one_request_apart slot ⟨both, rfl, inside.2.imp id ?_⟩
    rintro ⟨i, small, -⟩
    exact absurd small (Nat.not_lt_zero i)
  have exchanged := @bulk_retrieve_exchange (fun _ => 0) (fun _ => .ok (.arr []))
    (fun _ _ => .ok (.arr [.arr [.obj []]])) oneRequest ⟨3⟩ 10 20 [[3, 7]] [] ⟨3⟩ [[3], [10], [20]]
    rfl asked held (by decide) (by decide) one_request_apart
  obtain ⟨-, -, answered, -⟩ := exchanged.2 [[⟨7, [], 0, true, ⟨0⟩, [], 0⟩]] rfl
  refine (answered fun logs inside log first => ?_).2
  rw [List.mem_singleton.mp inside] at first
  cases first
  decide

end Exchange

end LogRetrieval
end AztecPxe
