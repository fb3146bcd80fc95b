import AztecPxe.UtilityOracle

/-! The recipient side of the tagging protocol: `sync/log_service.rs` over
`stores/recipient_tagging_store.rs`. A fetch asks the node for the tags of a
window of indexes above the stored finalized index of each secret, and moves
that index to the highest one that had a log. Indexes are `u64`, and sums wrap
as in a release build. -/
namespace AztecPxe

/-- `log_service.rs::TaggedLog`. -/
structure TaggedLog where
  tag : Fr
  data : List Fr
  blockNumber : Nat
  isPublic : Bool
  txHash : TxHash
  noteHashes : List Fr
  firstNullifier : Fr
  deriving DecidableEq, Repr

/-- The `recipient_tag:finalized:{secret}` entries. -/
structure RecipientTaggingStore where
  finalized : Std.ExtTreeMap Fr Nat := ∅

namespace RecipientTaggingStore

/-- `get_highest_finalized_index`. -/
def getHighestFinalizedIndex (store : RecipientTaggingStore) (secret : Fr) : Nat :=
  store.finalized[secret]?.getD 0

/-- `update_highest_finalized_index`. -/
def updateHighestFinalizedIndex (store : RecipientTaggingStore) (secret : Fr) (index : Nat) :
    Except Error RecipientTaggingStore :=
  let current := store.getHighestFinalizedIndex secret
  if index < current then
    .error (.invalidData ("cannot lower finalized index from " ++ toString current ++ " to " ++
      toString index))
  else if current < index then .ok { finalized := store.finalized.insert secret index }
  else .ok store

end RecipientTaggingStore

namespace LogService

/-- `MAX_RPC_LEN`. -/
def maxRpcLen : Nat := 128

/-- `UNFINALIZED_TAGGING_INDEXES_WINDOW_LEN`. -/
def windowLen : Nat := 20

/-- An array of hexadecimal texts; what does not parse is left out. -/
def parseFields (value : Option Json) : List Fr :=
  ((value.bind Json.asArray).getD []).filterMap (fun item =>
    item.asStr.bind (fun text => (Fr.fromHex text).toOption))

/-- `map(read).transpose()?.unwrap_or_else(absent)` on a text member. -/
def readMember {α : Type} (entry : Json) (name : String) (read : String → Except Error α)
    (absent : α) : Except Error α :=
  match (entry.get name).bind Json.asStr with
  | some text => read text
  | none => .ok absent

/-- One log entry of the node's answer. -/
def parseEntry (tag : Fr) (entry : Json) : Except Error TaggedLog := do
  let txHash ← readMember entry "txHash" TxHash.fromHex ⟨0⟩
  let firstNullifier ← readMember entry "firstNullifier" Fr.fromHex 0
  return {
    tag := tag
    data := parseFields ((entry.get "logData").or (entry.get "data"))
    blockNumber := ((entry.get "blockNumber").bind Json.asU64).getD 0
    isPublic := false
    txHash := txHash
    noteHashes := parseFields (entry.get "noteHashes")
    firstNullifier := firstNullifier }

/-- The logs an answer has for the tag at one position, none where it has no
array there. -/
def parseTagLogs (response : Json) (tag : Fr) (tagIdx : Nat) : Except Error (List TaggedLog) :=
  match (response.asArray.bind (·[tagIdx]?)).bind Json.asArray with
  | some entries => entries.mapM (parseEntry tag)
  | none => .ok []

/-- The parsing of an answer: one list of logs for each tag. -/
def parseAnswer (tags : List Fr) (response : Json) : Except Error (List (List TaggedLog)) :=
  tags.zipIdx.mapM (fun entry => parseTagLogs response entry.1 entry.2)

section Node
variable (poseidon2 : List Fr → Fr) (node : List Fr → Except Error Json)

/-- `LogService::get_private_logs_by_tags`, with the node's call of that name. -/
def getPrivateLogsByTags (tags : List Fr) : Except Error (List (List TaggedLog)) :=
  if tags.isEmpty then .ok [] else node tags >>= parseAnswer tags

/-- `compute_siloed_tag`, with `domain_separator::PRIVATE_LOG_FIRST_FIELD`. -/
def computeSiloedTag (secret : Fr) (index : Nat) (contract : AztecAddress) : Fr :=
  let tag := poseidon2 [secret, Fr.ofU64 index]
  Hash.poseidon2HashWithSeparator poseidon2 [contract.inner, tag] 2769976252

/-- The last index of a chunk that had a log. -/
def highestFound (first : Nat) (logs : List (List TaggedLog)) : Option Nat :=
  logs.zipIdx.foldl (fun highest entry =>
    if entry.1.isEmpty then highest else some ((first + entry.2) % 2 ^ 64)) none

/-- The index update after a chunk; a refused one is ignored. -/
def finalizeFound (secret : Fr) (highest : Option Nat) (store : RecipientTaggingStore) :
    RecipientTaggingStore :=
  match highest with
  | some idx => (store.updateHighestFinalizedIndex secret idx).toOption.getD store
  | none => store

/-- The chunk loop of `load_logs_for_range`. -/
def loadChunks (secret : Fr) (fromIndex : Nat) : List (List Fr) → Nat → List TaggedLog →
    RecipientTaggingStore → Except Error (List TaggedLog) × RecipientTaggingStore
  | [], _, allLogs, store => (.ok allLogs, store)
  | chunk :: rest, chunkIdx, allLogs, store =>
    match getPrivateLogsByTags node chunk with
    | .error e => (.error e, store)
    | .ok logs =>
      loadChunks secret fromIndex rest (chunkIdx + 1) (allLogs ++ logs.flatten)
        (finalizeFound secret (highestFound (fromIndex + chunkIdx * maxRpcLen) logs) store)

/-- `LogService::load_logs_for_range`. -/
def loadLogsForRange (contract : AztecAddress) (secret : Fr) (fromIndex toIndex : Nat)
    (store : RecipientTaggingStore) : Except Error (List TaggedLog) × RecipientTaggingStore :=
  let tags := (List.range' fromIndex (toIndex + 1 - fromIndex)).map
    (fun idx => computeSiloedTag poseidon2 secret idx contract)
  loadChunks node secret fromIndex (tags.toChunks maxRpcLen) 0 [] store

/-- The loop of `fetch_tagged_logs` over the secrets. -/
def fetchSecrets (contract : AztecAddress) : List Fr → List TaggedLog → RecipientTaggingStore →
    Except Error (List TaggedLog) × RecipientTaggingStore
  | [], allLogs, store => (.ok allLogs, store)
  | secret :: rest, allLogs, store =>
    let finalized := store.getHighestFinalizedIndex secret
    match loadLogsForRange poseidon2 node contract secret ((finalized + 1) % 2 ^ 64)
        ((finalized + windowLen) % 2 ^ 64) store with
    | (.error e, store) => (.error e, store)
    | (.ok logs, store) => fetchSecrets contract rest (allLogs ++ logs) store

/-- `LogService::fetch_tagged_logs`; the recipient is only traced. -/
def fetchTaggedLogs (contract : AztecAddress) (taggingSecrets : List Fr)
    (store : RecipientTaggingStore) : Except Error (List TaggedLog) × RecipientTaggingStore :=
  fetchSecrets poseidon2 node contract taggingSecrets [] store

end Node
end LogService
end AztecPxe
