import AztecPxe.CapsuleStore
import AztecPxe.KvRegistries
import AztecPxe.SenderTaggingStore

/-! The tagging stores and the capsule store on the shared key-value store, call by call, each
with the region of its keys. The tables these stores stand for elsewhere, and what their calls do
to them, are not needed here: only where the calls read and write. -/
namespace AztecPxe.KvStores
open AztecPxe PrefixStore Codec

variable {kv : KvStore}

/-! ## `recipient_tagging_store.rs` -/

namespace RecipientTaggingStore
variable (serde : Codec Nat)

/-- `aged_key`. -/
def agedKey (secret : Fr) : List UInt8 := utf8 ("recipient_tag:aged:" ++ hex32 secret.val)

/-- `finalized_key`. -/
def finalizedKey (secret : Fr) : List UInt8 := utf8 ("recipient_tag:finalized:" ++ hex32 secret.val)

/-- `get_highest_aged_index`. -/
def getHighestAgedIndex (secret : Fr) : kv.Program Nat := do
  return (← serde.load (agedKey secret)).getD 0

/-- `update_highest_aged_index`. -/
def updateHighestAgedIndex (secret : Fr) (index : Nat) : kv.Program Unit := do
  let current ← getHighestAgedIndex serde secret
  if current < index then serde.save (agedKey secret) index

/-- `get_highest_finalized_index`. -/
def getHighestFinalizedIndex (secret : Fr) : kv.Program Nat := do
  return (← serde.load (finalizedKey secret)).getD 0

/-- `update_highest_finalized_index`. -/
def updateHighestFinalizedIndex (secret : Fr) (index : Nat) : kv.Program Unit := do
  let current ← getHighestFinalizedIndex serde secret
  if index < current then
    throw (.failed (.invalidData ("cannot lower finalized index from " ++ toString current ++
      " to " ++ toString index)))
  else if current < index then serde.save (finalizedKey secret) index
  else return ()

/-- The keys of the recipient tagging store. -/
def starts : List String := ["recipient_tag:aged:", "recipient_tag:finalized:"]

theorem agedKey_mem (secret : Fr) : agedKey secret ∈ keysUnder starts :=
  mem_keysUnder (by simp [starts]) _

theorem finalizedKey_mem (secret : Fr) : finalizedKey secret ∈ keysUnder starts :=
  mem_keysUnder (by simp [starts]) _

variable {serde}

theorem reads_getHighestAgedIndex (secret : Fr) :
    Reads (keysUnder starts) (getHighestAgedIndex serde secret : kv.Program _) :=
  reads_bind (reads_load (agedKey_mem secret)) (fun _ => reads_pure _)

theorem reads_getHighestFinalizedIndex (secret : Fr) :
    Reads (keysUnder starts) (getHighestFinalizedIndex serde secret : kv.Program _) :=
  reads_bind (reads_load (finalizedKey_mem secret)) (fun _ => reads_pure _)

theorem writes_updateHighestAgedIndex (secret : Fr) (index : Nat) :
    Writes (keysUnder starts) (updateHighestAgedIndex serde secret index : kv.Program _) := by
  refine writes_bind (reads_getHighestAgedIndex secret).writes (fun current => ?_)
  split
  · exact writes_save (agedKey_mem secret) index
  · exact (reads_pure _).writes

theorem writes_updateHighestFinalizedIndex (secret : Fr) (index : Nat) :
    Writes (keysUnder starts) (updateHighestFinalizedIndex serde secret index : kv.Program _) := by
  refine writes_bind (reads_getHighestFinalizedIndex secret).writes (fun current => ?_)
  split
  · exact (reads_throw _).writes
  · split
    · exact writes_save (finalizedKey_mem secret) index
    · exact (reads_pure _).writes

end RecipientTaggingStore

/-! ## `sender_tagging_store.rs` -/

namespace SenderTaggingStore

/-- The types the sender tagging store writes. -/
structure Serde where
  pending : Codec (List PendingTagIndex)
  index : Codec Nat

/-- `pending_key`. -/
def pendingKey (secret : Fr) : List UInt8 := utf8 ("sender_tag:pending:" ++ hex32 secret.val)

/-- `finalized_key`. -/
def finalizedKey (secret : Fr) : List UInt8 := utf8 ("sender_tag:finalized:" ++ hex32 secret.val)

section Calls
variable (serde : Serde)

/-- `get_last_finalized_index`. -/
def getLastFinalizedIndex (secret : Fr) : kv.Program Nat := do
  return (← serde.index.load (finalizedKey secret)).getD 0

/-- `get_pending_indexes`. -/
def getPendingIndexes (secret : Fr) : kv.Program (List PendingTagIndex) := do
  return (← serde.pending.load (pendingKey secret)).getD []

/-- The turn of `store_pending_indexes` for one pre-tag. -/
def storePendingIndex (tag : PreTag) : kv.Program Unit := do
  let finalized ← getLastFinalizedIndex serde tag.secret
  if (finalized + SenderTaggingStore.windowLen) % 2 ^ 64 < tag.index then
    throw (.failed (.invalidData ("pending index " ++ toString tag.index ++
      " is too far ahead of finalized index " ++ toString finalized ++ " (window=" ++
      toString SenderTaggingStore.windowLen ++ ")")))
  else if tag.index ≤ finalized then
    throw (.failed (.invalidData ("pending index " ++ toString tag.index ++
      " is not greater than finalized index " ++ toString finalized)))
  else
    let existing ← getPendingIndexes serde tag.secret
    match existing.find? (fun entry => entry.txHash = tag.txHash ∧ entry.index ≠ tag.index) with
    | some entry =>
      throw (.failed (.invalidData ("conflicting pending index: secret=" ++ hex32 tag.secret.val ++
        " tx_hash=" ++ hex32 tag.txHash.bytes.val ++ " existing_index=" ++ toString entry.index ++
        " new_index=" ++ toString tag.index)))
    | none =>
      serde.pending.save (pendingKey tag.secret)
        (existing.filter (·.txHash ≠ tag.txHash) ++ [⟨tag.index, tag.txHash⟩])

/-- `store_pending_indexes`. -/
def storePendingIndexes (preTags : List PreTag) : kv.Program Unit := do
  ofResult (SenderTaggingStore.checkSecrets [] preTags)
  forM preTags (storePendingIndex serde)

/-- `get_tx_hashes_of_pending_indexes`. -/
def getTxHashesOfPendingIndexes (secret : Fr) (fromIndex toIndex : Nat) :
    kv.Program (List TxHash) := do
  let pending ← getPendingIndexes serde secret
  return (pending.filter (fun e => fromIndex ≤ e.index ∧ e.index ≤ toIndex)).map (·.txHash)

/-- `get_last_used_index`. -/
def getLastUsedIndex (secret : Fr) : kv.Program Nat := do
  let finalized ← getLastFinalizedIndex serde secret
  let pending ← getPendingIndexes serde secret
  return max finalized ((pending.map (·.index)).foldl max 0)

/-- `get_next_index`. -/
def getNextIndex (secret : Fr) : kv.Program Nat := do
  let last ← getLastUsedIndex serde secret
  let next := (last + 1) % 2 ^ 64
  let pending ← getPendingIndexes serde secret
  serde.pending.save (pendingKey secret) (pending ++ [⟨next, ⟨0⟩⟩])
  return next

/-- `drop_pending_indexes`: what is left is written back under the key that was listed. -/
def dropPendingIndexes (txHashes : List TxHash) : kv.Program Unit := do
  let entries ← kv.scan (utf8 "sender_tag:pending:")
  forM entries (fun entry => do
    let pending ← ofResult (serde.pending.fromSlice entry.2)
    let kept := pending.filter (·.txHash ∉ txHashes)
    if kept.length = pending.length then return ()
    else if kept.isEmpty then kv.erase entry.1
    else serde.pending.save entry.1 kept)

/-- `finalize_pending_indexes`. -/
def finalizePendingIndexes (secret : Fr) (upToIndex : Nat) : kv.Program Unit := do
  let current ← getLastFinalizedIndex serde secret
  if current < upToIndex then serde.index.save (finalizedKey secret) upToIndex
  let pending := (← getPendingIndexes serde secret).filter (upToIndex < ·.index)
  if pending.isEmpty then kv.erase (pendingKey secret)
  else serde.pending.save (pendingKey secret) pending

/-- `get_all_pending`: a key that does not read as a secret is left out. -/
def getAllPending : kv.Program (Std.ExtTreeMap Fr (List PendingTagIndex)) := do
  let entries ← kv.scan (utf8 "sender_tag:pending:")
  ofResult (entries.foldlM (fun result entry =>
    match (textAfter "sender_tag:pending:" entry.1).bind (fun text =>
        (Fr.fromHex (String.ofList text)).toOption) with
    | some secret => (serde.pending.fromSlice entry.2).map (result.insert secret)
    | none => .ok result) ∅)

end Calls

/-- The keys of the sender tagging store. -/
def starts : List String := ["sender_tag:pending:", "sender_tag:finalized:"]

theorem pendingKey_mem (secret : Fr) : pendingKey secret ∈ keysUnder starts :=
  mem_keysUnder (by simp [starts]) _

theorem finalizedKey_mem (secret : Fr) : finalizedKey secret ∈ keysUnder starts :=
  mem_keysUnder (by simp [starts]) _

variable {serde : Serde}

theorem reads_getLastFinalizedIndex (secret : Fr) :
    Reads (keysUnder starts) (getLastFinalizedIndex serde secret : kv.Program _) :=
  reads_bind (reads_load (finalizedKey_mem secret)) (fun _ => reads_pure _)

theorem reads_getPendingIndexes (secret : Fr) :
    Reads (keysUnder starts) (getPendingIndexes serde secret : kv.Program _) :=
  reads_bind (reads_load (pendingKey_mem secret)) (fun _ => reads_pure _)

theorem reads_getLastUsedIndex (secret : Fr) :
    Reads (keysUnder starts) (getLastUsedIndex serde secret : kv.Program _) :=
  reads_bind (reads_getLastFinalizedIndex secret) (fun _ =>
    reads_bind (reads_getPendingIndexes secret) (fun _ => reads_pure _))

theorem reads_getAllPending : Reads (keysUnder starts) (getAllPending serde : kv.Program _) :=
  reads_bind (reads_scan (fun _ => mem_of_begins (by simp [starts]))) (fun _ => reads_ofResult _)

theorem writes_storePendingIndexes (preTags : List PreTag) :
    Writes (keysUnder starts) (storePendingIndexes serde preTags : kv.Program _) := by
  refine writes_bind (reads_ofResult _).writes (fun _ => writes_forM (fun tag _ => ?_))
  refine writes_bind (reads_getLastFinalizedIndex tag.secret).writes (fun finalized => ?_)
  split
  · exact (reads_throw _).writes
  · split
    · exact (reads_throw _).writes
    · refine writes_bind (reads_getPendingIndexes tag.secret).writes (fun existing => ?_)
      split
      · exact (reads_throw _).writes
      · exact writes_save (pendingKey_mem tag.secret) _

theorem writes_getNextIndex (secret : Fr) :
    Writes (keysUnder starts) (getNextIndex serde secret : kv.Program _) :=
  writes_bind (reads_getLastUsedIndex secret).writes (fun _ =>
    writes_bind (reads_getPendingIndexes secret).writes (fun _ =>
      writes_bind (writes_save (pendingKey_mem secret) _) (fun _ => (reads_pure _).writes)))

theorem writes_dropPendingIndexes (txHashes : List TxHash) :
    Writes (keysUnder starts) (dropPendingIndexes serde txHashes : kv.Program _) := by
  refine writes_scan (fun entries begins => writes_forM (fun entry listed => ?_))
  have own : entry.1 ∈ keysUnder starts := mem_of_begins (by simp [starts]) (begins entry listed)
  refine writes_bind (reads_ofResult _).writes (fun pending => ?_)
  dsimp only
  split
  · exact (reads_pure _).writes
  · split
    · exact writes_delete own
    · exact writes_save own _

theorem writes_finalizePendingIndexes (secret : Fr) (upToIndex : Nat) :
    Writes (keysUnder starts) (finalizePendingIndexes serde secret upToIndex : kv.Program _) := by
  have pruned : Writes (keysUnder starts) (do
      let pending := (← getPendingIndexes serde secret).filter (upToIndex < ·.index)
      if pending.isEmpty then kv.erase (pendingKey secret)
      else serde.pending.save (pendingKey secret) pending : kv.Program Unit) := by
    refine writes_bind (reads_getPendingIndexes secret).writes (fun pending => ?_)
    dsimp only
    split
    · exact writes_delete (pendingKey_mem secret)
    · exact writes_save (pendingKey_mem secret) _
  refine writes_bind (reads_getLastFinalizedIndex secret).writes (fun current => ?_)
  split
  · exact writes_bind (writes_save (finalizedKey_mem secret) upToIndex) (fun _ => pruned)
  · exact pruned

end SenderTaggingStore

/-! ## `capsule_store.rs` -/

namespace CapsuleStore

/-- The types the capsule store writes. -/
structure Serde where
  capsules : Codec (List (List Fr))
  capsule : Codec (List Fr)

/-- `capsule_key`. -/
def capsuleKey (contract : Fr) : List UInt8 := utf8 ("capsule:" ++ hex32 contract.val)

/-- `db_slot_key`. -/
def dbSlotKey (contract : AztecAddress) (slot : Fr) : List UInt8 :=
  utf8 ("capsule_db:" ++ (hex32 contract.inner.val ++ ":" ++ hex32 slot.val))

/-- `Vec::with_capacity` for a vector of vectors, which take 24 bytes each: no vector takes more
than `isize::MAX`. -/
def withCapacity (capacity : Nat) : kv.Program Unit :=
  if 2 ^ 63 ≤ capacity * 24 then throw .panicked else pure ()

section Calls
variable (serde : Serde)

/-- `add`. -/
def add (contract : Fr) (capsule : List (List Fr)) : kv.Program Unit :=
  serde.capsules.save (capsuleKey contract) capsule

/-- `pop`: the capsule is deleted before it is decoded. -/
def pop (contract : Fr) : kv.Program (Option (List (List Fr))) := do
  match ← kv.read (capsuleKey contract) with
  | some bytes =>
    kv.erase (capsuleKey contract)
    return some (← ofResult (serde.capsules.fromSlice bytes))
  | none => return none

/-- `store_capsule`. -/
def storeCapsule (contract : AztecAddress) (slot : Fr) (capsule : List Fr) : kv.Program Unit :=
  serde.capsule.save (dbSlotKey contract slot) capsule

/-- `load_capsule`. -/
def loadCapsule (contract : AztecAddress) (slot : Fr) : kv.Program (Option (List Fr)) :=
  serde.capsule.load (dbSlotKey contract slot)

/-- `delete_capsule`. -/
def deleteCapsule (contract : AztecAddress) (slot : Fr) : kv.Program Unit :=
  kv.erase (dbSlotKey contract slot)

/-- A capsule that has to be there. -/
def loadOrErr (contract : AztecAddress) (slot : Fr) (missing : String) : kv.Program (List Fr) := do
  match ← loadCapsule serde contract slot with
  | some data => return data
  | none => throw (.failed (.invalidData (missing ++ hex32 slot.val ++ " for contract " ++
      hex32 contract.inner.val)))

/-- `copy_capsule`: all entries are read before the first is written. -/
def copyCapsule (contract : AztecAddress) (srcSlot dstSlot : Fr) (numEntries : Nat) :
    kv.Program Unit := do
  if numEntries = 0 then return ()
  withCapacity numEntries
  let copied ← (List.range numEntries).mapM (fun i =>
    loadOrErr serde contract (Fr.ofU64 (srcSlot.toUsize + i))
      "attempted to copy empty capsule slot ")
  forM copied.zipIdx (fun entry =>
    storeCapsule serde contract (Fr.ofU64 (dstSlot.toUsize + entry.2)) entry.1)

/-- The length an array's base slot holds. -/
def arrayLength (contract : AztecAddress) (baseSlot : Fr) : kv.Program Nat := do
  return (((← loadCapsule serde contract baseSlot).bind List.head?).getD 0).toUsize

/-- `append_to_capsule_array`. -/
def appendToCapsuleArray (contract : AztecAddress) (baseSlot : Fr) (content : List (List Fr)) :
    kv.Program Unit := do
  let currentLength ← arrayLength serde contract baseSlot
  forM content.zipIdx (fun entry =>
    storeCapsule serde contract (CapsuleStore.arraySlot baseSlot (currentLength + entry.2)) entry.1)
  storeCapsule serde contract baseSlot [Fr.ofU64 (currentLength + content.length)]

/-- `read_capsule_array`. -/
def readCapsuleArray (contract : AztecAddress) (baseSlot : Fr) : kv.Program (List (List Fr)) := do
  let length ← arrayLength serde contract baseSlot
  withCapacity length
  (List.range length).mapM (fun i => loadOrErr serde contract (CapsuleStore.arraySlot baseSlot i)
    "expected non-empty capsule array value at slot ")

/-- `set_capsule_array`. -/
def setCapsuleArray (contract : AztecAddress) (baseSlot : Fr) (content : List (List Fr)) :
    kv.Program Unit := do
  let originalLength ← arrayLength serde contract baseSlot
  storeCapsule serde contract baseSlot [Fr.ofU64 content.length]
  forM content.zipIdx (fun entry =>
    storeCapsule serde contract (CapsuleStore.arraySlot baseSlot entry.2) entry.1)
  forM (List.range' content.length (originalLength - content.length)) (fun i =>
    deleteCapsule contract (CapsuleStore.arraySlot baseSlot i))

end Calls

/-- The keys of the capsule store. -/
def starts : List String := ["capsule:", "capsule_db:"]

theorem capsuleKey_mem (contract : Fr) : capsuleKey contract ∈ keysUnder starts :=
  mem_keysUnder (by simp [starts]) _

theorem dbSlotKey_mem (contract : AztecAddress) (slot : Fr) :
    dbSlotKey contract slot ∈ keysUnder starts :=
  mem_keysUnder (by simp [starts]) _

variable {serde : Serde}

theorem reads_withCapacity {region : Set (List UInt8)} (capacity : Nat) :
    Reads region (withCapacity capacity : kv.Program _) := by
  unfold withCapacity
  split
  · exact reads_throw _
  · exact reads_pure _

theorem reads_loadOrErr (contract : AztecAddress) (slot : Fr) (missing : String) :
    Reads (keysUnder starts) (loadOrErr serde contract slot missing : kv.Program _) := by
  refine reads_bind (reads_load (dbSlotKey_mem contract slot)) (fun held => ?_)
  cases held with
  | none => exact reads_throw _
  | some data => exact reads_pure data

theorem reads_arrayLength (contract : AztecAddress) (baseSlot : Fr) :
    Reads (keysUnder starts) (arrayLength serde contract baseSlot : kv.Program _) :=
  reads_bind (reads_load (dbSlotKey_mem contract baseSlot)) (fun _ => reads_pure _)

theorem reads_readCapsuleArray (contract : AztecAddress) (baseSlot : Fr) :
    Reads (keysUnder starts) (readCapsuleArray serde contract baseSlot : kv.Program _) :=
  reads_bind (reads_arrayLength contract baseSlot) (fun length =>
    reads_bind (reads_withCapacity length) (fun _ =>
      reads_mapM (fun _ _ => reads_loadOrErr contract _ _)))

theorem writes_pop (contract : Fr) :
    Writes (keysUnder starts) (pop serde contract : kv.Program _) := by
  refine writes_bind (reads_read (capsuleKey_mem contract)).writes (fun held => ?_)
  cases held with
  | none => exact (reads_pure _).writes
  | some bytes =>
    exact writes_bind (writes_delete (capsuleKey_mem contract)) (fun _ =>
      (reads_bind (reads_ofResult _) (fun _ => reads_pure _)).writes)

theorem writes_storeCapsule (contract : AztecAddress) (slot : Fr) (capsule : List Fr) :
    Writes (keysUnder starts) (storeCapsule serde contract slot capsule : kv.Program _) :=
  writes_save (dbSlotKey_mem contract slot) capsule

theorem writes_copyCapsule (contract : AztecAddress) (srcSlot dstSlot : Fr) (numEntries : Nat) :
    Writes (keysUnder starts)
      (copyCapsule serde contract srcSlot dstSlot numEntries : kv.Program _) := by
  unfold copyCapsule
  split
  · exact (reads_pure _).writes
  · exact writes_bind (reads_withCapacity numEntries).writes (fun _ =>
      writes_bind (reads_mapM (fun _ _ => reads_loadOrErr contract _ _)).writes (fun _ =>
        writes_forM (fun _ _ => writes_storeCapsule contract _ _)))

theorem writes_appendToCapsuleArray (contract : AztecAddress) (baseSlot : Fr)
    (content : List (List Fr)) : Writes (keysUnder starts)
      (appendToCapsuleArray serde contract baseSlot content : kv.Program _) :=
  writes_bind (reads_arrayLength contract baseSlot).writes (fun _ =>
    writes_bind (writes_forM (fun _ _ => writes_storeCapsule contract _ _)) (fun _ =>
      writes_storeCapsule contract baseSlot _))

theorem writes_setCapsuleArray (contract : AztecAddress) (baseSlot : Fr)
    (content : List (List Fr)) : Writes (keysUnder starts)
      (setCapsuleArray serde contract baseSlot content : kv.Program _) :=
  writes_bind (reads_arrayLength contract baseSlot).writes (fun _ =>
    writes_bind (writes_storeCapsule contract baseSlot _) (fun _ =>
      writes_bind (writes_forM (fun _ _ => writes_storeCapsule contract _ _)) (fun _ =>
        writes_forM (fun _ _ => writes_delete (dbSlotKey_mem contract _)))))

end CapsuleStore

end AztecPxe.KvStores
