import AztecPxe.KvRegistries

/-! The note store and the event store on the shared key-value store. Both keep records under one
family of keys and lists of their ids under others, list a family to roll back, and treat every
record of every list above a block. -/
namespace AztecPxe.KvStores
open AztecPxe PrefixStore Codec

variable {kv : KvStore}

/-! ## Lists of ids -/

section Lists
variable (texts : Codec (List String)) (key : List UInt8) (id : Fr)

/-- `add_to_*_index`: the id's text goes on the list of the key once. -/
def addToIndex : kv.Program Unit := do
  let list := (← texts.load key).getD []
  if list.contains (hex32 id.val) then return ()
  else texts.save key (list ++ [hex32 id.val])

/-- `remove_from_*_index`: a list that is left empty is deleted. -/
def removeFromIndex : kv.Program Unit := do
  match ← texts.load key with
  | some list =>
    let list := list.filter (· ≠ hex32 id.val)
    if list.isEmpty then kv.erase key
    else texts.save key list
  | none => return ()

/-- The ids on a list; what does not read as one is left out. -/
def idsOf (list : List String) : List Fr := list.filterMap (fun text => (Fr.fromHex text).toOption)

/-- The loop of a rollback over one block index: the lists of the blocks above are treated id by
id, and deleted. -/
def rollbackLists (start : String) (blockNumber : Nat) (treat : Fr → kv.Program Unit) :
    kv.Program Unit := do
  let entries ← kv.scan (utf8 start)
  forM entries (fun entry =>
    match (textAfter start entry.1).bind (u64FromStrRadix · 10) with
    | some bn => do
      if blockNumber < bn then
        let ids ← ofResult (texts.fromSlice entry.2)
        forM (idsOf ids) treat
        kv.erase entry.1
    | none => return ())

variable {texts key} {region : Set (List UInt8)}

theorem writes_addToIndex (inside : key ∈ region) :
    Writes region (addToIndex texts key id : kv.Program _) := by
  refine writes_bind (reads_load inside).writes (fun list => ?_)
  dsimp only
  split
  · exact (reads_pure _).writes
  · exact writes_save inside _

theorem writes_removeFromIndex (inside : key ∈ region) :
    Writes region (removeFromIndex texts key id : kv.Program _) := by
  refine writes_bind (reads_load inside).writes (fun held => ?_)
  cases held with
  | none => exact (reads_pure _).writes
  | some list =>
    dsimp only
    split
    · exact writes_delete inside
    · exact writes_save inside _

theorem writes_rollbackLists {start : String} {blockNumber : Nat} {treat : Fr → kv.Program Unit}
    (inside : ∀ key, utf8 start <+: key → key ∈ region)
    (each : ∀ id, Writes region (treat id)) :
    Writes region (rollbackLists texts start blockNumber treat) := by
  refine writes_scan (fun entries begins => writes_forM (fun entry listed => ?_))
  split
  · split
    · exact writes_bind (reads_ofResult _).writes (fun _ =>
        writes_bind (writes_forM (fun id _ => each id)) (fun _ =>
          writes_delete (inside entry.1 (begins entry listed))))
    · exact (reads_pure _).writes
  · exact (reads_pure _).writes

end Lists

/-! ## `note_store.rs` -/

namespace NoteStore

/-- The types the note store writes. -/
structure Serde where
  note : Codec StoredNote
  texts : Codec (List String)

/-- `note_key_by_nullifier`. -/
def noteKeyByNullifier (nullifier : Fr) : List UInt8 := utf8 ("note:" ++ hex32 nullifier.val)

/-- `contract_index_key`. -/
def contractIndexKey (contract : AztecAddress) : List UInt8 :=
  utf8 ("note_idx:contract:" ++ hex32 contract.inner.val)

/-- `block_index_key`. -/
def blockIndexKey (blockNumber : Nat) : List UInt8 :=
  utf8 ("note_idx:block:" ++ toString blockNumber)

/-- `nullification_block_index_key`. -/
def nullificationBlockIndexKey (blockNumber : Nat) : List UInt8 :=
  utf8 ("note_idx:nullify_block:" ++ toString blockNumber)

section Calls
variable (serde : Serde)

/-- One turn of the loop in `add_notes`. -/
def addOne (scope : AztecAddress) (note : StoredNote) : kv.Program Unit := do
  let stored := note.withScope scope
  let key := noteKeyByNullifier stored.siloedNullifier
  match ← serde.note.load key with
  | some existing => serde.note.save key (existing.withScope scope)
  | none =>
    serde.note.save key stored
    addToIndex serde.texts (contractIndexKey stored.contractAddress) stored.siloedNullifier
    match stored.blockNumber with
    | some bn => addToIndex serde.texts (blockIndexKey bn) stored.siloedNullifier
    | none => return ()

/-- `add_notes`. -/
def addNotes (notes : List StoredNote) (scope : AztecAddress) : kv.Program Unit :=
  forM notes (addOne serde scope)

/-- `add_note`. -/
def addNote (note : StoredNote) : kv.Program Unit :=
  addNotes serde [note] (note.scopes.head?.getD AztecAddress.zero)

/-- `get_notes_for_contract`. -/
def getNotesForContract (contract : AztecAddress) : kv.Program (List StoredNote) := do
  let nullifiers := (← serde.texts.load (contractIndexKey contract)).getD []
  let notes ← (idsOf nullifiers).mapM (fun nullifier =>
    serde.note.load (noteKeyByNullifier nullifier))
  return notes.reduceOption

/-- `get_all_notes`. -/
def getAllNotes : kv.Program (List StoredNote) := do
  let entries ← kv.scan (utf8 "note:")
  entries.mapM (fun entry => ofResult (serde.note.fromSlice entry.2))

/-- `get_notes`. -/
def getNotes (filter : NoteFilter) : kv.Program (List StoredNote) := do
  let notes ← match filter.contractAddress with
    | some contract => getNotesForContract serde contract
    | none => getAllNotes serde
  return (notes.filter filter.accepts).insertionSort (fun a b => a.before b = true)

/-- `get_notes_by_slot`. -/
def getNotesBySlot (contract : AztecAddress) (storageSlot : Fr) : kv.Program (List StoredNote) :=
  getNotes serde { contractAddress := some contract, storageSlot := some storageSlot,
                   status := .active }

/-- One turn of the loop in `apply_nullifiers`. -/
def nullifyOne (entry : Fr × Nat) : kv.Program Unit := do
  let key := noteKeyByNullifier entry.1
  match ← serde.note.load key with
  | some note =>
    if note.nullified then return ()
    else
      serde.note.save key (note.spentAt entry.2)
      addToIndex serde.texts (nullificationBlockIndexKey entry.2) entry.1
  | none => return ()

/-- `apply_nullifiers`. -/
def applyNullifiers (nullifiers : List (Fr × Nat)) : kv.Program Unit :=
  forM nullifiers (nullifyOne serde)

/-- `nullify_note`. -/
def nullifyNote (contract : AztecAddress) (storageSlot noteHash : Fr) : kv.Program Unit := do
  let notes ← getNotesForContract serde contract
  match notes.find? (fun note => note.storageSlot == storageSlot && note.noteHash == noteHash) with
  | some note => applyNullifiers serde [(note.siloedNullifier, 0)]
  | none => return ()

/-- Phase 1 of `rollback`, for one nullifier. -/
def unNullify (nullifier : Fr) : kv.Program Unit := do
  let noteKey := noteKeyByNullifier nullifier
  match ← serde.note.load noteKey with
  | some note => serde.note.save noteKey note.revived
  | none => return ()

/-- Phase 2 of `rollback`, for one nullifier. -/
def removeNote (nullifier : Fr) : kv.Program Unit := do
  let noteKey := noteKeyByNullifier nullifier
  match ← serde.note.load noteKey with
  | some note => removeFromIndex serde.texts (contractIndexKey note.contractAddress) nullifier
  | none => pure ()
  kv.erase noteKey

/-- `rollback`; the synced block number is not read. -/
def rollback (blockNumber _syncedBlockNumber : Nat) : kv.Program Unit := do
  rollbackLists serde.texts "note_idx:nullify_block:" blockNumber (unNullify serde)
  rollbackLists serde.texts "note_idx:block:" blockNumber (removeNote serde)

/-- `has_note`. -/
def hasNote (contract : AztecAddress) (noteHash : Fr) : kv.Program Bool := do
  return (← getNotesForContract serde contract).any
    (fun note => note.noteHash == noteHash && !note.nullified)

end Calls

/-- The keys of the note store. -/
def starts : List String :=
  ["note:", "note_idx:contract:", "note_idx:block:", "note_idx:nullify_block:"]

theorem noteKey_mem (nullifier : Fr) : noteKeyByNullifier nullifier ∈ keysUnder starts :=
  mem_keysUnder (by simp [starts]) _

theorem contractIndexKey_mem (contract : AztecAddress) :
    contractIndexKey contract ∈ keysUnder starts :=
  mem_keysUnder (by simp [starts]) _

theorem blockIndexKey_mem (blockNumber : Nat) : blockIndexKey blockNumber ∈ keysUnder starts :=
  mem_keysUnder (by simp [starts]) _

theorem nullificationBlockIndexKey_mem (blockNumber : Nat) :
    nullificationBlockIndexKey blockNumber ∈ keysUnder starts :=
  mem_keysUnder (by simp [starts]) _

variable {serde : Serde}

theorem reads_getNotesForContract (contract : AztecAddress) :
    Reads (keysUnder starts) (getNotesForContract serde contract : kv.Program _) :=
  reads_bind (reads_load (contractIndexKey_mem contract)) (fun _ =>
    reads_bind (reads_mapM (fun nullifier _ => reads_load (noteKey_mem nullifier)))
      (fun _ => reads_pure _))

theorem reads_getNotes (filter : NoteFilter) :
    Reads (keysUnder starts) (getNotes serde filter : kv.Program _) := by
  unfold getNotes
  cases filter.contractAddress with
  | some contract => exact reads_bind (reads_getNotesForContract contract) (fun _ => reads_pure _)
  | none =>
    exact reads_bind (reads_bind (reads_scan (fun _ => mem_of_begins (by simp [starts])))
      (fun _ => reads_mapM (fun _ _ => reads_ofResult _))) (fun _ => reads_pure _)

theorem reads_getNotesBySlot (contract : AztecAddress) (storageSlot : Fr) :
    Reads (keysUnder starts) (getNotesBySlot serde contract storageSlot : kv.Program _) :=
  reads_getNotes _

theorem writes_addNotes (notes : List StoredNote) (scope : AztecAddress) :
    Writes (keysUnder starts) (addNotes serde notes scope : kv.Program _) := by
  refine writes_forM (fun note _ => ?_)
  refine writes_bind (reads_load (noteKey_mem _)).writes (fun held => ?_)
  cases held with
  | some existing => exact writes_save (noteKey_mem _) _
  | none =>
    refine writes_bind (writes_save (noteKey_mem _) _) (fun _ =>
      writes_bind (writes_addToIndex _ (contractIndexKey_mem _)) (fun _ => ?_))
    split
    · exact writes_addToIndex _ (blockIndexKey_mem _)
    · exact (reads_pure _).writes

theorem writes_applyNullifiers (nullifiers : List (Fr × Nat)) :
    Writes (keysUnder starts) (applyNullifiers serde nullifiers : kv.Program _) := by
  refine writes_forM (fun entry _ => ?_)
  refine writes_bind (reads_load (noteKey_mem entry.1)).writes (fun held => ?_)
  cases held with
  | none => exact (reads_pure _).writes
  | some note =>
    dsimp only
    split
    · exact (reads_pure _).writes
    · exact writes_bind (writes_save (noteKey_mem entry.1) _) (fun _ =>
        writes_addToIndex entry.1 (nullificationBlockIndexKey_mem entry.2))

theorem writes_nullifyNote (contract : AztecAddress) (storageSlot noteHash : Fr) :
    Writes (keysUnder starts)
      (nullifyNote serde contract storageSlot noteHash : kv.Program _) := by
  refine writes_bind (reads_getNotesForContract contract).writes (fun notes => ?_)
  split
  · exact writes_applyNullifiers _
  · exact (reads_pure _).writes

private theorem writes_unNullify (nullifier : Fr) :
    Writes (keysUnder starts) (unNullify serde nullifier : kv.Program _) := by
  refine writes_bind (reads_load (noteKey_mem nullifier)).writes (fun held => ?_)
  cases held with
  | none => exact (reads_pure _).writes
  | some note => exact writes_save (noteKey_mem nullifier) _

private theorem writes_removeNote (nullifier : Fr) :
    Writes (keysUnder starts) (removeNote serde nullifier : kv.Program _) := by
  refine writes_bind (reads_load (noteKey_mem nullifier)).writes (fun held => ?_)
  cases held with
  | none => exact writes_delete (noteKey_mem nullifier)
  | some note =>
    exact writes_bind (writes_removeFromIndex nullifier (contractIndexKey_mem _)) (fun _ =>
      writes_delete (noteKey_mem nullifier))

theorem writes_rollback (blockNumber synced : Nat) :
    Writes (keysUnder starts) (rollback serde blockNumber synced : kv.Program _) :=
  writes_bind
    (writes_rollbackLists (fun _ => mem_of_begins (by simp [starts])) writes_unNullify)
    (fun _ => writes_rollbackLists (fun _ => mem_of_begins (by simp [starts])) writes_removeNote)

end NoteStore

/-! ## `private_event_store.rs` -/

namespace PrivateEventStore

/-- The types the event store writes. -/
structure Serde where
  event : Codec StoredPrivateEvent
  texts : Codec (List String)

/-- `event_key`. -/
def eventKey (siloedEventCommitment : Fr) : List UInt8 :=
  utf8 ("event:" ++ hex32 siloedEventCommitment.val)

/-- `contract_selector_index_key`. -/
def contractSelectorIndexKey (contract : AztecAddress) (selector : EventSelector) : List UInt8 :=
  utf8 ("event_idx:cs:" ++ (hex32 contract.inner.val ++ "_" ++ hex32 selector.inner.val))

/-- `block_index_key`. -/
def blockIndexKey (blockNumber : Nat) : List UInt8 :=
  utf8 ("event_idx:block:" ++ toString blockNumber)

section Calls
variable (serde : Serde)

/-- `store_private_event_log`. -/
def storePrivateEventLog (event : StoredPrivateEvent) (scope : AztecAddress) :
    kv.Program Unit := do
  let key := eventKey event.siloedEventCommitment
  match ← serde.event.load key with
  | some existing => serde.event.save key (existing.withScope scope)
  | none =>
    let stored := event.withScope scope
    serde.event.save key stored
    addToIndex serde.texts (contractSelectorIndexKey stored.contractAddress stored.eventSelector)
      stored.siloedEventCommitment
    addToIndex serde.texts (blockIndexKey stored.l2BlockNumber) stored.siloedEventCommitment

/-- `get_private_events`. -/
def getPrivateEvents (selector : EventSelector) (filter : PrivateEventQueryFilter) :
    kv.Program (List StoredPrivateEvent) := do
  let ids := (← serde.texts.load (contractSelectorIndexKey filter.contractAddress selector)).getD []
  let events ← (idsOf ids).mapM (fun id => serde.event.load (eventKey id))
  return (events.reduceOption.filter filter.accepts).insertionSort (fun a b => a.before b = true)

/-- The inner loop of `rollback`, for one commitment. -/
def removeEvent (id : Fr) : kv.Program Unit := do
  match ← serde.event.load (eventKey id) with
  | some event =>
    removeFromIndex serde.texts (contractSelectorIndexKey event.contractAddress event.eventSelector)
      id
  | none => pure ()
  kv.erase (eventKey id)

/-- `rollback`; the synced block number is not read. -/
def rollback (blockNumber _syncedBlockNumber : Nat) : kv.Program Unit :=
  rollbackLists serde.texts "event_idx:block:" blockNumber (removeEvent serde)

end Calls

/-- The keys of the event store. -/
def starts : List String := ["event:", "event_idx:cs:", "event_idx:block:"]

theorem eventKey_mem (id : Fr) : eventKey id ∈ keysUnder starts :=
  mem_keysUnder (by simp [starts]) _

theorem contractSelectorIndexKey_mem (contract : AztecAddress) (selector : EventSelector) :
    contractSelectorIndexKey contract selector ∈ keysUnder starts :=
  mem_keysUnder (by simp [starts]) _

theorem blockIndexKey_mem (blockNumber : Nat) : blockIndexKey blockNumber ∈ keysUnder starts :=
  mem_keysUnder (by simp [starts]) _

variable {serde : Serde}

theorem reads_getPrivateEvents (selector : EventSelector) (filter : PrivateEventQueryFilter) :
    Reads (keysUnder starts) (getPrivateEvents serde selector filter : kv.Program _) :=
  reads_bind (reads_load (contractSelectorIndexKey_mem _ selector)) (fun _ =>
    reads_bind (reads_mapM (fun id _ => reads_load (eventKey_mem id))) (fun _ => reads_pure _))

theorem writes_storePrivateEventLog (event : StoredPrivateEvent) (scope : AztecAddress) :
    Writes (keysUnder starts) (storePrivateEventLog serde event scope : kv.Program _) := by
  refine writes_bind (reads_load (eventKey_mem _)).writes (fun held => ?_)
  cases held with
  | some existing => exact writes_save (eventKey_mem _) _
  | none =>
    exact writes_bind (writes_save (eventKey_mem _) _) (fun _ =>
      writes_bind (writes_addToIndex _ (contractSelectorIndexKey_mem _ _)) (fun _ =>
        writes_addToIndex _ (blockIndexKey_mem _)))

private theorem writes_removeEvent (id : Fr) :
    Writes (keysUnder starts) (removeEvent serde id : kv.Program _) := by
  refine writes_bind (reads_load (eventKey_mem id)).writes (fun held => ?_)
  cases held with
  | none => exact writes_delete (eventKey_mem id)
  | some event =>
    exact writes_bind (writes_removeFromIndex id (contractSelectorIndexKey_mem _ _)) (fun _ =>
      writes_delete (eventKey_mem id))

theorem writes_rollback (blockNumber synced : Nat) :
    Writes (keysUnder starts) (rollback serde blockNumber synced : kv.Program _) :=
  writes_rollbackLists (fun _ => mem_of_begins (by simp [starts])) writes_removeEvent

end PrivateEventStore

end AztecPxe.KvStores
