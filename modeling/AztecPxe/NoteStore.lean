import AztecPxe.Field
import AztecPxe.Postings
import Mathlib.Data.List.Sort

/-! The note store of `stores/note_store.rs`. The key families it writes to the
key-value store are the four tables of `NoteStore`:

* `note:{nullifier}` holds the records,
* `note_idx:contract:{contract}`, `note_idx:block:{n}` and
  `note_idx:nullify_block:{n}` hold lists of siloed nullifiers.

The in-memory store never refuses a read or a write and every value is decoded
by the function that encoded it, so the operations are total here. Block
numbers are only compared, never added to, hence natural numbers. -/
namespace AztecPxe

/-- `note_store.rs::NoteStatus`. -/
inductive NoteStatus where
  | active
  | nullified
  | activeOrNullified
  deriving DecidableEq, Repr

/-- `note_store.rs::StoredNote`. -/
structure StoredNote where
  contractAddress : AztecAddress
  owner : AztecAddress
  storageSlot : Fr
  randomness : Fr
  noteNonce : Fr
  noteHash : Fr
  siloedNullifier : Fr
  noteData : List Fr
  nullified : Bool
  isPending : Bool
  nullificationBlockNumber : Option Nat
  leafIndex : Option Nat
  blockNumber : Option Nat
  txIndexInBlock : Option Nat
  noteIndexInTx : Option Nat
  scopes : List AztecAddress
  deriving DecidableEq, Repr

/-- `note_store.rs::NoteFilter`, with its `Default`. -/
structure NoteFilter where
  contractAddress : Option AztecAddress := none
  storageSlot : Option Fr := none
  owner : Option AztecAddress := none
  status : NoteStatus := .active
  scopes : List AztecAddress := []
  siloedNullifier : Option Fr := none
  deriving DecidableEq, Repr

/-- The part of the key-value store the note store owns. -/
@[ext] structure NoteStore where
  notes : Std.ExtTreeMap Fr StoredNote := ∅
  contractIndex : Postings AztecAddress Fr := ∅
  blockIndex : Postings Nat Fr := ∅
  nullificationBlockIndex : Postings Nat Fr := ∅

namespace StoredNote

/-- `if !scopes.contains(scope) { scopes.push(*scope) }`. -/
def withScope (note : StoredNote) (scope : AztecAddress) : StoredNote :=
  if scope ∈ note.scopes then note else { note with scopes := note.scopes ++ [scope] }

/-- The record `apply_nullifiers` writes back. -/
def spentAt (note : StoredNote) (blockNumber : Nat) : StoredNote :=
  { note with nullified := true, nullificationBlockNumber := some blockNumber }

/-- The record phase 1 of `rollback` writes back. -/
def revived (note : StoredNote) : StoredNote :=
  { note with nullified := false, nullificationBlockNumber := none }

/-- The comparison of `get_notes`: block, then transaction, then note index,
with an absent number before every present one. -/
def before (a b : StoredNote) : Bool :=
  ((compare a.blockNumber b.blockNumber).then
    ((compare a.txIndexInBlock b.txIndexInBlock).then
      (compare a.noteIndexInTx b.noteIndexInTx))).isLE

end StoredNote

/-- The closure `get_notes` filters with. -/
def NoteFilter.accepts (filter : NoteFilter) (note : StoredNote) : Bool :=
  (match filter.status with
    | .active => !note.nullified
    | .nullified => note.nullified
    | .activeOrNullified => true) &&
  filter.storageSlot.all (note.storageSlot == ·) &&
  filter.owner.all (note.owner == ·) &&
  (filter.scopes.isEmpty || note.scopes.any (filter.scopes.contains ·)) &&
  filter.siloedNullifier.all (note.siloedNullifier == ·)

namespace NoteStore

/-- One turn of the loop in `NoteStore::add_notes`. -/
def addOne (store : NoteStore) (note : StoredNote) (scope : AztecAddress) : NoteStore :=
  let stored := note.withScope scope
  match store.notes[stored.siloedNullifier]? with
  | some existing =>
    { store with notes := store.notes.insert stored.siloedNullifier (existing.withScope scope) }
  | none =>
    let store := { store with
      notes := store.notes.insert stored.siloedNullifier stored
      contractIndex := store.contractIndex.add stored.contractAddress stored.siloedNullifier }
    match stored.blockNumber with
    | some bn => { store with blockIndex := store.blockIndex.add bn stored.siloedNullifier }
    | none => store

/-- `NoteStore::add_notes`. -/
def addNotes (store : NoteStore) (notes : List StoredNote) (scope : AztecAddress) : NoteStore :=
  notes.foldl (fun store note => store.addOne note scope) store

/-- `NoteStore::add_note`. -/
def addNote (store : NoteStore) (note : StoredNote) : NoteStore :=
  store.addNotes [note] (note.scopes.head?.getD AztecAddress.zero)

/-- One turn of the loop in `NoteStore::apply_nullifiers`. -/
def nullifyOne (store : NoteStore) (nullifier : Fr) (blockNumber : Nat) : NoteStore :=
  match store.notes[nullifier]? with
  | none => store
  | some note =>
    if note.nullified then store
    else { store with
      notes := store.notes.insert nullifier (note.spentAt blockNumber)
      nullificationBlockIndex := store.nullificationBlockIndex.add blockNumber nullifier }

/-- `NoteStore::apply_nullifiers`. -/
def applyNullifiers (store : NoteStore) (nullifiers : List (Fr × Nat)) : NoteStore :=
  nullifiers.foldl (fun store entry => store.nullifyOne entry.1 entry.2) store

/-- Phase 1 of `rollback`, for one nullifier. -/
def unNullify (store : NoteStore) (nullifier : Fr) : NoteStore :=
  match store.notes[nullifier]? with
  | none => store
  | some note => { store with notes := store.notes.insert nullifier note.revived }

/-- Phase 2 of `rollback`, for one nullifier. -/
def removeNote (store : NoteStore) (nullifier : Fr) : NoteStore :=
  match store.notes[nullifier]? with
  | none => { store with notes := store.notes.erase nullifier }
  | some note => { store with
      notes := store.notes.erase nullifier
      contractIndex := store.contractIndex.remove note.contractAddress nullifier }

/-- Phase 1 of `NoteStore::rollback`: the listing is taken once, then every
entry above the block is treated and deleted. -/
def rollbackNullifications (store : NoteStore) (blockNumber : Nat) : NoteStore :=
  store.nullificationBlockIndex.toList.foldl (fun store entry =>
    if blockNumber < entry.1 then
      let store := entry.2.foldl unNullify store
      { store with nullificationBlockIndex := store.nullificationBlockIndex.erase entry.1 }
    else store) store

/-- Phase 2 of `NoteStore::rollback`. -/
def rollbackCreations (store : NoteStore) (blockNumber : Nat) : NoteStore :=
  store.blockIndex.toList.foldl (fun store entry =>
    if blockNumber < entry.1 then
      let store := entry.2.foldl removeNote store
      { store with blockIndex := store.blockIndex.erase entry.1 }
    else store) store

/-- `NoteStore::rollback`; the synced block number is not read. -/
def rollback (store : NoteStore) (blockNumber _syncedBlockNumber : Nat) : NoteStore :=
  (store.rollbackNullifications blockNumber).rollbackCreations blockNumber

/-- `NoteStore::get_notes_for_contract`. -/
def getNotesForContract (store : NoteStore) (contract : AztecAddress) : List StoredNote :=
  (store.contractIndex.listed contract).filterMap (fun nullifier => store.notes[nullifier]?)

/-- `NoteStore::get_all_notes`. -/
def getAllNotes (store : NoteStore) : List StoredNote := store.notes.toList.map Prod.snd

/-- `NoteStore::get_notes`. -/
def getNotes (store : NoteStore) (filter : NoteFilter) : List StoredNote :=
  let notes := match filter.contractAddress with
    | some contract => store.getNotesForContract contract
    | none => store.getAllNotes
  (notes.filter filter.accepts).insertionSort (fun a b => a.before b = true)

/-- `NoteStore::nullify_note`. -/
def nullifyNote (store : NoteStore) (contract : AztecAddress) (storageSlot noteHash : Fr) :
    NoteStore :=
  match (store.getNotesForContract contract).find?
      (fun note => note.storageSlot == storageSlot && note.noteHash == noteHash) with
  | some note => store.applyNullifiers [(note.siloedNullifier, 0)]
  | none => store

/-- `NoteStore::has_note`. -/
def hasNote (store : NoteStore) (contract : AztecAddress) (noteHash : Fr) : Bool :=
  (store.getNotesForContract contract).any
    (fun note => note.noteHash == noteHash && !note.nullified)

end NoteStore
end AztecPxe
