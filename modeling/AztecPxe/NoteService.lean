import AztecPxe.BlockSync
import AztecPxe.NoteStoreRollback

/-! `sync/note_service.rs`, and what a reorg does to the spends it records. Both
of its writing operations learn from the node only that a nullifier is in the
tree and file the spend under block 0. The nullification index then never has
an entry above a rollback's block, so over every run a spent record stays spent
until its creation is itself rolled back. -/
namespace AztecPxe.NoteService
open AztecPxe NoteStore NoteStoreRollback Postings IndexedTable

/-- `MAX_RPC_LEN`. -/
def maxRpcLen : Nat := 128

/-- One turn of the chunk loop: ask for every nullifier, then apply the ones
found, each under block 0. -/
def syncChunk (node : AztecNode) (anchorBlockNumber : Nat) (chunk : List StoredNote)
    (store : NoteStore) : Except Error (Nat × NoteStore) := do
  let witnesses ← chunk.mapM (fun note =>
    node.getNullifierMembershipWitness anchorBlockNumber note.siloedNullifier)
  let toNullify := (chunk.zip witnesses).filterMap (fun entry =>
    if entry.2.isSome then some (entry.1.siloedNullifier, 0) else none)
  return (toNullify.length,
    if toNullify.isEmpty then store else store.applyNullifiers toNullify)

/-- The chunk loop; what earlier chunks wrote stays when a later one fails. -/
def syncChunks (node : AztecNode) (anchorBlockNumber : Nat) :
    List (List StoredNote) → Nat → NoteStore → Except Error Nat × NoteStore
  | [], count, store => (.ok count, store)
  | chunk :: rest, count, store =>
    match syncChunk node anchorBlockNumber chunk store with
    | .error e => (.error e, store)
    | .ok (found, store) => syncChunks node anchorBlockNumber rest (count + found) store

/-- `NoteService::sync_note_nullifiers`. -/
def syncNoteNullifiers (node : AztecNode) (contract : AztecAddress) (scopes : List AztecAddress)
    (anchorBlockNumber : Nat) (store : NoteStore) : Except Error Nat × NoteStore :=
  let notes := store.getNotes { contractAddress := some contract, scopes := scopes }
  if notes.isEmpty then (.ok 0, store)
  else syncChunks node anchorBlockNumber (notes.toChunks maxRpcLen) 0 store

/-- `NoteService::validate_and_store_note`. -/
def validateAndStoreNote (node : AztecNode) (note : StoredNote) (scope : AztecAddress)
    (store : NoteStore) : Except Error Unit × NoteStore :=
  match node.getNullifierMembershipWitness 0 note.siloedNullifier with
  | .error e => (.error e, store)
  | .ok witness =>
    let stored := if witness.isSome then note.spentAt 0 else note
    (.ok (), store.addNotes [stored] scope)

/-! ## Spends are filed under block 0 -/

/-- The nullification index lists nothing above block 0. -/
def AtZero (store : NoteStore) : Prop := ∀ b, listed store.nullificationBlockIndex b ≠ [] → b = 0

/-- What every operation of a run keeps. -/
structure Sound (store : NoteStore) : Prop where
  coherent : Coherent store
  atZero : AtZero store

theorem sound_empty : Sound {} where
  coherent := coherent_empty
  atZero b filed := absurd (listed_empty b) filed

theorem sound_addOne {store : NoteStore} (sound : Sound store) (note : StoredNote)
    (scope : AztecAddress) : Sound (store.addOne note scope) where
  coherent := coherent_addOne sound.coherent note scope
  atZero b filed := sound.atZero b (by simpa using filed)

theorem sound_addNotes {store : NoteStore} (sound : Sound store) (notes : List StoredNote)
    (scope : AztecAddress) : Sound (store.addNotes notes scope) := by
  unfold addNotes
  induction notes generalizing store with
  | nil => exact sound
  | cons note rest ih => exact ih (sound_addOne sound note scope)

private theorem atZero_nullifyOne {store : NoteStore} (atZero : AtZero store) (n : Fr) :
    AtZero (store.nullifyOne n 0) := by
  unfold nullifyOne
  split
  · exact atZero
  · split
    · exact atZero
    · intro b filed
      rw [listed_add] at filed
      split at filed
      · rename_i here
        exact here.1.symm
      · exact atZero b filed

theorem sound_nullifyAtZero {store : NoteStore} (sound : Sound store) (nullifiers : List (Fr × Nat))
    (zero : ∀ entry ∈ nullifiers, entry.2 = 0) : Sound (store.applyNullifiers nullifiers) := by
  unfold applyNullifiers
  induction nullifiers generalizing store with
  | nil => exact sound
  | cons entry rest ih =>
    have height : entry.2 = 0 := zero entry (by simp)
    apply ih _ (fun other inside => zero other (by simp [inside]))
    dsimp only
    rw [height]
    exact ⟨coherent_nullifyOne sound.coherent _ _, atZero_nullifyOne sound.atZero _⟩

theorem sound_rollback {store : NoteStore} (sound : Sound store) (blockNumber synced : Nat) :
    Sound (store.rollback blockNumber synced) where
  coherent := coherent_rollback sound.coherent blockNumber synced
  atZero b filed := by
    apply sound.atZero b
    unfold rollback at filed
    rw [rollback_creations_eq, rollback_nullifications_eq] at filed
    dsimp only at filed
    rw [listed_cut] at filed
    split at filed
    · exact absurd rfl filed
    · exact filed

theorem sound_syncChunk {node : AztecNode} {anchorBlockNumber found : Nat}
    {chunk : List StoredNote} {store after : NoteStore} (sound : Sound store)
    (done : syncChunk node anchorBlockNumber chunk store = .ok (found, after)) : Sound after := by
  unfold syncChunk at done
  obtain ⟨witnesses, -, applied⟩ := bind_eq_ok.mp done
  cases applied
  split
  · exact sound
  · apply sound_nullifyAtZero sound
    intro entry inside
    obtain ⟨pair, -, kept⟩ := List.mem_filterMap.mp inside
    split at kept
    · cases kept
      rfl
    · cases kept

theorem sound_syncChunks {node : AztecNode} {anchorBlockNumber : Nat}
    (chunks : List (List StoredNote)) (count : Nat) {store : NoteStore} (sound : Sound store) :
    Sound (syncChunks node anchorBlockNumber chunks count store).2 := by
  induction chunks generalizing count store with
  | nil => exact sound
  | cons chunk rest ih =>
    unfold syncChunks
    split
    · exact sound
    · rename_i found after done
      exact ih _ (sound_syncChunk sound done)

theorem sound_syncNoteNullifiers {node : AztecNode} {contract : AztecAddress}
    {scopes : List AztecAddress} {anchorBlockNumber : Nat} {store : NoteStore}
    (sound : Sound store) :
    Sound (syncNoteNullifiers node contract scopes anchorBlockNumber store).2 := by
  unfold syncNoteNullifiers
  dsimp only
  split
  · exact sound
  · exact sound_syncChunks _ _ sound

theorem sound_validateAndStoreNote {node : AztecNode} {note : StoredNote} {scope : AztecAddress}
    {store : NoteStore} (sound : Sound store) :
    Sound (validateAndStoreNote node note scope store).2 := by
  unfold validateAndStoreNote
  split
  · exact sound
  · exact sound_addNotes sound _ _

end AztecPxe.NoteService
