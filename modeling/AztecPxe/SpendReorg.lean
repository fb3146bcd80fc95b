import AztecPxe.NoteService
import AztecPxe.NoteStoreReplay
import AztecPxe.Run

/-! Spends that the note service recorded, and reorgs. A run mixes nullifier
syncs, note validations, block syncs and reorgs, each against a node of its
own; no reorg ever makes a spent record active again. -/
namespace AztecPxe.SpendReorg
open AztecPxe BlockState NoteStore NoteStoreRollback NoteService Postings IndexedTable

/-- One operation of a run. -/
inductive NoteStep where
  | syncNoteNullifiers (node : AztecNode) (contract : AztecAddress) (scopes : List AztecAddress)
      (anchorBlockNumber : Nat)
  | validateAndStoreNote (node : AztecNode) (note : StoredNote) (scope : AztecAddress)
  | doSync (tip : SyncChainTip) (node : AztecNode)
  | handleReorg (node : AztecNode) (newBlockNumber oldBlockNumber : Nat)

/-- The state after one operation, failed or not. -/
def step (state : BlockState) : NoteStep → BlockState
  | .syncNoteNullifiers node contract scopes anchorBlockNumber =>
    { state with
      notes := (syncNoteNullifiers node contract scopes anchorBlockNumber state.notes).2 }
  | .validateAndStoreNote node note scope =>
    { state with notes := (validateAndStoreNote node note scope state.notes).2 }
  | .doSync tip node => (state.doSync tip node).2
  | .handleReorg node new old => (state.handleReorg node new old).2

/-- The state after a run from empty stores. -/
def run (steps : List NoteStep) : BlockState := steps.foldl step {}

/-- Some query for active notes returns the note. -/
def ReturnedActive (store : NoteStore) (n : Fr) : Prop :=
  ∃ filter : NoteFilter, filter.status = .active ∧
    ∃ note ∈ store.getNotes filter, note.siloedNullifier = n

theorem sound_step {state : BlockState} (sound : Sound state.notes) (s : NoteStep) :
    Sound (step state s).notes := by
  cases s with
  | syncNoteNullifiers node contract scopes anchorBlockNumber =>
    exact sound_syncNoteNullifiers sound
  | validateAndStoreNote node note scope => exact sound_validateAndStoreNote sound
  | doSync tip node =>
    exact notes_doSync (P := Sound) (fun b synced held => sound_rollback held b synced) sound tip
  | handleReorg node new old =>
    exact notes_handleReorg (P := Sound) (fun b synced held => sound_rollback held b synced)
      sound new old

theorem sound_run (steps : List NoteStep) : Sound (run steps).notes := by
  exact Run.invariant_all (I := fun state : BlockState => Sound state.notes) sound_empty
    (fun s sound => sound_step sound s) steps

/-- On a store whose spends are all filed under block 0, a rollback keeps or
erases a record by its creation block and never changes it. -/
theorem notes_rollback_of_sound {store : NoteStore} (sound : Sound store) (blockNumber synced : Nat)
    {n : Fr} {note : StoredNote} (held : store.notes[n]? = some note)
    (created : ∀ b, note.blockNumber = some b → b ≤ blockNumber) :
    (store.rollback blockNumber synced).notes[n]? = some note := by
  have none_above : n ∉ selected store.nullificationBlockIndex (fun bn => decide (blockNumber < bn)) := by
    rw [mem_selected]
    rintro ⟨b, above, inside⟩
    have zero := sound.atZero b (List.ne_nil_of_mem inside)
    simp [zero] at above
  have untouched : (store.rollbackNullifications blockNumber).notes[n]? = some note := by
    rw [rollback_nullifications_eq]
    dsimp only
    rw [getElem?_reviveAll, if_neg none_above, held]
  unfold rollback
  have middle := coherent_rollbackNullifications sound.coherent blockNumber
  rw [rollback_creations_eq]
  dsimp only
  rw [getElem?_eraseAll_eq_some, mem_selected_iff middle.byBlock untouched]
  refine ⟨untouched, ?_⟩
  rintro ⟨b, height, above⟩
  have low := created b height
  simp only [decide_eq_true_eq] at above
  omega

/-- After every run, a reorg to a block at or above a spent note's creation
leaves the note spent: it stands unchanged in the table and no query for active
notes returns it. -/
theorem spent_note_stays_spent (steps : List NoteStep) (node : AztecNode) (new old : Nat)
    (after : BlockState) (handled : (run steps).handleReorg node new old = (.ok (), after))
    (n : Fr) (note : StoredNote) (held : (run steps).notes.notes[n]? = some note)
    (spent : note.nullified = true) (created : ∀ b, note.blockNumber = some b → b ≤ new) :
    after.notes.notes[n]? = some note ∧ ¬ ReturnedActive after.notes n := by
  obtain ⟨notes, -⟩ := handleReorg_ok handled
  have sound := sound_run steps
  have kept : after.notes.notes[n]? = some note := by
    rw [notes]
    exact notes_rollback_of_sound sound new old held created
  refine ⟨kept, ?_⟩
  rintro ⟨filter, active, found, returned, rfl⟩
  have coherent : Coherent after.notes := by
    rw [notes]
    exact coherent_rollback sound.coherent new old
  obtain ⟨stored, accepted⟩ := mem_getNotes coherent returned
  rw [kept, Option.some.injEq] at stored
  subst found
  simp [NoteFilter.accepts, active, spent] at accepted

/-- A node at block 9 whose nullifier tree holds these nullifiers. -/
def nodeWithTree (nullifiers : List Fr) : AztecNode where
  getBlockNumber := .ok 9
  getProvenBlockNumber := .ok 9
  getBlockHeader _ := .ok .null
  getNullifierMembershipWitness _ n := .ok (if n ∈ nullifiers then some .null else none)
  getTxEffect _ := .ok none

/-- A note of block 4 is stored while unspent, and found spent at block 9. -/
def storeThenSpend : List NoteStep :=
  [.validateAndStoreNote (nodeWithTree []) (NoteStoreReplay.bareNote 3 4) AztecAddress.zero,
    .syncNoteNullifiers (nodeWithTree [3]) AztecAddress.zero [] 9]

/-- The spend survives a reorg to block 5. -/
theorem storeThenSpend_stays_spent :
    ¬ ReturnedActive ((run storeThenSpend).handleReorg (nodeWithTree []) 5 9).2.notes 3 :=
  (spent_note_stays_spent storeThenSpend (nodeWithTree []) 5 9 _ rfl 3
    (((NoteStoreReplay.bareNote 3 4).withScope AztecAddress.zero).spentAt 0)
    (by decide) rfl (by decide)).2

/-- A note of block 4 whose nullifier first appears in block 9 is not active
after a reorg to block 5. -/
theorem reorg_does_not_undo_spend :
    ¬ ∀ (steps : List NoteStep) (node : AztecNode) (new old : Nat) (after : BlockState)
        (included : Fr → Nat), (run steps).handleReorg node new old = (.ok (), after) →
      ∀ (n : Fr) (note : StoredNote), (run steps).notes.notes[n]? = some note →
        note.nullified = true → (∀ b, note.blockNumber = some b → b ≤ new) → new < included n →
          ReturnedActive after.notes n := by
  intro claim
  obtain ⟨filter, active, found, returned, same⟩ :=
    claim storeThenSpend (nodeWithTree []) 5 9 _ (fun _ => 9) rfl 3
      (((NoteStoreReplay.bareNote 3 4).withScope AztecAddress.zero).spentAt 0)
      (by decide) rfl (by decide) (by decide)
  have sound : Sound ((run storeThenSpend).handleReorg (nodeWithTree []) 5 9).2.notes :=
    sound_step (sound_run storeThenSpend) (.handleReorg (nodeWithTree []) 5 9)
  obtain ⟨stored, accepted⟩ := mem_getNotes sound.coherent returned
  rw [same] at stored
  have spent : (((run storeThenSpend).handleReorg (nodeWithTree []) 5 9).2.notes.notes[
      (3 : Fr)]?).all (fun note : StoredNote => note.nullified) = true := by decide
  rw [stored] at spent
  simp only [Option.all_some] at spent
  simp [NoteFilter.accepts, active, spent] at accepted

end AztecPxe.SpendReorg
