import AztecPxe.Run
import AztecPxe.UtilityOracle

/-! Notes that the discovery oracle stored, and reorgs. The handler files every
note without a block number, so the block index stays empty and a rollback
finds nothing to remove: over every run the note store after a reorg is the one
before it. Which transaction a record was stored for is kept beside the stores,
since no record carries it. -/
namespace AztecPxe.NoteReorg
open AztecPxe BlockState NoteStore NoteStoreRollback NoteService UtilityOracle Hash
open Postings IndexedTable

/-- One operation of a run. -/
inductive Step where
  | storeCapsule (contract : AztecAddress) (slot : Fr) (capsule : List Fr)
  | validateAndStoreEnqueued (node : AztecNode) (self : AztecAddress) (args : List (List Fr))
  | doSync (tip : SyncChainTip) (node : AztecNode)
  | handleReorg (node : AztecNode) (newBlockNumber oldBlockNumber : Nat)

/-- The stores, and for each record the transaction of the request that put it
into the table. -/
structure World where
  oracle : OracleState := {}
  creators : Fr → Option TxHash := fun _ => none

section Runs
variable (poseidon2 : List Fr → Fr)

/-- The creators after the note loop has run over these requests. -/
def creatorsAfter (node : AztecNode) :
    List (List Fr) → NoteStore → (Fr → Option TxHash) → Fr → Option TxHash
  | [], _, creators => creators
  | fields :: rest, store, creators =>
    match parseNoteValidationRequest fields with
    | .error _ => creators
    | .ok request =>
      let note := requestedNote poseidon2 request
      match validateAndStoreNote node note request.recipient store with
      | (.error _, _) => creators
      | (.ok (), after) => creatorsAfter node rest after
        (if store.notes[note.siloedNullifier]?.isNone then
          Function.update creators note.siloedNullifier (some request.txHash)
        else creators)

/-- The creators after one call of the handler. -/
def creatorsAfterCall (node : AztecNode) (self : AztecAddress) (args : List (List Fr))
    (world : World) : Fr → Option TxHash :=
  match parseArguments self args >>= fun arguments =>
      world.oracle.capsules.readCapsuleArray arguments.1 arguments.2.1 with
  | .error _ => world.creators
  | .ok requests => creatorsAfter poseidon2 node requests world.oracle.blocks.notes world.creators

/-- The world after one operation, failed or not. -/
def step (world : World) : Step → World
  | .storeCapsule contract slot capsule =>
    { world with oracle := { world.oracle with
        capsules := world.oracle.capsules.storeCapsule contract slot capsule } }
  | .validateAndStoreEnqueued node self args =>
    { oracle :=
        (validateAndStoreEnqueuedNotesAndEvents poseidon2 node self args world.oracle).2
      creators := creatorsAfterCall poseidon2 node self args world }
  | .doSync tip node =>
    { world with oracle := { world.oracle with
        blocks := (world.oracle.blocks.doSync tip node).2 } }
  | .handleReorg node new old =>
    { world with oracle := { world.oracle with
        blocks := (world.oracle.blocks.handleReorg node new old).2 } }

/-- The world after a run from empty stores. -/
def run (steps : List Step) : World := steps.foldl (step poseidon2) {}

end Runs

/-- The note is in the table or some query returns it. -/
def Remains (store : NoteStore) (n : Fr) : Prop :=
  (∃ note : StoredNote, store.notes[n]? = some note) ∨
    ∃ filter : NoteFilter, ∃ note ∈ store.getNotes filter, note.siloedNullifier = n

/-- The record's creating transaction is in a block above `blockNumber`. -/
def CreatedAbove (creators : Fr → Option TxHash) (included : TxHash → Option Nat)
    (blockNumber : Nat) (n : Fr) : Prop :=
  ∃ tx b, creators n = some tx ∧ included tx = some b ∧ blockNumber < b

/-! ## Nothing to roll back -/

/-- No record carries a block, and no spend is filed above block 0. -/
structure Undated (store : NoteStore) : Prop where
  sound : Sound store
  undated : ∀ {n : Fr} {note : StoredNote}, store.notes[n]? = some note → note.blockNumber = none

theorem undated_empty : Undated {} where
  sound := sound_empty
  undated held := by simp at held

/-- A rollback of such a store changes nothing at all. -/
theorem rollback_of_undated {store : NoteStore} (undated : Undated store)
    (blockNumber synced : Nat) : store.rollback blockNumber synced = store := by
  have coherent := undated.sound.coherent
  have noSpends : ∀ key, decide (blockNumber < key) = true →
      listed store.nullificationBlockIndex key = [] := by
    intro key above
    by_contra filed
    have zero := undated.sound.atZero key filed
    simp [zero] at above
  have noCreations : ∀ key, decide (blockNumber < key) = true → listed store.blockIndex key = [] := by
    intro key _
    apply List.eq_nil_iff_forall_not_mem.mpr
    intro n inside
    obtain ⟨note, held, height⟩ := coherent.byBlock.mem_iff.mp inside
    rw [undated.undated held] at height
    cases height
  unfold rollback
  rw [rollback_nullifications_eq, selected_eq_nil noSpends,
    cut_eq_self coherent.nullificationCompact noSpends]
  rw [rollback_creations_eq, selected_eq_nil noCreations,
    cut_eq_self coherent.blockCompact noCreations]
  rfl

theorem undated_rollback {store : NoteStore} (undated : Undated store) (blockNumber synced : Nat) :
    Undated (store.rollback blockNumber synced) := by
  rwa [rollback_of_undated undated]

private theorem undated_validate {store : NoteStore} (undated : Undated store) (node : AztecNode)
    {note : StoredNote} (unmined : note.blockNumber = none) (scope : AztecAddress) :
    Undated (validateAndStoreNote node note scope store).2 where
  sound := sound_validateAndStoreNote undated.sound
  undated := by
    unfold validateAndStoreNote
    split
    · exact undated.undated
    · rename_i witness _
      intro n found held
      have unmined' : (if witness.isSome = true then note.spentAt 0 else note).blockNumber = none := by
        split <;> exact unmined
      dsimp only [addNotes, List.foldl_cons, List.foldl_nil] at held
      generalize (if witness.isSome = true then note.spentAt 0 else note) = stored at held unmined'
      rcases addOne_cases held with ⟨old, earlier, rfl | rfl⟩ | ⟨-, -, rfl⟩
      · exact undated.undated earlier
      · rw [withScope_blockNumber]
        exact undated.undated earlier
      · rw [withScope_blockNumber]
        exact unmined'

section Runs
variable {poseidon2 : List Fr → Fr}

theorem undated_storeNotes (node : AztecNode) (requests : List (List Fr)) {store : NoteStore}
    (undated : Undated store) : Undated (storeNotes poseidon2 node requests store).2 := by
  induction requests generalizing store with
  | nil => exact undated
  | cons fields rest ih =>
    unfold storeNotes
    split
    · exact undated
    · rename_i request _
      have unmined : (requestedNote poseidon2 request).blockNumber = none := rfl
      have stored := undated_validate undated node unmined request.recipient
      split
      · rename_i failed
        rwa [failed] at stored
      · rename_i done
        rw [done] at stored
        exact ih stored

theorem undated_call (node : AztecNode) (self : AztecAddress) (args : List (List Fr))
    {state : OracleState} (undated : Undated state.blocks.notes) :
    Undated (validateAndStoreEnqueuedNotesAndEvents poseidon2 node self args state).2.blocks.notes := by
  unfold validateAndStoreEnqueuedNotesAndEvents
  split
  · exact undated
  · split
    · exact undated
    · rename_i requests _
      have stored : Undated (storeNotes poseidon2 node requests state.blocks.notes).2 :=
        undated_storeNotes node requests undated
      split
      · rename_i failed
        rwa [failed] at stored
      · rename_i done
        rw [done] at stored
        dsimp only
        split
        · exact stored
        · split <;> exact stored

theorem undated_step {world : World} (undated : Undated world.oracle.blocks.notes) (s : Step) :
    Undated (step poseidon2 world s).oracle.blocks.notes := by
  cases s with
  | storeCapsule contract slot capsule => exact undated
  | validateAndStoreEnqueued node self args => exact undated_call node self args undated
  | doSync tip node =>
    exact notes_doSync (P := Undated) (fun b synced held => undated_rollback held b synced)
      undated tip
  | handleReorg node new old =>
    exact notes_handleReorg (P := Undated) (fun b synced held => undated_rollback held b synced)
      undated new old

theorem undated_run (steps : List Step) : Undated (run poseidon2 steps).oracle.blocks.notes := by
  exact Run.invariant_all (I := fun world : World => Undated world.oracle.blocks.notes) undated_empty
    (fun s undated => undated_step undated s) steps

end Runs

/-- After every run, a reorg leaves no note created above its block exactly
when there was none before it: it removes nothing. -/
theorem reorg_removes_orphans_iff (poseidon2 : List Fr → Fr) (steps : List Step) (node : AztecNode)
    (new old : Nat) (after : BlockState)
    (handled : (run poseidon2 steps).oracle.blocks.handleReorg node new old = (.ok (), after))
    (included : TxHash → Option Nat) :
    (∀ n, Remains after.notes n →
        ¬ CreatedAbove (run poseidon2 steps).creators included new n) ↔
      ∀ (n : Fr) (note : StoredNote),
        (run poseidon2 steps).oracle.blocks.notes.notes[n]? = some note →
          ¬ CreatedAbove (run poseidon2 steps).creators included new n := by
  obtain ⟨notes, -⟩ := handleReorg_ok handled
  have undated : Undated (run poseidon2 steps).oracle.blocks.notes := undated_run steps
  rw [rollback_of_undated undated] at notes
  rw [notes]
  constructor
  · intro clean n note held
    exact clean n (.inl ⟨note, held⟩)
  · intro clean n remains
    rcases remains with ⟨note, held⟩ | ⟨filter, note, returned, rfl⟩
    · exact clean n note held
    · exact clean _ note (mem_getNotes undated.sound.coherent returned).1

/-- A node at block 9 with an empty nullifier tree. -/
def quietNode : AztecNode where
  getBlockNumber := .ok 9
  getProvenBlockNumber := .ok 9
  getBlockHeader _ := .ok .null
  getNullifierMembershipWitness _ _ := .ok none
  getTxEffect _ := .ok none

/-- A note request of contract 7, for a note of transaction 13. -/
def noteRequest : List Fr := [7, 2, 3, 4, 5, 0, 0, 0, 0, 0, 0, 0, 0, 0, 11, 12, 13, 2]

/-- The request is queued and the handler called. -/
def discoverOne : List Step :=
  [.storeCapsule ⟨7⟩ 100 [1], .storeCapsule ⟨7⟩ 101 noteRequest,
    .validateAndStoreEnqueued quietNode ⟨7⟩ [[7], [100], [200]]]

private theorem discoverOne_stores (poseidon2 : List Fr → Fr) :
    (∃ note : StoredNote, (run poseidon2 discoverOne).oracle.blocks.notes.notes[
      siloNullifier poseidon2 ⟨7⟩ 12]? = some note) ∧
    (run poseidon2 discoverOne).creators (siloNullifier poseidon2 ⟨7⟩ 12) =
      some (txHashFromField 13) := by
  have request : parseNoteValidationRequest noteRequest = .ok
      { contractAddress := ⟨7⟩, owner := ⟨2⟩, storageSlot := 3, randomness := 4, noteNonce := 5,
        content := [], noteHash := 11, nullifier := 12, txHash := txHashFromField 13,
        recipient := ⟨2⟩ } := by decide
  constructor
  · change ∃ note : StoredNote,
      (storeNotes poseidon2 quietNode [noteRequest] {}).2.notes[_]? = some note
    simp only [storeNotes, request, validateAndStoreNote, quietNode, addNotes, List.foldl_cons,
      List.foldl_nil, notes_addOne, Option.isSome_none, Bool.false_eq_true, ↓reduceIte]
    exact ⟨_, if_pos rfl⟩
  · change creatorsAfter poseidon2 quietNode [noteRequest] {} (fun _ => none) _ = _
    simp only [creatorsAfter, request, validateAndStoreNote, quietNode]
    simp [requestedNote]

/-- The theorem's condition fails for the discovered note, and so does the
property. -/
theorem reorg_keeps_discovered_note :
    ¬ ∃ poseidon2 : List Fr → Fr, ∀ n,
      Remains ((run poseidon2 discoverOne).oracle.blocks.handleReorg quietNode 5 9).2.notes n →
        ¬ CreatedAbove (run poseidon2 discoverOne).creators (fun _ => some 9) 5 n := by
  rintro ⟨poseidon2, clean⟩
  obtain ⟨⟨note, held⟩, created⟩ := discoverOne_stores poseidon2
  exact (reorg_removes_orphans_iff poseidon2 discoverOne quietNode 5 9 _ rfl _).mp clean _ note held
    ⟨_, 9, created, rfl, by decide⟩

/-- With its transaction in block 9, the note outlives a reorg to block 5. -/
theorem discovered_note_outlives_reorg :
    ¬ ∃ poseidon2 : List Fr → Fr, ∀ (steps : List Step) (node : AztecNode) (new old : Nat)
        (after : BlockState),
      (run poseidon2 steps).oracle.blocks.handleReorg node new old = (.ok (), after) →
      ∀ (included : TxHash → Option Nat) (n : Fr), Remains after.notes n →
        ¬ CreatedAbove (run poseidon2 steps).creators included new n := by
  rintro ⟨poseidon2, claim⟩
  obtain ⟨⟨note, held⟩, created⟩ := discoverOne_stores poseidon2
  have undated : Undated (run poseidon2 discoverOne).oracle.blocks.notes := undated_run discoverOne
  refine claim discoverOne quietNode 5 9 _ rfl (fun _ => some 9)
    (siloNullifier poseidon2 ⟨7⟩ 12) (.inl ⟨note, ?_⟩) ⟨_, 9, created, rfl, by decide⟩
  change ((run poseidon2 discoverOne).oracle.blocks.notes.rollback 5 9).notes[_]? = some note
  rw [rollback_of_undated undated]
  exact held

end AztecPxe.NoteReorg
