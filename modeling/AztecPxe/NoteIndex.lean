import AztecPxe.NoteStoreRollback
import AztecPxe.Run

/-! The two ways `get_notes` reaches a record. A query for one contract walks
that contract's index and reads the records one by one; a query for none scans
the records themselves. The keys behind them are written by five calls, and
over every history of those calls both paths see the same notes. -/
namespace AztecPxe.NoteIndex
open AztecPxe NoteStore NoteStoreRollback Postings IndexedTable

/-- One call on the note store. -/
inductive Call where
  | addNotes (notes : List StoredNote) (scope : AztecAddress)
  | addNote (note : StoredNote)
  | applyNullifiers (nullifiers : List (Fr × Nat))
  | nullifyNote (contract : AztecAddress) (storageSlot noteHash : Fr)
  | rollback (blockNumber syncedBlockNumber : Nat)
  deriving DecidableEq, Repr

/-- The store after one call. -/
def step (store : NoteStore) : Call → NoteStore
  | .addNotes notes scope => store.addNotes notes scope
  | .addNote note => store.addNote note
  | .applyNullifiers nullifiers => store.applyNullifiers nullifiers
  | .nullifyNote contract storageSlot noteHash => store.nullifyNote contract storageSlot noteHash
  | .rollback blockNumber syncedBlockNumber => store.rollback blockNumber syncedBlockNumber

/-- The store after a history of calls on the empty store. -/
def run (calls : List Call) : NoteStore := calls.foldl step {}

/-! ## A property kept by the loops is kept by every call -/

section Keeps
variable {P : NoteStore → Prop}

theorem keeps_addNotes (keeps : ∀ {store : NoteStore} (note : StoredNote) (scope : AztecAddress),
    P store → P (store.addOne note scope)) {store : NoteStore} (held : P store)
    (notes : List StoredNote) (scope : AztecAddress) : P (store.addNotes notes scope) := by
  unfold addNotes
  induction notes generalizing store with
  | nil => exact held
  | cons note rest ih => exact ih (keeps note scope held)

theorem keeps_applyNullifiers (keeps : ∀ {store : NoteStore} (nullifier : Fr) (blockNumber : Nat),
    P store → P (store.nullifyOne nullifier blockNumber)) {store : NoteStore} (held : P store)
    (nullifiers : List (Fr × Nat)) : P (store.applyNullifiers nullifiers) := by
  unfold applyNullifiers
  induction nullifiers generalizing store with
  | nil => exact held
  | cons entry rest ih => exact ih (keeps entry.1 entry.2 held)

/-- What one turn of each loop and one rollback keep holds after every history. -/
theorem invariant_run (initial : P {})
    (adds : ∀ {store : NoteStore} (note : StoredNote) (scope : AztecAddress),
      P store → P (store.addOne note scope))
    (nullifies : ∀ {store : NoteStore} (nullifier : Fr) (blockNumber : Nat),
      P store → P (store.nullifyOne nullifier blockNumber))
    (rollsBack : ∀ {store : NoteStore} (blockNumber synced : Nat),
      P store → P (store.rollback blockNumber synced))
    (calls : List Call) : P (run calls) := by
  refine Run.invariant_all initial ?_ calls
  intro store call held
  cases call with
  | addNotes notes scope => exact keeps_addNotes adds held notes scope
  | addNote note => exact keeps_addNotes adds held _ _
  | applyNullifiers nullifiers => exact keeps_applyNullifiers nullifies held nullifiers
  | nullifyNote contract storageSlot noteHash =>
    unfold step nullifyNote
    dsimp only
    split
    · exact keeps_applyNullifiers nullifies held _
    · exact held
  | rollback blockNumber synced => exact rollsBack blockNumber synced held

end Keeps

/-! ## No list names a note twice -/

/-- Coherent indexes that list every nullifier once. -/
structure Indexed (store : NoteStore) : Prop where
  coherent : Coherent store
  contractNodup : ∀ contract, (listed store.contractIndex contract).Nodup

theorem indexed_empty : Indexed {} where
  coherent := coherent_empty
  contractNodup := by simp

theorem indexed_addOne {store : NoteStore} (indexed : Indexed store) (note : StoredNote)
    (scope : AztecAddress) : Indexed (store.addOne note scope) where
  coherent := coherent_addOne indexed.coherent note scope
  contractNodup := by
    intro contract
    rw [contractIndex_addOne]
    split
    · exact nodup_add (indexed.contractNodup contract) _ _
    · exact indexed.contractNodup contract

theorem indexed_nullifyOne {store : NoteStore} (indexed : Indexed store) (nullifier : Fr)
    (blockNumber : Nat) : Indexed (store.nullifyOne nullifier blockNumber) where
  coherent := coherent_nullifyOne indexed.coherent nullifier blockNumber
  contractNodup := by
    intro contract
    rw [contractIndex_nullifyOne]
    exact indexed.contractNodup contract

theorem indexed_rollback {store : NoteStore} (indexed : Indexed store) (blockNumber synced : Nat) :
    Indexed (store.rollback blockNumber synced) where
  coherent := coherent_rollback indexed.coherent blockNumber synced
  contractNodup := by
    intro contract
    unfold rollback
    rw [rollback_creations_eq, rollback_nullifications_eq]
    dsimp only
    rw [listed_unlistAll]
    exact (indexed.contractNodup contract).filter _

theorem indexed_run (calls : List Call) : Indexed (run calls) :=
  invariant_run indexed_empty (fun note scope indexed => indexed_addOne indexed note scope)
    (fun nullifier blockNumber indexed => indexed_nullifyOne indexed nullifier blockNumber)
    (fun blockNumber synced indexed => indexed_rollback indexed blockNumber synced) calls

/-! ## The index path and the scan -/

theorem nodup_getNotesForContract {store : NoteStore} (indexed : Indexed store)
    (contract : AztecAddress) : (store.getNotesForContract contract).Nodup := by
  apply (indexed.contractNodup contract).filterMap
  intro n m note first second
  rw [← indexed.coherent.keyed (Option.mem_def.mp first)]
  exact indexed.coherent.keyed (Option.mem_def.mp second)

theorem mem_getNotesForContract {store : NoteStore} (coherent : Coherent store)
    {contract : AztecAddress} {note : StoredNote} :
    note ∈ store.getNotesForContract contract ↔
      store.notes[note.siloedNullifier]? = some note ∧ note.contractAddress = contract := by
  unfold getNotesForContract
  rw [List.mem_filterMap]
  constructor
  · rintro ⟨n, inside, held⟩
    obtain ⟨other, stored, owned⟩ := coherent.byContract.mem_iff.mp inside
    rw [held, Option.some.injEq] at stored
    subst other
    rw [coherent.keyed held]
    exact ⟨held, owned⟩
  · rintro ⟨held, owned⟩
    exact ⟨note.siloedNullifier, coherent.byContract.mem_iff.mpr ⟨note, held, owned⟩, held⟩

/-- A new note comes last in its contract's list. -/
private theorem getNotesForContract_addOne {store : NoteStore} (coherent : Coherent store)
    {note : StoredNote} (fresh : store.notes[note.siloedNullifier]? = none) (scope : AztecAddress)
    (contract : AztecAddress) :
    (store.addOne note scope).getNotesForContract contract = store.getNotesForContract contract ++
      if note.contractAddress = contract then [note.withScope scope] else [] := by
  have unlisted (owner : AztecAddress) :
      note.siloedNullifier ∉ listed store.contractIndex owner := by
    intro inside
    obtain ⟨other, held, -⟩ := coherent.byContract.mem_iff.mp inside
    rw [fresh] at held
    cases held
  have earlier : (listed store.contractIndex contract).filterMap (fun n =>
      (store.addOne note scope).notes[n]?) = store.getNotesForContract contract := by
    refine List.filterMap_congr (fun n inside => ?_)
    rw [notes_addOne, if_neg]
    rintro rfl
    exact unlisted contract inside
  rw [← earlier, getNotesForContract, contractIndex_addOne, if_pos fresh]
  change List.filterMap _ (listed (Postings.add _ _ _) contract) = _
  rw [listed_add]
  by_cases owned : note.contractAddress = contract
  · rw [if_pos ⟨owned, unlisted _⟩, if_pos owned, List.filterMap_append]
    congr 1
    rw [List.filterMap_cons, notes_addOne, if_pos rfl, fresh]
    rfl
  · rw [if_neg (fun both => owned both.1), if_neg owned, List.append_nil]

/-- New notes come last in their contracts' lists, in the order they are added. -/
theorem getNotesForContract_addNotes {store : NoteStore} (coherent : Coherent store)
    {notes : List StoredNote} (distinct : (notes.map (·.siloedNullifier)).Nodup)
    (fresh : ∀ note ∈ notes, store.notes[note.siloedNullifier]? = none) (scope : AztecAddress)
    (contract : AztecAddress) :
    (store.addNotes notes scope).getNotesForContract contract =
      store.getNotesForContract contract ++
        (notes.filter (fun note => note.contractAddress = contract)).map (·.withScope scope) := by
  unfold addNotes
  induction notes generalizing store with
  | nil => simp
  | cons note rest ih =>
    obtain ⟨apart, others⟩ := List.nodup_cons.mp distinct
    have still : ∀ other ∈ rest,
        (store.addOne note scope).notes[other.siloedNullifier]? = none := by
      intro other held
      rw [notes_addOne, if_neg]
      · exact fresh other (.tail _ held)
      · exact fun same => apart (List.mem_map.mpr ⟨other, held, same⟩)
    rw [List.foldl_cons, ih (coherent_addOne coherent note scope) others still,
      getNotesForContract_addOne coherent (fresh note List.mem_cons_self), List.append_assoc]
    congr 1
    by_cases owned : note.contractAddress = contract <;> simp [owned]

theorem mem_getAllNotes {store : NoteStore} (coherent : Coherent store) {note : StoredNote} :
    note ∈ store.getAllNotes ↔ store.notes[note.siloedNullifier]? = some note := by
  unfold getAllNotes
  rw [List.mem_map]
  constructor
  · rintro ⟨entry, inside, rfl⟩
    have held := Std.ExtTreeMap.mem_toList_iff_getElem?_eq_some.mp inside
    rwa [coherent.keyed held]
  · intro held
    exact ⟨(note.siloedNullifier, note),
      Std.ExtTreeMap.mem_toList_iff_getElem?_eq_some.mpr held, rfl⟩

theorem nodup_getAllNotes {store : NoteStore} (coherent : Coherent store) :
    store.getAllNotes.Nodup := by
  unfold getAllNotes
  have distinct := Std.ExtTreeMap.distinct_keys_toList (t := store.notes)
  rw [List.Nodup, List.pairwise_map]
  refine distinct.imp_of_mem ?_
  intro first second inFirst inSecond apart same
  have held := Std.ExtTreeMap.mem_toList_iff_getElem?_eq_some.mp inFirst
  have held' := Std.ExtTreeMap.mem_toList_iff_getElem?_eq_some.mp inSecond
  have keys : first.1 = second.1 := by
    rw [← coherent.keyed held, ← coherent.keyed held', same]
  rw [keys] at apart
  exact apart Std.ReflCmp.compare_self

/-- Both paths reach the records of a contract. -/
theorem getNotesForContract_perm {store : NoteStore} (indexed : Indexed store)
    (contract : AztecAddress) :
    (store.getNotesForContract contract).Perm
      (store.getAllNotes.filter (fun note => note.contractAddress = contract)) := by
  rw [List.perm_ext_iff_of_nodup (nodup_getNotesForContract indexed contract)
    ((nodup_getAllNotes indexed.coherent).filter _)]
  intro note
  rw [mem_getNotesForContract indexed.coherent, List.mem_filter, mem_getAllNotes indexed.coherent,
    decide_eq_true_eq]

/-- After every history of calls, a query for one contract returns the notes of
that contract that the query for none returns, each as often; and a contract's
index names every note once, each a stored note of that contract. -/
theorem contract_query_is_filtered_scan (calls : List Call) (contract : AztecAddress) :
    (∀ filter : NoteFilter,
      ((run calls).getNotes { filter with contractAddress := some contract }).Perm
        (((run calls).getNotes { filter with contractAddress := none }).filter
          (fun note => note.contractAddress = contract))) ∧
    (listed (run calls).contractIndex contract).Nodup ∧
    ∀ n ∈ listed (run calls).contractIndex contract, ∃ note : StoredNote,
      (run calls).notes[n]? = some note ∧ note.siloedNullifier = n ∧
        note.contractAddress = contract := by
  have indexed := indexed_run calls
  refine ⟨?_, indexed.contractNodup contract, ?_⟩
  · intro filter
    unfold getNotes
    dsimp only
    -- The closure never looks at the filter's own contract.
    change (List.insertionSort _ (((run calls).getNotesForContract contract).filter
      filter.accepts)).Perm ((List.insertionSort _ ((run calls).getAllNotes.filter
        filter.accepts)).filter _)
    have paths := (getNotesForContract_perm indexed contract).filter filter.accepts
    have commute : ((run calls).getAllNotes.filter
          (fun note => note.contractAddress = contract)).filter filter.accepts =
        ((run calls).getAllNotes.filter filter.accepts).filter
          (fun note => note.contractAddress = contract) := by
      rw [List.filter_filter, List.filter_filter]
      simp only [Bool.and_comm]
    rw [commute] at paths
    exact (List.perm_insertionSort _ _).trans
      (paths.trans ((List.perm_insertionSort _ _).symm.filter _))
  · intro n inside
    obtain ⟨note, held, owned⟩ := indexed.coherent.byContract.mem_iff.mp inside
    exact ⟨note, held, indexed.coherent.keyed held, owned⟩

end AztecPxe.NoteIndex
