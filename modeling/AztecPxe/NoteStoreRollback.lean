import AztecPxe.IndexedTable
import AztecPxe.NoteStore

/-! What `NoteStore::rollback` leaves in each table. The two phases walk index
snapshots and edit the records one nullifier at a time; here both are brought
to closed form, without any assumption on the store, and the coherence of the
indexes with the records is carried through every operation. -/
namespace AztecPxe.NoteStoreRollback
open AztecPxe NoteStore Postings IndexedTable

/-! ## The two phases in closed form -/

/-- The records after phase 1 has visited these nullifiers. -/
def reviveAll (notes : Std.ExtTreeMap Fr StoredNote) (nullifiers : List Fr) :
    Std.ExtTreeMap Fr StoredNote :=
  nullifiers.foldl (fun notes nullifier => match notes[nullifier]? with
    | none => notes
    | some note => notes.insert nullifier note.revived) notes

theorem getElem?_reviveAll (notes : Std.ExtTreeMap Fr StoredNote) (nullifiers : List Fr) (n : Fr) :
    (reviveAll notes nullifiers)[n]? =
      if n ∈ nullifiers then notes[n]?.map StoredNote.revived else notes[n]? := by
  induction nullifiers generalizing notes with
  | nil => simp [reviveAll]
  | cons head rest ih =>
    -- One visit revives the head and leaves the other records alone.
    have visit : (match notes[head]? with
        | none => notes
        | some note => notes.insert head note.revived)[n]? =
          if n = head then notes[n]?.map StoredNote.revived else notes[n]? := by
      by_cases same : n = head
      · subst n
        cases held : notes[head]? with
        | none => simp [held]
        | some note => simp
      · cases notes[head]? with
        | none => simp [same]
        | some note => simp [Std.ExtTreeMap.getElem?_insert, same, Ne.symm same]
    unfold reviveAll at ih ⊢
    rw [List.foldl_cons, ih, visit]
    by_cases same : n = head
    · subst n
      by_cases inside : head ∈ rest
      · simp only [inside, List.mem_cons, or_true, ↓reduceIte, Option.map_map]
        rfl
      · simp [inside]
    · simp [same]

private theorem foldl_unNullify (nullifiers : List Fr) (store : NoteStore) :
    nullifiers.foldl unNullify store = { store with notes := reviveAll store.notes nullifiers } := by
  induction nullifiers generalizing store with
  | nil => rfl
  | cons head rest ih =>
    rw [List.foldl_cons, ih]
    unfold reviveAll unNullify
    rw [List.foldl_cons]
    cases store.notes[head]? <;> rfl

/-- Phase 1 revives every record listed above the block and cuts the
nullification index there; nothing else moves. -/
theorem rollback_nullifications_eq (store : NoteStore) (blockNumber : Nat) :
    store.rollbackNullifications blockNumber = { store with
      notes := reviveAll store.notes
        (selected store.nullificationBlockIndex (fun bn => decide (blockNumber < bn)))
      nullificationBlockIndex :=
        cut store.nullificationBlockIndex (fun bn => decide (blockNumber < bn)) } := by
  unfold rollbackNullifications selected cut
  generalize store.nullificationBlockIndex.toList = entries
  induction entries generalizing store with
  | nil => rfl
  | cons entry rest ih =>
    rw [List.foldl_cons]
    by_cases above : blockNumber < entry.1
    · rw [if_pos above]
      dsimp only
      rw [ih, foldl_unNullify]
      simp [above, reviveAll, List.foldl_append]
    · rw [if_neg above, ih]
      simp [above]

private theorem removeNote_eq (store : NoteStore) (nullifier : Fr) :
    store.removeNote nullifier = { store with
      notes := store.notes.erase nullifier
      contractIndex := match store.notes[nullifier]? with
        | none => store.contractIndex
        | some note => store.contractIndex.remove note.contractAddress nullifier } := by
  unfold removeNote
  cases store.notes[nullifier]? <;> rfl

private theorem foldl_removeNote (nullifiers : List Fr) (store : NoteStore) :
    nullifiers.foldl removeNote store = { store with
      notes := eraseAll store.notes nullifiers
      contractIndex :=
        unlistAll StoredNote.contractAddress store.notes store.contractIndex nullifiers } := by
  induction nullifiers generalizing store with
  | nil => rfl
  | cons head rest ih =>
    rw [List.foldl_cons, ih, removeNote_eq, unlistAll]
    cases store.notes[head]? <;> rfl

/-- Phase 2 erases every record listed above the block, unlists it from its
contract and cuts the block index there. -/
theorem rollback_creations_eq (store : NoteStore) (blockNumber : Nat) :
    store.rollbackCreations blockNumber = { store with
      notes := eraseAll store.notes
        (selected store.blockIndex (fun bn => decide (blockNumber < bn)))
      contractIndex := unlistAll StoredNote.contractAddress store.notes store.contractIndex
        (selected store.blockIndex (fun bn => decide (blockNumber < bn)))
      blockIndex := cut store.blockIndex (fun bn => decide (blockNumber < bn)) } := by
  unfold rollbackCreations
  have sweep : ∀ (entries : List (Nat × List Fr)) (store : NoteStore),
      entries.foldl (fun store entry =>
        if blockNumber < entry.1 then
          let store := entry.2.foldl removeNote store
          { store with blockIndex := store.blockIndex.erase entry.1 }
        else store) store =
      { ((entries.filter (fun entry => decide (blockNumber < entry.1))).flatMap Prod.snd).foldl
          removeNote store with
        blockIndex := entries.foldl (fun table entry =>
          if decide (blockNumber < entry.1) then table.erase entry.1 else table)
            store.blockIndex } := by
    intro entries
    induction entries with
    | nil => intro store; rfl
    | cons entry rest ih =>
      intro store
      rw [List.foldl_cons]
      by_cases above : blockNumber < entry.1
      · rw [if_pos above]
        dsimp only
        rw [ih]
        simp [above, foldl_removeNote, List.foldl_append]
      · rw [if_neg above, ih]
        simp [above]
  rw [sweep, foldl_removeNote]
  rfl

/-! ## Indexes and records agree -/

/-- Every index lists exactly the records that belong under its key. The
nullification index is left out: a record stored as already nullified is in
the table without ever being listed there. -/
structure Coherent (store : NoteStore) : Prop where
  keyed : ∀ {n : Fr} {note : StoredNote}, store.notes[n]? = some note → note.siloedNullifier = n
  byContract : Lists store.contractIndex store.notes (fun note c => note.contractAddress = c)
  byBlock : Lists store.blockIndex store.notes (fun note b => note.blockNumber = some b)
  contractCompact : Compact store.contractIndex
  blockCompact : Compact store.blockIndex
  nullificationCompact : Compact store.nullificationBlockIndex

theorem coherent_empty : Coherent {} where
  keyed held := by simp at held
  byContract := lists_empty
  byBlock := lists_empty
  contractCompact := compact_empty
  blockCompact := compact_empty
  nullificationCompact := compact_empty

section WithScope
variable (note : StoredNote) (scope : AztecAddress)

@[simp] theorem withScope_siloedNullifier :
    (note.withScope scope).siloedNullifier = note.siloedNullifier := by
  unfold StoredNote.withScope; split <;> rfl

@[simp] theorem withScope_contractAddress :
    (note.withScope scope).contractAddress = note.contractAddress := by
  unfold StoredNote.withScope; split <;> rfl

@[simp] theorem withScope_blockNumber :
    (note.withScope scope).blockNumber = note.blockNumber := by
  unfold StoredNote.withScope; split <;> rfl

@[simp] theorem withScope_nullified :
    (note.withScope scope).nullified = note.nullified := by
  unfold StoredNote.withScope; split <;> rfl

@[simp] theorem withScope_nullificationBlockNumber :
    (note.withScope scope).nullificationBlockNumber = note.nullificationBlockNumber := by
  unfold StoredNote.withScope; split <;> rfl

end WithScope

/-- The record table after one turn of `add_notes`. -/
theorem notes_addOne (store : NoteStore) (note : StoredNote) (scope : AztecAddress) (n : Fr) :
    (store.addOne note scope).notes[n]? =
      if n = note.siloedNullifier then
        some ((store.notes[n]?.getD note).withScope scope)
      else store.notes[n]? := by
  unfold addOne
  simp only [withScope_siloedNullifier, withScope_blockNumber]
  by_cases same : n = note.siloedNullifier
  · subst n
    cases held : store.notes[note.siloedNullifier]? with
    | some existing => simp
    | none => cases note.blockNumber <;> simp
  · cases held : store.notes[note.siloedNullifier]? with
    | some existing => simp [Std.ExtTreeMap.getElem?_insert, same, Ne.symm same]
    | none => cases note.blockNumber <;>
        simp [Std.ExtTreeMap.getElem?_insert, same, Ne.symm same]

/-- A record after an insertion is an earlier one, perhaps with one more scope,
or the new note under a key that held nothing. -/
theorem addOne_cases {store : NoteStore} {note found : StoredNote} {scope : AztecAddress} {n : Fr}
    (held : (store.addOne note scope).notes[n]? = some found) :
    (∃ old, store.notes[n]? = some old ∧ (found = old ∨ found = old.withScope scope)) ∨
      (n = note.siloedNullifier ∧ store.notes[n]? = none ∧ found = note.withScope scope) := by
  rw [notes_addOne] at held
  by_cases same : n = note.siloedNullifier
  · rw [if_pos same, Option.some.injEq] at held
    cases existing : store.notes[n]? with
    | none =>
      rw [existing] at held
      exact .inr ⟨same, rfl, held.symm⟩
    | some old =>
      rw [existing] at held
      exact .inl ⟨old, rfl, .inr held.symm⟩
  · rw [if_neg same] at held
    exact .inl ⟨found, held, .inl rfl⟩

/-- The indexes move only when the record is new. -/
theorem contractIndex_addOne (store : NoteStore) (note : StoredNote) (scope : AztecAddress) :
    (store.addOne note scope).contractIndex =
      if store.notes[note.siloedNullifier]? = none then
        store.contractIndex.add note.contractAddress note.siloedNullifier
      else store.contractIndex := by
  unfold addOne
  simp only [withScope_siloedNullifier, withScope_blockNumber, withScope_contractAddress]
  cases store.notes[note.siloedNullifier]? with
  | some existing => simp
  | none => cases note.blockNumber <;> simp

theorem blockIndex_addOne (store : NoteStore) (note : StoredNote) (scope : AztecAddress) :
    (store.addOne note scope).blockIndex =
      match store.notes[note.siloedNullifier]?, note.blockNumber with
      | none, some bn => store.blockIndex.add bn note.siloedNullifier
      | _, _ => store.blockIndex := by
  unfold addOne
  simp only [withScope_siloedNullifier, withScope_blockNumber, withScope_contractAddress]
  cases store.notes[note.siloedNullifier]? with
  | some existing => rfl
  | none => cases note.blockNumber <;> rfl

@[simp] theorem nullificationBlockIndex_addOne (store : NoteStore) (note : StoredNote)
    (scope : AztecAddress) :
    (store.addOne note scope).nullificationBlockIndex = store.nullificationBlockIndex := by
  unfold addOne
  simp only
  split
  · rfl
  · split <;> rfl

/-- A known note only gains a scope. -/
private theorem shape_addOne_existing {store : NoteStore} {note old : StoredNote}
    {scope : AztecAddress} (existing : store.notes[note.siloedNullifier]? = some old)
    {β : Type} (shape : StoredNote → β) (unscoped : shape (old.withScope scope) = shape old)
    (n : Fr) : (store.addOne note scope).notes[n]?.map shape = store.notes[n]?.map shape := by
  rw [notes_addOne]
  by_cases same : n = note.siloedNullifier
  · subst n
    simp [existing, unscoped]
  · rw [if_neg same]

/-- A new note is stored with one scope. -/
private theorem shape_addOne_new {store : NoteStore} {note : StoredNote} {scope : AztecAddress}
    (missing : store.notes[note.siloedNullifier]? = none) {β : Type} (shape : StoredNote → β)
    (unscoped : shape (note.withScope scope) = shape note) (n : Fr) :
    (store.addOne note scope).notes[n]?.map shape =
      (store.notes.insert note.siloedNullifier note)[n]?.map shape := by
  rw [notes_addOne, Std.ExtTreeMap.getElem?_insert]
  by_cases same : n = note.siloedNullifier
  · subst n
    simp [missing, unscoped]
  · simp [same, Ne.symm same]

theorem coherent_addOne {store : NoteStore} (coherent : Coherent store) (note : StoredNote)
    (scope : AztecAddress) : Coherent (store.addOne note scope) := by
  constructor
  case keyed =>
    intro n found held
    rcases addOne_cases held with ⟨old, stored, rfl | rfl⟩ | ⟨same, -, rfl⟩
    · exact coherent.keyed stored
    · rw [withScope_siloedNullifier]
      exact coherent.keyed stored
    · rw [withScope_siloedNullifier]
      exact same.symm
  case byContract =>
    cases existing : store.notes[note.siloedNullifier]? with
    | none =>
      rw [contractIndex_addOne, if_pos existing]
      apply lists_of_same_shape (lists_new coherent.byContract (r := note) existing (by simp))
        StoredNote.contractAddress (by simp_all)
      exact shape_addOne_new existing StoredNote.contractAddress (by simp)
    | some old =>
      rw [contractIndex_addOne, if_neg (by simp [existing])]
      apply lists_of_same_shape coherent.byContract StoredNote.contractAddress (by simp_all)
      exact shape_addOne_existing existing StoredNote.contractAddress (by simp)
  case byBlock =>
    cases existing : store.notes[note.siloedNullifier]? with
    | none =>
      rw [blockIndex_addOne, existing]
      have shape : ∀ n : Fr, (store.addOne note scope).notes[n]?.map StoredNote.blockNumber =
          (store.notes.insert note.siloedNullifier note)[n]?.map StoredNote.blockNumber :=
        shape_addOne_new existing StoredNote.blockNumber (by simp)
      cases height : note.blockNumber with
      | none =>
        exact lists_of_same_shape (lists_unowned coherent.byBlock existing (by simp [height]))
          StoredNote.blockNumber (by simp_all) shape
      | some b =>
        exact lists_of_same_shape (lists_new coherent.byBlock existing (by simp [height]))
          StoredNote.blockNumber (by simp_all) shape
    | some old =>
      rw [blockIndex_addOne, existing]
      apply lists_of_same_shape coherent.byBlock StoredNote.blockNumber (by simp_all)
      exact shape_addOne_existing existing StoredNote.blockNumber (by simp)
  case contractCompact =>
    rw [contractIndex_addOne]
    split
    · exact compact_add coherent.contractCompact _ _
    · exact coherent.contractCompact
  case blockCompact =>
    rw [blockIndex_addOne]
    split
    · exact compact_add coherent.blockCompact _ _
    · exact coherent.blockCompact
  case nullificationCompact =>
    simpa using coherent.nullificationCompact

/-- A record keeps everything but the two nullification fields. -/
theorem coherent_of_same_shape {store after : NoteStore} (coherent : Coherent store)
    (shape : ∀ n : Fr, (after.notes[n]?).map
        (fun note : StoredNote => (note.siloedNullifier, note.contractAddress, note.blockNumber)) =
      (store.notes[n]?).map
        (fun note : StoredNote => (note.siloedNullifier, note.contractAddress, note.blockNumber)))
    (contracts : after.contractIndex = store.contractIndex)
    (blocks : after.blockIndex = store.blockIndex)
    (compact : Compact after.nullificationBlockIndex) : Coherent after := by
  constructor
  case keyed =>
    intro n note held
    have same := shape n
    rw [held, Option.map_some] at same
    obtain ⟨old, stored, fields⟩ := Option.map_eq_some_iff.mp same.symm
    simp only [Prod.mk.injEq] at fields
    rw [← fields.1]
    exact coherent.keyed stored
  case byContract =>
    rw [contracts]
    exact lists_of_same_shape coherent.byContract _ (by simp_all) shape
  case byBlock =>
    rw [blocks]
    exact lists_of_same_shape coherent.byBlock _ (by simp_all) shape
  case contractCompact => exact contracts ▸ coherent.contractCompact
  case blockCompact => exact blocks ▸ coherent.blockCompact
  case nullificationCompact => exact compact

/-- The record table after one turn of `apply_nullifiers`. -/
theorem notes_nullifyOne (store : NoteStore) (nullifier : Fr) (blockNumber : Nat) (n : Fr) :
    (store.nullifyOne nullifier blockNumber).notes[n]? =
      if n = nullifier then
        store.notes[n]?.map (fun note => if note.nullified then note else note.spentAt blockNumber)
      else store.notes[n]? := by
  unfold nullifyOne
  by_cases same : n = nullifier
  · subst n
    cases held : store.notes[nullifier]? with
    | none => simp [held]
    | some note =>
      by_cases spent : note.nullified
      · simp [held, spent]
      · simp [spent]
  · cases held : store.notes[nullifier]? with
    | none => simp [same]
    | some note =>
      by_cases spent : note.nullified
      · simp [spent, same]
      · simp [spent, Std.ExtTreeMap.getElem?_insert, same, Ne.symm same]

/-- A record after a nullification is an earlier one, or the active record under
the nullifier, spent. -/
theorem nullifyOne_cases {store : NoteStore} {nullifier n : Fr} {blockNumber : Nat}
    {found : StoredNote} (held : (store.nullifyOne nullifier blockNumber).notes[n]? = some found) :
    ∃ old, store.notes[n]? = some old ∧ (found = old ∨
      (n = nullifier ∧ old.nullified = false ∧ found = old.spentAt blockNumber)) := by
  rw [notes_nullifyOne] at held
  by_cases same : n = nullifier
  · rw [if_pos same] at held
    obtain ⟨old, stored, rfl⟩ := Option.map_eq_some_iff.mp held
    refine ⟨old, stored, ?_⟩
    cases spent : old.nullified with
    | true => exact .inl rfl
    | false => exact .inr ⟨same, rfl, rfl⟩
  · rw [if_neg same] at held
    exact ⟨found, held, .inl rfl⟩

@[simp] theorem contractIndex_nullifyOne (store : NoteStore) (nullifier : Fr) (blockNumber : Nat) :
    (store.nullifyOne nullifier blockNumber).contractIndex = store.contractIndex := by
  unfold nullifyOne
  split
  · rfl
  · split <;> rfl

@[simp] theorem blockIndex_nullifyOne (store : NoteStore) (nullifier : Fr) (blockNumber : Nat) :
    (store.nullifyOne nullifier blockNumber).blockIndex = store.blockIndex := by
  unfold nullifyOne
  split
  · rfl
  · split <;> rfl

theorem nullificationBlockIndex_nullifyOne (store : NoteStore) (nullifier : Fr)
    (blockNumber : Nat) :
    (store.nullifyOne nullifier blockNumber).nullificationBlockIndex =
      if store.notes[nullifier]?.any (fun note : StoredNote => !note.nullified) then
        store.nullificationBlockIndex.add blockNumber nullifier
      else store.nullificationBlockIndex := by
  unfold nullifyOne
  cases store.notes[nullifier]? with
  | none => rfl
  | some note => cases spent : note.nullified <;> simp [spent]

theorem coherent_nullifyOne {store : NoteStore} (coherent : Coherent store) (nullifier : Fr)
    (blockNumber : Nat) : Coherent (store.nullifyOne nullifier blockNumber) := by
  apply coherent_of_same_shape coherent
  · intro n
    rw [notes_nullifyOne]
    by_cases same : n = nullifier
    · rw [if_pos same, Option.map_map]
      apply congrArg (fun fields => Option.map fields store.notes[n]?)
      funext note
      simp only [Function.comp_apply]
      split <;> rfl
    · rw [if_neg same]
  · exact contractIndex_nullifyOne store nullifier blockNumber
  · exact blockIndex_nullifyOne store nullifier blockNumber
  · unfold nullifyOne
    split
    · exact coherent.nullificationCompact
    · split
      · exact coherent.nullificationCompact
      · exact compact_add coherent.nullificationCompact _ _

theorem coherent_rollbackNullifications {store : NoteStore} (coherent : Coherent store)
    (blockNumber : Nat) : Coherent (store.rollbackNullifications blockNumber) := by
  rw [rollback_nullifications_eq]
  apply coherent_of_same_shape coherent
  · intro n
    dsimp only
    rw [getElem?_reviveAll]
    split
    · rw [Option.map_map]
      rfl
    · rfl
  · rfl
  · rfl
  · exact compact_cut coherent.nullificationCompact _

theorem coherent_rollbackCreations {store : NoteStore} (coherent : Coherent store)
    (blockNumber : Nat) : Coherent (store.rollbackCreations blockNumber) := by
  rw [rollback_creations_eq]
  constructor
  case keyed =>
    intro n note held
    exact coherent.keyed (getElem?_eraseAll_eq_some.mp held).1
  case byContract => exact lists_unlistAll coherent.byContract _
  case byBlock =>
    have functional : ∀ {note : StoredNote} {b b' : Nat}, note.blockNumber = some b →
        note.blockNumber = some b' → b = b' := by
      intro note b b' height height'
      exact Option.some.inj (height.symm.trans height')
    exact lists_cut coherent.byBlock functional (fun bn => decide (blockNumber < bn))
  case contractCompact => exact compact_unlistAll _ _ _ coherent.contractCompact
  case blockCompact => exact compact_cut coherent.blockCompact _
  case nullificationCompact => exact coherent.nullificationCompact

theorem coherent_rollback {store : NoteStore} (coherent : Coherent store)
    (blockNumber syncedBlockNumber : Nat) :
    Coherent (store.rollback blockNumber syncedBlockNumber) :=
  coherent_rollbackCreations (coherent_rollbackNullifications coherent blockNumber) blockNumber

/-! ## Queries -/

/-- A query returns records of the table that its filter accepts. -/
theorem mem_getNotes {store : NoteStore} (coherent : Coherent store) {filter : NoteFilter}
    {note : StoredNote} (returned : note ∈ store.getNotes filter) :
    store.notes[note.siloedNullifier]? = some note ∧ filter.accepts note = true := by
  unfold getNotes at returned
  rw [List.mem_insertionSort, List.mem_filter] at returned
  refine ⟨?_, returned.2⟩
  obtain ⟨inside, -⟩ := returned
  have stored : ∃ n : Fr, store.notes[n]? = some note := by
    split at inside
    · obtain ⟨n, -, held⟩ := List.mem_filterMap.mp inside
      exact ⟨n, held⟩
    · obtain ⟨entry, listed, same⟩ := List.mem_map.mp inside
      rw [← same]
      exact ⟨entry.1, Std.ExtTreeMap.mem_toList_iff_getElem?_eq_some.mp listed⟩
  obtain ⟨n, held⟩ := stored
  rwa [coherent.keyed held]

end AztecPxe.NoteStoreRollback
