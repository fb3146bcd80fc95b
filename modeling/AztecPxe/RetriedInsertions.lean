import AztecPxe.EventStore
import AztecPxe.NoteIndex
import AztecPxe.WriteTrace

/-! The insertions of both stores, write by write. `add_notes`,
`apply_nullifiers` and `store_private_event_log` put the record first and its
index entries after it, and a repeated call decides by the record alone. A call
that fails between the two therefore leaves a record that no later call will
list: repeating is safe exactly when no index entry is due. -/
namespace AztecPxe
open Postings WriteTrace

namespace NoteStore

/-- `NoteStore::add_to_contract_index`. -/
def addToContractIndex : AztecAddress → Fr → NoteStore → List NoteStore :=
  listMember NoteStore.contractIndex (fun idx store => { store with contractIndex := idx })

/-- `NoteStore::add_to_block_index`. -/
def addToBlockIndex : Nat → Fr → NoteStore → List NoteStore :=
  listMember NoteStore.blockIndex (fun idx store => { store with blockIndex := idx })

/-- `NoteStore::add_to_nullification_block_index`. -/
def addToNullificationBlockIndex : Nat → Fr → NoteStore → List NoteStore :=
  listMember NoteStore.nullificationBlockIndex
    (fun idx store => { store with nullificationBlockIndex := idx })

/-- `put` under `note_key_by_nullifier`. -/
def putNote (nullifier : Fr) (note : StoredNote) (store : NoteStore) : List NoteStore :=
  [{ store with notes := store.notes.insert nullifier note }]

/-- The writes of one turn of the loop in `add_notes`. -/
def addOneWrites (scope : AztecAddress) (note : StoredNote) (store : NoteStore) : List NoteStore :=
  let stored := note.withScope scope
  let key := stored.siloedNullifier
  match store.notes[key]? with
  | some existing => putNote key (existing.withScope scope) store
  | none =>
    andThen (putNote key stored) (andThen (addToContractIndex stored.contractAddress key)
      (match stored.blockNumber with
        | some bn => addToBlockIndex bn key
        | none => fun _ => [])) store

/-- The writes of `add_notes`. -/
def addNotesWrites (notes : List StoredNote) (scope : AztecAddress) : NoteStore → List NoteStore :=
  each (addOneWrites scope) notes

/-- The writes of one turn of the loop in `apply_nullifiers`. -/
def nullifyOneWrites (entry : Fr × Nat) (store : NoteStore) : List NoteStore :=
  match store.notes[entry.1]? with
  | none => []
  | some note =>
    if note.nullified then []
    else andThen (putNote entry.1 (note.spentAt entry.2))
      (addToNullificationBlockIndex entry.2 entry.1) store

/-- The writes of `apply_nullifiers`. -/
def applyNullifiersWrites (nullifiers : List (Fr × Nat)) : NoteStore → List NoteStore :=
  each nullifyOneWrites nullifiers

@[simp] theorem final_putNote (nullifier : Fr) (note : StoredNote) (store : NoteStore) :
    final (putNote nullifier note) store =
      { store with notes := store.notes.insert nullifier note } := rfl

theorem final_addOneWrites (scope : AztecAddress) (note : StoredNote) (store : NoteStore) :
    final (addOneWrites scope note) store = store.addOne note scope := by
  unfold addOne
  dsimp only
  cases existing : store.notes[(note.withScope scope).siloedNullifier]? with
  | some old =>
    have trace : addOneWrites scope note store =
        putNote (note.withScope scope).siloedNullifier (old.withScope scope) store := by
      simp only [addOneWrites, existing]
    rw [final_congr trace, final_putNote]
  | none =>
    have trace : addOneWrites scope note store = andThen
        (putNote (note.withScope scope).siloedNullifier (note.withScope scope))
        (andThen (addToContractIndex (note.withScope scope).contractAddress
          (note.withScope scope).siloedNullifier)
        (match (note.withScope scope).blockNumber with
          | some bn => addToBlockIndex bn (note.withScope scope).siloedNullifier
          | none => fun _ => [])) store := by
      simp only [addOneWrites, existing]
    rw [final_congr trace, final_andThen, final_andThen, final_putNote]
    unfold addToContractIndex
    rw [final_listMember rfl]
    cases (note.withScope scope).blockNumber with
    | none => rfl
    | some bn =>
      dsimp only
      unfold addToBlockIndex
      rw [final_listMember rfl]

/-- All writes of `add_notes` together are the call. -/
theorem final_addNotesWrites (notes : List StoredNote) (scope : AztecAddress) (store : NoteStore) :
    final (addNotesWrites notes scope) store = store.addNotes notes scope := by
  unfold addNotesWrites addNotes
  rw [final_each]
  simp only [final_addOneWrites]

theorem final_nullifyOneWrites (entry : Fr × Nat) (store : NoteStore) :
    final (nullifyOneWrites entry) store = store.nullifyOne entry.1 entry.2 := by
  unfold nullifyOne
  cases held : store.notes[entry.1]? with
  | none => simp only [final, nullifyOneWrites, held, List.getLastD_nil]
  | some note =>
    by_cases spent : note.nullified = true
    · simp only [final, nullifyOneWrites, held, spent, ↓reduceIte, List.getLastD_nil]
    · have trace : nullifyOneWrites entry store = andThen (putNote entry.1 (note.spentAt entry.2))
          (addToNullificationBlockIndex entry.2 entry.1) store := by
        simp only [nullifyOneWrites, held, spent, Bool.false_eq_true, ↓reduceIte]
      rw [final_congr trace, final_andThen, final_putNote]
      unfold addToNullificationBlockIndex
      rw [final_listMember rfl]
      simp only [spent, Bool.false_eq_true, ↓reduceIte]

/-- All writes of `apply_nullifiers` together are the call. -/
theorem final_applyNullifiersWrites (nullifiers : List (Fr × Nat)) (store : NoteStore) :
    final (applyNullifiersWrites nullifiers) store = store.applyNullifiers nullifiers := by
  unfold applyNullifiersWrites applyNullifiers
  rw [final_each]
  simp only [final_nullifyOneWrites]

end NoteStore

namespace RetriedInsertions
open NoteStore NoteStoreRollback NoteIndex IndexedTable

/-! ## `add_notes` -/

/-- The store holds a record under every one of these notes' nullifiers. -/
def Known (notes : List StoredNote) (store : NoteStore) : Prop :=
  ∀ note ∈ notes, ∃ old, store.notes[note.siloedNullifier]? = some old

/-- The record is the first write of a turn, so it is there in all its states. -/
theorem notes_of_mem_addOneWrites {scope : AztecAddress} {note : StoredNote}
    {store mid : NoteStore} (passed : mid ∈ addOneWrites scope note store) :
    mid.notes = (store.addOne note scope).notes := by
  unfold addOneWrites at passed
  unfold addOne
  dsimp only at passed ⊢
  cases existing : store.notes[(note.withScope scope).siloedNullifier]? with
  | some old =>
    rw [existing] at passed
    rw [List.mem_singleton.mp passed]
  | none =>
    rw [existing] at passed
    have table : mid.notes =
        store.notes.insert (note.withScope scope).siloedNullifier (note.withScope scope) := by
      rcases mem_andThen.mp passed with first | later
      · rw [List.mem_singleton.mp first]
      · -- Neither index write touches the records.
        have contracts : ∀ t ∈ addToContractIndex (note.withScope scope).contractAddress
              (note.withScope scope).siloedNullifier (final (putNote
                (note.withScope scope).siloedNullifier (note.withScope scope)) store),
            t.notes = store.notes.insert (note.withScope scope).siloedNullifier
              (note.withScope scope) := by
          intro t inside
          rw [(mem_listMember.mp inside).2, final_putNote]
        rcases mem_andThen.mp later with second | third
        · exact contracts mid second
        · cases height : (note.withScope scope).blockNumber with
          | none =>
            rw [height] at third
            cases third
          | some bn =>
            rw [height] at third
            rw [(mem_listMember.mp third).2]
            exact final_keeps (by rw [final_putNote]) contracts
    rw [table]
    cases (note.withScope scope).blockNumber <;> rfl

theorem mem_scopes_withScope (note : StoredNote) (scope : AztecAddress) :
    scope ∈ (note.withScope scope).scopes := by
  unfold StoredNote.withScope
  split
  · assumption
  · simp

/-- Adding a note again under a scope its record has changes nothing. -/
theorem addOne_of_scoped {store : NoteStore} {note old : StoredNote} {scope : AztecAddress}
    (held : store.notes[note.siloedNullifier]? = some old) (known : scope ∈ old.scopes) :
    store.addOne note scope = store := by
  have same : old.withScope scope = old := by
    unfold StoredNote.withScope
    rw [if_pos known]
  unfold addOne
  simp only [withScope_siloedNullifier, held, same]
  have rewritten : store.notes.insert note.siloedNullifier old = store.notes := by
    apply Std.ExtTreeMap.ext_getElem?
    intro n
    rw [Std.ExtTreeMap.getElem?_insert]
    split
    · rename_i here
      rw [← Std.LawfulEqOrd.eq_of_compare here, held]
    · rfl
  rw [rewritten]

theorem retriable_addNotes {store : NoteStore} {notes : List StoredNote}
    (known : Known notes store) (scope : AztecAddress) :
    Retriable (addNotesWrites notes scope) store := by
  unfold addNotesWrites
  refine each_retriable Known (fun note s =>
    ∃ old, s.notes[note.siloedNullifier]? = some old ∧ scope ∈ old.scopes) ?_ ?_ ?_ ?_ ?_ known
  · intro note rest s known mid passed
    obtain ⟨old, held⟩ := known note List.mem_cons_self
    have trace : addOneWrites scope note s =
        putNote note.siloedNullifier (old.withScope scope) s := by
      simp only [addOneWrites, withScope_siloedNullifier, held]
    rw [final_congr trace]
    rw [trace] at passed
    exact List.mem_singleton.mp passed
  · intro note rest s known other member
    obtain ⟨old, held⟩ := known other (List.mem_cons_of_mem note member)
    rw [final_addOneWrites, notes_addOne]
    split
    · exact ⟨_, rfl⟩
    · exact ⟨old, held⟩
  · intro note rest s _
    rw [final_addOneWrites, notes_addOne, if_pos rfl]
    exact ⟨_, rfl, mem_scopes_withScope _ scope⟩
  · rintro note s ⟨old, held, named⟩ other mid passed
    rw [notes_of_mem_addOneWrites passed, notes_addOne]
    split
    · exact ⟨_, rfl, mem_scopes_withScope _ scope⟩
    · exact ⟨old, held, named⟩
  · rintro note s ⟨old, held, named⟩
    rw [final_addOneWrites]
    exact addOne_of_scoped held named

/-- Notes under other nullifiers leave a record alone. -/
theorem notes_addNotes_of_other {notes : List StoredNote} {n : Fr}
    (other : ∀ note ∈ notes, note.siloedNullifier ≠ n) (scope : AztecAddress) (store : NoteStore) :
    (store.addNotes notes scope).notes[n]? = store.notes[n]? := by
  unfold addNotes
  induction notes generalizing store with
  | nil => rfl
  | cons note rest ih =>
    rw [List.foldl_cons, ih (fun m member => other m (List.mem_cons_of_mem note member)),
      notes_addOne, if_neg (Ne.symm (other note List.mem_cons_self))]

theorem addNotes_append (store : NoteStore) (front back : List StoredNote) (scope : AztecAddress) :
    store.addNotes (front ++ back) scope = (store.addNotes front scope).addNotes back scope :=
  List.foldl_append

theorem mem_contractIndex_addOne {store : NoteStore} {note : StoredNote} {scope contract : AztecAddress}
    {n : Fr} : n ∈ listed (store.addOne note scope).contractIndex contract ↔
      n ∈ listed store.contractIndex contract ∨ (store.notes[note.siloedNullifier]? = none ∧
        note.contractAddress = contract ∧ n = note.siloedNullifier) := by
  rw [contractIndex_addOne]
  by_cases fresh : store.notes[note.siloedNullifier]? = none
  · rw [if_pos fresh, mem_listed_add]
    simp [fresh]
  · rw [if_neg fresh]
    simp [fresh]

/-- A stored note that its contract's index misses is missed for good. -/
private def Unlisted (n : Fr) (contract : AztecAddress) (store : NoteStore) : Prop :=
  store.notes[n]? ≠ none ∧ n ∉ listed store.contractIndex contract

private theorem unlisted_addOne {n : Fr} {contract : AztecAddress} {store : NoteStore}
    (unlisted : Unlisted n contract store) (note : StoredNote) (scope : AztecAddress) :
    Unlisted n contract (store.addOne note scope) := by
  obtain ⟨stored, missing⟩ := unlisted
  constructor
  · rw [notes_addOne]
    split
    · simp
    · exact stored
  · rw [mem_contractIndex_addOne]
    rintro (inside | ⟨fresh, -, same⟩)
    · exact missing inside
    · exact stored (same ▸ fresh)

/-- The notes before the first one without a record are under other nullifiers. -/
private theorem exists_first_unknown {store : NoteStore} {notes : List StoredNote}
    (unknown : ¬ Known notes store) :
    ∃ front note back, notes = front ++ note :: back ∧
      store.notes[note.siloedNullifier]? = none ∧
      ∀ prior ∈ front, prior.siloedNullifier ≠ note.siloedNullifier := by
  have some_new : ∃ note ∈ notes, store.notes[note.siloedNullifier]?.isNone = true := by
    unfold Known at unknown
    push Not at unknown
    obtain ⟨note, member, absent⟩ := unknown
    refine ⟨note, member, ?_⟩
    cases held : store.notes[note.siloedNullifier]? with
    | none => rfl
    | some old => exact absurd held (absent old)
  obtain ⟨note, first⟩ := Option.isSome_iff_exists.mp (List.find?_isSome.mpr some_new)
  obtain ⟨missing, front, back, split, earlier⟩ := List.find?_eq_some_iff_append.mp first
  refine ⟨front, note, back, split, Option.isNone_iff_eq_none.mp missing, ?_⟩
  intro prior member same
  have present := earlier prior member
  rw [same, missing] at present
  cases present

/-- The first two writes for a new note: its record, then the entry in the index
of its contract. -/
private theorem addOneWrites_fresh {store : NoteStore} {note : StoredNote}
    (fresh : store.notes[note.siloedNullifier]? = none)
    (unindexed : note.siloedNullifier ∉ listed store.contractIndex note.contractAddress)
    (scope : AztecAddress) :
    ∃ next after, addOneWrites scope note store =
      { store with notes := store.notes.insert note.siloedNullifier (note.withScope scope) } ::
        next :: after := by
  let half : NoteStore :=
    { store with notes := store.notes.insert note.siloedNullifier (note.withScope scope) }
  have written : addToContractIndex note.contractAddress note.siloedNullifier half = _ :=
    listMember_fresh unindexed
  unfold addOneWrites
  simp only [withScope_siloedNullifier, withScope_contractAddress, fresh]
  unfold andThen
  change ∃ next after, half :: (addToContractIndex note.contractAddress note.siloedNullifier half ++
    _) = _
  rw [written]
  exact ⟨_, _, rfl⟩

/-- The failure between the record and the contract index of a new note cannot
be repaired by repeating the call. -/
theorem not_retriable_addNotes {store : NoteStore} (coherent : Coherent store)
    {notes : List StoredNote} (unknown : ¬ Known notes store) (scope : AztecAddress) :
    ¬ Retriable (addNotesWrites notes scope) store := by
  obtain ⟨front, note, back, rfl, missing, other⟩ := exists_first_unknown unknown
  have ready : Coherent (store.addNotes front scope) :=
    keeps_addNotes (P := Coherent) (fun note scope held => coherent_addOne held note scope)
      coherent front scope
  have fresh : (store.addNotes front scope).notes[note.siloedNullifier]? = none := by
    rw [notes_addNotes_of_other other]
    exact missing
  have unindexed : note.siloedNullifier ∉
      listed (store.addNotes front scope).contractIndex note.contractAddress := by
    intro inside
    obtain ⟨old, held, -⟩ := ready.byContract.mem_iff.mp inside
    rw [fresh] at held
    cases held
  let half : NoteStore := { store.addNotes front scope with
    notes := (store.addNotes front scope).notes.insert note.siloedNullifier (note.withScope scope) }
  obtain ⟨next, after, written⟩ := addOneWrites_fresh fresh unindexed scope
  have turn : addOneWrites scope note (final (each (addOneWrites scope) front) store) =
      half :: next :: after := by
    rw [show final (each (addOneWrites scope) front) store = store.addNotes front scope from
      final_addNotesWrites front scope store]
    exact written
  apply each_not_retriable turn
  change final (addNotesWrites _ scope) half ≠ final (addNotesWrites _ scope) store
  rw [final_addNotesWrites, final_addNotesWrites]
  intro same
  have stranded : Unlisted note.siloedNullifier note.contractAddress half :=
    ⟨by simp [half], unindexed⟩
  have lost : Unlisted note.siloedNullifier note.contractAddress
      (half.addNotes (front ++ note :: back) scope) :=
    keeps_addNotes (P := Unlisted note.siloedNullifier note.contractAddress)
      (fun note scope held => unlisted_addOne held note scope) stranded _ scope
  apply lost.2
  rw [same, addNotes_append]
  have entered : note.siloedNullifier ∈
      listed ((store.addNotes front scope).addOne note scope).contractIndex note.contractAddress :=
    mem_contractIndex_addOne.mpr (.inr ⟨fresh, rfl, rfl⟩)
  exact keeps_addNotes (P := fun s => note.siloedNullifier ∈
      listed s.contractIndex note.contractAddress)
    (fun note scope inside => mem_contractIndex_addOne.mpr (.inl inside)) entered back scope

/-! ## `apply_nullifiers` -/

/-- Every nullifier that would spend an active record is already listed under
the block it comes with; only the first entry of a nullifier counts. -/
def Filed (nullifiers : List (Fr × Nat)) (store : NoteStore) : Prop :=
  ∀ n b note, nullifiers.lookup n = some b → store.notes[n]? = some note →
    note.nullified = false → n ∈ listed store.nullificationBlockIndex b

/-- The store has no active record under the nullifier. -/
def Spent (entry : Fr × Nat) (store : NoteStore) : Prop :=
  ∀ note, store.notes[entry.1]? = some note → note.nullified = true

theorem spent_nullifyOne (entry : Fr × Nat) (store : NoteStore) :
    Spent entry (store.nullifyOne entry.1 entry.2) := by
  intro note held
  rw [notes_nullifyOne, if_pos rfl] at held
  obtain ⟨old, -, rfl⟩ := Option.map_eq_some_iff.mp held
  split
  · assumption
  · rfl

/-- The record is the only thing a turn changes in the table. -/
theorem notes_of_mem_nullifyOneWrites {entry : Fr × Nat} {store mid : NoteStore}
    (passed : mid ∈ nullifyOneWrites entry store) :
    mid.notes = (store.nullifyOne entry.1 entry.2).notes := by
  unfold nullifyOneWrites at passed
  unfold nullifyOne
  cases held : store.notes[entry.1]? with
  | none =>
    rw [held] at passed
    cases passed
  | some note =>
    simp only [held] at passed
    by_cases spent : note.nullified = true
    · rw [if_pos spent] at passed
      cases passed
    · rw [if_neg spent] at passed
      dsimp only
      rw [if_neg spent]
      rcases mem_andThen.mp passed with first | later
      · rw [List.mem_singleton.mp first]
      · rw [(mem_listMember.mp later).2, final_putNote]

/-- A nullifier without an active record is passed over. -/
theorem nullifyOne_of_spent {entry : Fr × Nat} {store : NoteStore} (spent : Spent entry store) :
    store.nullifyOne entry.1 entry.2 = store := by
  unfold nullifyOne
  cases held : store.notes[entry.1]? with
  | none => rfl
  | some note => simp only [spent note held, ↓reduceIte]

/-- The nullification index only grows, and only by the nullifier at hand. -/
theorem mem_nullificationBlockIndex_nullifyOne {store : NoteStore} {m n : Fr} {b b' : Nat} :
    m ∈ listed (store.nullifyOne n b).nullificationBlockIndex b' ↔
      m ∈ listed store.nullificationBlockIndex b' ∨
        (m = n ∧ b = b' ∧ ∃ note, store.notes[n]? = some note ∧ note.nullified = false) := by
  rw [nullificationBlockIndex_nullifyOne]
  cases held : store.notes[n]? with
  | none => simp
  | some note =>
    cases spent : note.nullified with
    | true => simp [spent]
    | false =>
      simp only [Option.any_some, spent, Bool.not_false, ↓reduceIte, mem_listed_add,
        Option.some.injEq, exists_eq_left', and_true]
      tauto

theorem retriable_applyNullifiers {store : NoteStore} {nullifiers : List (Fr × Nat)}
    (filed : Filed nullifiers store) : Retriable (applyNullifiersWrites nullifiers) store := by
  unfold applyNullifiersWrites
  refine each_retriable Filed Spent ?_ ?_ ?_ ?_ ?_ filed
  · rintro ⟨n, b⟩ rest s filed mid passed
    unfold nullifyOneWrites at passed
    cases held : s.notes[n]? with
    | none =>
      simp only [held] at passed
      cases passed
    | some note =>
      simp only [held] at passed
      by_cases spent : note.nullified = true
      · rw [if_pos spent] at passed
        cases passed
      · rw [if_neg spent] at passed
        have active : note.nullified = false := Bool.eq_false_of_not_eq_true spent
        have there : n ∈ listed s.nullificationBlockIndex b :=
          filed n b note List.lookup_cons_self held active
        rcases mem_andThen.mp passed with first | later
        · rw [final_nullifyOneWrites, List.mem_singleton.mp first]
          unfold nullifyOne add
          simp only [held, active, Bool.false_eq_true, ↓reduceIte]
          unfold listed at there
          rw [if_pos there]
        · exact absurd there (mem_listMember.mp later).1
  · rintro ⟨n, b⟩ rest s filed m b' note found held active
    rw [final_nullifyOneWrites] at held ⊢
    have other : m ≠ n := by
      rintro rfl
      rw [spent_nullifyOne (m, b) s note held] at active
      cases active
    rw [notes_nullifyOne, if_neg other] at held
    have listedBefore : m ∈ listed s.nullificationBlockIndex b' := by
      refine filed m b' note ?_ held active
      have skipped : (m == n) = false := by simpa using other
      rw [List.lookup_cons, skipped, found]
    exact mem_nullificationBlockIndex_nullifyOne.mpr (.inl listedBefore)
  · intro entry rest s _
    rw [final_nullifyOneWrites]
    exact spent_nullifyOne entry s
  · intro entry s spent other mid passed note held
    rw [notes_of_mem_nullifyOneWrites passed] at held
    obtain ⟨old, stored, rfl | ⟨-, -, rfl⟩⟩ := nullifyOne_cases held
    · exact spent _ stored
    · rfl
  · intro entry s spent
    rw [final_nullifyOneWrites]
    exact nullifyOne_of_spent spent

/-- Nullifiers under other ids leave a record alone. -/
theorem applyNullifiers_of_other {nullifiers : List (Fr × Nat)} {n : Fr}
    (other : ∀ entry ∈ nullifiers, entry.1 ≠ n) (store : NoteStore) :
    (store.applyNullifiers nullifiers).notes[n]? = store.notes[n]? ∧
      ∀ b : Nat, (n ∈ listed (store.applyNullifiers nullifiers).nullificationBlockIndex b ↔
        n ∈ listed store.nullificationBlockIndex b) := by
  unfold applyNullifiers
  induction nullifiers generalizing store with
  | nil => exact ⟨rfl, fun _ => Iff.rfl⟩
  | cons entry rest ih =>
    have apart : n ≠ entry.1 := Ne.symm (other entry List.mem_cons_self)
    obtain ⟨record, index⟩ := ih (fun e member => other e (List.mem_cons_of_mem entry member))
      (store.nullifyOne entry.1 entry.2)
    rw [List.foldl_cons]
    refine ⟨?_, fun b => (index b).trans ?_⟩
    · rw [record, notes_nullifyOne, if_neg apart]
    · rw [mem_nullificationBlockIndex_nullifyOne]
      simp [apart]

theorem applyNullifiers_append (store : NoteStore) (front back : List (Fr × Nat)) :
    store.applyNullifiers (front ++ back) = (store.applyNullifiers front).applyNullifiers back :=
  List.foldl_append

/-- A spent record that the nullification index misses is missed for good. -/
private def Unfiled (n : Fr) (b : Nat) (store : NoteStore) : Prop :=
  Spent (n, b) store ∧ n ∉ listed store.nullificationBlockIndex b

private theorem unfiled_nullifyOne {n : Fr} {b : Nat} {store : NoteStore}
    (unfiled : Unfiled n b store) (nullifier : Fr) (blockNumber : Nat) :
    Unfiled n b (store.nullifyOne nullifier blockNumber) := by
  obtain ⟨spent, missing⟩ := unfiled
  constructor
  · intro note held
    obtain ⟨old, stored, rfl | ⟨-, -, rfl⟩⟩ := nullifyOne_cases held
    · exact spent _ stored
    · rfl
  · rw [mem_nullificationBlockIndex_nullifyOne]
    rintro (inside | ⟨rfl, -, note, held, active⟩)
    · exact missing inside
    · rw [spent note held] at active
      cases active

/-- The failure between a spent record and its index entry cannot be repaired
by repeating the call. -/
theorem not_retriable_applyNullifiers {store : NoteStore} {nullifiers : List (Fr × Nat)}
    (unfiled : ¬ Filed nullifiers store) : ¬ Retriable (applyNullifiersWrites nullifiers) store := by
  unfold Filed at unfiled
  push Not at unfiled
  obtain ⟨n, b, note, found, held, active, missing⟩ := unfiled
  obtain ⟨front, back, rfl, earlier⟩ := List.lookup_eq_some_iff.mp found
  have other : ∀ entry ∈ front, entry.1 ≠ n := by
    intro entry member same
    have differs := earlier entry member
    simp [same] at differs
  obtain ⟨record, index⟩ := applyNullifiers_of_other other store
  rw [held] at record
  rw [← index b] at missing
  let half : NoteStore := { store.applyNullifiers front with
    notes := (store.applyNullifiers front).notes.insert n (note.spentAt b) }
  have turn : nullifyOneWrites (n, b) (final (each nullifyOneWrites front) store) =
      half :: [{ half with nullificationBlockIndex := half.nullificationBlockIndex.add b n }] := by
    rw [show final (each nullifyOneWrites front) store = store.applyNullifiers front from
      final_applyNullifiersWrites front store]
    unfold nullifyOneWrites
    simp only [record, active, Bool.false_eq_true, ↓reduceIte]
    have written : addToNullificationBlockIndex b n half = _ := listMember_fresh missing
    unfold andThen
    change half :: addToNullificationBlockIndex b n half = _
    rw [written]
  apply each_not_retriable turn
  change final (applyNullifiersWrites _) half ≠ final (applyNullifiersWrites _) store
  rw [final_applyNullifiersWrites, final_applyNullifiersWrites]
  intro same
  have stranded : Unfiled n b half := by
    refine ⟨?_, missing⟩
    intro found written
    simp only [half, Std.ExtTreeMap.getElem?_insert_self, Option.some.injEq] at written
    rw [← written]
    rfl
  have lost : Unfiled n b (half.applyNullifiers (front ++ (n, b) :: back)) :=
    keeps_applyNullifiers (P := Unfiled n b)
      (fun nullifier blockNumber held => unfiled_nullifyOne held nullifier blockNumber)
      stranded _
  apply lost.2
  rw [same, applyNullifiers_append]
  have entered : n ∈ listed ((store.applyNullifiers front).nullifyOne n b).nullificationBlockIndex b :=
    mem_nullificationBlockIndex_nullifyOne.mpr (.inr ⟨rfl, rfl, note, record, active⟩)
  exact keeps_applyNullifiers (P := fun s => n ∈ listed s.nullificationBlockIndex b)
    (fun nullifier blockNumber inside => mem_nullificationBlockIndex_nullifyOne.mpr (.inl inside))
    entered back

end RetriedInsertions

/-! ## `store_private_event_log` -/

namespace PrivateEventStore

/-- `PrivateEventStore::add_to_contract_selector_index`. -/
def addToContractSelectorIndex : ContractSelector → Fr → PrivateEventStore → List PrivateEventStore :=
  listMember PrivateEventStore.contractSelectorIndex
    (fun idx store => { store with contractSelectorIndex := idx })

/-- `PrivateEventStore::add_to_block_index`. -/
def addToBlockIndex : Nat → Fr → PrivateEventStore → List PrivateEventStore :=
  listMember PrivateEventStore.blockIndex (fun idx store => { store with blockIndex := idx })

/-- `put` under `event_key`. -/
def putEvent (id : Fr) (event : StoredPrivateEvent) (store : PrivateEventStore) :
    List PrivateEventStore :=
  [{ store with events := store.events.insert id event }]

/-- The writes of `store_private_event_log`. -/
def storePrivateEventLogWrites (event : StoredPrivateEvent) (scope : AztecAddress)
    (store : PrivateEventStore) : List PrivateEventStore :=
  let id := event.siloedEventCommitment
  match store.events[id]? with
  | some existing => putEvent id (existing.withScope scope) store
  | none =>
    let stored := event.withScope scope
    andThen (putEvent id stored) (andThen (addToContractSelectorIndex stored.indexKey id)
      (addToBlockIndex stored.l2BlockNumber id)) store

/-- All writes of `store_private_event_log` together are the call. -/
theorem final_storePrivateEventLogWrites (event : StoredPrivateEvent) (scope : AztecAddress)
    (store : PrivateEventStore) :
    final (storePrivateEventLogWrites event scope) store =
      store.storePrivateEventLog event scope := by
  unfold storePrivateEventLog
  dsimp only
  cases held : store.events[event.siloedEventCommitment]? with
  | some existing =>
    have trace : storePrivateEventLogWrites event scope store =
        putEvent event.siloedEventCommitment (existing.withScope scope) store := by
      simp only [storePrivateEventLogWrites, held]
    rw [final_congr trace]
    rfl
  | none =>
    have trace : storePrivateEventLogWrites event scope store =
        andThen (putEvent event.siloedEventCommitment (event.withScope scope))
          (andThen (addToContractSelectorIndex (event.withScope scope).indexKey
            event.siloedEventCommitment)
          (addToBlockIndex (event.withScope scope).l2BlockNumber event.siloedEventCommitment))
          store := by
      simp only [storePrivateEventLogWrites, held]
    rw [final_congr trace, final_andThen, final_andThen]
    unfold addToContractSelectorIndex addToBlockIndex
    rw [final_listMember rfl, final_listMember rfl]
    rfl

end PrivateEventStore

namespace RetriedInsertions
open NoteStore NoteStoreRollback NoteIndex IndexedTable PrivateEventStore

/-- A stored event is only rewritten; a new one is lost to its index when the
call fails after the record. -/
theorem retriable_storePrivateEventLog {store : PrivateEventStore}
    (coherent : PrivateEventStore.Coherent store) (event : StoredPrivateEvent)
    (scope : AztecAddress) :
    Retriable (storePrivateEventLogWrites event scope) store ↔
      ∃ old, store.events[event.siloedEventCommitment]? = some old := by
  constructor
  · intro retriable
    by_contra absent
    have held : store.events[event.siloedEventCommitment]? = none := by
      cases found : store.events[event.siloedEventCommitment]? with
      | none => rfl
      | some old => exact absurd ⟨old, found⟩ absent
    let id := event.siloedEventCommitment
    let stored := event.withScope scope
    let half : PrivateEventStore := { store with events := store.events.insert id stored }
    have unindexed : id ∉ listed half.contractSelectorIndex stored.indexKey := by
      intro inside
      obtain ⟨old, found, -⟩ := coherent.bySelector.mem_iff.mp inside
      rw [held] at found
      cases found
    have written : addToContractSelectorIndex stored.indexKey id half = _ :=
      listMember_fresh unindexed
    have trace : storePrivateEventLogWrites event scope store = [] ++ half ::
        { half with contractSelectorIndex := half.contractSelectorIndex.add stored.indexKey id } ::
        addToBlockIndex stored.l2BlockNumber id
          (final (addToContractSelectorIndex stored.indexKey id) half) := by
      simp only [storePrivateEventLogWrites, held]
      unfold andThen
      change half :: (addToContractSelectorIndex stored.indexKey id half ++ _) = _
      rw [written]
      rfl
    refine not_retriable trace ?_ retriable
    rw [final_storePrivateEventLogWrites, final_storePrivateEventLogWrites]
    intro same
    apply unindexed
    have kept : half.contractSelectorIndex =
        (half.storePrivateEventLog event scope).contractSelectorIndex := by
      unfold storePrivateEventLog
      simp only [half, id, Std.ExtTreeMap.getElem?_insert_self]
    rw [kept, same]
    unfold storePrivateEventLog
    simp only [held]
    exact mem_listed_add.mpr (.inr ⟨rfl, rfl⟩)
  · rintro ⟨old, held⟩
    have trace : storePrivateEventLogWrites event scope store =
        putEvent event.siloedEventCommitment (old.withScope scope) store := by
      simp only [storePrivateEventLogWrites, held]
    exact retriable_of_single trace

/-! ## The three calls together -/

/-- What it takes, in every state reached without a failure, for a repeated call
to make up for a failed one: `add_notes` may bring no new note,
`apply_nullifiers` may spend only what is already filed under its block, and
`store_private_event_log` may bring no new event. -/
theorem retriable_iff_nothing_to_index (calls : List Call) (store : PrivateEventStore)
    (reached : store.Reachable) :
    (∀ (notes : List StoredNote) (scope : AztecAddress),
      Retriable (addNotesWrites notes scope) (run calls) ↔ Known notes (run calls)) ∧
    (∀ nullifiers : List (Fr × Nat),
      Retriable (applyNullifiersWrites nullifiers) (run calls) ↔ Filed nullifiers (run calls)) ∧
    (∀ (event : StoredPrivateEvent) (scope : AztecAddress),
      Retriable (storePrivateEventLogWrites event scope) store ↔
        ∃ old, store.events[event.siloedEventCommitment]? = some old) := by
  refine ⟨?_, ?_, ?_⟩
  · intro notes scope
    refine ⟨?_, fun known => retriable_addNotes known scope⟩
    intro retriable
    by_contra unknown
    exact not_retriable_addNotes (indexed_run calls).coherent unknown scope retriable
  · intro nullifiers
    refine ⟨?_, retriable_applyNullifiers⟩
    intro retriable
    by_contra unfiled
    exact not_retriable_applyNullifiers unfiled retriable
  · intro event scope
    exact retriable_storePrivateEventLog (coherent_of_reachable reached) event scope

/-- A note the empty store does not know. -/
def freshNote : StoredNote where
  contractAddress := AztecAddress.zero
  owner := AztecAddress.zero
  storageSlot := 0
  randomness := 0
  noteNonce := 0
  noteHash := 0
  siloedNullifier := 3
  noteData := []
  nullified := false
  isPending := false
  nullificationBlockNumber := none
  leafIndex := none
  blockNumber := some 1
  txIndexInBlock := none
  noteIndexInTx := none
  scopes := []

/-- The second of three writes fails and the call is repeated: the record is
there and its contract's index stays empty, where one undisturbed call lists it. -/
theorem failed_insertion_is_not_repaired :
    (addNotesWrites [freshNote] AztecAddress.zero (run [])).length = 3 ∧
    listed (final (addNotesWrites [freshNote] AztecAddress.zero)
      (failedAt (addNotesWrites [freshNote] AztecAddress.zero) 1 (run []))).contractIndex
        AztecAddress.zero = [] ∧
    listed ((run []).addNotes [freshNote] AztecAddress.zero).contractIndex
      AztecAddress.zero = [3] ∧
    ¬ ∀ (calls : List Call) (notes : List StoredNote) (scope : AztecAddress),
      Retriable (addNotesWrites notes scope) (run calls) := by
  refine ⟨by decide, by decide, by decide, ?_⟩
  intro claim
  have same := congrArg (fun store : NoteStore => listed store.contractIndex AztecAddress.zero)
    (claim [] [freshNote] AztecAddress.zero 1 (by decide))
  revert same
  decide

/-- An event the empty store does not know. -/
def freshEvent : StoredPrivateEvent where
  eventSelector := ⟨1⟩
  randomness := 0
  msgContent := []
  siloedEventCommitment := 5
  contractAddress := AztecAddress.zero
  scopes := []
  txHash := ⟨0⟩
  l2BlockNumber := 1
  l2BlockHash := "0xaa"
  txIndexInBlock := none
  eventIndexInTx := none

/-- On the empty event store the first insertion is of a new event. -/
theorem first_event_is_not_retriable :
    ¬ Retriable (storePrivateEventLogWrites freshEvent AztecAddress.zero) {} := by
  rw [(retriable_iff_nothing_to_index [] {} .empty).2.2]
  simp

end RetriedInsertions
end AztecPxe
