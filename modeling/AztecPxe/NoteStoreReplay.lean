import AztecPxe.NoteStoreRollback
import AztecPxe.UndoLog

/-! Rolling the note store back is forgetting. A history of `add_notes`,
`apply_nullifiers` and `rollback` calls is read as a list of creations and
nullifications, each stamped with its block; the store after a rollback is the
store those events at or below the block would have built from nothing. The
store only reaches the records through its indexes, so the one-event argument
needs the nullification index to be exact as well. -/
namespace AztecPxe.NoteStoreReplay
open AztecPxe NoteStore NoteStoreRollback Postings IndexedTable

/-- What the store is told about one siloed nullifier. -/
inductive NoteEvent where
  | created (note : StoredNote) (scope : AztecAddress)
  | nullified (nullifier : Fr) (blockNumber : Nat)
  deriving DecidableEq, Repr

/-- The block an event is stamped with. -/
def NoteEvent.height : NoteEvent → Nat
  | .created note _ => note.blockNumber.getD 0
  | .nullified _ blockNumber => blockNumber

/-- The event's own turn of the `add_notes` or `apply_nullifiers` loop. -/
def applyEvent (store : NoteStore) : NoteEvent → NoteStore
  | .created note scope => store.addOne note scope
  | .nullified nullifier blockNumber => store.nullifyOne nullifier blockNumber

/-- One call on the note store. -/
inductive NoteCall where
  | addNotes (notes : List StoredNote) (scope : AztecAddress)
  | applyNullifiers (nullifiers : List (Fr × Nat))
  | rollback (blockNumber syncedBlockNumber : Nat)
  deriving DecidableEq, Repr

/-- The store after one call. -/
def call (store : NoteStore) : NoteCall → NoteStore
  | .addNotes notes scope => store.addNotes notes scope
  | .applyNullifiers nullifiers => store.applyNullifiers nullifiers
  | .rollback blockNumber syncedBlockNumber => store.rollback blockNumber syncedBlockNumber

/-- The store after a history of calls on the empty store. -/
def history (calls : List NoteCall) : NoteStore := calls.foldl call {}

/-- The store as a machine that records events and is rolled back. -/
def machine : UndoLog.Machine NoteStore NoteEvent where
  init := {}
  apply := applyEvent
  height := NoteEvent.height
  rollback store blockNumber := store.rollback blockNumber 0

/-- A call as the batch of events it records. -/
def NoteCall.op : NoteCall → UndoLog.Op NoteEvent
  | .addNotes notes scope => .record (notes.map (.created · scope))
  | .applyNullifiers nullifiers => .record (nullifiers.map (fun entry => .nullified entry.1 entry.2))
  | .rollback blockNumber _ => .rollback blockNumber

/-- The events of a history that its rollbacks so far left standing. -/
def surviving (calls : List NoteCall) : List NoteEvent :=
  UndoLog.surviving machine (calls.map NoteCall.op)

/-- The store those events build from nothing. -/
def replay (events : List NoteEvent) : NoteStore := UndoLog.replay machine events

/-- The events at or below a block. -/
def upTo (events : List NoteEvent) (blockNumber : Nat) : List NoteEvent :=
  UndoLog.upTo machine events blockNumber

/-- Notes come in active and with a block; a siloed nullifier has one creation
block and at most one nullification block, which is not below it. -/
structure Admissible (events : List NoteEvent) : Prop where
  active : ∀ {note scope}, .created note scope ∈ events →
    note.nullified = false ∧ ∃ b, note.blockNumber = some b
  oneCreation : ∀ {first second scope scope'}, .created first scope ∈ events →
    .created second scope' ∈ events → first.siloedNullifier = second.siloedNullifier →
    first.blockNumber = second.blockNumber
  oneNullification : ∀ {n b b'}, .nullified n b ∈ events → .nullified n b' ∈ events → b = b'
  ordered : ∀ {note scope b}, .created note scope ∈ events →
    .nullified note.siloedNullifier b ∈ events → note.blockNumber.getD 0 ≤ b

/-- No incoming note already carries the block of a nullification. -/
def Unstamped (events : List NoteEvent) : Prop :=
  ∀ {note scope}, .created note scope ∈ events → note.nullificationBlockNumber = none

theorem admissible_sublist {few events : List NoteEvent} (admissible : Admissible events)
    (included : few ⊆ events) : Admissible few where
  active inside := admissible.active (included inside)
  oneCreation first second := admissible.oneCreation (included first) (included second)
  oneNullification first second := admissible.oneNullification (included first) (included second)
  ordered created spent := admissible.ordered (included created) (included spent)

/-! ## The store of a list of events -/

/-- Where a store built by events stands: coherent indexes, an exact
nullification index, and every record traced to events of the list. -/
structure Built (events : List NoteEvent) (store : NoteStore) : Prop where
  coherent : Coherent store
  byNullification : ∀ {b : Nat} {n : Fr}, n ∈ listed store.nullificationBlockIndex b ↔
    ∃ note : StoredNote, store.notes[n]? = some note ∧ note.nullified = true ∧
      note.nullificationBlockNumber = some b
  origin : ∀ {n : Fr} {note : StoredNote}, store.notes[n]? = some note →
    ∃ first scope, .created first scope ∈ events ∧ first.siloedNullifier = n ∧
      first.blockNumber = note.blockNumber
  spent : ∀ {n : Fr} {note : StoredNote}, store.notes[n]? = some note → note.nullified = true →
    ∃ b, note.nullificationBlockNumber = some b ∧ .nullified n b ∈ events
  unspent : ∀ {n : Fr} {note : StoredNote}, store.notes[n]? = some note →
    note.nullified = false → note.nullificationBlockNumber = none

theorem built_empty : Built [] {} where
  coherent := coherent_empty
  byNullification := by simp
  origin held := by simp at held
  spent held := by simp at held
  unspent held := by simp at held

private theorem built_created {events : List NoteEvent} {store : NoteStore} {note : StoredNote}
    {scope : AztecAddress} (built : Built events store)
    (active : note.nullified = false) (unstamped : note.nullificationBlockNumber = none) :
    Built (events ++ [.created note scope]) (store.addOne note scope) := by
  constructor
  case coherent => exact coherent_addOne built.coherent note scope
  case byNullification =>
    intro b n
    rw [nullificationBlockIndex_addOne, built.byNullification, notes_addOne]
    by_cases same : n = note.siloedNullifier
    · subst n
      cases existing : store.notes[note.siloedNullifier]? with
      | none => simp [active]
      | some old => simp
    · rw [if_neg same]
  case origin =>
    intro n found held
    rcases addOne_cases held with ⟨old, stored, kept⟩ | ⟨same, -, rfl⟩
    · have height : old.blockNumber = found.blockNumber := by
        rcases kept with rfl | rfl
        · rfl
        · exact (withScope_blockNumber old scope).symm
      obtain ⟨first, scope', inside, keyed, created⟩ := built.origin stored
      exact ⟨first, scope', List.mem_append_left _ inside, keyed, created.trans height⟩
    · exact ⟨note, scope, by simp, same.symm, (withScope_blockNumber note scope).symm⟩
  case spent =>
    intro n found held nullified
    rcases addOne_cases held with ⟨old, stored, kept⟩ | ⟨-, -, rfl⟩
    · rcases kept with rfl | rfl
      · obtain ⟨b, stamped, inside⟩ := built.spent stored nullified
        exact ⟨b, stamped, List.mem_append_left _ inside⟩
      · rw [withScope_nullified] at nullified
        rw [withScope_nullificationBlockNumber]
        obtain ⟨b, stamped, inside⟩ := built.spent stored nullified
        exact ⟨b, stamped, List.mem_append_left _ inside⟩
    · rw [withScope_nullified, active] at nullified
      cases nullified
  case unspent =>
    intro n found held standing
    rcases addOne_cases held with ⟨old, stored, kept⟩ | ⟨-, -, rfl⟩
    · rcases kept with rfl | rfl
      · exact built.unspent stored standing
      · rw [withScope_nullified] at standing
        rw [withScope_nullificationBlockNumber]
        exact built.unspent stored standing
    · rw [withScope_nullificationBlockNumber]
      exact unstamped

private theorem built_nullified {events : List NoteEvent} {store : NoteStore} {n : Fr} {b : Nat}
    (built : Built events store) :
    Built (events ++ [.nullified n b]) (store.nullifyOne n b) := by
  constructor
  case coherent => exact coherent_nullifyOne built.coherent n b
  case byNullification =>
    intro b' m
    rw [nullificationBlockIndex_nullifyOne, notes_nullifyOne]
    by_cases same : m = n
    · subst m
      cases existing : store.notes[n]? with
      | none => simp [built.byNullification, existing]
      | some old =>
        cases nullified : old.nullified with
        | true => simp [built.byNullification, existing, nullified]
        | false =>
          have unlisted : n ∉ listed store.nullificationBlockIndex b' := by
            simp [built.byNullification, existing, nullified]
          simp [nullified, mem_listed_add, unlisted, StoredNote.spentAt]
    · rw [if_neg same]
      split
      · simp [mem_listed_add, same, built.byNullification]
      · exact built.byNullification
  case origin =>
    intro m found held
    obtain ⟨old, stored, kept⟩ := nullifyOne_cases held
    have height : old.blockNumber = found.blockNumber := by
      rcases kept with rfl | ⟨-, -, rfl⟩
      · rfl
      · rfl
    obtain ⟨first, scope, inside, keyed, created⟩ := built.origin stored
    exact ⟨first, scope, List.mem_append_left _ inside, keyed, created.trans height⟩
  case spent =>
    intro m found held nullified
    obtain ⟨old, stored, rfl | ⟨rfl, -, rfl⟩⟩ := nullifyOne_cases held
    · obtain ⟨b', stamped, inside⟩ := built.spent stored nullified
      exact ⟨b', stamped, List.mem_append_left _ inside⟩
    · exact ⟨b, rfl, by simp⟩
  case unspent =>
    intro m found held standing
    obtain ⟨old, stored, rfl | ⟨rfl, -, rfl⟩⟩ := nullifyOne_cases held
    · exact built.unspent stored standing
    · cases standing

/-- Admissible events build a store whose records and indexes they explain. -/
theorem built_replay (events : List NoteEvent) (admissible : Admissible events)
    (unstamped : Unstamped events) : Built events (replay events) := by
  induction events using List.reverseRecOn with
  | nil => exact built_empty
  | append_singleton events event ih =>
    have before := ih (admissible_sublist admissible (by simp))
      (fun inside => unstamped (List.mem_append_left _ inside))
    unfold replay at before ⊢
    rw [UndoLog.replay_snoc]
    cases event with
    | created note scope =>
      have inside : .created note scope ∈ events ++ [.created note scope] := by simp
      exact built_created before (admissible.active inside).1 (unstamped inside)
    | nullified n b => exact built_nullified before

/-! ## Rollback, record by record -/

/-- What a rollback makes of one record. -/
def cutNote (blockNumber : Nat) (note : StoredNote) : Option StoredNote :=
  if blockNumber < note.blockNumber.getD 0 then none
  else if note.nullified = true ∧ blockNumber < note.nullificationBlockNumber.getD 0 then
    some note.revived
  else some note

/-- A record created above the block is gone. -/
theorem cutNote_gone {blockNumber : Nat} {note : StoredNote}
    (above : blockNumber < note.blockNumber.getD 0) : cutNote blockNumber note = none := by
  unfold cutNote
  rw [if_pos above]

/-- A record created at or below the block and spent above it is active again. -/
theorem cutNote_revived {blockNumber : Nat} {note : StoredNote}
    (created : note.blockNumber.getD 0 ≤ blockNumber) (nullified : note.nullified = true)
    (above : blockNumber < note.nullificationBlockNumber.getD 0) :
    cutNote blockNumber note = some note.revived := by
  unfold cutNote
  rw [if_neg (Nat.not_lt.mpr created), if_pos ⟨nullified, above⟩]

/-- A record created at or below the block and not spent above it is kept. -/
theorem cutNote_kept {blockNumber : Nat} {note : StoredNote}
    (created : note.blockNumber.getD 0 ≤ blockNumber)
    (unspent : note.nullified = true → note.nullificationBlockNumber.getD 0 ≤ blockNumber) :
    cutNote blockNumber note = some note := by
  unfold cutNote
  rw [if_neg (Nat.not_lt.mpr created), if_neg]
  rintro ⟨nullified, above⟩
  have low := unspent nullified
  omega

section Cut
variable {events : List NoteEvent} {store : NoteStore}

private theorem mem_selected_nullifications (built : Built events store) (blockNumber : Nat)
    {n : Fr} {note : StoredNote} (held : store.notes[n]? = some note) :
    n ∈ selected store.nullificationBlockIndex (fun bn => decide (blockNumber < bn)) ↔
      note.nullified = true ∧ blockNumber < note.nullificationBlockNumber.getD 0 := by
  rw [mem_selected]
  constructor
  · rintro ⟨b, above, inside⟩
    obtain ⟨found, stored, nullified, stamped⟩ := built.byNullification.mp inside
    rw [held, Option.some.injEq] at stored
    subst found
    exact ⟨nullified, by simpa [stamped] using above⟩
  · rintro ⟨nullified, above⟩
    obtain ⟨b, stamped, -⟩ := built.spent held nullified
    refine ⟨b, by simpa [stamped] using above, built.byNullification.mpr ⟨note, held, nullified, stamped⟩⟩

private theorem mem_selected_creations (coherent : Coherent store) (blockNumber : Nat)
    {n : Fr} {note : StoredNote} (held : store.notes[n]? = some note) :
    n ∈ selected store.blockIndex (fun bn => decide (blockNumber < bn)) ↔
      blockNumber < note.blockNumber.getD 0 := by
  rw [mem_selected_iff coherent.byBlock held]
  cases height : note.blockNumber with
  | none => simp
  | some b => simp

/-- Rollback keeps, revives or erases each record by its own two blocks. -/
theorem notes_rollback (built : Built events store) (blockNumber synced : Nat) (n : Fr) :
    (store.rollback blockNumber synced).notes[n]? = store.notes[n]?.bind (cutNote blockNumber) := by
  unfold rollback
  have middle := coherent_rollbackNullifications built.coherent blockNumber
  rw [rollback_creations_eq]
  dsimp only
  rw [getElem?_eraseAll]
  have phaseOne : (store.rollbackNullifications blockNumber).notes[n]? =
      store.notes[n]?.map (fun note =>
        if note.nullified = true ∧ blockNumber < note.nullificationBlockNumber.getD 0 then
          note.revived else note) := by
    rw [rollback_nullifications_eq]
    dsimp only
    rw [getElem?_reviveAll]
    cases held : store.notes[n]? with
    | none => simp
    | some note =>
      simp only [mem_selected_nullifications built blockNumber held, Option.map_some]
      split <;> rfl
  cases held : store.notes[n]? with
  | none =>
    rw [phaseOne, held]
    simp
  | some note =>
    rw [held, Option.map_some] at phaseOne
    rw [if_congr (mem_selected_creations middle blockNumber phaseOne) rfl phaseOne]
    simp only [Option.bind_some, cutNote]
    have height : (if note.nullified = true ∧ blockNumber < note.nullificationBlockNumber.getD 0 then
        note.revived else note).blockNumber = note.blockNumber := by
      split <;> rfl
    rw [height]
    split
    · rfl
    · split <;> rfl

theorem contractIndex_rollback (built : Built events store) (blockNumber synced : Nat)
    (contract : AztecAddress) :
    listed (store.rollback blockNumber synced).contractIndex contract =
      (listed store.contractIndex contract).filter
        (fun n => (store.notes[n]?.bind (cutNote blockNumber)).isSome) := by
  have coherent := coherent_rollback built.coherent blockNumber synced
  have unlisted : ∃ p : Fr → Bool, listed (store.rollback blockNumber synced).contractIndex contract =
      (listed store.contractIndex contract).filter p := by
    unfold rollback
    rw [rollback_creations_eq]
    dsimp only
    rw [listed_unlistAll, rollback_nullifications_eq]
    exact ⟨_, rfl⟩
  obtain ⟨p, filtered⟩ := unlisted
  rw [filtered]
  apply List.filter_congr
  intro n inside
  obtain ⟨note, held, owned⟩ := built.coherent.byContract.mem_iff.mp inside
  apply Bool.eq_iff_iff.mpr
  have member : p n = true ↔ n ∈ listed (store.rollback blockNumber synced).contractIndex contract := by
    rw [filtered, List.mem_filter]
    exact ⟨fun kept => ⟨inside, kept⟩, fun both => both.2⟩
  rw [member, coherent.byContract.mem_iff, notes_rollback built, held, Option.bind_some, Option.isSome_iff_exists]
  constructor
  · rintro ⟨found, stored, -⟩
    exact ⟨found, stored⟩
  · rintro ⟨found, stored⟩
    refine ⟨found, stored, ?_⟩
    unfold cutNote at stored
    split at stored
    · cases stored
    · split at stored <;> (cases stored; exact owned)

theorem blockIndex_rollback (store : NoteStore) (blockNumber synced : Nat) :
    (store.rollback blockNumber synced).blockIndex =
      cut store.blockIndex (fun bn => decide (blockNumber < bn)) := by
  unfold rollback
  rw [rollback_creations_eq, rollback_nullifications_eq]

theorem nullificationBlockIndex_rollback (store : NoteStore) (blockNumber synced : Nat) :
    (store.rollback blockNumber synced).nullificationBlockIndex =
      cut store.nullificationBlockIndex (fun bn => decide (blockNumber < bn)) := by
  unfold rollback
  rw [rollback_creations_eq, rollback_nullifications_eq]

end Cut

/-! ## One event and a rollback -/

private theorem store_ext {first second : NoteStore} (coherentFirst : Coherent first)
    (coherentSecond : Coherent second)
    (notes : ∀ n : Fr, first.notes[n]? = second.notes[n]?)
    (contracts : ∀ c, listed first.contractIndex c = listed second.contractIndex c)
    (blocks : ∀ b, listed first.blockIndex b = listed second.blockIndex b)
    (nullifications : ∀ b, listed first.nullificationBlockIndex b =
      listed second.nullificationBlockIndex b) : first = second :=
  NoteStore.ext (Std.ExtTreeMap.ext_getElem? notes)
    (ext_listed coherentFirst.contractCompact coherentSecond.contractCompact contracts)
    (ext_listed coherentFirst.blockCompact coherentSecond.blockCompact blocks)
    (ext_listed coherentFirst.nullificationCompact coherentSecond.nullificationCompact
      nullifications)

theorem cutNote_withScope (blockNumber : Nat) (note : StoredNote) (scope : AztecAddress) :
    cutNote blockNumber (note.withScope scope) =
      (cutNote blockNumber note).map (fun note => note.withScope scope) := by
  unfold cutNote
  simp only [withScope_blockNumber, withScope_nullified, withScope_nullificationBlockNumber]
  split
  · rfl
  · split
    · by_cases known : scope ∈ note.scopes
      · simp [StoredNote.withScope, StoredNote.revived, known]
      · simp [StoredNote.withScope, StoredNote.revived, known]
    · rfl

private theorem cutNote_isSome (blockNumber : Nat) (note : StoredNote) :
    (cutNote blockNumber note).isSome = decide (note.blockNumber.getD 0 ≤ blockNumber) := by
  unfold cutNote
  by_cases above : blockNumber < note.blockNumber.getD 0
  · simp [above]
  · have below : note.blockNumber.getD 0 ≤ blockNumber := by omega
    rw [if_neg above]
    split <;> simp [below]

section Created
variable {events : List NoteEvent} {store : NoteStore} {note : StoredNote} {scope : AztecAddress}

/-- The key of the new note holds nothing, or an earlier record of its block. -/
private theorem height_of_existing (built : Built events store)
    (admissible : Admissible (events ++ [.created note scope])) {old : StoredNote}
    (existing : store.notes[note.siloedNullifier]? = some old) :
    old.blockNumber = note.blockNumber := by
  obtain ⟨first, scope', inside, keyed, height⟩ := built.origin existing
  rw [← height]
  exact admissible.oneCreation (List.mem_append_left _ inside)
    (List.mem_append_right _ (List.mem_singleton.mpr rfl)) keyed

/-- Away from the new note, what a rollback keeps is what it kept before. -/
private theorem survives_addOne {n : Fr} (elsewhere : n ≠ note.siloedNullifier)
    (blockNumber : Nat) :
    (((store.addOne note scope).notes[n]?).bind (cutNote blockNumber)).isSome =
      (store.notes[n]?.bind (cutNote blockNumber)).isSome := by
  rw [notes_addOne, if_neg elsewhere]

/-- Of records that do not have the new note among them, or only if it is lost, a rollback keeps
those it kept before. -/
private theorem filter_survives_addOne {blockNumber : Nat} {ns : List Fr}
    (lost : note.siloedNullifier ∈ ns →
      (((store.addOne note scope).notes[note.siloedNullifier]?).bind (cutNote blockNumber)).isSome =
        (store.notes[note.siloedNullifier]?.bind (cutNote blockNumber)).isSome) :
    ns.filter (fun n => (((store.addOne note scope).notes[n]?).bind (cutNote blockNumber)).isSome) =
      ns.filter (fun n => (store.notes[n]?.bind (cutNote blockNumber)).isSome) := by
  apply List.filter_congr
  intro n inside
  by_cases here : n = note.siloedNullifier
  · subst n
    exact lost inside
  · exact survives_addOne here blockNumber

/-- An earlier record under the new note's key survives where the note does. -/
private theorem cut_existing (built : Built events store)
    (admissible : Admissible (events ++ [.created note scope])) {blockNumber : Nat}
    (below : note.blockNumber.getD 0 ≤ blockNumber) {old : StoredNote}
    (existing : store.notes[note.siloedNullifier]? = some old) :
    ∃ found, cutNote blockNumber old = some found := by
  have kept := cutNote_isSome blockNumber old
  rw [height_of_existing built admissible existing, decide_eq_true below] at kept
  exact Option.isSome_iff_exists.mp kept

/-- A rollback above the note's block keeps or misses its key as the store does. -/
private theorem missing_rollback_iff (built : Built events store)
    (admissible : Admissible (events ++ [.created note scope])) {blockNumber : Nat}
    (below : note.blockNumber.getD 0 ≤ blockNumber) :
    (store.rollback blockNumber 0).notes[note.siloedNullifier]? = none ↔
      store.notes[note.siloedNullifier]? = none := by
  rw [notes_rollback built]
  cases existing : store.notes[note.siloedNullifier]? with
  | none => simp
  | some old =>
    obtain ⟨found, cut⟩ := cut_existing built admissible below existing
    simp [cut]

private theorem notes_keeps_created (built : Built events store)
    (admissible : Admissible (events ++ [.created note scope]))
    (after : Built (events ++ [.created note scope]) (store.addOne note scope))
    (active : note.nullified = false) {blockNumber : Nat}
    (below : note.blockNumber.getD 0 ≤ blockNumber) (n : Fr) :
    ((store.addOne note scope).rollback blockNumber 0).notes[n]? =
      ((store.rollback blockNumber 0).addOne note scope).notes[n]? := by
  rw [notes_rollback after, notes_addOne, notes_addOne, notes_rollback built]
  by_cases here : n = note.siloedNullifier
  · subst n
    rw [if_pos rfl, if_pos rfl, Option.bind_some, cutNote_withScope]
    cases existing : store.notes[note.siloedNullifier]? with
    | none =>
      have fresh : cutNote blockNumber note = some note := by
        apply cutNote_kept below
        intro nullified
        rw [active] at nullified
        cases nullified
      simp [fresh]
    | some old =>
      obtain ⟨found, cut⟩ := cut_existing built admissible below existing
      simp [cut]
  · rw [if_neg here, if_neg here]

private theorem contractIndex_keeps_created (built : Built events store)
    (admissible : Admissible (events ++ [.created note scope]))
    (after : Built (events ++ [.created note scope]) (store.addOne note scope))
    {blockNumber : Nat} (below : note.blockNumber.getD 0 ≤ blockNumber) (c : AztecAddress) :
    listed ((store.addOne note scope).rollback blockNumber 0).contractIndex c =
      listed ((store.rollback blockNumber 0).addOne note scope).contractIndex c := by
  have same := missing_rollback_iff built admissible below
  rw [contractIndex_rollback after, contractIndex_addOne, contractIndex_addOne, if_congr same rfl rfl]
  cases existing : store.notes[note.siloedNullifier]? with
  | some old =>
    simp only [reduceCtorEq, ↓reduceIte]
    rw [contractIndex_rollback built]
    apply filter_survives_addOne
    intro _
    rw [notes_addOne, if_pos rfl, existing]
    simp [cutNote_withScope]
  | none =>
    have unlisted : ∀ c, note.siloedNullifier ∉ listed store.contractIndex c := by
      intro c
      simp [built.coherent.byContract.mem_iff, existing]
    simp only [↓reduceIte, listed_add, unlisted, not_false_eq_true, and_true,
      contractIndex_rollback built]
    have absent : note.siloedNullifier ∈ listed store.contractIndex c →
        (((store.addOne note scope).notes[note.siloedNullifier]?).bind
          (cutNote blockNumber)).isSome =
        (store.notes[note.siloedNullifier]?.bind (cutNote blockNumber)).isSome :=
      fun inside => absurd inside (unlisted c)
    have old := filter_survives_addOne absent
    have new : (((store.addOne note scope).notes[note.siloedNullifier]?).bind
        (cutNote blockNumber)).isSome = true := by
      rw [notes_addOne, if_pos rfl, existing]
      simp [cutNote_withScope, cutNote_isSome, below]
    have untouched : note.siloedNullifier ∉ (listed store.contractIndex note.contractAddress).filter
        (fun n => (store.notes[n]?.bind (cutNote blockNumber)).isSome) :=
      fun inside => unlisted _ (List.mem_of_mem_filter inside)
    by_cases owned : note.contractAddress = c
    · rw [if_pos owned, if_pos ⟨owned, untouched⟩, List.filter_append, old]
      simp [new]
    · rw [if_neg owned, if_neg (fun both => owned both.1), old]

private theorem blockIndex_keeps_created (built : Built events store)
    (admissible : Admissible (events ++ [.created note scope])) {b blockNumber : Nat}
    (height : note.blockNumber = some b) (below : note.blockNumber.getD 0 ≤ blockNumber)
    (b' : Nat) :
    listed ((store.addOne note scope).rollback blockNumber 0).blockIndex b' =
      listed ((store.rollback blockNumber 0).addOne note scope).blockIndex b' := by
  have same := missing_rollback_iff built admissible below
  rw [blockIndex_rollback, listed_cut, blockIndex_addOne, blockIndex_addOne, height]
  rw [height, Option.getD_some] at below
  cases existing : store.notes[note.siloedNullifier]? with
  | some old =>
    have present : (store.rollback blockNumber 0).notes[note.siloedNullifier]? ≠ none :=
      fun gone => by simp [same.mp gone] at existing
    obtain ⟨found, held⟩ := Option.ne_none_iff_exists'.mp present
    simp [held, blockIndex_rollback, listed_cut]
  | none =>
    simp only [same.mpr existing, listed_add, blockIndex_rollback, listed_cut]
    by_cases here : b = b'
    · subst b'
      simp [Nat.not_lt.mpr below]
    · simp [here]

private theorem keeps_created (built : Built events store)
    (admissible : Admissible (events ++ [.created note scope]))
    (unstamped : note.nullificationBlockNumber = none) {blockNumber : Nat}
    (below : note.blockNumber.getD 0 ≤ blockNumber) :
    (store.addOne note scope).rollback blockNumber 0 =
      (store.rollback blockNumber 0).addOne note scope := by
  obtain ⟨active, b, height⟩ := admissible.active
    (List.mem_append_right events (List.mem_singleton.mpr rfl))
  have after : Built (events ++ [.created note scope]) (store.addOne note scope) :=
    built_created built active unstamped
  apply store_ext (coherent_rollback after.coherent _ _)
    (coherent_addOne (coherent_rollback built.coherent _ _) _ _)
  · exact notes_keeps_created built admissible after active below
  · exact contractIndex_keeps_created built admissible after below
  · exact blockIndex_keeps_created built admissible height below
  · intro b'
    simp [nullificationBlockIndex_rollback]

/-- Nothing under the note's key survives a rollback below its block, whether
the note was added or not. -/
private theorem gone_created (built : Built events store)
    (admissible : Admissible (events ++ [.created note scope])) {blockNumber : Nat}
    (above : blockNumber < note.blockNumber.getD 0) :
    ((store.addOne note scope).notes[note.siloedNullifier]?).bind (cutNote blockNumber) = none ∧
      store.notes[note.siloedNullifier]?.bind (cutNote blockNumber) = none := by
  have erased : ∀ old : StoredNote, old.blockNumber = note.blockNumber →
      cutNote blockNumber old = none := by
    intro old sameHeight
    rw [← sameHeight] at above
    exact cutNote_gone above
  rw [notes_addOne, if_pos rfl]
  cases existing : store.notes[note.siloedNullifier]? with
  | none =>
    have withNew := erased (note.withScope scope) (withScope_blockNumber note scope)
    exact ⟨withNew, rfl⟩
  | some old =>
    have sameHeight := height_of_existing built admissible existing
    have withNew := erased (old.withScope scope)
      ((withScope_blockNumber old scope).trans sameHeight)
    exact ⟨withNew, erased old sameHeight⟩

private theorem contractIndex_drops_created (built : Built events store)
    (admissible : Admissible (events ++ [.created note scope]))
    (after : Built (events ++ [.created note scope]) (store.addOne note scope))
    {blockNumber : Nat} (above : blockNumber < note.blockNumber.getD 0) (c : AztecAddress) :
    listed ((store.addOne note scope).rollback blockNumber 0).contractIndex c =
      listed (store.rollback blockNumber 0).contractIndex c := by
  obtain ⟨goneAfter, goneBefore⟩ := gone_created built admissible above
  rw [contractIndex_rollback after, contractIndex_rollback built]
  have lost : (((store.addOne note scope).notes[note.siloedNullifier]?).bind
      (cutNote blockNumber)).isSome =
        (store.notes[note.siloedNullifier]?.bind (cutNote blockNumber)).isSome := by
    rw [goneAfter, goneBefore]
  have old : (listed store.contractIndex c).filter _ = _ := filter_survives_addOne fun _ => lost
  rw [contractIndex_addOne]
  split
  · rw [listed_add]
    split
    · rw [List.filter_append, old]
      simp [goneAfter]
    · exact old
  · exact old

private theorem drops_created (built : Built events store)
    (admissible : Admissible (events ++ [.created note scope]))
    (unstamped : note.nullificationBlockNumber = none) {blockNumber : Nat}
    (above : blockNumber < note.blockNumber.getD 0) :
    (store.addOne note scope).rollback blockNumber 0 = store.rollback blockNumber 0 := by
  obtain ⟨active, b, height⟩ := admissible.active
    (List.mem_append_right events (List.mem_singleton.mpr rfl))
  have after : Built (events ++ [.created note scope]) (store.addOne note scope) :=
    built_created built active unstamped
  apply store_ext (coherent_rollback after.coherent _ _) (coherent_rollback built.coherent _ _)
  · intro n
    rw [notes_rollback after, notes_rollback built]
    by_cases here : n = note.siloedNullifier
    · subst n
      obtain ⟨goneAfter, goneBefore⟩ := gone_created built admissible above
      rw [goneAfter, goneBefore]
    · rw [notes_addOne, if_neg here]
  · exact contractIndex_drops_created built admissible after above
  · intro b'
    rw [blockIndex_rollback, blockIndex_rollback, listed_cut, listed_cut, blockIndex_addOne, height]
    rw [height, Option.getD_some] at above
    cases store.notes[note.siloedNullifier]? with
    | some old => rfl
    | none =>
      simp only [listed_add]
      by_cases here : b = b'
      · subst b'
        simp [above]
      · simp [here]
  · intro b'
    simp [nullificationBlockIndex_rollback]

end Created

section Nullified
variable {events : List NoteEvent} {store : NoteStore} {n : Fr} {b : Nat}

/-- A nullification leaves the contract index of a rollback as it is: presence
is decided by creation blocks alone. -/
private theorem contractIndex_rollback_nullifyOne (built : Built events store) (blockNumber : Nat)
    (c : AztecAddress) :
    listed ((store.nullifyOne n b).rollback blockNumber 0).contractIndex c =
      listed (store.rollback blockNumber 0).contractIndex c := by
  rw [contractIndex_rollback (built_nullified built), contractIndex_rollback built,
    contractIndex_nullifyOne]
  apply List.filter_congr
  intro m _
  rw [notes_nullifyOne]
  by_cases here : m = n
  · subst m
    cases store.notes[n]? with
    | none => simp
    | some old =>
      have height : (if old.nullified = true then old else old.spentAt b).blockNumber =
          old.blockNumber := by
        split <;> rfl
      simp [cutNote_isSome, height]
  · rw [if_neg here]

private theorem keeps_nullified (built : Built events store)
    (admissible : Admissible (events ++ [.nullified n b])) {blockNumber : Nat}
    (below : b ≤ blockNumber) :
    (store.nullifyOne n b).rollback blockNumber 0 =
      (store.rollback blockNumber 0).nullifyOne n b := by
  have after : Built _ (store.nullifyOne n b) := built_nullified built
  have here : .nullified n b ∈ events ++ [.nullified n b] := by simp
  -- The record is created and, if at all, nullified at or below the block.
  have untouched : ∀ {old : StoredNote}, store.notes[n]? = some old →
      cutNote blockNumber old = some old ∧
        cutNote blockNumber (old.spentAt b) = some (old.spentAt b) := by
    intro old held
    obtain ⟨first, scope, inside, rfl, height⟩ := built.origin held
    have created : old.blockNumber.getD 0 ≤ b := by
      rw [← height]
      exact admissible.ordered (List.mem_append_left _ inside) here
    have low : old.blockNumber.getD 0 ≤ blockNumber := Nat.le_trans created below
    constructor
    · apply cutNote_kept low
      intro nullified
      obtain ⟨b', stamped, recorded⟩ := built.spent held nullified
      have same := admissible.oneNullification (List.mem_append_left _ recorded) here
      rw [stamped, Option.getD_some]
      omega
    · exact cutNote_kept low (fun _ => below)
  have same : (store.rollback blockNumber 0).notes[n]? = store.notes[n]? := by
    rw [notes_rollback built]
    cases held : store.notes[n]? with
    | none => rfl
    | some old => exact (untouched held).1
  apply store_ext (coherent_rollback after.coherent _ _)
    (coherent_nullifyOne (coherent_rollback built.coherent _ _) _ _)
  · intro m
    rw [notes_rollback after, notes_nullifyOne, notes_nullifyOne]
    by_cases target : m = n
    · subst m
      rw [if_pos rfl, if_pos rfl, same]
      cases held : store.notes[n]? with
      | none => rfl
      | some old =>
        obtain ⟨kept, keptSpent⟩ := untouched held
        rw [Option.map_some, Option.bind_some]
        split
        · exact kept
        · exact keptSpent
    · rw [if_neg target, if_neg target, notes_rollback built]
  · intro c
    rw [contractIndex_rollback_nullifyOne built, contractIndex_nullifyOne]
  · intro b'
    rw [blockIndex_rollback, blockIndex_nullifyOne, blockIndex_nullifyOne, blockIndex_rollback]
  · intro b'
    rw [nullificationBlockIndex_rollback, nullificationBlockIndex_nullifyOne,
      nullificationBlockIndex_nullifyOne, same, nullificationBlockIndex_rollback]
    split
    · rw [listed_cut, listed_add, listed_add, listed_cut, listed_cut]
      by_cases target : b = b'
      · subst b'
        simp [Nat.not_lt.mpr below]
      · simp [target]
    · rfl

private theorem drops_nullified (built : Built events store) {blockNumber : Nat}
    (above : blockNumber < b) :
    (store.nullifyOne n b).rollback blockNumber 0 = store.rollback blockNumber 0 := by
  have after : Built _ (store.nullifyOne n b) := built_nullified built
  apply store_ext (coherent_rollback after.coherent _ _) (coherent_rollback built.coherent _ _)
  · intro m
    rw [notes_rollback after, notes_rollback built, notes_nullifyOne]
    by_cases target : m = n
    · subst m
      rw [if_pos rfl]
      cases held : store.notes[n]? with
      | none => rfl
      | some old =>
        rw [Option.map_some, Option.bind_some, Option.bind_some]
        cases already : old.nullified with
        | true => rfl
        | false =>
          -- An active record carries no stamp, so reviving it is restoring it.
          have restored : (old.spentAt b).revived = old := by
            have unspent := built.unspent held already
            cases old
            simp_all [StoredNote.spentAt, StoredNote.revived]
          rw [if_neg Bool.false_ne_true]
          by_cases created : old.blockNumber.getD 0 ≤ blockNumber
          · have kept : cutNote blockNumber old = some old :=
              cutNote_kept created (fun nullified => absurd nullified (by simp [already]))
            have revived : cutNote blockNumber (old.spentAt b) = some (old.spentAt b).revived :=
              cutNote_revived created rfl above
            rw [kept, revived, restored]
          · have later : blockNumber < old.blockNumber.getD 0 := by omega
            have spentLater : blockNumber < (old.spentAt b).blockNumber.getD 0 := later
            rw [cutNote_gone later, cutNote_gone spentLater]
    · rw [if_neg target]
  · exact contractIndex_rollback_nullifyOne built blockNumber
  · intro b'
    rw [blockIndex_rollback, blockIndex_rollback, blockIndex_nullifyOne]
  · intro b'
    rw [nullificationBlockIndex_rollback, nullificationBlockIndex_rollback,
      nullificationBlockIndex_nullifyOne, listed_cut, listed_cut]
    split
    · rfl
    · split
      · rw [listed_add, if_neg (by rintro ⟨rfl, -⟩; simp_all)]
      · rfl

end Nullified

private theorem unstampedLast {events : List NoteEvent} {note : StoredNote} {scope : AztecAddress}
    (unstamped : Unstamped (events ++ [.created note scope])) :
    note.nullificationBlockNumber = none :=
  unstamped (List.mem_append_right events (List.mem_singleton.mpr rfl))

/-- Rollback undoes one event at a time. -/
theorem undoes : UndoLog.Undoes machine (fun events => Admissible events ∧ Unstamped events) where
  initial _ := rfl
  front admitted := ⟨admissible_sublist admitted.1 (by simp),
    fun inside => admitted.2 (List.mem_append_left _ inside)⟩
  keeps := by
    intro events event height admitted below
    have built := built_replay events (admissible_sublist admitted.1 (by simp))
      (fun inside => admitted.2 (List.mem_append_left _ inside))
    cases event with
    | created note scope => exact keeps_created built admitted.1 (unstampedLast admitted.2) below
    | nullified n b => exact keeps_nullified built admitted.1 below
  drops := by
    intro events event height admitted above
    have built := built_replay events (admissible_sublist admitted.1 (by simp))
      (fun inside => admitted.2 (List.mem_append_left _ inside))
    cases event with
    | created note scope => exact drops_created built admitted.1 (unstampedLast admitted.2) above
    | nullified n b => exact drops_nullified built above

/-! ## Whole histories -/

private theorem call_eq_step (store : NoteStore) (c : NoteCall) :
    call store c = UndoLog.step machine store c.op := by
  cases c with
  | addNotes notes scope =>
    simp only [call, addNotes, NoteCall.op, UndoLog.step, List.foldl_map]
    rfl
  | applyNullifiers nullifiers =>
    simp only [call, applyNullifiers, NoteCall.op, UndoLog.step, List.foldl_map]
    rfl
  | rollback blockNumber synced => rfl

theorem history_eq_run (calls : List NoteCall) :
    history calls = UndoLog.run machine (calls.map NoteCall.op) := by
  unfold history UndoLog.run
  rw [List.foldl_map]
  congr 1
  funext store c
  exact call_eq_step store c

/-- A history leaves the store its surviving events build. -/
theorem history_eq_replay (calls : List NoteCall)
    (admissible : ∀ k, Admissible (surviving (calls.take k)))
    (unstamped : ∀ k, Unstamped (surviving (calls.take k))) :
    history calls = replay (surviving calls) := by
  rw [history_eq_run]
  apply UndoLog.run_eq_replay undoes
  intro k
  rw [← List.map_take]
  exact ⟨admissible k, unstamped k⟩

/-- After any history, rolling the store back to a block is replaying, on an
empty store, the surviving events at or below it. A record created above the
block is gone from the table and the contract index, one nullified above it is
active, and one nullified at or below it stands as it was. -/
theorem rollback_is_replay (calls : List NoteCall)
    (admissible : ∀ k, Admissible (surviving (calls.take k)))
    (unstamped : ∀ k, Unstamped (surviving (calls.take k))) (blockNumber synced : Nat) :
    (history calls).rollback blockNumber synced = replay (upTo (surviving calls) blockNumber) ∧
    ∀ (n : Fr) (note : StoredNote), (history calls).notes[n]? = some note →
      (blockNumber < note.blockNumber.getD 0 →
        ((history calls).rollback blockNumber synced).notes[n]? = none ∧
        ∀ c, n ∉ listed ((history calls).rollback blockNumber synced).contractIndex c) ∧
      (∀ b, note.nullified = true → note.nullificationBlockNumber = some b →
        (note.blockNumber.getD 0 ≤ blockNumber → blockNumber < b →
          ((history calls).rollback blockNumber synced).notes[n]? = some note.revived) ∧
        (b ≤ blockNumber →
          ((history calls).rollback blockNumber synced).notes[n]? = some note)) := by
  have all : ∀ {P : List NoteEvent → Prop}, (∀ k, P (surviving (calls.take k))) →
      P (surviving calls) := by
    intro P each
    simpa using each calls.length
  have state := history_eq_replay calls admissible unstamped
  have built : Built (surviving calls) (history calls) := by
    rw [state]
    exact built_replay _ (all admissible) (all unstamped)
  refine ⟨?_, ?_⟩
  · rw [state]
    exact UndoLog.rollback_replay undoes _ ⟨all admissible, all unstamped⟩ blockNumber
  · intro n note held
    have after := notes_rollback built blockNumber synced n
    rw [held, Option.bind_some] at after
    refine ⟨?_, ?_⟩
    · intro above
      have gone : cutNote blockNumber note = none := cutNote_gone above
      refine ⟨after.trans gone, ?_⟩
      intro c inside
      obtain ⟨found, stored, -⟩ :=
        (coherent_rollback built.coherent blockNumber synced).byContract.mem_iff.mp inside
      rw [after, gone] at stored
      cases stored
    · intro b nullified stamped
      refine ⟨?_, ?_⟩
      · intro created above
        have stampedAbove : blockNumber < note.nullificationBlockNumber.getD 0 := by
          rw [stamped]
          exact above
        rw [after]
        exact cutNote_revived created nullified stampedAbove
      · intro below
        obtain ⟨first, scope, inside, rfl, height⟩ := built.origin held
        obtain ⟨b', stamped', recorded⟩ := built.spent held nullified
        have created := (all admissible).ordered inside recorded
        have same : b' = b := by
          rw [stamped, Option.some.injEq] at stamped'
          exact stamped'.symm
        rw [height] at created
        have low : note.blockNumber.getD 0 ≤ blockNumber := by omega
        have stampedBelow : note.nullificationBlockNumber.getD 0 ≤ blockNumber := by
          rw [stamped]
          exact below
        rw [after]
        exact cutNote_kept low (fun _ => stampedBelow)

/-- An active note of the zero contract, created in the given block. -/
def bareNote (nullifier : Fr) (blockNumber : Nat) : StoredNote where
  contractAddress := AztecAddress.zero
  owner := AztecAddress.zero
  storageSlot := 0
  randomness := 0
  noteNonce := 0
  noteHash := 0
  siloedNullifier := nullifier
  noteData := []
  nullified := false
  isPending := false
  nullificationBlockNumber := none
  leafIndex := none
  blockNumber := some blockNumber
  txIndexInBlock := none
  noteIndexInTx := none
  scopes := []

/-- A note is added in block 1 and spent in block 10. -/
def addThenSpend (note : StoredNote) : List NoteCall :=
  [.addNotes [note] AztecAddress.zero, .applyNullifiers [(note.siloedNullifier, 10)]]

private theorem surviving_addThenSpend (note : StoredNote) (k : Nat) :
    surviving ((addThenSpend note).take k) ⊆
      [.created note AztecAddress.zero, .nullified note.siloedNullifier 10] := by
  match k with
  | 0 => simp [addThenSpend, surviving, UndoLog.surviving]
  | 1 => simp [addThenSpend, surviving, UndoLog.surviving, UndoLog.survive, NoteCall.op]
  | k + 2 => simp [addThenSpend, surviving, UndoLog.surviving, UndoLog.survive, NoteCall.op]

private theorem admissible_addThenSpend {note : StoredNote} (active : note.nullified = false)
    (height : note.blockNumber = some 1) (k : Nat) :
    Admissible (surviving ((addThenSpend note).take k)) := by
  apply admissible_sublist _ (surviving_addThenSpend note k)
  constructor <;> simp_all

/-- The spend in block 10 is undone by a rollback to block 5. -/
theorem rollback_revives_bareNote :
    ((history (addThenSpend (bareNote 3 1))).rollback 5 0).notes[(3 : Fr)]? =
      some ((bareNote 3 1).withScope AztecAddress.zero) := by
  have unstamped : ∀ k, Unstamped (surviving ((addThenSpend (bareNote 3 1)).take k)) := by
    intro k note scope inside
    have member := surviving_addThenSpend _ k inside
    simp only [List.mem_cons, NoteEvent.created.injEq, reduceCtorEq, List.not_mem_nil, or_false]
      at member
    rw [member.1]
    rfl
  obtain ⟨replayed, -⟩ := rollback_is_replay (addThenSpend (bareNote 3 1))
    (admissible_addThenSpend rfl rfl) unstamped 5 0
  rw [replayed]
  decide

/-- Without the condition on incoming stamps a rollback is not a replay: a
stamp the note came with is lost when its later spend is undone. -/
theorem stamped_note_is_not_replayed :
    ¬ ∀ calls : List NoteCall, (∀ k, Admissible (surviving (calls.take k))) →
      ∀ (blockNumber synced : Nat) (n : Fr),
        ((history calls).rollback blockNumber synced).notes[n]? =
          (replay (upTo (surviving calls) blockNumber)).notes[n]? := by
  intro claim
  have same := claim (addThenSpend { bareNote 3 1 with nullificationBlockNumber := some 7 })
    (admissible_addThenSpend rfl rfl) 5 0 3
  revert same
  decide

end AztecPxe.NoteStoreReplay
