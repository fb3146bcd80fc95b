import AztecPxe.NoteIndex
import AztecPxe.PersistNotes

/-! One record for each pending note. `add_notes` finds a record by its siloed
nullifier, which a pending note does not have yet: every note that is not spent
in its own tree is stored under zero, and where a record is there already only
the scope is added to it. So one of these notes enters the store, and no more. -/
namespace AztecPxe.PersistedRecords
open AztecPxe EmbeddedPxe NoteStoreRollback IndexedTable

variable {store : NoteStore} {scopes : List AztecAddress} {result : PrivateExecutionResult}
variable {note : NoteAndSlot} {k : Fr}

/-- The notes announced anywhere in the tree. -/
def newNotes (result : PrivateExecutionResult) : List NoteAndSlot :=
  result.iterAllCalls.flatMap (·.newNotes)

/-- The note is paired with a nullifier that its tree holds. -/
def Nullified (result : PrivateExecutionResult) (note : NoteAndSlot) : Prop :=
  ∃ counter, result.allNoteHashNullifierCounterMaps[note.counter]? = some counter ∧
    ∃ entry ∈ result.allNullifiers, entry.nullifier.counter = counter

/-- A new note that lives on after its tree. -/
def Lives (result : PrivateExecutionResult) (note : NoteAndSlot) : Prop :=
  note ∈ newNotes result ∧ ¬ Nullified result note

/-- The record has everything the note says. -/
def Carries (record : StoredNote) (note : NoteAndSlot) : Prop :=
  record.contractAddress = note.contractAddress ∧ record.owner = note.owner ∧
    record.storageSlot = note.storageSlot ∧ record.randomness = note.randomness ∧
    record.noteHash = note.noteHash ∧ record.noteData = note.noteItems

/-- The record under a key is returned as active for the note's contract, slot and
owner, with everything the note says. -/
def Returned (store : NoteStore) (note : NoteAndSlot) (key : Fr) : Prop :=
  ∃ record ∈ store.getNotes { contractAddress := some note.contractAddress,
                              storageSlot := some note.storageSlot, owner := some note.owner },
    record.siloedNullifier = key ∧ Carries record note

/-- Each of the notes has an active record of its own, and whatever active record
says what a nullified note of the tree says is one of these. -/
def OneRecordEach (store : NoteStore) (result : PrivateExecutionResult)
    (among : NoteAndSlot → Prop) : Prop :=
  ∃ key : NoteAndSlot → Fr,
    (∀ note, among note → Returned store note (key note)) ∧
    (∀ note other, among note → among other → key note = key other → note = other) ∧
    ∀ note ∈ newNotes result, Nullified result note → ∀ k, Returned store note k →
      ∃ other, among other ∧ key other = k

/-- Every record is there afterwards, whatever its scopes. -/
def Unchanged (before after : NoteStore) : Prop :=
  ∀ (k : Fr) (record : StoredNote), before.notes[k]? = some record →
    ∃ kept, after.notes[k]? = some kept ∧ kept.unscoped = record.unscoped

/-- The first note to be written under zero, if nothing is there and it lives. -/
def entering (store : NoteStore) (result : PrivateExecutionResult) : Option NoteAndSlot :=
  if (store.notes[(0 : Fr)]?).isSome then none
  else ((newNotes result).find? (fun note => (pendingNullifier result note).1 = 0)).filter
    (fun note => !(pendingNullifier result note).2)

/-! ## The records afterwards -/

/-- A nullifier is found by its counter where the tree holds one with it. -/
private theorem mem_nullifiersByCounter {counter : Nat} :
    counter ∈ nullifiersByCounter result ↔
      ∃ entry ∈ result.allNullifiers, entry.nullifier.counter = counter := by
  have folded : ∀ (items : List ScopedNullifier) (values : Std.ExtTreeMap Nat Fr),
      counter ∈ items.foldl (fun values entry =>
          values.insert entry.nullifier.counter entry.nullifier.value) values ↔
        counter ∈ values ∨ ∃ entry ∈ items, entry.nullifier.counter = counter := by
    intro items
    induction items with
    | nil => simp
    | cons item rest ih =>
      intro values
      rw [List.foldl_cons, ih, Std.ExtTreeMap.mem_insert, compare_eq_iff_eq]
      simp only [List.mem_cons, exists_eq_or_imp]
      tauto
  rw [nullifiersByCounter, folded]
  simp

theorem pendingNullifier_snd : (pendingNullifier result note).2 = true ↔ Nullified result note := by
  unfold pendingNullifier Nullified
  simp only [← mem_nullifiersByCounter]
  cases paired : result.allNoteHashNullifierCounterMaps[note.counter]? with
  | none => simp
  | some counter =>
    have known := Std.ExtTreeMap.mem_iff_isSome_getElem? (t := nullifiersByCounter result)
      (a := counter)
    cases found : (nullifiersByCounter result)[counter]? with
    | none =>
      rw [found] at known
      simp [known]
    | some nullifier =>
      rw [found] at known
      simp [known]

/-- Only a nullified note is stored under anything but zero. -/
theorem pendingNullifier_fst (lives : ¬ Nullified result note) :
    (pendingNullifier result note).1 = 0 := by
  rw [← pendingNullifier_snd] at lives
  unfold pendingNullifier at lives ⊢
  cases paired : result.allNoteHashNullifierCounterMaps[note.counter]? with
  | none => rfl
  | some counter =>
    cases found : (nullifiersByCounter result)[counter]? with
    | none => simp [found]
    | some nullifier => simp [paired, found] at lives

/-- A record found keeps all but its scopes, and one not found is written. -/
theorem unscoped_addOne (store : NoteStore) (stored : StoredNote) (scope : AztecAddress) (k : Fr) :
    ((store.addOne stored scope).notes[k]?).map StoredNote.unscoped =
      ((store.notes[k]?).map StoredNote.unscoped).or
        (if stored.siloedNullifier = k then some stored.unscoped else none) := by
  rw [notes_addOne]
  simp only [eq_comm (a := k)]
  split
  · cases held : store.notes[k]? with
    | none => simp [unscoped_withScope]
    | some record => simp [unscoped_withScope]
  · simp

/-- Once for each scope is as once. -/
theorem unscoped_foldl_addNotes (stored : StoredNote) (first : AztecAddress)
    (rest : List AztecAddress) (k : Fr) : ∀ store : NoteStore,
    (((first :: rest).foldl (fun store scope => store.addNotes [stored] scope)
      store).notes[k]?).map StoredNote.unscoped =
      ((store.notes[k]?).map StoredNote.unscoped).or
        (if stored.siloedNullifier = k then some stored.unscoped else none) := by
  induction rest generalizing first with
  | nil => exact fun store => unscoped_addOne store stored first k
  | cons second rest ih =>
    intro store
    rw [List.foldl_cons, ih]
    change (((store.addOne stored first).notes[k]?).map StoredNote.unscoped).or _ = _
    rw [unscoped_addOne, Option.or_assoc, Option.or_self]

theorem unscoped_persistNote (some_scope : scopes ≠ []) (note : NoteAndSlot) (store : NoteStore)
    (k : Fr) :
    ((persistNote scopes result store note).notes[k]?).map StoredNote.unscoped =
      ((store.notes[k]?).map StoredNote.unscoped).or
        (if (pendingNullifier result note).1 = k then
          some (pendingRecord result note).unscoped else none) := by
  unfold persistNote
  dsimp only
  split
  · rw [if_neg (by simpa using some_scope)]
    exact unscoped_addOne store (pendingRecord result note) _ k
  · next owned =>
    cases owning : scopes.filter (fun scope => decide (scope = note.owner)) with
    | nil => simp [owning] at owned
    | cons first rest =>
      exact unscoped_foldl_addNotes (pendingRecord result note) first rest k store

/-- Under each key is the record that was there, else that of the first note of the
tree with the key. -/
theorem unscoped_persistPendingNotes (some_scope : scopes ≠ []) (store : NoteStore) (k : Fr) :
    ((persistPendingNotes store result scopes).notes[k]?).map StoredNote.unscoped =
      ((store.notes[k]?).map StoredNote.unscoped).or
        (((newNotes result).find? (fun note => (pendingNullifier result note).1 = k)).map
          (fun note => (pendingRecord result note).unscoped)) := by
  have flat : persistPendingNotes store result scopes =
      (newNotes result).foldl (persistNote scopes result) store := List.foldl_flatMap.symm
  rw [flat]
  clear flat
  generalize newNotes result = notes
  induction notes generalizing store with
  | nil => simp
  | cons note rest ih =>
    rw [List.foldl_cons, ih, unscoped_persistNote some_scope, Option.or_assoc, List.find?_cons]
    by_cases here : (pendingNullifier result note).1 = k
    · simp [here]
    · simp [here]

/-- Nothing that was in the store is lost or altered. -/
theorem unchanged_persistPendingNotes (some_scope : scopes ≠ []) :
    Unchanged store (persistPendingNotes store result scopes) := by
  intro k record held
  have records := @unscoped_persistPendingNotes scopes result some_scope store k
  rw [held, Option.map_some, Option.some_or] at records
  obtain ⟨kept, found, same⟩ := Option.map_eq_some_iff.mp records
  exact ⟨kept, found, same⟩

theorem coherent_persistPendingNotes (coherent : Coherent store) :
    Coherent (persistPendingNotes store result scopes) := by
  have adds : ∀ {store : NoteStore} (stored : StoredNote) (scope : AztecAddress),
      Coherent store → Coherent (store.addNotes [stored] scope) :=
    fun stored scope coherent => coherent_addOne coherent stored scope
  have persists : ∀ (note : NoteAndSlot) (store : NoteStore), Coherent store →
      Coherent (persistNote scopes result store note) := by
    intro note store coherent
    unfold persistNote
    dsimp only
    split
    · split
      · exact coherent
      · exact adds _ _ coherent
    · exact Run.invariant_all coherent (fun scope held => adds _ scope held) _
  exact Run.invariant_all coherent (fun call held =>
    Run.invariant_all held (fun note held => persists note _ held) _) _

/-! ## What a query returns -/

/-- Whatever the scopes, the record is active and has everything the note says. -/
def Shows (record : StoredNote) (note : NoteAndSlot) : Prop :=
  record.nullified = false ∧ Carries record note

/-- A query for the note returns the active record under its key. -/
theorem returned_iff (coherent : Coherent store) :
    Returned store note k ↔
      ∃ record, (store.notes[k]?).map StoredNote.unscoped = some record ∧ Shows record note := by
  unfold Returned NoteStore.getNotes Shows
  simp only [List.mem_insertionSort, List.mem_filter, NoteIndex.mem_getNotesForContract coherent,
    Option.map_eq_some_iff]
  constructor
  · rintro ⟨record, ⟨⟨held, -⟩, accepted⟩, rfl, carries⟩
    have active : record.nullified = false := by
      by_contra spent
      simp [NoteFilter.accepts, spent] at accepted
    exact ⟨record.unscoped, ⟨record, held, rfl⟩, active, carries⟩
  · rintro ⟨-, ⟨record, held, rfl⟩, active, carries⟩
    have keyed := coherent.keyed held
    obtain ⟨contract, owner, slot, -⟩ := id carries
    change record.contractAddress = _ at contract
    change record.owner = _ at owner
    change record.storageSlot = _ at slot
    change record.nullified = _ at active
    refine ⟨record, ⟨⟨keyed.symm ▸ held, contract⟩, ?_⟩, keyed, carries⟩
    simp [NoteFilter.accepts, active, owner, slot]

theorem not_returned (coherent : Coherent store) (absent : store.notes[k]? = none) :
    ¬ Returned store note k := by
  intro returned
  obtain ⟨record, found, -⟩ := (returned_iff coherent).mp returned
  rw [absent] at found
  cases found

/-- What two notes show in one record, they both say. -/
theorem Shows.other {record : StoredNote} {first second : NoteAndSlot} {stored : StoredNote}
    (shown : Shows record first) (too : Shows record second) (elsewhere : Shows stored first) :
    Shows stored second := by
  obtain ⟨-, c, o, s, r, h, d⟩ := shown
  obtain ⟨-, c', o', s', r', h', d'⟩ := too
  obtain ⟨active, c'', o'', s'', r'', h'', d''⟩ := elsewhere
  exact ⟨active, by rw [c'', ← c, c'], by rw [o'', ← o, o'], by rw [s'', ← s, s'],
    by rw [r'', ← r, r'], by rw [h'', ← h, h'], by rw [d'', ← d, d']⟩

theorem Returned.other {first second : NoteAndSlot} {l : Fr} (coherent : Coherent store)
    (shown : Returned store first k) (too : Returned store second k)
    (elsewhere : Returned store first l) : Returned store second l := by
  rw [returned_iff coherent] at *
  obtain ⟨record, held, shows⟩ := shown
  obtain ⟨record', held', shows'⟩ := too
  obtain ⟨stored, found, alike⟩ := elsewhere
  rw [held, Option.some.injEq] at held'
  subst record'
  exact ⟨stored, found, shows.other shows' alike⟩

/-! ## Which note enters -/

section Entering
variable (some_scope : scopes ≠ []) (coherent : Coherent store)
include some_scope coherent

/-- What was returned is returned. -/
theorem returned_after (before : Returned store note k) :
    Returned (persistPendingNotes store result scopes) note k := by
  rw [returned_iff (coherent_persistPendingNotes coherent),
    unscoped_persistPendingNotes some_scope]
  obtain ⟨record, held, shows⟩ := (returned_iff coherent).mp before
  exact ⟨record, by rw [held, Option.some_or], shows⟩

/-- What is returned was, or is the entering note under zero. -/
theorem returned_cases (after : Returned (persistPendingNotes store result scopes) note k) :
    Returned store note k ∨ k = 0 ∧ (entering store result).isSome := by
  rw [returned_iff (coherent_persistPendingNotes coherent),
    unscoped_persistPendingNotes some_scope] at after
  obtain ⟨record, held, active, carries⟩ := after
  cases before : store.notes[k]? with
  | some old =>
    rw [before, Option.map_some, Option.some_or] at held
    refine .inl ((returned_iff coherent).mpr ⟨record, ?_, active, carries⟩)
    rw [before, Option.map_some, held]
  | none =>
    rw [before, Option.map_none, Option.none_or] at held
    obtain ⟨first, found, rfl⟩ := Option.map_eq_some_iff.mp held
    have under : (pendingNullifier result first).1 = k := by simpa using List.find?_some found
    have lives : (pendingNullifier result first).2 = false := active
    have zero : (pendingNullifier result first).1 = 0 :=
      pendingNullifier_fst (fun dead => by rw [pendingNullifier_snd.mpr dead] at lives; cases lives)
    have here : k = 0 := under.symm.trans zero
    subst here
    refine .inr ⟨rfl, ?_⟩
    simp [entering, before, found, lives]

/-- Where no note enters, the same is returned. -/
theorem returned_iff_of_none (nothing : entering store result = none) :
    Returned (persistPendingNotes store result scopes) note k ↔ Returned store note k := by
  constructor
  · intro after
    rcases returned_cases some_scope coherent after with before | ⟨-, other⟩
    · exact before
    · rw [nothing] at other
      cases other
  · exact returned_after some_scope coherent

/-- Elsewhere than under zero the same is returned. -/
theorem returned_iff_of_ne (elsewhere : k ≠ 0) :
    Returned (persistPendingNotes store result scopes) note k ↔ Returned store note k := by
  constructor
  · intro after
    rcases returned_cases some_scope coherent after with before | ⟨here, -⟩
    · exact before
    · exact absurd here elsewhere
  · exact returned_after some_scope coherent

omit coherent in
/-- Where a note enters, there was nothing under zero and now there is its record. -/
theorem entering_spec {first : NoteAndSlot} (enters : entering store result = some first) :
    store.notes[(0 : Fr)]? = none ∧ Lives result first ∧
      ((persistPendingNotes store result scopes).notes[(0 : Fr)]?).map StoredNote.unscoped =
        some (pendingRecord result first).unscoped ∧
      Shows (pendingRecord result first).unscoped first := by
  unfold entering at enters
  split at enters
  · cases enters
  next absent =>
  rw [Bool.not_eq_true, Option.isSome_eq_false_iff, Option.isNone_iff_eq_none] at absent
  obtain ⟨found, alive⟩ := Option.filter_eq_some_iff.mp enters
  have lives : (pendingNullifier result first).2 = false := by simpa using alive
  refine ⟨absent, ⟨List.mem_of_find?_eq_some found, ?_⟩, ?_, lives, rfl, rfl, rfl, rfl, rfl, rfl⟩
  · rw [← pendingNullifier_snd, lives]
    exact Bool.false_ne_true
  · rw [unscoped_persistPendingNotes some_scope, absent, found]
    rfl

end Entering

/-! ## One record each -/

/-- A new note that lives and is not the one that enters. -/
def Waits (store : NoteStore) (result : PrivateExecutionResult) (note : NoteAndSlot) : Prop :=
  Lives result note ∧ entering store result ≠ some note

/-- What persisting the notes is for: each that lives has an active record of its
own, none that is nullified has one, and no record changes but for its scopes. -/
def Persisted (before after : NoteStore) (result : PrivateExecutionResult) : Prop :=
  OneRecordEach after result (Lives result) ∧ Unchanged before after

theorem waits_of_ne {first : NoteAndSlot} (enters : entering store result = some first)
    (lives : Lives result note) (other : note ≠ first) : Waits store result note := by
  refine ⟨lives, ?_⟩
  rw [enters]
  exact fun same => other (Option.some.inj same).symm

theorem waits_iff_of_none (nothing : entering store result = none) :
    Waits store result note ↔ Lives result note := by
  unfold Waits
  simp [nothing]

/-- Where no note enters, the notes that wait are those that live, and the records
stay. -/
theorem oneRecordEach_iff_of_none (some_scope : scopes ≠ []) (coherent : Coherent store)
    (nothing : entering store result = none) :
    OneRecordEach store result (Waits store result) ↔
      OneRecordEach (persistPendingNotes store result scopes) result (Lives result) := by
  unfold OneRecordEach
  simp only [waits_iff_of_none nothing, returned_iff_of_none some_scope coherent nothing]

/-- The notes that waited keep their records, and the one that enters takes zero. -/
theorem OneRecordEach.enter (some_scope : scopes ≠ []) (coherent : Coherent store)
    (waiting : OneRecordEach store result (Waits store result)) :
    OneRecordEach (persistPendingNotes store result scopes) result (Lives result) := by
  classical
  cases enters : entering store result with
  | none => exact (oneRecordEach_iff_of_none some_scope coherent enters).mp waiting
  | some first =>
    obtain ⟨key, held, apart, covered⟩ := waiting
    obtain ⟨absent, lives, stored, shows⟩ := entering_spec some_scope enters
    have taken : ∀ {note}, Waits store result note → key note ≠ 0 := by
      intro note waits zero
      exact not_returned coherent absent (zero ▸ held note waits)
    refine ⟨fun note => if note = first then 0 else key note, ?_, ?_, ?_⟩
    · intro note lives
      dsimp only
      split
      next same =>
        subst same
        exact (returned_iff (coherent_persistPendingNotes coherent)).mpr ⟨_, stored, shows⟩
      next other => exact returned_after some_scope coherent (held note (waits_of_ne enters lives other))
    · intro note other lives lives' same
      dsimp only at same
      by_cases here : note = first
      · by_cases there : other = first
        · rw [here, there]
        · rw [if_pos here, if_neg there] at same
          exact absurd same.symm (taken (waits_of_ne enters lives' there))
      · by_cases there : other = first
        · rw [if_neg here, if_pos there] at same
          exact absurd same (taken (waits_of_ne enters lives here))
        · rw [if_neg here, if_neg there] at same
          exact apart note other (waits_of_ne enters lives here) (waits_of_ne enters lives' there) same
    · intro note fresh dead k after
      rcases returned_cases some_scope coherent after with before | ⟨rfl, -⟩
      · obtain ⟨other, waiting, under⟩ := covered note fresh dead k before
        refine ⟨other, waiting.1, ?_⟩
        dsimp only
        rw [if_neg, under]
        rintro rfl
        exact waiting.2 enters
      · exact ⟨first, lives, if_pos rfl⟩

/-- Whoever has the record under zero can be given that of the entering note. -/
theorem OneRecordEach.wait (some_scope : scopes ≠ []) (coherent : Coherent store)
    (done : OneRecordEach (persistPendingNotes store result scopes) result (Lives result)) :
    OneRecordEach store result (Waits store result) := by
  classical
  cases enters : entering store result with
  | none => exact (oneRecordEach_iff_of_none some_scope coherent enters).mpr done
  | some first =>
    obtain ⟨key, held, apart, covered⟩ := done
    have after := @coherent_persistPendingNotes store scopes result coherent
    obtain ⟨absent, lives, stored, shows⟩ := entering_spec some_scope enters
    have zero : Returned (persistPendingNotes store result scopes) first 0 :=
      (returned_iff after).mpr ⟨_, stored, shows⟩
    have other : ∀ {note}, Waits store result note → note ≠ first := by
      rintro note waits rfl
      exact waits.2 enters
    refine ⟨fun note => if key note = 0 then key first else key note, ?_, ?_, ?_⟩
    · intro note waits
      dsimp only
      split
      next under =>
        -- The note says what the entering one says, whose own record is an earlier one.
        have moved : key first ≠ 0 := fun same =>
          other waits (apart note first waits.1 lives (under.trans same.symm))
        have shown := held note waits.1
        rw [under] at shown
        exact (returned_iff_of_ne some_scope coherent moved).mp
          (zero.other after shown (held first lives))
      next elsewhere =>
        exact (returned_iff_of_ne some_scope coherent elsewhere).mp (held note waits.1)
    · intro note rival waits waits' same
      dsimp only at same
      split at same
      next here =>
        split at same
        next there => exact apart note rival waits.1 waits'.1 (here.trans there.symm)
        next => exact absurd (apart first rival lives waits'.1 same).symm (other waits')
      next =>
        split at same
        next => exact absurd (apart note first waits.1 lives same) (other waits)
        next => exact apart note rival waits.1 waits'.1 same
    · intro note fresh dead k before
      have positive : k ≠ 0 := by
        rintro rfl
        exact not_returned coherent absent before
      have returned : Returned (persistPendingNotes store result scopes) note k :=
        returned_after some_scope coherent before
      obtain ⟨holder, alive, under⟩ := covered note fresh dead k returned
      by_cases here : holder = first
      · subst here
        have shown := held holder alive
        rw [under] at shown
        obtain ⟨rival, alive', zeroth⟩ := covered note fresh dead 0
          (shown.other after returned zero)
        have apart' : rival ≠ holder := by
          rintro rfl
          exact positive (under.symm.trans zeroth)
        exact ⟨rival, waits_of_ne enters alive' apart', (if_pos zeroth).trans under⟩
      · have nonzero : key holder ≠ 0 := by rwa [under]
        exact ⟨holder, waits_of_ne enters alive here, (if_neg nonzero).trans under⟩

/-- After every history of the store, every tree and every scopes but none, the
notes are persisted as they should be exactly where those of the living ones that
do not enter have their records already. -/
theorem pending_notes_persisted_iff (calls : List NoteIndex.Call) (result : PrivateExecutionResult)
    (scopes : List AztecAddress) (some_scope : scopes ≠ []) :
    Persisted (NoteIndex.run calls)
        (persistPendingNotes (NoteIndex.run calls) result scopes) result ↔
      OneRecordEach (NoteIndex.run calls) result (Waits (NoteIndex.run calls) result) := by
  have coherent := (NoteIndex.indexed_run calls).coherent
  constructor
  · exact fun persisted => persisted.1.wait some_scope coherent
  · exact fun waiting => ⟨waiting.enter some_scope coherent,
      unchanged_persistPendingNotes some_scope⟩

/-- A note of one contract, slot and owner with its randomness and its counter. -/
private def sample (randomness : Fr) (counter : Nat) : NoteAndSlot where
  contractAddress := ⟨1⟩
  owner := ⟨2⟩
  storageSlot := 3
  randomness := randomness
  noteTypeId := 0
  noteItems := [5]
  noteHash := randomness
  counter := counter

/-- A call that announces notes and nullifies none. -/
private def announcing (notes : List NoteAndSlot) : PrivateExecutionResult where
  entrypoint := { newNotes := notes }

private theorem newNotes_announcing (notes : List NoteAndSlot) :
    newNotes (announcing notes) = notes := by
  unfold newNotes
  rw [PrivateExecutionResult.flatMap_iterAllCalls]
  simp [announcing, PrivateCallExecutionResult.collectNested]

private theorem lives_announcing {notes : List NoteAndSlot} :
    Lives (announcing notes) note ↔ note ∈ notes := by
  have never : ¬ Nullified (announcing notes) note := by
    rintro ⟨counter, -, entry, inside, -⟩
    have recorded := FirstWins.mem_of_mem_collect inside
    simp [PrivateExecutionResult.flatMap_iterAllCalls, announcing,
      PrivateCallExecutionResult.collectNested] at recorded
  unfold Lives
  rw [newNotes_announcing]
  exact and_iff_left never

private theorem entering_announcing (first : NoteAndSlot) (rest : List NoteAndSlot) :
    entering (NoteIndex.run []) (announcing (first :: rest)) = some first := by
  have lives : ¬ Nullified (announcing (first :: rest)) first :=
    (lives_announcing.mpr List.mem_cons_self).2
  have under := pendingNullifier_fst lives
  rw [← pendingNullifier_snd, Bool.not_eq_true] at lives
  simp [entering, newNotes_announcing, NoteIndex.run, under, lives]

/-- One note of an owner in scope is persisted. -/
theorem lone_note_is_persisted :
    Persisted (NoteIndex.run [])
      (persistPendingNotes (NoteIndex.run []) (announcing [sample 7 3]) [⟨2⟩])
      (announcing [sample 7 3]) := by
  refine (pending_notes_persisted_iff [] (announcing [sample 7 3]) [⟨2⟩] (by simp)).mpr ?_
  have none_waits : ∀ note, ¬ Waits (NoteIndex.run []) (announcing [sample 7 3]) note := by
    rintro note ⟨lives, stays⟩
    have only := List.mem_singleton.mp (lives_announcing.mp lives)
    rw [entering_announcing, only] at stays
    exact stays rfl
  refine ⟨fun _ => 0, fun note waits => (none_waits note waits).elim,
    fun note _ waits => (none_waits note waits).elim, fun note fresh dead => ?_⟩
  rw [newNotes_announcing] at fresh
  exact absurd dead (lives_announcing.mpr fresh).2

/-- Of two notes with different randomness the second is lost. -/
theorem second_note_is_lost :
    ¬ Persisted (NoteIndex.run [])
      (persistPendingNotes (NoteIndex.run []) (announcing [sample 7 3, sample 8 4]) [⟨2⟩])
      (announcing [sample 7 3, sample 8 4]) := by
  intro persisted
  have coherent := (NoteIndex.indexed_run []).coherent
  obtain ⟨key, held, -⟩ := persisted.1.wait (by simp) coherent
  have waits : Waits (NoteIndex.run []) (announcing [sample 7 3, sample 8 4]) (sample 8 4) := by
    refine ⟨lives_announcing.mpr (by simp), ?_⟩
    rw [entering_announcing]
    decide
  exact not_returned coherent (by simp [NoteIndex.run]) (held _ waits)

end AztecPxe.PersistedRecords
