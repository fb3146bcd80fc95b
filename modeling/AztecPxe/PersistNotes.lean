import AztecPxe.CounterPairs
import AztecPxe.GetNotes

/-! `persist_pending_notes` of `embedded_pxe.rs`: after a private top-level call
the notes announced in its tree go to the note store, so that the next call is
offered them. A note paired with a nullifier of its tree is stored as nullified,
under that nullifier as it is; every other note goes under the key zero. -/
namespace AztecPxe
open Script

/-- The note whatever its scopes. -/
def StoredNote.unscoped (note : StoredNote) : StoredNote := { note with scopes := [] }

namespace EmbeddedPxe

/-- `nullifiers_by_counter`. -/
def nullifiersByCounter (result : PrivateExecutionResult) : Std.ExtTreeMap Nat Fr :=
  result.allNullifiers.foldl (fun values entry =>
    values.insert entry.nullifier.counter entry.nullifier.value) ∅

/-- The nullifier a pending note is stored under, and whether as nullified. -/
def pendingNullifier (result : PrivateExecutionResult) (note : NoteAndSlot) : Fr × Bool :=
  match result.allNoteHashNullifierCounterMaps[note.counter]? with
  | some nullifierCounter =>
    match (nullifiersByCounter result)[nullifierCounter]? with
    | some nullifier => (nullifier, true)
    | none => (0, false)
  | none => (0, false)

/-- The record of a pending note. -/
def pendingRecord (result : PrivateExecutionResult) (note : NoteAndSlot) : StoredNote :=
  { note.offered with
    siloedNullifier := (pendingNullifier result note).1
    nullified := (pendingNullifier result note).2
    scopes := [] }

/-- One note of `persist_pending_notes`: once for every scope that is its owner,
else for its owner if there are scopes at all. -/
def persistNote (scopes : List AztecAddress) (result : PrivateExecutionResult) (store : NoteStore)
    (note : NoteAndSlot) : NoteStore :=
  let stored := pendingRecord result note
  let owning := scopes.filter (fun scope => scope = note.owner)
  if owning.isEmpty then
    if scopes.isEmpty then store
    else store.addNotes [stored] (if note.owner.inner ≠ 0 then note.owner else .zero)
  else owning.foldl (fun store scope => store.addNotes [stored] scope) store

/-- `persist_pending_notes`. -/
def persistPendingNotes (store : NoteStore) (result : PrivateExecutionResult)
    (scopes : List AztecAddress) : NoteStore :=
  result.iterAllCalls.foldl (fun store call =>
    call.newNotes.foldl (persistNote scopes result) store) store

/-! ## What the store holds afterwards -/

variable {store : NoteStore} {scopes : List AztecAddress} {result : PrivateExecutionResult}

/-- A record that was there, or one of a kind, up to its scopes. -/
def Kept (store : NoteStore) (added : StoredNote → Prop) (after : NoteStore) : Prop :=
  ∀ (key : Fr) (note : StoredNote), after.notes[key]? = some note →
    (∃ before, store.notes[key]? = some before ∧ before.unscoped = note.unscoped) ∨
      ∃ stored, added stored ∧ note.unscoped = stored.unscoped

private theorem Kept.refl {added : StoredNote → Prop} : Kept store added store :=
  fun _ note held => .inl ⟨note, held, rfl⟩

private theorem Kept.trans {added : StoredNote → Prop} {middle after : NoteStore}
    (first : Kept store added middle) (second : Kept middle added after) :
    Kept store added after := by
  intro key note held
  rcases second key note held with ⟨between, there, same⟩ | stored
  · rcases first key between there with ⟨before, early, alike⟩ | ⟨stored, ofKind, alike⟩
    · exact .inl ⟨before, early, alike.trans same⟩
    · exact .inr ⟨stored, ofKind, same.symm.trans alike⟩
  · exact .inr stored

/-- Steps that only keep and add make a loop that does. -/
private theorem Kept.foldl {ι : Type} {added : StoredNote → Prop} {items : List ι}
    {step : NoteStore → ι → NoteStore}
    (each : ∀ item ∈ items, ∀ store, Kept store added (step store item)) :
    ∀ store, Kept store added (items.foldl step store) := by
  induction items with
  | nil => exact fun store => Kept.refl
  | cons item rest ih =>
    intro store
    rw [List.foldl_cons]
    exact (each item List.mem_cons_self store).trans
      (ih (fun other inside => each other (.tail _ inside)) (step store item))

theorem unscoped_withScope (note : StoredNote) (scope : AztecAddress) :
    (note.withScope scope).unscoped = note.unscoped := by
  unfold StoredNote.withScope
  split <;> rfl

private theorem table_addOne (stored : StoredNote) (scope : AztecAddress) :
    (store.addOne stored scope).notes =
      store.notes.insert (stored.withScope scope).siloedNullifier
        ((store.notes[(stored.withScope scope).siloedNullifier]?.map (·.withScope scope)).getD
          (stored.withScope scope)) := by
  unfold NoteStore.addOne
  cases found : store.notes[(stored.withScope scope).siloedNullifier]? with
  | some existing => simp only [found, Option.map_some, Option.getD_some]
  | none =>
    simp only [found]
    split <;> rfl

private theorem kept_addNotes (stored : StoredNote) (scope : AztecAddress) :
    Kept store (· = stored) (store.addNotes [stored] scope) := by
  intro key note held
  change (store.addOne stored scope).notes[key]? = some note at held
  rw [table_addOne, Std.ExtTreeMap.getElem?_insert] at held
  split at held
  next same =>
    have here := Std.LawfulEqCmp.eq_of_compare same
    subst here
    cases found : store.notes[(stored.withScope scope).siloedNullifier]? with
    | some existing =>
      rw [found] at held
      cases held
      exact .inl ⟨existing, rfl, (unscoped_withScope _ _).symm⟩
    | none =>
      rw [found] at held
      cases held
      exact .inr ⟨stored, rfl, unscoped_withScope _ _⟩
  · exact .inl ⟨note, held, rfl⟩

private theorem kept_persistNote (note : NoteAndSlot) (store : NoteStore) :
    Kept store (· = pendingRecord result note) (persistNote scopes result store note) := by
  unfold persistNote
  simp only
  split
  · split
    · exact Kept.refl
    · exact kept_addNotes _ _
  · exact Kept.foldl (fun scope _ store => kept_addNotes _ _) store

/-- Whatever the store holds was there, or is the record of a note announced in
the tree. -/
theorem kept_persistPendingNotes (store : NoteStore) :
    Kept store (fun stored => ∃ call ∈ result.iterAllCalls, ∃ note ∈ call.newNotes,
        stored = pendingRecord result note)
      (persistPendingNotes store result scopes) := by
  apply Kept.foldl
  intro call inside
  apply Kept.foldl
  intro note told store key stored held
  rcases kept_persistNote note store key stored held with before | ⟨record, rfl, same⟩
  · exact .inl before
  · exact .inr ⟨_, ⟨call, inside, note, told, rfl⟩, same⟩

/-! ## The notes of a tree -/

section Tree
variable {crypto : Crypto} {contracts : ContractStore} {root : Root} {function : PrivateFunction}
variable {output : AcvmExecutionOutput} {script : Script} {trace : List Step}
variable {final : PrivateExecutionOracle} {note : NoteAndSlot}

/-- The notes of every call in the tree were announced by a step. -/
theorem announced_of_mem (runs : Runs crypto contracts script root.oracle trace final)
    {call : PrivateCallExecutionResult}
    (inside : call ∈ (root.bundle function output final).executionResult.iterAllCalls)
    (told : note ∈ call.newNotes) : note ∈ trace.flatMap Step.notes := by
  have listed : note ∈ (root.bundle function output
      final).executionResult.iterAllCalls.flatMap (·.newNotes) :=
    List.mem_flatMap.mpr ⟨call, inside, told⟩
  rw [PrivateExecutionResult.flatMap_iterAllCalls] at listed
  rcases List.mem_append.mp listed with own | below
  · have held : (root.bundle function output final).executionResult.entrypoint.newNotes =
        final.newNotes := by cases root <;> rfl
    have started : root.oracle.newNotes = [] := by cases root <;> rfl
    have ended : final.newNotes = root.oracle.newNotes ++ trace.flatMap Step.notes :=
      (Recorder.notes crypto contracts).of_runs runs
    rw [held, ended, started] at own
    exact own
  · refine NestedMerge.recorded_of_root (·.newNotes) Step.notes (fun bare => bare.newNotes) ?_ runs
      note below
    intro oracle inner call body output inside below note held
    have ended := (Recorder.notes crypto contracts).of_runs below
    change inner.newNotes = oracle.newNotes ++ inside.flatMap Step.notes at ended
    change note ∈ inner.newNotes.drop oracle.newNotes.length at held
    rw [ended, List.drop_left] at held
    exact .inl held

/-- A nullifier recorded in the tree is found by its counter. -/
private theorem isSome_nullifiersByCounter {entry : ScopedNullifier}
    (recorded : entry ∈ result.iterAllCalls.flatMap (·.nullifiers)) :
    (nullifiersByCounter result)[entry.nullifier.counter]?.isSome := by
  have numbered : entry.nullifier.counter ∈ result.allNullifiers.map (·.nullifier.counter) :=
    FirstWins.mem_numbers.mpr (List.mem_map_of_mem recorded)
  have folded : ∀ (items : List ScopedNullifier) (values : Std.ExtTreeMap Nat Fr) (k : Nat),
      k ∈ values ∨ k ∈ items.map (·.nullifier.counter) →
        k ∈ items.foldl (fun values entry =>
          values.insert entry.nullifier.counter entry.nullifier.value) values := by
    intro items
    induction items with
    | nil => simp
    | cons item rest ih =>
      intro values k known
      apply ih
      rw [Std.ExtTreeMap.mem_insert, compare_eq_iff_eq]
      rcases known with held | listed
      · exact .inl (.inr held)
      · rcases List.mem_cons.mp listed with rfl | later
        · exact .inl (.inl rfl)
        · exact .inr later
  rw [← Std.ExtTreeMap.mem_iff_isSome_getElem?]
  exact folded _ _ _ (.inr numbered)

/-- A note whose counter has a pair in its tree is stored as nullified. -/
theorem nullified_of_paired (runs : Runs crypto contracts script root.oracle trace final)
    (paired : note.counter ∈ final.noteHashNullifierCounterMap) :
    (pendingRecord (root.bundle function output final).executionResult note).nullified = true := by
  have collected : note.counter ∈ (root.bundle function output
      final).executionResult.allNoteHashNullifierCounterMaps :=
    (CounterPairs.mem_result runs _).mpr paired
  obtain ⟨v, found⟩ := Option.isSome_iff_exists.mp
    (Std.ExtTreeMap.mem_iff_isSome_getElem?.mp collected)
  obtain ⟨oracle, args, first, inside, -, -, -, rfl⟩ :=
    CounterPairs.origin_of_pair (CounterPairs.pair_of_result runs found)
  have recorded : oracle.nullifiedNote args ∈ final.nullifiers := by
    rw [NullifierCollection.nullifiers_of_runs runs]
    exact List.mem_append_right _ (List.mem_flatMap.mpr ⟨_, inside, List.mem_cons_self⟩)
  have held : (root.bundle function output final).executionResult.entrypoint.nullifiers =
      final.nullifiers := by cases root <;> rfl
  have listed : oracle.nullifiedNote args ∈ (root.bundle function output
      final).executionResult.iterAllCalls.flatMap (·.nullifiers) := by
    rw [PrivateExecutionResult.flatMap_iterAllCalls, held]
    exact List.mem_append_left _ recorded
  obtain ⟨nullifier, stored⟩ := Option.isSome_iff_exists.mp (isSome_nullifiersByCounter listed)
  have both : (pendingNullifier (root.bundle function output final).executionResult note).2 =
      true := by
    have counter : (oracle.nullifiedNote args).nullifier.counter =
        oracle.numbered (args.counter 2) := rfl
    rw [counter] at stored
    simp only [pendingNullifier, found, stored]
  exact both

end Tree

end EmbeddedPxe

end AztecPxe
