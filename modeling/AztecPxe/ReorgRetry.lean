import AztecPxe.BlockSync
import AztecPxe.NoteIndex
import AztecPxe.RemovalSweep
import AztecPxe.RetriedInsertions

/-! A reorg that fails half way, and the sync that comes after it. The rollback
of a store is a sweep of its block indexes, write by write; an index key is
deleted after the records it lists, and the anchor is written after both stores.
So every state a failed `handle_reorg` can leave still shows the next sync the
same anchor, and rolling it back ends where the first rollback would have. -/
namespace AztecPxe
open Postings IndexedTable WriteTrace

/-! ## The rollbacks, write by write -/

namespace NoteStore
open NoteStoreRollback

/-- The write of phase 1 of `rollback`, for one nullifier. -/
def unNullifyWrites (nullifier : Fr) (store : NoteStore) : List NoteStore :=
  match store.notes[nullifier]? with
  | none => []
  | some note => putNote nullifier note.revived store

/-- Phase 1 of `rollback` as a sweep of the nullification index. -/
def nullificationSweep (blockNumber : Nat) : Sweep NoteStore Nat Fr where
  index := NoteStore.nullificationBlockIndex
  visit := unNullifyWrites
  dropKey bn store :=
    { store with nullificationBlockIndex := store.nullificationBlockIndex.erase bn }
  select bn := decide (blockNumber < bn)

/-- The tables phase 2 of `rollback` works on. -/
def shelf (store : NoteStore) : Shelf Fr StoredNote AztecAddress Nat where
  table := store.notes
  byOwner := store.contractIndex
  byKey := store.blockIndex

/-- The store with these tables. -/
def withShelf (shelf : Shelf Fr StoredNote AztecAddress Nat) (store : NoteStore) : NoteStore :=
  { store with
    notes := shelf.table
    contractIndex := shelf.byOwner
    blockIndex := shelf.byKey }

/-- Phase 2 of `rollback` as a sweep of the block index. -/
def creationSweep (blockNumber : Nat) : Sweep (Shelf Fr StoredNote AztecAddress Nat) Nat Fr :=
  Shelf.removal StoredNote.contractAddress (fun bn => decide (blockNumber < bn))

/-- The writes of `NoteStore::rollback`; `listPrefix` is the order in which
`list_prefix` returns the entries of a prefix. -/
def rollbackWrites (listPrefix : String → Listing Nat Fr) (blockNumber : Nat) :
    NoteStore → List NoteStore :=
  andThen ((nullificationSweep blockNumber).writes (listPrefix "note_idx:nullify_block:"))
    (within shelf withShelf
      ((creationSweep blockNumber).writes (listPrefix "note_idx:block:")))

theorem final_unNullifyWrites (nullifier : Fr) (store : NoteStore) :
    final (unNullifyWrites nullifier) store = store.unNullify nullifier := by
  unfold unNullify
  cases held : store.notes[nullifier]? with
  | none => simp only [final, unNullifyWrites, held, List.getLastD_nil]
  | some note =>
    have trace : unNullifyWrites nullifier store = putNote nullifier note.revived store := by
      simp only [unNullifyWrites, held]
    rw [final_congr trace, final_putNote]

/-- The state leads to this result of phase 1. -/
private def RevivesTo (blockNumber : Nat) (result store : NoteStore) : Prop :=
  Compact store.contractIndex ∧ store.rollbackNullifications blockNumber = result

/-- A write of phase 1 puts back a note that was there, revived. -/
theorem mem_unNullifyWrites {n : Fr} {store mid : NoteStore} (passed : mid ∈ unNullifyWrites n store) :
    ∃ note, store.notes[n]? = some note ∧
      mid = { store with notes := store.notes.insert n note.revived } := by
  unfold unNullifyWrites at passed
  cases held : store.notes[n]? with
  | none =>
    rw [held] at passed
    cases passed
  | some note =>
    rw [held] at passed
    exact ⟨note, rfl, List.mem_singleton.mp passed⟩

/-- A listed note may be revived before the others are. -/
theorem reviveAll_insert {notes : Std.ExtTreeMap Fr StoredNote} {nullifiers : List Fr} {n : Fr}
    {note : StoredNote} (swept : n ∈ nullifiers) (held : notes[n]? = some note) :
    reviveAll (notes.insert n note.revived) nullifiers = reviveAll notes nullifiers := by
  apply Std.ExtTreeMap.ext_getElem?
  intro m
  rw [getElem?_reviveAll, getElem?_reviveAll, Std.ExtTreeMap.getElem?_insert]
  by_cases same : n = m
  · subst m
    simp only [swept, Std.ReflCmp.compare_self, ↓reduceIte, held, Option.map_some]
    rfl
  · simp [same]

/-- Where every note under a key is revived already, the key may go. -/
theorem reviveAll_erase {notes : Std.ExtTreeMap Fr StoredNote} {index : Postings Nat Fr}
    {key : Nat} {select : Nat → Bool} (treated : ∀ m ∈ listed index key, ∀ note : StoredNote,
      notes[m]? = some note → note.revived = note) :
    reviveAll notes (selected (index.erase key) select) = reviveAll notes (selected index select) := by
  apply Std.ExtTreeMap.ext_getElem?
  intro m
  rw [getElem?_reviveAll, getElem?_reviveAll]
  by_cases under : m ∈ listed index key
  · have kept : notes[m]?.map StoredNote.revived = notes[m]? := by
      cases held : notes[m]? with
      | none => rfl
      | some note => exact congrArg some (treated m under note held)
    rw [kept, ite_self, ite_self]
  · simp only [mem_selected_erase under]

private theorem restartable_nullifications (blockNumber : Nat) (result : NoteStore) :
    Sweep.Restartable (nullificationSweep blockNumber) (RevivesTo blockNumber result)
      (fun n store => ∀ note, store.notes[n]? = some note → note.revived = note) := by
  constructor
  case index_visit =>
    intro n store mid passed
    obtain ⟨note, -, rfl⟩ := mem_unNullifyWrites passed
    rfl
  case index_dropKey =>
    intro key store
    rfl
  case treats =>
    intro n store note held
    change (final (unNullifyWrites n) store).notes[n]? = some note at held
    rw [final_unNullifyWrites] at held
    unfold unNullify at held
    cases before : store.notes[n]? with
    | none =>
      rw [before] at held
      simp only at held
      rw [before] at held
      cases held
    | some old =>
      simp only [before, Std.ExtTreeMap.getElem?_insert_self, Option.some.injEq] at held
      rw [← held]
      rfl
  case stays =>
    intro n store treated m mid passed note held
    obtain ⟨old, -, rfl⟩ := mem_unNullifyWrites passed
    rw [Std.ExtTreeMap.getElem?_insert] at held
    split at held
    · rw [← Option.some.inj held]
      rfl
    · exact treated note held
  case visits =>
    rintro n key store ⟨compact, ends⟩ chosen inside mid passed
    obtain ⟨note, held, rfl⟩ := mem_unNullifyWrites passed
    refine ⟨compact, ?_⟩
    rw [← ends, rollback_nullifications_eq, rollback_nullifications_eq]
    have swept : n ∈ selected store.nullificationBlockIndex
        (fun bn => decide (blockNumber < bn)) := mem_selected.mpr ⟨key, chosen, inside⟩
    dsimp only
    rw [reviveAll_insert swept held]
  case drops =>
    rintro key store ⟨compact, ends⟩ chosen treated
    refine ⟨compact, ?_⟩
    rw [← ends, rollback_nullifications_eq, rollback_nullifications_eq]
    have index : cut (store.nullificationBlockIndex.erase key)
        (fun bn => decide (blockNumber < bn)) =
        cut store.nullificationBlockIndex (fun bn => decide (blockNumber < bn)) := cut_erase chosen
    -- A nullifier listed under the deleted key alone has been revived already.
    have table : reviveAll store.notes (selected (store.nullificationBlockIndex.erase key)
          (fun bn => decide (blockNumber < bn))) =
        reviveAll store.notes
          (selected store.nullificationBlockIndex (fun bn => decide (blockNumber < bn))) :=
      reviveAll_erase treated
    dsimp only [nullificationSweep]
    rw [table, index]

/-- Phase 2 in closed form is the removal of its shelf. -/
theorem rollbackCreations_shelf (store : NoteStore) (blockNumber : Nat) :
    store.rollbackCreations blockNumber = withShelf (Shelf.removed StoredNote.contractAddress
      (fun bn => decide (blockNumber < bn)) store.shelf) store := by
  rw [rollback_creations_eq]
  rfl

/-- Phase 1 finds nothing in a store it has been through. -/
theorem rollbackNullifications_again {store : NoteStore} {blockNumber : Nat}
    (swept : store.nullificationBlockIndex = cut store.nullificationBlockIndex
      (fun bn => decide (blockNumber < bn))) :
    store.rollbackNullifications blockNumber = store := by
  have nothing : selected store.nullificationBlockIndex (fun bn => decide (blockNumber < bn)) = [] := by
    rw [swept]
    exact selected_cut _ _
  rw [rollback_nullifications_eq, nothing, ← swept]
  rfl

section Rollback
variable {store : NoteStore} (compact : Compact store.contractIndex)
  (listPrefix : String → Listing Nat Fr) (blockNumber : Nat)
include compact

private theorem revivesTo_passed : ∀ mid ∈ (nullificationSweep blockNumber).writes
      (listPrefix "note_idx:nullify_block:") store,
    RevivesTo blockNumber (store.rollbackNullifications blockNumber) mid :=
  Sweep.good_of_passed (restartable_nullifications blockNumber _) _ ⟨compact, rfl⟩

private theorem final_nullificationSweep :
    final ((nullificationSweep blockNumber).writes (listPrefix "note_idx:nullify_block:")) store =
      store.rollbackNullifications blockNumber := by
  have restartable := restartable_nullifications blockNumber
    (store.rollbackNullifications blockNumber)
  have good : RevivesTo blockNumber (store.rollbackNullifications blockNumber) store :=
    ⟨compact, rfl⟩
  have ends := (Sweep.good_final restartable (listPrefix "note_idx:nullify_block:") good).2
  have swept : (final ((nullificationSweep blockNumber).writes
        (listPrefix "note_idx:nullify_block:")) store).nullificationBlockIndex =
      cut store.nullificationBlockIndex (fun bn => decide (blockNumber < bn)) :=
    Sweep.index_final restartable (listPrefix "note_idx:nullify_block:") good
  rw [← ends, rollbackNullifications_again]
  rw [swept, cut_cut]

/-- All writes of `rollback` together are the call, whatever the order of the listings. -/
theorem final_rollbackWrites (synced : Nat) :
    final (rollbackWrites listPrefix blockNumber) store = store.rollback blockNumber synced := by
  have revived : Compact (store.rollbackNullifications blockNumber).contractIndex := by
    rw [rollback_nullifications_eq]
    exact compact
  unfold rollbackWrites rollback
  rw [final_andThen, final_nullificationSweep compact, final_within _ _ rfl,
    rollbackCreations_shelf]
  unfold creationSweep
  rw [Shelf.final_removal revived]

/-- Every state a rollback passes is rolled back to the same store. -/
theorem rollback_of_passed (synced : Nat) : ∀ mid ∈ rollbackWrites listPrefix blockNumber store,
    Compact mid.contractIndex ∧
      mid.rollback blockNumber synced = store.rollback blockNumber synced := by
  intro mid passed
  unfold rollback
  rcases mem_andThen.mp passed with first | second
  · obtain ⟨compact', ends⟩ := revivesTo_passed compact listPrefix blockNumber mid first
    exact ⟨compact', by rw [ends]⟩
  · rw [final_nullificationSweep compact] at second
    obtain ⟨shelf', inside, rfl⟩ := List.mem_map.mp second
    have revived : Compact (store.rollbackNullifications blockNumber).contractIndex := by
      rw [rollback_nullifications_eq]
      exact compact
    have leads := Sweep.good_of_passed (Shelf.restartable_removal StoredNote.contractAddress
      (fun bn => decide (blockNumber < bn)) _) _ ⟨revived, rfl⟩ shelf' inside
    refine ⟨leads.1, ?_⟩
    rw [rollbackNullifications_again]
    · rw [rollbackCreations_shelf, rollbackCreations_shelf]
      exact congrArg (withShelf · _) leads.2
    · change (store.rollbackNullifications blockNumber).nullificationBlockIndex =
        cut (store.rollbackNullifications blockNumber).nullificationBlockIndex _
      rw [rollback_nullifications_eq, cut_cut]

end Rollback
end NoteStore

namespace PrivateEventStore

/-- The tables `rollback` works on. -/
def shelf (store : PrivateEventStore) : Shelf Fr StoredPrivateEvent ContractSelector Nat where
  table := store.events
  byOwner := store.contractSelectorIndex
  byKey := store.blockIndex

/-- The store with these tables. -/
def withShelf (shelf : Shelf Fr StoredPrivateEvent ContractSelector Nat) (_ : PrivateEventStore) :
    PrivateEventStore where
  events := shelf.table
  contractSelectorIndex := shelf.byOwner
  blockIndex := shelf.byKey

/-- `rollback` as a sweep of the block index. -/
def rollbackSweep (blockNumber : Nat) : Sweep (Shelf Fr StoredPrivateEvent ContractSelector Nat) Nat Fr :=
  Shelf.removal StoredPrivateEvent.indexKey (fun bn => decide (blockNumber < bn))

/-- The writes of `PrivateEventStore::rollback`. -/
def rollbackWrites (listPrefix : String → Listing Nat Fr) (blockNumber : Nat) :
    PrivateEventStore → List PrivateEventStore :=
  within shelf withShelf ((rollbackSweep blockNumber).writes (listPrefix "event_idx:block:"))

theorem rollback_shelf (store : PrivateEventStore) (blockNumber synced : Nat) :
    store.rollback blockNumber synced = withShelf (Shelf.removed StoredPrivateEvent.indexKey
      (fun bn => decide (blockNumber < bn)) store.shelf) store := by
  rw [rollback_eq]
  rfl

section Rollback
variable {store : PrivateEventStore} (compact : Compact store.contractSelectorIndex)
  (listPrefix : String → Listing Nat Fr) (blockNumber synced : Nat)
include compact

/-- All writes of `rollback` together are the call, whatever the order of the listing. -/
theorem final_rollbackWrites :
    final (rollbackWrites listPrefix blockNumber) store = store.rollback blockNumber synced := by
  unfold rollbackWrites rollbackSweep
  rw [final_within _ _ rfl, rollback_shelf, Shelf.final_removal compact]

/-- Every state a rollback passes is rolled back to the same store. -/
theorem rollback_of_passed : ∀ mid ∈ rollbackWrites listPrefix blockNumber store,
    Compact mid.contractSelectorIndex ∧
      mid.rollback blockNumber synced = store.rollback blockNumber synced := by
  intro mid passed
  obtain ⟨shelf', inside, rfl⟩ := List.mem_map.mp passed
  have leads := Sweep.good_of_passed (Shelf.restartable_removal StoredPrivateEvent.indexKey
    (fun bn => decide (blockNumber < bn)) _) _ ⟨compact, rfl⟩ shelf' inside
  refine ⟨leads.1, ?_⟩
  rw [rollback_shelf, rollback_shelf]
  exact congrArg (withShelf · store) leads.2

end Rollback

/-- Every store the two writing operations leave keeps no empty selector list. -/
theorem compact_of_reachable {store : PrivateEventStore} (reached : store.Reachable) :
    Compact store.contractSelectorIndex := by
  induction reached with
  | empty => exact compact_empty
  | stored event scope _ ih =>
    unfold storePrivateEventLog
    dsimp only
    split
    · exact ih
    · exact compact_add ih _ _
  | rolledBack blockNumber synced _ ih =>
    rw [rollback_eq]
    exact compact_unlistAll _ _ _ ih

end PrivateEventStore

/-! ## The synchronizer -/

namespace BlockState

/-- The writes of `handle_reorg` once it has fetched the header: the note
store, the event store, the anchor. -/
def handleReorgWrites (listPrefix : String → Listing Nat Fr) (newHeader : Json)
    (newBlockNumber : Nat) : BlockState → List BlockState :=
  andThen (within (·.notes) (fun notes state => { state with notes := notes })
      (NoteStore.rollbackWrites listPrefix newBlockNumber))
    (andThen (within (·.events) (fun events state => { state with events := events })
        (PrivateEventStore.rollbackWrites listPrefix newBlockNumber))
      (fun state => [state.updateAnchorBlockHeader (.fromHeaderJson newHeader)]))

/-- The block numbers with which `do_sync` calls `handle_reorg`, if it does. -/
def reorgTarget (node : AztecNode) (latest : Nat) (anchor : Option AnchorBlockHeader) :
    Option (Nat × Nat) :=
  let anchorNumber := (anchor.map (·.blockNumber)).getD 0
  let storedHash := (anchor.map (·.blockHash)).getD ""
  if latest < anchorNumber ∧ 0 < anchorNumber then some (latest, anchorNumber)
  else if (anchorNumber ≤ latest ∧ 0 < anchorNumber) ∧ storedHash ≠ "" ∧ storedHash ≠ "0x0" then
    match node.getBlockHeader anchorNumber with
    | .error _ => none
    | .ok remoteHeader =>
      let remoteHash := (headerHash remoteHeader).getD ""
      if remoteHash ≠ "" ∧ remoteHash ≠ storedHash then some (anchorNumber - 1, anchorNumber)
      else none
  else none

/-- Where `do_sync` calls `handle_reorg`: with which block numbers, and in which
state. -/
def reorgEntered (tip : SyncChainTip) (node : AztecNode) (state : BlockState) :
    Option (Nat × Nat × BlockState) :=
  match state.ensureAnchor node with
  | (.error _, _) => none
  | (.ok (), state) =>
    match latestBlockNumber tip node with
    | .error _ => none
    | .ok latest => (reorgTarget node latest state.anchor).map
        (fun target => (target.1, target.2, state))

/-- The states a `do_sync` leaves when it fails inside `handle_reorg`: the node
does not answer the call for the new header, or one of the writes fails. -/
inductive Interrupted (tip : SyncChainTip) (node : AztecNode) (state : BlockState) :
    BlockState → Prop
  | nodeCall {new old : Nat} {ready : BlockState}
      (entered : state.reorgEntered tip node = some (new, old, ready)) :
      Interrupted tip node state ready
  | write {new old k : Nat} {ready : BlockState} {newHeader : Json}
      (listPrefix : String → Listing Nat Fr)
      (entered : state.reorgEntered tip node = some (new, old, ready))
      (answered : node.getBlockHeader new = .ok newHeader)
      (failed : k < (handleReorgWrites listPrefix newHeader new ready).length) :
      Interrupted tip node state (failedAt (handleReorgWrites listPrefix newHeader new) k ready)

/-- Indexes without empty lists, as every successful operation leaves them. -/
def Sweepable (state : BlockState) : Prop :=
  Compact state.notes.contractIndex ∧ Compact state.events.contractSelectorIndex

/-- Two states that `handle_reorg` takes to the same one. -/
structure SameReorg (new : Nat) (first second : BlockState) : Prop where
  anchor : first.anchor = second.anchor
  notes : ∀ synced, first.notes.rollback new synced = second.notes.rollback new synced
  events : ∀ synced, first.events.rollback new synced = second.events.rollback new synced

theorem handleReorg_same {new : Nat} {first second : BlockState} (same : SameReorg new first second)
    {node : AztecNode} {newHeader : Json} (answered : node.getBlockHeader new = .ok newHeader)
    (old : Nat) : first.handleReorg node new old = second.handleReorg node new old := by
  unfold handleReorg updateAnchorBlockHeader
  simp only [answered, same.notes, same.events]

/-- All writes of `handle_reorg` together are the call. -/
theorem final_handleReorgWrites {state : BlockState} (sweepable : state.Sweepable)
    (listPrefix : String → Listing Nat Fr) {node : AztecNode} {new : Nat} {newHeader : Json}
    (answered : node.getBlockHeader new = .ok newHeader) (old : Nat) :
    state.handleReorg node new old =
      (.ok (), final (handleReorgWrites listPrefix newHeader new) state) := by
  unfold handleReorgWrites handleReorg
  rw [answered, final_andThen, final_andThen, final_within _ _ rfl, final_within _ _ rfl,
    NoteStore.final_rollbackWrites sweepable.1 listPrefix new old,
    PrivateEventStore.final_rollbackWrites sweepable.2 listPrefix new old]
  rfl

/-- A failed write of `handle_reorg` leaves a state that the reorg takes where
it would have taken the first. -/
theorem sameReorg_of_failed {state : BlockState} (sweepable : state.Sweepable)
    (listPrefix : String → Listing Nat Fr) (newHeader : Json) {new k : Nat}
    (failed : k < (handleReorgWrites listPrefix newHeader new state).length) :
    (failedAt (handleReorgWrites listPrefix newHeader new) k state).Sweepable ∧
      SameReorg new (failedAt (handleReorgWrites listPrefix newHeader new) k state) state := by
  let notesWrites : BlockState → List BlockState :=
    within (·.notes) (fun notes state => { state with notes := notes })
      (NoteStore.rollbackWrites listPrefix new)
  let eventsWrites : BlockState → List BlockState :=
    within (·.events) (fun events state => { state with events := events })
      (PrivateEventStore.rollbackWrites listPrefix new)
  have trace : handleReorgWrites listPrefix newHeader new state =
      andThen notesWrites eventsWrites state ++ [(final eventsWrites
        (final notesWrites state)).updateAnchorBlockHeader (.fromHeaderJson newHeader)] := by
    change _ ++ (_ ++ _) = (_ ++ _) ++ _
    rw [List.append_assoc]
  have start : state.Sweepable ∧ SameReorg new state state :=
    ⟨sweepable, rfl, fun _ => rfl, fun _ => rfl⟩
  -- The anchor is the last write, so the failure lies in one of the stores.
  have inNotes : ∀ mid ∈ notesWrites state, mid.Sweepable ∧ SameReorg new mid state := by
    intro mid passed
    obtain ⟨notes, inside, rfl⟩ := List.mem_map.mp passed
    have rolled := fun synced =>
      NoteStore.rollback_of_passed sweepable.1 listPrefix new synced notes inside
    exact ⟨⟨(rolled 0).1, sweepable.2⟩, rfl, fun synced => (rolled synced).2, fun _ => rfl⟩
  have afterNotes := final_keeps (P := fun mid => mid.Sweepable ∧ SameReorg new mid state) start inNotes
  have inEvents : ∀ mid ∈ eventsWrites (final notesWrites state),
      mid.Sweepable ∧ SameReorg new mid state := by
    intro mid passed
    obtain ⟨events, inside, rfl⟩ := List.mem_map.mp passed
    have rolled := fun synced =>
      PrivateEventStore.rollback_of_passed afterNotes.1.2 listPrefix new synced events inside
    exact ⟨⟨afterNotes.1.1, (rolled 0).1⟩, afterNotes.2.anchor, afterNotes.2.notes,
      fun synced => (rolled synced).2.trans (afterNotes.2.events synced)⟩
  rcases failedAt_before_last trace failed with same | inside
  · rw [same]
    exact start
  · rcases mem_andThen.mp inside with first | second
    · exact inNotes _ first
    · exact inEvents _ second

/-! ## The next sync -/

theorem ensureAnchor_of_some {node : AztecNode} {state : BlockState} (some : state.anchor.isSome) :
    state.ensureAnchor node = (.ok (), state) := by
  unfold ensureAnchor
  obtain ⟨anchor, held⟩ := Option.isSome_iff_exists.mp some
  rw [held]

/-- Ensuring an anchor touches neither store. -/
theorem ensureAnchor_ok {node : AztecNode} {state ready : BlockState}
    (ensured : state.ensureAnchor node = (.ok (), ready)) :
    ready.anchor.isSome ∧ ready.notes = state.notes ∧ ready.events = state.events := by
  cases held : state.anchor with
  | some anchor =>
    rw [ensureAnchor_of_some (by simp [held])] at ensured
    cases ensured
    exact ⟨by simp [held], rfl, rfl⟩
  | none =>
    unfold ensureAnchor at ensured
    simp only [held] at ensured
    cases answer : node.getBlockHeader 0 with
    | error e =>
      rw [answer] at ensured
      cases ensured
    | ok header =>
      rw [answer] at ensured
      cases ensured
      exact ⟨rfl, rfl, rfl⟩

/-- What a sync does after `handle_reorg` depends on its outcome alone. -/
theorem followTip_of_target {node : AztecNode} {latest new old : Nat}
    {anchor : Option AnchorBlockHeader} (target : reorgTarget node latest anchor = some (new, old)) :
    ∃ resume : Except Error Unit × BlockState → Except Error Unit × BlockState,
      (∀ e t, resume (.error e, t) = (.error e, t)) ∧
      ∀ s : BlockState, s.anchor = anchor →
        s.followTip node latest = resume (s.handleReorg node new old) := by
  unfold reorgTarget at target
  dsimp only at target
  split at target
  · rename_i behind
    simp only [Option.some.injEq, Prod.mk.injEq] at target
    obtain ⟨rfl, rfl⟩ := target
    refine ⟨id, fun _ _ => rfl, ?_⟩
    rintro s rfl
    unfold followTip anchorBlockNumber
    dsimp only
    rw [if_pos behind]
    rfl
  · split at target
    · rename_i notBehind compared
      cases answer : node.getBlockHeader ((anchor.map (·.blockNumber)).getD 0) with
      | error e =>
        rw [answer] at target
        cases target
      | ok remoteHeader =>
        rw [answer] at target
        dsimp only at target
        split at target
        · rename_i differs
          simp only [Option.some.injEq, Prod.mk.injEq] at target
          obtain ⟨rfl, rfl⟩ := target
          refine ⟨fun outcome => match outcome with
            | (.error e, t) => (.error e, t)
            | (.ok (), t) => t.advance node latest, fun _ _ => rfl, ?_⟩
          rintro s rfl
          unfold followTip checkAnchorHash anchorBlockNumber
          dsimp only
          rw [if_neg notBehind, if_pos compared.1, if_pos compared.2, answer]
          dsimp only
          rewrite [if_pos differs]
          rfl
        · cases target
    · cases target

/-- What a failure inside `handle_reorg` says about the sync and about the state
it leaves. -/
theorem interrupted_cases {tip : SyncChainTip} {node : AztecNode} {state mid : BlockState}
    (sweepable : state.Sweepable) (interrupted : Interrupted tip node state mid) :
    mid.Sweepable ∧ ∃ new old ready latest, state.ensureAnchor node = (.ok (), ready) ∧
      latestBlockNumber tip node = .ok latest ∧
      reorgTarget node latest ready.anchor = some (new, old) ∧ SameReorg new mid ready := by
  have opened : ∀ {new old ready}, state.reorgEntered tip node = some (new, old, ready) →
      ready.Sweepable ∧ ∃ latest, state.ensureAnchor node = (.ok (), ready) ∧
        latestBlockNumber tip node = .ok latest ∧
        reorgTarget node latest ready.anchor = some (new, old) := by
    intro new old ready entered
    unfold reorgEntered at entered
    split at entered
    · cases entered
    · rename_i _ ready' ensured
      split at entered
      · cases entered
      · rename_i _ latest known
        obtain ⟨⟨new', old'⟩, target, same⟩ := Option.map_eq_some_iff.mp entered
        cases same
        obtain ⟨-, notes, events⟩ := ensureAnchor_ok ensured
        refine ⟨?_, latest, ensured, known, target⟩
        unfold Sweepable
        rw [notes, events]
        exact sweepable
  cases interrupted with
  | @nodeCall new old ready entered =>
    obtain ⟨kept, latest, ensured, known, target⟩ := opened entered
    exact ⟨kept, new, old, mid, latest, ensured, known, target, rfl, fun _ => rfl, fun _ => rfl⟩
  | @write new old k ready newHeader listPrefix entered answered failed =>
    obtain ⟨before, latest, ensured, known, target⟩ := opened entered
    obtain ⟨kept, same⟩ := sameReorg_of_failed before listPrefix newHeader failed
    exact ⟨kept, new, old, ready, latest, ensured, known, target, same⟩

/-- The state a failed `handle_reorg` left leads the next successful sync to the
state an undisturbed sync would have reached. -/
theorem doSync_of_interrupted {tip : SyncChainTip} {node : AztecNode} {state mid after : BlockState}
    (sweepable : state.Sweepable) (interrupted : Interrupted tip node state mid)
    (resumed : mid.doSync tip node = (.ok (), after)) :
    state.doSync tip node = (.ok (), after) := by
  obtain ⟨-, new, old, ready, latest, ensured, known, target, same⟩ :=
    interrupted_cases sweepable interrupted
  obtain ⟨resume, fails, follows⟩ := followTip_of_target target
  have anchored : mid.anchor.isSome := by
    rw [same.anchor]
    exact (ensureAnchor_ok ensured).1
  -- Both syncs reach the same call, one in the state after the failure.
  unfold doSync at resumed ⊢
  rw [ensureAnchor_of_some anchored] at resumed
  rw [ensured]
  simp only [known] at resumed ⊢
  rw [follows mid same.anchor] at resumed
  rw [follows ready rfl]
  cases answer : node.getBlockHeader new with
  | error e =>
    have refused : mid.handleReorg node new old = (.error e, mid) := by
      unfold handleReorg
      rw [answer]
    rw [refused, fails] at resumed
    cases resumed
  | ok newHeader =>
    rw [← handleReorg_same same answer old]
    exact resumed

/-- From stores that successful operations reached and under any anchor: a sync
may fail inside `handle_reorg` any number of times, at the node call or at any
write; a later sync against the same chain that returns `Ok` then leaves the
state that the first sync would have left. -/
theorem interrupted_reorg_is_resumed (tip : SyncChainTip) (node : AztecNode) (state : BlockState)
    (calls : List NoteIndex.Call) (notes : state.notes = NoteIndex.run calls)
    (events : state.events.Reachable) {mid after : BlockState}
    (interrupted : Relation.ReflTransGen (Interrupted tip node) state mid)
    (resumed : mid.doSync tip node = (.ok (), after)) :
    state.doSync tip node = (.ok (), after) := by
  have sweepable : state.Sweepable := by
    unfold Sweepable
    rw [notes]
    exact ⟨(NoteIndex.indexed_run calls).coherent.contractCompact,
      PrivateEventStore.compact_of_reachable events⟩
  clear notes events
  revert sweepable
  induction interrupted using Relation.ReflTransGen.head_induction_on with
  | refl =>
    intro _
    exact resumed
  | head failed _ ih =>
    intro sweepable
    exact doSync_of_interrupted sweepable failed (ih (interrupted_cases sweepable failed).1)

/-- The entries of every prefix in key order. -/
def inKeyOrder (_ : String) : Listing Nat Fr := ⟨fun idx => idx.toList, fun _ => .refl _⟩

/-- The header of block 5. -/
def headerFive : Json :=
  .obj [("globalVariables", .obj [("blockNumber", .posInt 5)]), ("blockHash", .str "0xaa")]

/-- A node whose chain ends at block 5. -/
def nodeAtFive : AztecNode where
  getBlockNumber := .ok 5
  getProvenBlockNumber := .ok 5
  getBlockHeader _ := .ok headerFive
  getNullifierMembershipWitness _ _ := .ok none
  getTxEffect _ := .ok none

/-- A store synced to block 10 with a note of block 7. -/
def aheadOfNode : BlockState where
  anchor := some ⟨.null, 10, "0xbb"⟩
  notes := NoteIndex.run [.addNotes [{ RetriedInsertions.freshNote with blockNumber := some 7 }]
    AztecAddress.zero]

/-- The reorg fails after the note is off its contract's index and before its
record is erased; the next sync still removes the record. -/
theorem half_removed_note_is_removed :
    (failedAt (handleReorgWrites inKeyOrder headerFive 5) 1 aheadOfNode).notes.notes[(3 : Fr)]?.isSome ∧
    aheadOfNode.doSync .proposed nodeAtFive = (.ok (), (doSync .proposed nodeAtFive
      (failedAt (handleReorgWrites inKeyOrder headerFive 5) 1 aheadOfNode)).2) ∧
    (aheadOfNode.doSync .proposed nodeAtFive).2.notes.notes[(3 : Fr)]? = none := by
  refine ⟨by decide, ?_, by decide⟩
  have interrupted : Interrupted .proposed nodeAtFive aheadOfNode
      (failedAt (handleReorgWrites inKeyOrder headerFive 5) 1 aheadOfNode) := by
    have entered : aheadOfNode.reorgEntered .proposed nodeAtFive = some (5, 10, aheadOfNode) := rfl
    exact .write inKeyOrder entered rfl (by decide)
  exact interrupted_reorg_is_resumed .proposed nodeAtFive aheadOfNode _ rfl .empty
    (.single interrupted) (Prod.ext (by decide) rfl)

end BlockState
end AztecPxe
