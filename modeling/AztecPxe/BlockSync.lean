import AztecPxe.EventStore
import AztecPxe.NoteStore

/-! `sync/block_state_synchronizer.rs` with the anchor block store: how the PXE
follows the node's tip, infers a reorg from two observations and rolls its note
and event stores back. Every operation returns the state also when it fails,
since what it wrote before the failing call stays written. -/
namespace AztecPxe

/-- The calls of `node.rs::AztecNode` the stores' services make. A witness is
only ever asked whether it is there. -/
structure AztecNode where
  getBlockNumber : Except Error Nat
  getProvenBlockNumber : Except Error Nat
  getBlockHeader : Nat → Except Error Json
  getNullifierMembershipWitness : Nat → Fr → Except Error (Option Json)
  getTxEffect : TxHash → Except Error (Option Json)

/-- `anchor_block_store.rs::AnchorBlockHeader`. -/
structure AnchorBlockHeader where
  data : Json
  blockNumber : Nat
  blockHash : String

/-- `block_state_synchronizer.rs::SyncChainTip`. -/
inductive SyncChainTip where
  | proposed
  | proven
  deriving DecidableEq, Repr

/-- The stores the synchronizer owns, and its anchor-changed flag. -/
structure BlockState where
  anchor : Option AnchorBlockHeader := none
  notes : NoteStore := {}
  events : PrivateEventStore := {}
  anchorChanged : Bool := false

/-- The hash a header carries, if it carries one. -/
def headerHash (header : Json) : Option String := (header.field "blockHash").bind Json.asStr

/-- `AnchorBlockHeader::from_header_json`. -/
def AnchorBlockHeader.fromHeaderJson (data : Json) : AnchorBlockHeader where
  data := data
  blockNumber := ((data.pointer ["globalVariables", "blockNumber"]).bind (fun value =>
    value.asU64.or (value.asStr.bind parseBlockNumber))).getD 0
  blockHash := (headerHash data).getD "0x0"

namespace BlockState

/-- `AnchorBlockStore::get_block_number`. -/
def anchorBlockNumber (state : BlockState) : Nat := (state.anchor.map (·.blockNumber)).getD 0

/-- `update_anchor_block_header`. -/
def updateAnchorBlockHeader (state : BlockState) (header : AnchorBlockHeader) : BlockState :=
  { state with anchor := some header, anchorChanged := true }

/-- `BlockStateSynchronizer::handle_reorg`: the header is fetched before either
store is touched. -/
def handleReorg (node : AztecNode) (newBlockNumber oldBlockNumber : Nat) (state : BlockState) :
    Except Error Unit × BlockState :=
  match node.getBlockHeader newBlockNumber with
  | .error e => (.error e, state)
  | .ok newHeader =>
    let state := { state with
      notes := state.notes.rollback newBlockNumber oldBlockNumber
      events := state.events.rollback newBlockNumber oldBlockNumber }
    (.ok (), state.updateAnchorBlockHeader (.fromHeaderJson newHeader))

/-- The first sync: without an anchor, the header of block 0 becomes it. -/
def ensureAnchor (node : AztecNode) (state : BlockState) : Except Error Unit × BlockState :=
  match state.anchor with
  | some _ => (.ok (), state)
  | none => match node.getBlockHeader 0 with
    | .error e => (.error e, state)
    | .ok header => (.ok (), state.updateAnchorBlockHeader (.fromHeaderJson header))

/-- The tip `do_sync` asks the node for. -/
def latestBlockNumber (tip : SyncChainTip) (node : AztecNode) : Except Error Nat :=
  match tip with
  | .proven => node.getProvenBlockNumber
  | .proposed => node.getBlockNumber

/-- The same-height check: another hash at the anchor's own height is a reorg
to the block before it. -/
def checkAnchorHash (node : AztecNode) (state : BlockState) : Except Error Unit × BlockState :=
  let anchorNumber := state.anchorBlockNumber
  let storedHash := (state.anchor.map (·.blockHash)).getD ""
  if storedHash ≠ "" ∧ storedHash ≠ "0x0" then
    match node.getBlockHeader anchorNumber with
    | .error e => (.error e, state)
    | .ok remoteHeader =>
      let remoteHash := (headerHash remoteHeader).getD ""
      if remoteHash ≠ "" ∧ remoteHash ≠ storedHash then
        state.handleReorg node (anchorNumber - 1) anchorNumber
      else (.ok (), state)
  else (.ok (), state)

/-- Move the anchor to the tip when the tip is above it. -/
def advance (node : AztecNode) (latest : Nat) (state : BlockState) :
    Except Error Unit × BlockState :=
  if state.anchorBlockNumber < latest then
    match node.getBlockHeader latest with
    | .error e => (.error e, state)
    | .ok header => (.ok (), state.updateAnchorBlockHeader (.fromHeaderJson header))
  else (.ok (), state)

/-- `BlockStateSynchronizer::do_sync` once the anchor and the tip are known. -/
def followTip (node : AztecNode) (latest : Nat) (state : BlockState) :
    Except Error Unit × BlockState :=
  let anchorNumber := state.anchorBlockNumber
  if latest < anchorNumber ∧ 0 < anchorNumber then state.handleReorg node latest anchorNumber
  else if anchorNumber ≤ latest ∧ 0 < anchorNumber then
    match state.checkAnchorHash node with
    | (.error e, state) => (.error e, state)
    | (.ok (), state) => state.advance node latest
  else (.ok (), state)

/-- `BlockStateSynchronizer::do_sync`. -/
def doSync (tip : SyncChainTip) (node : AztecNode) (state : BlockState) :
    Except Error Unit × BlockState :=
  match state.ensureAnchor node with
  | (.error e, state) => (.error e, state)
  | (.ok (), state) =>
    match latestBlockNumber tip node with
    | .error e => (.error e, state)
    | .ok latest => state.followTip node latest

theorem anchorBlockNumber_of_held {state : BlockState} {anchor : AnchorBlockHeader}
    (held : state.anchor = some anchor) : state.anchorBlockNumber = anchor.blockNumber := by
  simp [anchorBlockNumber, held]

/-! ## What each step does to the stores -/

/-- A reorg either fails on the header and writes nothing, or rolls both stores
back to its block. -/
theorem handleReorg_cases (node : AztecNode) (new old : Nat) (state : BlockState) :
    (∃ e, node.getBlockHeader new = .error e ∧ state.handleReorg node new old = (.error e, state)) ∨
    ∃ after, state.handleReorg node new old = (.ok (), after) ∧
      after.notes = state.notes.rollback new old ∧ after.events = state.events.rollback new old := by
  unfold handleReorg
  cases node.getBlockHeader new with
  | error e => exact .inl ⟨e, rfl, rfl⟩
  | ok header => exact .inr ⟨_, rfl, rfl, rfl⟩

theorem handleReorg_ok {node : AztecNode} {new old : Nat} {state after : BlockState}
    (handled : state.handleReorg node new old = (.ok (), after)) :
    after.notes = state.notes.rollback new old ∧ after.events = state.events.rollback new old := by
  rcases handleReorg_cases node new old state with ⟨e, -, failed⟩ | ⟨after', done, notes, events⟩
  · rw [failed] at handled
    cases handled
  · rw [done] at handled
    cases handled
    exact ⟨notes, events⟩

/-! A property of the note store that rollbacks keep is kept by a whole sync,
whatever the node answers. -/

section Keeps
variable {P : NoteStore → Prop} {node : AztecNode} {state : BlockState}

theorem notes_handleReorg (keeps : ∀ {store : NoteStore} (b synced : Nat), P store →
    P (store.rollback b synced)) (held : P state.notes) (new old : Nat) :
    P (state.handleReorg node new old).2.notes := by
  rcases handleReorg_cases node new old state with ⟨e, -, failed⟩ | ⟨after, done, notes, -⟩
  · rw [failed]
    exact held
  · rw [done]
    dsimp only
    rw [notes]
    exact keeps new old held

private theorem notes_ensureAnchor (held : P state.notes) : P (state.ensureAnchor node).2.notes := by
  unfold ensureAnchor
  split
  · exact held
  · split <;> exact held

private theorem notes_advance (held : P state.notes) (latest : Nat) :
    P (state.advance node latest).2.notes := by
  unfold advance
  split
  · split <;> exact held
  · exact held

private theorem notes_checkAnchorHash (keeps : ∀ {store : NoteStore} (b synced : Nat), P store →
    P (store.rollback b synced)) (held : P state.notes) :
    P (state.checkAnchorHash node).2.notes := by
  unfold checkAnchorHash
  dsimp only
  split
  · split
    · exact held
    · split
      · exact notes_handleReorg keeps held _ _
      · exact held
  · exact held

theorem notes_doSync (keeps : ∀ {store : NoteStore} (b synced : Nat), P store →
    P (store.rollback b synced)) (held : P state.notes) (tip : SyncChainTip) :
    P (doSync tip node state).2.notes := by
  have anchored : P (state.ensureAnchor node).2.notes := notes_ensureAnchor held
  unfold doSync
  generalize state.ensureAnchor node = outcome at anchored
  obtain ⟨result, ready⟩ := outcome
  cases result with
  | error e => exact anchored
  | ok _ =>
    cases latestBlockNumber tip node with
    | error e => exact anchored
    | ok latest =>
      have checked : P (ready.checkAnchorHash node).2.notes := notes_checkAnchorHash keeps anchored
      dsimp only
      unfold followTip
      dsimp only
      split
      · exact notes_handleReorg keeps anchored _ _
      · split
        · generalize ready.checkAnchorHash node = outcome at checked
          obtain ⟨result, after⟩ := outcome
          cases result with
          | error e => exact checked
          | ok _ => exact notes_advance checked latest
        · exact anchored

end Keeps

end BlockState
end AztecPxe
