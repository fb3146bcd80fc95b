import AztecPxe.BlockSync

/-! Which orphaned events one sync removes. The synchronizer learns of a reorg
when the tip is behind its anchor or when another hash stands at the anchor's
height, and rolls back to the tip or by one block. A stored event it does not
roll over stays, whatever the new chain has at its height; so a sync cleans the
event store exactly when no event out of its reach is orphaned. -/
namespace AztecPxe.EventReorg
open AztecPxe BlockState

/-- A chain the node can answer from: one header for each height up to its
tip, carrying its own number and a hash. -/
structure FixedChain where
  tip : Nat
  proven : Nat
  provenBelow : proven ≤ tip
  header : Nat → Json
  hash : Nat → String
  numbered : ∀ n ≤ tip, (AnchorBlockHeader.fromHeaderJson (header n)).blockNumber = n
  hashed : ∀ n ≤ tip, headerHash (header n) = some (hash n)
  nonempty : ∀ n ≤ tip, hash n ≠ ""

/-- The tip a synchronizer with this setting is told. -/
def FixedChain.latest (chain : FixedChain) : SyncChainTip → Nat
  | .proven => chain.proven
  | .proposed => chain.tip

/-- Every call is answered from the chain. Height 0 is asked for as `latest`
by the RPC client, so both readings are allowed there. -/
structure AnswersFrom (node : AztecNode) (chain : FixedChain) : Prop where
  blockNumber : node.getBlockNumber = .ok chain.tip
  provenBlockNumber : node.getProvenBlockNumber = .ok chain.proven
  header : ∀ n ≤ chain.tip, n ≠ 0 → node.getBlockHeader n = .ok (chain.header n)
  genesis : node.getBlockHeader 0 = .ok (chain.header 0) ∨
    node.getBlockHeader 0 = .ok (chain.header chain.tip)

/-- The event's block is the chain's block of that height, not above `latest`. -/
def OnChain (chain : FixedChain) (latest : Nat) (event : StoredPrivateEvent) : Prop :=
  event.l2BlockNumber ≤ latest ∧ event.l2BlockHash = chain.hash event.l2BlockNumber

/-- The anchor the sync starts from. -/
def startingAnchor (node : AztecNode) (state : BlockState) : Option AnchorBlockHeader :=
  state.anchor.or ((node.getBlockHeader 0).toOption.map .fromHeaderJson)

/-- The chain has another hash at the height of the anchor, and the anchor has
a hash to compare. -/
def Rehashed (chain : FixedChain) (anchor : AnchorBlockHeader) : Prop :=
  0 < anchor.blockNumber ∧ anchor.blockHash ≠ "" ∧ anchor.blockHash ≠ "0x0" ∧
    chain.hash anchor.blockNumber ≠ anchor.blockHash

/-- No observation of the sync makes it roll over a block of this height: the
block is not above a tip that fell behind the anchor, nor is it the anchor's
own block or above it when that block was replaced. -/
def OutOfReach (chain : FixedChain) (latest : Nat) (anchor : AnchorBlockHeader) (height : Nat) :
    Prop :=
  (latest < anchor.blockNumber → height ≤ latest) ∧
  (anchor.blockNumber ≤ latest → Rehashed chain anchor → height < anchor.blockNumber)

section Sync
variable {chain : FixedChain} {node : AztecNode} {state : BlockState}

theorem latestBlockNumber_answered (answers : AnswersFrom node chain) (tip : SyncChainTip) :
    latestBlockNumber tip node = .ok (chain.latest tip) := by
  cases tip with
  | proven => exact answers.provenBlockNumber
  | proposed => exact answers.blockNumber

theorem latest_le_tip (chain : FixedChain) (tip : SyncChainTip) :
    chain.latest tip ≤ chain.tip := by
  cases tip with
  | proven => exact chain.provenBelow
  | proposed => exact Nat.le_refl _

private theorem header_answered (answers : AnswersFrom node chain) {n : Nat} (below : n ≤ chain.tip) :
    ∃ header, node.getBlockHeader n = .ok header := by
  by_cases zero : n = 0
  · subst n
    rcases answers.genesis with answer | answer
    · exact ⟨_, answer⟩
    · exact ⟨_, answer⟩
  · exact ⟨_, answers.header n below zero⟩

private theorem handleReorg_answered (answers : AnswersFrom node chain) {n : Nat}
    (below : n ≤ chain.tip) (old : Nat) (state : BlockState) :
    ∃ after, state.handleReorg node n old = (.ok (), after) ∧
      after.events = state.events.rollback n old := by
  obtain ⟨header, answer⟩ := header_answered answers below
  rcases handleReorg_cases node n old state with ⟨e, failed, -⟩ | ⟨after, done, -, events⟩
  · rw [answer] at failed
    cases failed
  · exact ⟨after, done, events⟩

private theorem advance_answered (answers : AnswersFrom node chain) {latest : Nat}
    (below : latest ≤ chain.tip) (state : BlockState) :
    (state.advance node latest).1 = .ok () ∧
      (state.advance node latest).2.events = state.events := by
  obtain ⟨header, answer⟩ := header_answered answers below
  unfold advance
  rw [answer]
  split
  · exact ⟨rfl, rfl⟩
  · exact ⟨rfl, rfl⟩

/-- The same-height check is a reorg to the block before on a new hash, and else nothing. -/
theorem checkAnchorHash_eq (answers : AnswersFrom node chain)
    {anchor : AnchorBlockHeader} (held : state.anchor = some anchor)
    (positive : 0 < anchor.blockNumber) (below : anchor.blockNumber ≤ chain.tip) :
    (Rehashed chain anchor → state.checkAnchorHash node =
      state.handleReorg node (anchor.blockNumber - 1) anchor.blockNumber) ∧
    (¬ Rehashed chain anchor → state.checkAnchorHash node = (.ok (), state)) := by
  have storedHash : (state.anchor.map (·.blockHash)).getD "" = anchor.blockHash := by
    simp [held]
  have nonzero : anchor.blockNumber ≠ 0 := by omega
  unfold checkAnchorHash
  simp only [anchorBlockNumber_of_held held, storedHash]
  constructor
  · rintro ⟨-, named, real, moved⟩
    rw [if_pos ⟨named, real⟩, answers.header _ below nonzero]
    simp only [chain.hashed _ below, Option.getD_some]
    rw [if_pos ⟨chain.nonempty _ below, moved⟩]
  · intro unmoved
    by_cases usable : anchor.blockHash ≠ "" ∧ anchor.blockHash ≠ "0x0"
    · rw [if_pos usable, answers.header _ below nonzero]
      simp only [chain.hashed _ below, Option.getD_some]
      rw [if_neg (fun both => unmoved ⟨positive, usable.1, usable.2, both.2⟩)]
    · rw [if_neg usable]

private theorem checkAnchorHash_answered (answers : AnswersFrom node chain)
    {anchor : AnchorBlockHeader} (held : state.anchor = some anchor)
    (positive : 0 < anchor.blockNumber) (below : anchor.blockNumber ≤ chain.tip) :
    ∃ after, state.checkAnchorHash node = (.ok (), after) ∧
      ((Rehashed chain anchor ∧
          after.events = state.events.rollback (anchor.blockNumber - 1) anchor.blockNumber) ∨
        (¬ Rehashed chain anchor ∧ after.events = state.events)) := by
  obtain ⟨moved, kept⟩ := checkAnchorHash_eq answers held positive below
  by_cases rehashed : Rehashed chain anchor
  · have target : anchor.blockNumber - 1 ≤ chain.tip := by omega
    obtain ⟨after, done, events⟩ := handleReorg_answered answers target anchor.blockNumber state
    exact ⟨after, (moved rehashed).trans done, .inl ⟨rehashed, events⟩⟩
  · exact ⟨state, kept rehashed, .inr ⟨rehashed, rfl⟩⟩

/-- Following the tip leaves exactly the events out of its reach. -/
private theorem followTip_events (answers : AnswersFrom node chain)
    {anchor : AnchorBlockHeader} (held : state.anchor = some anchor) {latest : Nat}
    (below : latest ≤ chain.tip) (coherent : state.events.Coherent) :
    (state.followTip node latest).1 = .ok () ∧
    ∀ (id : Fr) (event : StoredPrivateEvent),
      (state.followTip node latest).2.events.events[id]? = some event ↔
        state.events.events[id]? = some event ∧
          OutOfReach chain latest anchor event.l2BlockNumber := by
  unfold followTip
  simp only [anchorBlockNumber_of_held held]
  by_cases behind : latest < anchor.blockNumber
  · obtain ⟨after, done, events⟩ := handleReorg_answered answers below anchor.blockNumber state
    rw [if_pos ⟨behind, by omega⟩, done]
    refine ⟨rfl, fun id event => ?_⟩
    rw [events, PrivateEventStore.events_rollback coherent]
    have reach : OutOfReach chain latest anchor event.l2BlockNumber ↔
        event.l2BlockNumber ≤ latest :=
      ⟨fun out => out.1 behind, fun low => ⟨fun _ => low, fun ahead => absurd ahead (by omega)⟩⟩
    rw [reach]
  · rw [if_neg (fun both => behind both.1)]
    by_cases positive : 0 < anchor.blockNumber
    · rw [if_pos ⟨by omega, positive⟩]
      obtain ⟨after, done, outcome⟩ := checkAnchorHash_answered answers held positive (by omega)
      rw [done]
      obtain ⟨ok, kept⟩ := advance_answered answers below after
      refine ⟨ok, fun id event => ?_⟩
      dsimp only
      rw [kept]
      rcases outcome with ⟨rehashed, events⟩ | ⟨unmoved, events⟩
      · rw [events, PrivateEventStore.events_rollback coherent]
        have reach : OutOfReach chain latest anchor event.l2BlockNumber ↔
            event.l2BlockNumber ≤ anchor.blockNumber - 1 := by
          constructor
          · intro out
            have low := out.2 (by omega) rehashed
            omega
          · intro low
            exact ⟨fun ahead => absurd ahead behind, fun _ _ => by omega⟩
        rw [reach]
      · rw [events]
        have reach : OutOfReach chain latest anchor event.l2BlockNumber :=
          ⟨fun ahead => absurd ahead behind, fun _ rehashed => absurd rehashed unmoved⟩
        exact (and_iff_left reach).symm
    · rw [if_neg (fun both => positive both.2)]
      refine ⟨rfl, fun id event => ?_⟩
      have reach : OutOfReach chain latest anchor event.l2BlockNumber :=
        ⟨fun ahead => absurd ahead behind, fun _ rehashed => absurd rehashed.1 positive⟩
      exact (and_iff_left reach).symm

private theorem ensureAnchor_answered (answers : AnswersFrom node chain) (state : BlockState) :
    ∃ anchor after, startingAnchor node state = some anchor ∧
      state.ensureAnchor node = (.ok (), after) ∧ after.anchor = some anchor ∧
      after.events = state.events := by
  unfold ensureAnchor startingAnchor
  cases held : state.anchor with
  | some anchor => exact ⟨anchor, state, rfl, rfl, held, rfl⟩
  | none =>
    obtain ⟨header, answer⟩ := header_answered answers (Nat.zero_le _)
    rw [answer]
    exact ⟨_, _, rfl, rfl, rfl, rfl⟩

end Sync

/-- One sync against a fixed chain succeeds, and it leaves no orphaned event
behind exactly when every event out of its reach is on the chain. Only events
for which `reported` holds are spoken of. -/
theorem sync_leaves_no_orphan_iff (tip : SyncChainTip) (chain : FixedChain) (node : AztecNode)
    (answers : AnswersFrom node chain) (state : BlockState) (reached : state.events.Reachable)
    (reported : StoredPrivateEvent → Prop) :
    (doSync tip node state).1 = .ok () ∧
    ∃ anchor, startingAnchor node state = some anchor ∧
    ((∀ (id : Fr) (event : StoredPrivateEvent),
        (doSync tip node state).2.events.events[id]? = some event → reported event →
          OnChain chain (chain.latest tip) event) ↔
      ∀ (id : Fr) (event : StoredPrivateEvent), state.events.events[id]? = some event →
        reported event → OutOfReach chain (chain.latest tip) anchor event.l2BlockNumber →
          OnChain chain (chain.latest tip) event) := by
  obtain ⟨anchor, ready, starts, ensured, held, events⟩ := ensureAnchor_answered answers state
  have coherent := PrivateEventStore.coherent_of_reachable reached
  rw [← events] at coherent
  obtain ⟨ok, remains⟩ := followTip_events answers held (latest_le_tip chain tip) coherent
  unfold doSync
  rw [ensured]
  dsimp only
  rw [latestBlockNumber_answered answers]
  refine ⟨ok, anchor, starts, ?_⟩
  simp only [remains, events, and_imp]
  constructor
  · intro clean id event stored known out
    exact clean id event stored out known
  · intro clean id event stored out known
    exact clean id event stored known out

/-- A header as a node renders it, reduced to the members that are read. -/
def headerJson (n : Nat) (hash : String) : Json :=
  .obj [("globalVariables", .obj [("blockNumber", .posInt (UInt64.ofNat n))]),
    ("blockHash", .str hash)]

/-- The chain up to `tip` whose blocks from `fork` on carry the hash `branch`. -/
def branchFrom (tip fork : Nat) (branch : String) (small : tip < 2 ^ 64) (named : branch ≠ "") :
    FixedChain where
  tip := tip
  proven := tip
  provenBelow := Nat.le_refl _
  header n := headerJson n (if n < fork then "0xaa" else branch)
  hash n := if n < fork then "0xaa" else branch
  numbered n below := by
    simp only [AnchorBlockHeader.fromHeaderJson, headerJson, Json.pointer, Json.get, Json.asU64,
      List.foldlM, List.lookup, Option.bind_eq_bind, Option.bind_some, beq_self_eq_true,
      Option.some_or, Option.getD_some, Option.pure_def]
    exact UInt64.toNat_ofNat_of_lt' (Nat.lt_of_le_of_lt below small)
  hashed n _ := rfl
  nonempty n _ := by
    split
    · decide
    · exact named

/-- The chain at the first sync. -/
def firstChain : FixedChain := branchFrom 10 8 "0xbb" (by decide) (by decide)

/-- The chain after a reorg that replaced the blocks from height 8 on. -/
def reorgedChain : FixedChain := branchFrom 12 8 "0xcc" (by decide) (by decide)

/-- A node that answers from the chain and reads height 0 as its tip. -/
def nodeOf (chain : FixedChain) : AztecNode where
  getBlockNumber := .ok chain.tip
  getProvenBlockNumber := .ok chain.proven
  getBlockHeader n := if n = 0 then .ok (chain.header chain.tip)
    else if n ≤ chain.tip then .ok (chain.header n) else .ok .null
  getNullifierMembershipWitness _ _ := .ok none
  getTxEffect _ := .ok none

theorem nodeOf_answers (chain : FixedChain) : AnswersFrom (nodeOf chain) chain where
  blockNumber := rfl
  provenBlockNumber := rfl
  header n below positive := by
    simp only [nodeOf, if_neg positive, if_pos below]
  genesis := .inr rfl

/-- An event of the given block. -/
def eventAt (blockNumber : Nat) (blockHash : String) : StoredPrivateEvent where
  eventSelector := ⟨1⟩
  randomness := 0
  msgContent := []
  siloedEventCommitment := 5
  contractAddress := AztecAddress.zero
  scopes := []
  txHash := ⟨0⟩
  l2BlockNumber := blockNumber
  l2BlockHash := blockHash
  txIndexInBlock := none
  eventIndexInTx := none

/-- A first sync to the old tip at height 10, then one event is stored. -/
def syncedWithEvent (event : StoredPrivateEvent) : BlockState :=
  let synced := (doSync .proposed (nodeOf firstChain) {}).2
  { synced with events := synced.events.storePrivateEventLog event AztecAddress.zero }

private theorem reachable_syncedWithEvent (event : StoredPrivateEvent) :
    (syncedWithEvent event).events.Reachable :=
  .stored event AztecAddress.zero .empty

/-- An event below the fork survives the reorg, as it should. -/
theorem event_below_fork_is_on_chain :
    (doSync .proposed (nodeOf reorgedChain) (syncedWithEvent (eventAt 7 "0xaa"))).1 = .ok () ∧
      ∀ (id : Fr) (event : StoredPrivateEvent),
        (doSync .proposed (nodeOf reorgedChain)
          (syncedWithEvent (eventAt 7 "0xaa"))).2.events.events[id]? = some event →
            OnChain reorgedChain 12 event := by
  obtain ⟨done, anchor, -, clean_iff⟩ := sync_leaves_no_orphan_iff .proposed _ _
    (nodeOf_answers reorgedChain) (syncedWithEvent (eventAt 7 "0xaa"))
    (reachable_syncedWithEvent _) (fun _ => True)
  refine ⟨done, fun id event stored => clean_iff.mpr ?_ id event stored trivial⟩
  intro id event stored _ _
  have only : event = (eventAt 7 "0xaa").withScope AztecAddress.zero := by
    change ((∅ : Std.ExtTreeMap Fr StoredPrivateEvent).insert 5 _)[id]? = some event at stored
    rw [Std.ExtTreeMap.getElem?_insert] at stored
    split at stored
    · exact (Option.some.inj stored).symm
    · simp at stored
  rw [only]
  exact ⟨by decide, by decide⟩

/-- An event of block 8 outlives a reorg that replaced blocks 8 to 10, because
the sync rolls back to block 9 only. -/
theorem deep_reorg_leaves_orphan :
    ¬ ∀ (tip : SyncChainTip) (chain : FixedChain) (node : AztecNode), AnswersFrom node chain →
      ∀ state : BlockState, state.events.Reachable → ∀ reported : StoredPrivateEvent → Prop,
        (doSync tip node state).1 = .ok () →
        ∀ (id : Fr) (event : StoredPrivateEvent),
          (doSync tip node state).2.events.events[id]? = some event → reported event →
            OnChain chain (chain.latest tip) event := by
  intro claim
  -- The hash the first node reported for the event's block is the one stored.
  have orphan := claim .proposed reorgedChain _ (nodeOf_answers _)
    (syncedWithEvent (eventAt 8 "0xbb")) (reachable_syncedWithEvent _)
    (fun event => event.l2BlockHash = firstChain.hash event.l2BlockNumber)
    (by decide) 5 ((eventAt 8 "0xbb").withScope AztecAddress.zero) (by decide) (by decide)
  have hash := orphan.2
  revert hash
  decide

end AztecPxe.EventReorg
