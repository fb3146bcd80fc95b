import AztecPxe.IndexedTable
import AztecPxe.Json
import Mathlib.Data.List.Sort

/-! The private event store of `stores/private_event_store.rs`: the records
under `event:{commitment}` and the two indexes `event_idx:cs:{contract}:{selector}`
and `event_idx:block:{n}`. Unlike the note store, every write indexes the
record's block, so over all reachable stores a rollback removes exactly the
events above its block. -/
namespace AztecPxe

/-- `selectors.rs::EventSelector`. -/
structure EventSelector where
  inner : Fr
  deriving DecidableEq, Repr, Inhabited

/-- `private_event_store.rs::StoredPrivateEvent`. -/
structure StoredPrivateEvent where
  eventSelector : EventSelector
  randomness : Fr
  msgContent : List Fr
  siloedEventCommitment : Fr
  contractAddress : AztecAddress
  scopes : List AztecAddress
  txHash : TxHash
  l2BlockNumber : Nat
  l2BlockHash : String
  txIndexInBlock : Option Nat
  eventIndexInTx : Option Nat
  deriving DecidableEq, Repr

/-- `private_event_store.rs::PrivateEventQueryFilter`. -/
structure PrivateEventQueryFilter where
  contractAddress : AztecAddress
  fromBlock : Option Nat
  toBlock : Option Nat
  scopes : List AztecAddress
  txHash : Option TxHash
  deriving DecidableEq, Repr

/-- A key of the contract and selector index. -/
structure ContractSelector where
  contract : AztecAddress
  selector : EventSelector
  deriving DecidableEq, Repr

namespace ContractSelector

instance : Ord ContractSelector :=
  ⟨compareLex (compareOn (·.contract.inner)) (compareOn (·.selector.inner))⟩

instance : Std.TransOrd ContractSelector :=
  inferInstanceAs (Std.TransCmp
    (compareLex (compareOn (fun key : ContractSelector => key.contract.inner))
      (compareOn (fun key : ContractSelector => key.selector.inner))))

instance : Std.LawfulEqOrd ContractSelector where
  eq_of_compare {a b} same := by
    have parts : compare a.contract.inner b.contract.inner = .eq ∧
        compare a.selector.inner b.selector.inner = .eq := Ordering.then_eq_eq.mp same
    obtain ⟨⟨first⟩, ⟨second⟩⟩ := a
    obtain ⟨⟨first'⟩, ⟨second'⟩⟩ := b
    have contracts : first = first' := Std.LawfulEqOrd.eq_of_compare parts.1
    have selectors : second = second' := Std.LawfulEqOrd.eq_of_compare parts.2
    rw [contracts, selectors]

end ContractSelector

/-- The part of the key-value store the event store owns. -/
@[ext] structure PrivateEventStore where
  events : Std.ExtTreeMap Fr StoredPrivateEvent := ∅
  contractSelectorIndex : Postings ContractSelector Fr := ∅
  blockIndex : Postings Nat Fr := ∅

namespace StoredPrivateEvent

/-- `if !scopes.contains(scope) { scopes.push(*scope) }`. -/
def withScope (event : StoredPrivateEvent) (scope : AztecAddress) : StoredPrivateEvent :=
  if scope ∈ event.scopes then event else { event with scopes := event.scopes ++ [scope] }

/-- The key of the contract and selector index this event is listed under. -/
def indexKey (event : StoredPrivateEvent) : ContractSelector :=
  ⟨event.contractAddress, event.eventSelector⟩

/-- The comparison of `get_private_events`. -/
def before (a b : StoredPrivateEvent) : Bool :=
  ((compare a.l2BlockNumber b.l2BlockNumber).then
    ((compare a.txIndexInBlock b.txIndexInBlock).then
      (compare a.eventIndexInTx b.eventIndexInTx))).isLE

end StoredPrivateEvent

/-- The four `continue` tests of `get_private_events`. -/
def PrivateEventQueryFilter.accepts (filter : PrivateEventQueryFilter)
    (event : StoredPrivateEvent) : Bool :=
  filter.fromBlock.all (fun start => decide (start ≤ event.l2BlockNumber)) &&
  filter.toBlock.all (fun stop => decide (event.l2BlockNumber ≤ stop)) &&
  (filter.scopes.isEmpty || event.scopes.any (filter.scopes.contains ·)) &&
  filter.txHash.all (event.txHash == ·)

theorem PrivateEventQueryFilter.accepts_iff (filter : PrivateEventQueryFilter)
    (event : StoredPrivateEvent) : filter.accepts event = true ↔
      (∀ start ∈ filter.fromBlock, start ≤ event.l2BlockNumber) ∧
      (∀ stop ∈ filter.toBlock, event.l2BlockNumber ≤ stop) ∧
      (filter.scopes = [] ∨ ∃ scope ∈ event.scopes, scope ∈ filter.scopes) ∧
      ∀ tx ∈ filter.txHash, event.txHash = tx := by
  simp [accepts, Option.all_eq_true, and_assoc]

namespace PrivateEventStore
open IndexedTable Postings

/-- `PrivateEventStore::store_private_event_log`. -/
def storePrivateEventLog (store : PrivateEventStore) (event : StoredPrivateEvent)
    (scope : AztecAddress) : PrivateEventStore :=
  let id := event.siloedEventCommitment
  match store.events[id]? with
  | some existing => { store with events := store.events.insert id (existing.withScope scope) }
  | none =>
    let stored := event.withScope scope
    { events := store.events.insert id stored
      contractSelectorIndex := store.contractSelectorIndex.add stored.indexKey id
      blockIndex := store.blockIndex.add stored.l2BlockNumber id }

/-- The inner loop of `rollback`, for one commitment. -/
def removeEvent (store : PrivateEventStore) (id : Fr) : PrivateEventStore :=
  match store.events[id]? with
  | none => { store with events := store.events.erase id }
  | some event => { store with
      events := store.events.erase id
      contractSelectorIndex := store.contractSelectorIndex.remove event.indexKey id }

/-- `PrivateEventStore::rollback`; the synced block number is not read. -/
def rollback (store : PrivateEventStore) (blockNumber _syncedBlockNumber : Nat) :
    PrivateEventStore :=
  store.blockIndex.toList.foldl (fun store entry =>
    if blockNumber < entry.1 then
      let store := entry.2.foldl removeEvent store
      { store with blockIndex := store.blockIndex.erase entry.1 }
    else store) store

/-- `PrivateEventStore::get_private_events`. -/
def getPrivateEvents (store : PrivateEventStore) (selector : EventSelector)
    (filter : PrivateEventQueryFilter) : List StoredPrivateEvent :=
  let ids := store.contractSelectorIndex.listed ⟨filter.contractAddress, selector⟩
  ((ids.filterMap (fun id => store.events[id]?)).filter filter.accepts).insertionSort
    (fun a b => a.before b = true)

/-- A store that the two writing operations can leave behind. -/
inductive Reachable : PrivateEventStore → Prop where
  | empty : Reachable {}
  | stored {store : PrivateEventStore} (event : StoredPrivateEvent) (scope : AztecAddress) :
      Reachable store → Reachable (store.storePrivateEventLog event scope)
  | rolledBack {store : PrivateEventStore} (blockNumber synced : Nat) :
      Reachable store → Reachable (store.rollback blockNumber synced)

/-! ## Rollback in closed form -/

private theorem foldl_removeEvent (ids : List Fr) (store : PrivateEventStore) :
    ids.foldl removeEvent store = { store with
      events := eraseAll store.events ids
      contractSelectorIndex := unlistAll StoredPrivateEvent.indexKey store.events
        store.contractSelectorIndex ids } := by
  induction ids generalizing store with
  | nil => rfl
  | cons head rest ih =>
    rw [List.foldl_cons, ih, unlistAll]
    unfold removeEvent
    cases store.events[head]? <;> rfl

/-- A rollback erases every event listed above the block, unlists it and cuts
the block index there. -/
theorem rollback_eq (store : PrivateEventStore) (blockNumber synced : Nat) :
    store.rollback blockNumber synced =
      { events := eraseAll store.events
          (selected store.blockIndex (fun bn => decide (blockNumber < bn)))
        contractSelectorIndex := unlistAll StoredPrivateEvent.indexKey store.events
          store.contractSelectorIndex
          (selected store.blockIndex (fun bn => decide (blockNumber < bn)))
        blockIndex := cut store.blockIndex (fun bn => decide (blockNumber < bn)) } := by
  unfold rollback
  have sweep : ∀ (entries : List (Nat × List Fr)) (store : PrivateEventStore),
      entries.foldl (fun store entry =>
        if blockNumber < entry.1 then
          let store := entry.2.foldl removeEvent store
          { store with blockIndex := store.blockIndex.erase entry.1 }
        else store) store =
      { ((entries.filter (fun entry => decide (blockNumber < entry.1))).flatMap Prod.snd).foldl
          removeEvent store with
        blockIndex := entries.foldl (fun table entry =>
          if decide (blockNumber < entry.1) then table.erase entry.1 else table)
            store.blockIndex } := by
    intro entries
    induction entries with
    | nil => intro store; rfl
    | cons entry rest ih =>
      intro store
      rw [List.foldl_cons]
      by_cases above : blockNumber < entry.1
      · rw [if_pos above]
        dsimp only
        rw [ih]
        simp [above, foldl_removeEvent, List.foldl_append]
      · rw [if_neg above, ih]
        simp [above]
  rw [sweep, foldl_removeEvent]
  rfl

/-! ## Indexes and records agree -/

/-- Records sit under their own commitment and both indexes are exact. -/
structure Coherent (store : PrivateEventStore) : Prop where
  keyed : ∀ {id : Fr} {event : StoredPrivateEvent}, store.events[id]? = some event →
    event.siloedEventCommitment = id
  bySelector : Lists store.contractSelectorIndex store.events (fun event key => event.indexKey = key)
  byBlock : Lists store.blockIndex store.events (fun event b => event.l2BlockNumber = b)

theorem coherent_empty : Coherent {} where
  keyed held := by simp at held
  bySelector := lists_empty
  byBlock := lists_empty

@[simp] theorem withScope_fields (event : StoredPrivateEvent) (scope : AztecAddress) :
    (event.withScope scope).siloedEventCommitment = event.siloedEventCommitment ∧
    (event.withScope scope).indexKey = event.indexKey ∧
    (event.withScope scope).l2BlockNumber = event.l2BlockNumber ∧
    (event.withScope scope).l2BlockHash = event.l2BlockHash := by
  unfold StoredPrivateEvent.withScope
  split <;> exact ⟨rfl, rfl, rfl, rfl⟩

theorem coherent_storePrivateEventLog {store : PrivateEventStore} (coherent : Coherent store)
    (event : StoredPrivateEvent) (scope : AztecAddress) :
    Coherent (store.storePrivateEventLog event scope) := by
  unfold storePrivateEventLog
  dsimp only
  cases existing : store.events[event.siloedEventCommitment]? with
  | some old =>
    have shape : ∀ {β : Type} (field : StoredPrivateEvent → β),
        field (old.withScope scope) = field old → ∀ id : Fr,
        ((store.events.insert event.siloedEventCommitment (old.withScope scope))[id]?).map field =
          (store.events[id]?).map field := by
      intro β field unscoped id
      rw [Std.ExtTreeMap.getElem?_insert]
      by_cases same : event.siloedEventCommitment = id
      · subst id
        simp [existing, unscoped]
      · simp [same]
    constructor
    case keyed =>
      intro id found held
      rw [Std.ExtTreeMap.getElem?_insert] at held
      split at held
      · rename_i same
        cases held
        rw [(withScope_fields old scope).1, coherent.keyed existing]
        simpa using same
      · exact coherent.keyed held
    case bySelector =>
      exact lists_of_same_shape coherent.bySelector StoredPrivateEvent.indexKey (by simp_all)
        (shape _ (withScope_fields old scope).2.1)
    case byBlock =>
      exact lists_of_same_shape coherent.byBlock StoredPrivateEvent.l2BlockNumber (by simp_all)
        (shape _ (withScope_fields old scope).2.2.1)
  | none =>
    constructor
    case keyed =>
      intro id found held
      rw [Std.ExtTreeMap.getElem?_insert] at held
      split at held
      · rename_i same
        cases held
        rw [(withScope_fields event scope).1]
        simpa using same
      · exact coherent.keyed held
    case bySelector => exact lists_new coherent.bySelector existing (by simp)
    case byBlock => exact lists_new coherent.byBlock existing (by simp)

theorem coherent_rollback {store : PrivateEventStore} (coherent : Coherent store)
    (blockNumber synced : Nat) : Coherent (store.rollback blockNumber synced) := by
  rw [rollback_eq]
  constructor
  case keyed =>
    intro id event held
    exact coherent.keyed (getElem?_eraseAll_eq_some.mp held).1
  case bySelector => exact lists_unlistAll coherent.bySelector _
  case byBlock =>
    have functional : ∀ {event : StoredPrivateEvent} {b b' : Nat}, event.l2BlockNumber = b →
        event.l2BlockNumber = b' → b = b' := by
      intro event b b' height height'
      exact height.symm.trans height'
    exact lists_cut coherent.byBlock functional (fun bn => decide (blockNumber < bn))

theorem coherent_of_reachable {store : PrivateEventStore} (reached : Reachable store) :
    Coherent store := by
  induction reached with
  | empty => exact coherent_empty
  | stored event scope _ ih => exact coherent_storePrivateEventLog ih event scope
  | rolledBack blockNumber synced _ ih => exact coherent_rollback ih blockNumber synced

/-- A rollback leaves exactly the events at or below its block, unchanged. -/
theorem events_rollback {store : PrivateEventStore} (coherent : Coherent store)
    (blockNumber synced : Nat) (id : Fr) (event : StoredPrivateEvent) :
    (store.rollback blockNumber synced).events[id]? = some event ↔
      store.events[id]? = some event ∧ event.l2BlockNumber ≤ blockNumber := by
  rw [rollback_eq, getElem?_eraseAll_eq_some]
  apply and_congr_right
  intro held
  rw [mem_selected_iff coherent.byBlock held]
  simp

/-! ## What a query returns -/

/-- Coherent indexes that list every event of a selector once. -/
structure Indexed (store : PrivateEventStore) : Prop where
  coherent : Coherent store
  selectorNodup : ∀ key, (listed store.contractSelectorIndex key).Nodup

theorem indexed_empty : Indexed {} where
  coherent := coherent_empty
  selectorNodup := by simp

theorem indexed_storePrivateEventLog {store : PrivateEventStore} (indexed : Indexed store)
    (event : StoredPrivateEvent) (scope : AztecAddress) :
    Indexed (store.storePrivateEventLog event scope) where
  coherent := coherent_storePrivateEventLog indexed.coherent event scope
  selectorNodup := by
    intro key
    unfold storePrivateEventLog
    dsimp only
    cases store.events[event.siloedEventCommitment]? with
    | some existing => exact indexed.selectorNodup key
    | none => exact nodup_add (indexed.selectorNodup key) _ _

theorem indexed_rollback {store : PrivateEventStore} (indexed : Indexed store)
    (blockNumber synced : Nat) : Indexed (store.rollback blockNumber synced) where
  coherent := coherent_rollback indexed.coherent blockNumber synced
  selectorNodup := by
    intro key
    rw [rollback_eq]
    dsimp only
    rw [listed_unlistAll]
    exact (indexed.selectorNodup key).filter _

theorem indexed_of_reachable {store : PrivateEventStore} (reached : Reachable store) :
    Indexed store := by
  induction reached with
  | empty => exact indexed_empty
  | stored event scope _ ih => exact indexed_storePrivateEventLog ih event scope
  | rolledBack blockNumber synced _ ih => exact indexed_rollback ih blockNumber synced

section Query
variable {store : PrivateEventStore} {selector : EventSelector} {filter : PrivateEventQueryFilter}

theorem mem_getPrivateEvents (coherent : Coherent store) {event : StoredPrivateEvent} :
    event ∈ store.getPrivateEvents selector filter ↔
      store.events[event.siloedEventCommitment]? = some event ∧
        event.indexKey = ⟨filter.contractAddress, selector⟩ ∧ filter.accepts event = true := by
  unfold getPrivateEvents
  rw [List.mem_insertionSort, List.mem_filter, List.mem_filterMap, ← and_assoc]
  apply and_congr_left
  intro _
  constructor
  · rintro ⟨id, inside, held⟩
    obtain ⟨other, stored, owned⟩ := coherent.bySelector.mem_iff.mp inside
    rw [held, Option.some.injEq] at stored
    subst other
    rw [coherent.keyed held]
    exact ⟨held, owned⟩
  · rintro ⟨held, owned⟩
    exact ⟨_, coherent.bySelector.mem_iff.mpr ⟨event, held, owned⟩, held⟩

/-- No commitment comes twice. -/
theorem nodup_getPrivateEvents (indexed : Indexed store) (selector : EventSelector)
    (filter : PrivateEventQueryFilter) :
    ((store.getPrivateEvents selector filter).map (·.siloedEventCommitment)).Nodup := by
  have sorted := List.perm_insertionSort (fun a b : StoredPrivateEvent => a.before b = true)
    (((listed store.contractSelectorIndex ⟨filter.contractAddress, selector⟩).filterMap
      (fun id => store.events[id]?)).filter filter.accepts)
  refine (sorted.map _).nodup_iff.mpr (List.Nodup.map_on ?_ (List.Nodup.filter _ ?_))
  · intro first inFirst second inSecond same
    obtain ⟨_, -, held⟩ := List.mem_filterMap.mp (List.mem_filter.mp inFirst).1
    obtain ⟨_, -, held'⟩ := List.mem_filterMap.mp (List.mem_filter.mp inSecond).1
    rw [← indexed.coherent.keyed held, same, indexed.coherent.keyed held', held'] at held
    exact (Option.some.inj held).symm
  · apply (indexed.selectorNodup _).filterMap
    intro n m event first second
    rw [← indexed.coherent.keyed (Option.mem_def.mp first)]
    exact indexed.coherent.keyed (Option.mem_def.mp second)

/-- The comparison of two events, key by key. -/
private def compareEvents : StoredPrivateEvent → StoredPrivateEvent → Ordering :=
  compareLex (compareOn StoredPrivateEvent.l2BlockNumber)
    (compareLex (compareOn StoredPrivateEvent.txIndexInBlock)
      (compareOn StoredPrivateEvent.eventIndexInTx))

private instance : Std.TransCmp compareEvents := by
  unfold compareEvents
  infer_instance

theorem before_trans {a b c : StoredPrivateEvent} (first : a.before b = true)
    (second : b.before c = true) : a.before c = true := by
  have ordered : (compareEvents a b).isLE = true := first
  change (compareEvents a c).isLE = true
  exact Std.TransCmp.isLE_trans ordered second

theorem before_total (a b : StoredPrivateEvent) : a.before b = true ∨ b.before a = true := by
  by_cases first : (compareEvents a b).isLE = true
  · exact .inl first
  · right
    have greater : compareEvents a b = .gt := by simpa using first
    have less : compareEvents b a = .lt := Std.OrientedCmp.gt_iff_lt.mp greater
    change (compareEvents b a).isLE = true
    rw [less]
    rfl

/-- The answer is sorted by block, transaction and event. -/
theorem pairwise_getPrivateEvents (store : PrivateEventStore) (selector : EventSelector)
    (filter : PrivateEventQueryFilter) :
    (store.getPrivateEvents selector filter).Pairwise (fun a b => a.before b = true) := by
  have : Std.Total (fun a b : StoredPrivateEvent => a.before b = true) := ⟨before_total⟩
  have : IsTrans StoredPrivateEvent (fun a b => a.before b = true) := ⟨fun _ _ _ => before_trans⟩
  exact List.pairwise_insertionSort _ _

end Query

end PrivateEventStore
end AztecPxe
