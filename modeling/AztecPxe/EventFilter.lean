import AztecPxe.EventStore
import AztecPxe.Fallible

/-! Which blocks an event query covers. A caller names them by a first block and by the
block after the last; `sync/event_filter.rs` holds that range against the anchor and hands
the store its first and its last block. -/
namespace AztecPxe.EventFilter
open AztecPxe PrivateEventStore Postings

/-- `pxe.rs::PrivateEventFilter`, without the cursor, which nothing reads. -/
structure PrivateEventFilter where
  contractAddress : AztecAddress
  txHash : Option TxHash
  fromBlock : Option Nat
  toBlock : Option Nat
  scopes : List AztecAddress
  deriving DecidableEq, Repr

/-- `PrivateEventFilterValidator::validate`, with the wrapping arithmetic of a release
build. -/
def validate (anchorBlockNumber : Nat) (filter : PrivateEventFilter) :
    Except Error PrivateEventQueryFilter :=
  if filter.scopes.isEmpty then
    .error (.invalidData "at least one scope is required to get private events")
  else
    let fromBlock := max (filter.fromBlock.getD 1) 1
    let afterAnchor := (anchorBlockNumber + 1) % 2 ^ 64
    let toBlock := filter.toBlock.getD afterAnchor
    if afterAnchor < toBlock then
      .error (.invalidData s!"to_block ({toBlock}) exceeds anchor block + 1 ({afterAnchor})")
    else if toBlock ≤ fromBlock then
      .error (.invalidData
        s!"invalid block range: from_block={fromBlock} >= to_block={toBlock}")
    else
      .ok ⟨filter.contractAddress, some fromBlock, some (toBlock - 1), filter.scopes,
        filter.txHash⟩

/-- What `get_private_events` of the PXE does with a filter once it is synced. -/
def query (anchorBlockNumber : Nat) (store : PrivateEventStore) (selector : EventSelector)
    (filter : PrivateEventFilter) : Except Error (List StoredPrivateEvent) := do
  let queryFilter ← validate anchorBlockNumber filter
  return store.getPrivateEvents selector queryFilter

namespace PrivateEventFilter

/-- The first block asked for. -/
def start (filter : PrivateEventFilter) : Nat := max (filter.fromBlock.getD 1) 1

/-- The block after the last one asked for. -/
def stop (filter : PrivateEventFilter) (anchorBlockNumber : Nat) : Nat :=
  filter.toBlock.getD (anchorBlockNumber + 1)

/-- The filter cannot be answered at this anchor. -/
def Refused (filter : PrivateEventFilter) (anchorBlockNumber : Nat) : Prop :=
  filter.scopes = [] ∨ anchorBlockNumber + 1 < filter.stop anchorBlockNumber ∨
    filter.stop anchorBlockNumber ≤ filter.start

/-- The event passes all of the filter but its block range. -/
def Matches (filter : PrivateEventFilter) (selector : EventSelector) (event : StoredPrivateEvent) :
    Prop :=
  event.contractAddress = filter.contractAddress ∧ event.eventSelector = selector ∧
    (∃ scope ∈ event.scopes, scope ∈ filter.scopes) ∧ ∀ tx ∈ filter.txHash, event.txHash = tx

end PrivateEventFilter
open PrivateEventFilter

variable {anchorBlockNumber : Nat} {store : PrivateEventStore} {selector : EventSelector}
variable {filter : PrivateEventFilter}

theorem validate_cases (bounded : anchorBlockNumber < 2 ^ 64 - 1) (filter : PrivateEventFilter) :
    (filter.Refused anchorBlockNumber ∧ ∃ e, validate anchorBlockNumber filter = .error e) ∨
    (¬ filter.Refused anchorBlockNumber ∧ validate anchorBlockNumber filter =
      .ok ⟨filter.contractAddress, some filter.start, some (filter.stop anchorBlockNumber - 1),
        filter.scopes, filter.txHash⟩) := by
  have unwrapped : (anchorBlockNumber + 1) % 2 ^ 64 = anchorBlockNumber + 1 :=
    Nat.mod_eq_of_lt (by omega)
  unfold validate Refused start stop
  simp only [unwrapped, List.isEmpty_iff]
  split
  · exact .inl ⟨.inl ‹_›, _, rfl⟩
  split
  · exact .inl ⟨.inr (.inl ‹_›), _, rfl⟩
  split
  · exact .inl ⟨.inr (.inr ‹_›), _, rfl⟩
  · exact .inr ⟨by tauto, rfl⟩

/-- What passes the four tests of the store is what the filter asks for. -/
theorem accepts_iff (named : filter.scopes ≠ []) {start stop : Nat} (positive : 0 < stop)
    (event : StoredPrivateEvent) :
    event.indexKey = ⟨filter.contractAddress, selector⟩ ∧
      PrivateEventQueryFilter.accepts ⟨filter.contractAddress, some start, some (stop - 1),
        filter.scopes, filter.txHash⟩ event = true ↔
    filter.Matches selector event ∧ start ≤ event.l2BlockNumber ∧ event.l2BlockNumber < stop := by
  have within : event.l2BlockNumber ≤ stop - 1 ↔ event.l2BlockNumber < stop := by omega
  simp only [PrivateEventQueryFilter.accepts_iff, StoredPrivateEvent.indexKey, Matches,
    ContractSelector.mk.injEq, Option.mem_some_iff, forall_eq', named, false_or, within]
  tauto

/-! ## A range in two parts -/

section Stable
variable {α : Type} {r : α → α → Prop} [DecidableRel r]

theorem orderedInsert_left {a : α} {lower upper : List α} (above : ∀ b ∈ upper, r a b) :
    (lower ++ upper).orderedInsert r a = lower.orderedInsert r a ++ upper := by
  induction lower with
  | nil =>
    cases upper with
    | nil => rfl
    | cons b rest => simp [above b List.mem_cons_self]
  | cons b rest ih =>
    by_cases first : r a b
    · simp [first]
    · simp [first, ih]

theorem orderedInsert_right {a : α} {lower upper : List α} (below : ∀ b ∈ lower, ¬ r a b) :
    (lower ++ upper).orderedInsert r a = lower ++ upper.orderedInsert r a := by
  induction lower with
  | nil => rfl
  | cons b rest ih =>
    simp [below b List.mem_cons_self, ih (fun c inside => below c (.tail _ inside))]

/-- A stable sort of what lies in either of two ranges, the one wholly before the other. -/
theorem insertionSort_filter_or {p q : α → Bool} (apart : ∀ a b, p a = true → q b = true →
    r a b ∧ ¬ r b a) (items : List α) :
    (items.filter (fun a => p a || q a)).insertionSort r =
      (items.filter p).insertionSort r ++ (items.filter q).insertionSort r := by
  induction items with
  | nil => rfl
  | cons a rest ih =>
    by_cases low : p a = true
    · have high : q a = false := by
        by_contra both
        have both := apart a a low (by simpa using both)
        exact both.2 both.1
      rw [List.filter_cons_of_pos (by simp [low]), List.filter_cons_of_pos low,
        List.filter_cons_of_neg (by simp [high]), List.insertionSort_cons, ih,
        List.insertionSort_cons, orderedInsert_left]
      intro b inside
      exact (apart a b low (List.mem_filter.mp ((List.mem_insertionSort r).mp inside)).2).1
    · by_cases high : q a = true
      · rw [List.filter_cons_of_pos (by simp [high]), List.filter_cons_of_neg low,
          List.filter_cons_of_pos high, List.insertionSort_cons, ih, List.insertionSort_cons,
          orderedInsert_right]
        intro b inside
        exact (apart b a (List.mem_filter.mp ((List.mem_insertionSort r).mp inside)).2 high).2
      · rw [List.filter_cons_of_neg (by simp [low, high]), List.filter_cons_of_neg low,
          List.filter_cons_of_neg high, ih]

end Stable

theorem before_of_lt {a b : StoredPrivateEvent} (lower : a.l2BlockNumber < b.l2BlockNumber) :
    a.before b = true ∧ ¬ b.before a = true := by
  have less : compare a.l2BlockNumber b.l2BlockNumber = .lt := Nat.compare_eq_lt.mpr lower
  have greater : compare b.l2BlockNumber a.l2BlockNumber = .gt := Nat.compare_eq_gt.mpr lower
  simp [StoredPrivateEvent.before, less, greater, Ordering.then]

/-- The store's answer for blocks `start` to `stop - 1` is its answers for the two parts. -/
theorem getPrivateEvents_append (store : PrivateEventStore) (selector : EventSelector)
    (contract : AztecAddress) (scopes : List AztecAddress) (tx : Option TxHash)
    {start middle stop : Nat} (above : start < middle) (below : middle < stop) :
    store.getPrivateEvents selector ⟨contract, some start, some (stop - 1), scopes, tx⟩ =
      store.getPrivateEvents selector ⟨contract, some start, some (middle - 1), scopes, tx⟩ ++
        store.getPrivateEvents selector ⟨contract, some middle, some (stop - 1), scopes, tx⟩ := by
  unfold getPrivateEvents
  dsimp only
  rw [← insertionSort_filter_or]
  · congr 1
    refine List.filter_congr (fun event _ => ?_)
    have whole : (start ≤ event.l2BlockNumber ∧ event.l2BlockNumber ≤ stop - 1) ↔
        (start ≤ event.l2BlockNumber ∧ event.l2BlockNumber ≤ middle - 1) ∨
          (middle ≤ event.l2BlockNumber ∧ event.l2BlockNumber ≤ stop - 1) := by omega
    rw [Bool.eq_iff_iff]
    simp only [PrivateEventQueryFilter.accepts, Option.all_some, Bool.or_eq_true, Bool.and_eq_true,
      decide_eq_true_eq]
    tauto
  · intro a b low high
    simp only [PrivateEventQueryFilter.accepts, Option.all_some, Bool.and_eq_true,
      decide_eq_true_eq] at low high
    exact before_of_lt (by omega)

theorem query_eq_ok_iff (bounded : anchorBlockNumber < 2 ^ 64 - 1)
    {events : List StoredPrivateEvent} :
    query anchorBlockNumber store selector filter = .ok events ↔
      ¬ filter.Refused anchorBlockNumber ∧ events = store.getPrivateEvents selector
        ⟨filter.contractAddress, some filter.start, some (filter.stop anchorBlockNumber - 1),
          filter.scopes, filter.txHash⟩ := by
  unfold query
  rcases validate_cases bounded filter with ⟨refused, e, failed⟩ | ⟨accepted, passed⟩
  · simp [failed, refused, bind, Except.bind]
  · simp [passed, accepted, bind, Except.bind, pure, Except.pure, eq_comm]

/-- A query is refused exactly when it names no scope, ends beyond the anchor or is empty;
else it returns the matching events of its blocks, each once and none above the anchor, and
is its two parts in a row wherever it is split. -/
theorem query_covers_range (bounded : anchorBlockNumber < 2 ^ 64 - 1) (reached : Reachable store)
    (selector : EventSelector) (filter : PrivateEventFilter) :
    ((∃ e, query anchorBlockNumber store selector filter = .error e) ↔
      filter.Refused anchorBlockNumber) ∧
    (∀ events, query anchorBlockNumber store selector filter = .ok events →
      (events.map (·.siloedEventCommitment)).Nodup ∧
      (∀ event, event ∈ events ↔
        store.events[event.siloedEventCommitment]? = some event ∧ filter.Matches selector event ∧
          filter.start ≤ event.l2BlockNumber ∧
          event.l2BlockNumber < filter.stop anchorBlockNumber) ∧
      ∀ event ∈ events, event.l2BlockNumber ≤ anchorBlockNumber) ∧
    ∀ (middle : Nat) (first second : List StoredPrivateEvent),
      query anchorBlockNumber store selector { filter with toBlock := some middle } = .ok first →
      query anchorBlockNumber store selector { filter with fromBlock := some middle } =
        .ok second →
      query anchorBlockNumber store selector filter = .ok (first ++ second) := by
  have indexed := indexed_of_reachable reached
  refine ⟨?_, ?_, ?_⟩
  · cases answer : query anchorBlockNumber store selector filter with
    | ok events => simpa using ((query_eq_ok_iff bounded).mp answer).1
    | error e =>
      refine iff_of_true ⟨e, rfl⟩ ?_
      by_contra accepted
      rw [(query_eq_ok_iff bounded).mpr ⟨accepted, rfl⟩] at answer
      cases answer
  · intro events answer
    obtain ⟨accepted, rfl⟩ := (query_eq_ok_iff bounded).mp answer
    unfold Refused at accepted
    have named : filter.scopes ≠ [] := fun none => accepted (.inl none)
    have positive : 0 < filter.stop anchorBlockNumber := by omega
    have exact_range : ∀ event, event ∈ store.getPrivateEvents selector
          ⟨filter.contractAddress, some filter.start, some (filter.stop anchorBlockNumber - 1),
            filter.scopes, filter.txHash⟩ ↔
        store.events[event.siloedEventCommitment]? = some event ∧ filter.Matches selector event ∧
          filter.start ≤ event.l2BlockNumber ∧
          event.l2BlockNumber < filter.stop anchorBlockNumber := by
      intro event
      rw [mem_getPrivateEvents indexed.coherent, accepts_iff named positive]
    refine ⟨nodup_getPrivateEvents indexed selector _, exact_range, ?_⟩
    intro event inside
    have below := ((exact_range event).mp inside).2.2.2
    omega
  · intro middle first second lower upper
    obtain ⟨acceptedLower, rfl⟩ := (query_eq_ok_iff bounded).mp lower
    obtain ⟨acceptedUpper, rfl⟩ := (query_eq_ok_iff bounded).mp upper
    simp only [Refused, start, stop, Option.getD_some, not_or, not_lt, not_le] at acceptedLower acceptedUpper
    have after : max middle 1 = middle := by omega
    rw [query_eq_ok_iff bounded]
    refine ⟨?_, ?_⟩
    · rintro (unnamed | beyond | empty)
      · exact acceptedLower.1 unnamed
      · exact absurd acceptedUpper.2.1 (Nat.not_le.mpr beyond)
      · simp only [start, stop] at empty
        omega
    · simp only [start, stop, Option.getD_some, after] at acceptedLower acceptedUpper ⊢
      exact (getPrivateEvents_append store selector filter.contractAddress filter.scopes
        filter.txHash (by omega) (by omega)).symm

/-- An event of contract 2 in block 5. -/
def sampleEvent : StoredPrivateEvent :=
  ⟨⟨1⟩, 0, [7], 9, ⟨2⟩, [], ⟨4⟩, 5, "0x1", some 0, none⟩

/-- All of contract 2 up to the anchor, for account 8. -/
def sampleFilter : PrivateEventFilter := ⟨⟨2⟩, none, none, none, [⟨8⟩]⟩

/-- An event in the anchor's own block is found. -/
theorem anchor_block_is_covered :
    ∃ events, query 5 (({} : PrivateEventStore).storePrivateEventLog sampleEvent ⟨8⟩) ⟨1⟩
      sampleFilter = .ok events ∧ ∃ event ∈ events, event.l2BlockNumber = 5 := by
  obtain ⟨refusal, answers, -⟩ := query_covers_range (show 5 < 2 ^ 64 - 1 by decide)
    (.stored sampleEvent ⟨8⟩ .empty) ⟨1⟩ sampleFilter
  cases answer : query 5 (({} : PrivateEventStore).storePrivateEventLog sampleEvent ⟨8⟩) ⟨1⟩
      sampleFilter with
  | error e =>
    have refused := refusal.mp ⟨e, answer⟩
    exact absurd refused (by simp [Refused, start, stop, sampleFilter])
  | ok events =>
    refine ⟨events, rfl, { sampleEvent with scopes := [⟨8⟩] }, ?_, rfl⟩
    refine ((answers events answer).2.1 _).mpr ⟨?_, ?_, ?_⟩
    · simp [storePrivateEventLog, sampleEvent, StoredPrivateEvent.withScope]
    · simp [Matches, sampleEvent, sampleFilter]
    · simp [start, stop, sampleEvent, sampleFilter]

end AztecPxe.EventFilter
