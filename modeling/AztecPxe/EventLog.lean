import AztecPxe.EventStore
import AztecPxe.Run

/-! The event store as a log of what was stored: a write appends an event with its scope, a
rollback drops what is above its block. The store keeps records, an index it is queried
through and an index it is rolled back by; over every history it answers as the log does. -/
namespace AztecPxe.EventLog
open AztecPxe PrivateEventStore IndexedTable Postings

/-- One call on the event store. -/
inductive Call where
  | storePrivateEventLog (event : StoredPrivateEvent) (scope : AztecAddress)
  | rollback (blockNumber syncedBlockNumber : Nat)
  deriving DecidableEq, Repr

/-- The store after one call. -/
def step (store : PrivateEventStore) : Call → PrivateEventStore
  | .storePrivateEventLog event scope => store.storePrivateEventLog event scope
  | .rollback blockNumber syncedBlockNumber => store.rollback blockNumber syncedBlockNumber

/-- The store after a history of calls on the empty store. -/
def run (calls : List Call) : PrivateEventStore := calls.foldl step {}

/-- An event and the scope it was stored under. -/
abbrev Entry := StoredPrivateEvent × AztecAddress

/-- The log after one call. -/
def record (log : List Entry) : Call → List Entry
  | .storePrivateEventLog event scope => log ++ [(event, scope)]
  | .rollback blockNumber _ => log.filter (fun entry => entry.1.l2BlockNumber ≤ blockNumber)

/-- The log after a history of calls. -/
def logOf (calls : List Call) : List Entry := calls.foldl record []

/-- An event comes without scopes, and with the data its commitment is stored with. -/
def Proper (log : List Entry) : Call → Prop
  | .storePrivateEventLog event _ => event.scopes = [] ∧ ∀ entry ∈ log,
      entry.1.siloedEventCommitment = event.siloedEventCommitment → entry.1 = event
  | .rollback _ _ => True

/-- What the log has under a commitment. -/
def entriesOf (log : List Entry) (id : Fr) : List Entry :=
  log.filter (fun entry => entry.1.siloedEventCommitment = id)

/-- The scopes a commitment was stored under, each where it came first. -/
def scopesOf (log : List Entry) (id : Fr) : List AztecAddress :=
  ((entriesOf log id).map (·.2)).eraseDups

/-- An event of the log with the scopes it was stored under. -/
def scopedBy (log : List Entry) (stored : StoredPrivateEvent) : StoredPrivateEvent :=
  { stored with scopes := scopesOf log stored.siloedEventCommitment }

/-- What is stored for entries of one event. -/
def recordOf (entries : List Entry) : Option StoredPrivateEvent :=
  entries.head?.map (fun entry => { entry.1 with scopes := (entries.map (·.2)).eraseDups })

/-- The event is of this contract and selector and passes the filter. -/
def Wanted (selector : EventSelector) (filter : PrivateEventQueryFilter)
    (event : StoredPrivateEvent) : Prop :=
  event.contractAddress = filter.contractAddress ∧ event.eventSelector = selector ∧
  (∀ start ∈ filter.fromBlock, start ≤ event.l2BlockNumber) ∧
  (∀ stop ∈ filter.toBlock, event.l2BlockNumber ≤ stop) ∧
  (filter.scopes = [] ∨ ∃ scope ∈ event.scopes, scope ∈ filter.scopes) ∧
  ∀ tx ∈ filter.txHash, event.txHash = tx

/-- The answer to a query is what the log has, each event once and in order. -/
structure Answers (log : List Entry) (selector : EventSelector) (filter : PrivateEventQueryFilter)
    (events : List StoredPrivateEvent) : Prop where
  complete : ∀ event, event ∈ events ↔
    (∃ entry ∈ log, event = scopedBy log entry.1) ∧ Wanted selector filter event
  scopes : ∀ event ∈ events, ∀ scope, scope ∈ event.scopes ↔
    ∃ stored, (stored, scope) ∈ log ∧ stored.siloedEventCommitment = event.siloedEventCommitment
  once : (events.map (·.siloedEventCommitment)).Nodup
  sorted : events.Pairwise (fun a b => a.before b = true)

/-- Both indexes list records of their key only. -/
structure NoDangling (store : PrivateEventStore) : Prop where
  bySelector : ∀ key, ∀ id ∈ listed store.contractSelectorIndex key,
    ∃ event, store.events[id]? = some event ∧ event.indexKey = key
  byBlock : ∀ block, ∀ id ∈ listed store.blockIndex block,
    ∃ event, store.events[id]? = some event ∧ event.l2BlockNumber = block

/-- Entries of one commitment carry one event, without scopes. -/
structure Consistent (log : List Entry) : Prop where
  unscoped : ∀ entry ∈ log, entry.1.scopes = []
  same : ∀ first ∈ log, ∀ second ∈ log,
    first.1.siloedEventCommitment = second.1.siloedEventCommitment → first.1 = second.1

/-- The store holds the events of the log. -/
structure Represents (store : PrivateEventStore) (log : List Entry) : Prop where
  indexed : Indexed store
  consistent : Consistent log
  held : ∀ id : Fr, store.events[id]? = recordOf (entriesOf log id)

variable {store : PrivateEventStore} {log : List Entry} {event : StoredPrivateEvent}
variable {scope : AztecAddress}

theorem mem_entriesOf {entry : Entry} {id : Fr} :
    entry ∈ entriesOf log id ↔ entry ∈ log ∧ entry.1.siloedEventCommitment = id := by
  simp [entriesOf]

theorem mem_scopesOf {id : Fr} :
    scope ∈ scopesOf log id ↔ ∃ event, (event, scope) ∈ log ∧ event.siloedEventCommitment = id := by
  simp [scopesOf, mem_entriesOf]

theorem recordOf_eq_some_iff (consistent : Consistent log) {id : Fr} :
    recordOf (entriesOf log id) = some event ↔ ∃ entry ∈ log,
      entry.1.siloedEventCommitment = id ∧ event = scopedBy log entry.1 := by
  unfold recordOf scopedBy scopesOf
  constructor
  · intro first
    obtain ⟨entry, found, rfl⟩ := Option.map_eq_some_iff.mp first
    obtain ⟨inside, rfl⟩ := mem_entriesOf.mp (List.mem_of_mem_head? found)
    exact ⟨entry, inside, rfl, rfl⟩
  · rintro ⟨entry, inside, rfl, rfl⟩
    have nonempty : entriesOf log entry.1.siloedEventCommitment ≠ [] :=
      List.ne_nil_of_mem (mem_entriesOf.mpr ⟨inside, rfl⟩)
    obtain ⟨first, rest, entries⟩ := List.exists_cons_of_ne_nil nonempty
    obtain ⟨inFirst, named⟩ := mem_entriesOf.mp (entries.symm ▸ List.mem_cons_self)
    rw [entries, List.head?_cons, Option.map_some,
      consistent.same first inFirst entry inside named]

/-! ## One write -/

theorem consistent_append (consistent : Consistent log)
    (proper : Proper log (.storePrivateEventLog event scope)) :
    Consistent (log ++ [(event, scope)]) where
  unscoped := by
    rintro entry inside
    rcases List.mem_append.mp inside with old | new
    · exact consistent.unscoped entry old
    · rw [List.mem_singleton.mp new]
      exact proper.1
  same := by
    intro first inFirst second inSecond named
    rcases List.mem_append.mp inFirst with old | new
    · rcases List.mem_append.mp inSecond with old' | new'
      · exact consistent.same first old second old' named
      · cases List.mem_singleton.mp new'
        exact proper.2 first old named
    · cases List.mem_singleton.mp new
      rcases List.mem_append.mp inSecond with old' | new'
      · exact (proper.2 second old' named.symm).symm
      · cases List.mem_singleton.mp new'
        rfl

theorem entriesOf_append (log : List Entry) (event : StoredPrivateEvent) (scope : AztecAddress)
    (id : Fr) : entriesOf (log ++ [(event, scope)]) id =
      if event.siloedEventCommitment = id then entriesOf log id ++ [(event, scope)]
      else entriesOf log id := by
  unfold entriesOf
  rw [List.filter_append]
  by_cases named : event.siloedEventCommitment = id
  · simp [named]
  · simp [named]

theorem eraseDups_append_singleton {α : Type} [DecidableEq α] (items : List α) (a : α) :
    (items ++ [a]).eraseDups =
      if a ∈ items.eraseDups then items.eraseDups else items.eraseDups ++ [a] := by
  rw [List.eraseDups_append]
  by_cases known : a ∈ items
  · rw [if_pos (List.mem_eraseDups.mpr known)]
    simp [List.removeAll, known]
  · rw [if_neg (fun inside => known (List.mem_eraseDups.mp inside))]
    have kept : [a].removeAll items = [a] := by simpa [List.removeAll] using known
    rw [kept]
    rfl

/-- One more entry is stored as a new event, or adds its scope to the one there is. -/
theorem recordOf_append (unscoped : event.scopes = []) (entries : List Entry) :
    recordOf (entries ++ [(event, scope)]) =
      some (((recordOf entries).getD event).withScope scope) := by
  unfold recordOf StoredPrivateEvent.withScope
  cases entries with
  | nil => simp [unscoped, List.eraseDups_cons]
  | cons first rest =>
    rw [List.map_append, List.map_singleton, eraseDups_append_singleton]
    by_cases repeated : scope ∈ ((first :: rest).map (·.2)).eraseDups
    · simp only [List.cons_append, List.head?_cons, Option.map_some, Option.getD_some, repeated,
        if_true]
    · simp only [List.cons_append, List.head?_cons, Option.map_some, Option.getD_some, repeated,
        if_false]

theorem represents_store (represents : Represents store log)
    (proper : Proper log (.storePrivateEventLog event scope)) :
    Represents (store.storePrivateEventLog event scope) (log ++ [(event, scope)]) where
  indexed := indexed_storePrivateEventLog represents.indexed event scope
  consistent := consistent_append represents.consistent proper
  held id := by
    have written : (store.storePrivateEventLog event scope).events =
        store.events.insert event.siloedEventCommitment
          (((store.events[event.siloedEventCommitment]?).getD event).withScope scope) := by
      unfold storePrivateEventLog
      dsimp only
      cases store.events[event.siloedEventCommitment]? <;> rfl
    rw [written, Std.ExtTreeMap.getElem?_insert]
    by_cases named : event.siloedEventCommitment = id
    · subst id
      rw [if_pos Std.ReflCmp.compare_self, represents.held, entriesOf_append, if_pos rfl,
        recordOf_append proper.1]
    · rw [if_neg (by simpa using named), represents.held, entriesOf_append, if_neg named]

/-! ## One rollback -/

/-- A rollback takes all that the log has under a commitment, or nothing of it. -/
theorem entriesOf_rollback (consistent : Consistent log) (blockNumber : Nat) (id : Fr) :
    entriesOf (log.filter (fun entry => entry.1.l2BlockNumber ≤ blockNumber)) id =
      if (recordOf (entriesOf log id)).all (·.l2BlockNumber ≤ blockNumber) then entriesOf log id
      else [] := by
  have swapped : entriesOf (log.filter (fun entry => entry.1.l2BlockNumber ≤ blockNumber)) id =
      (entriesOf log id).filter (fun entry => entry.1.l2BlockNumber ≤ blockNumber) := by
    unfold entriesOf
    rw [List.filter_filter, List.filter_filter]
    simp only [Bool.and_comm]
  have shared : ∀ first ∈ entriesOf log id, ∀ second ∈ entriesOf log id, first.1 = second.1 := by
    intro first inFirst second inSecond
    obtain ⟨inside, named⟩ := mem_entriesOf.mp inFirst
    obtain ⟨inside', named'⟩ := mem_entriesOf.mp inSecond
    exact consistent.same first inside second inside' (named.trans named'.symm)
  rw [swapped]
  cases entries : entriesOf log id with
  | nil => rfl
  | cons first rest =>
    rw [entries] at shared
    have alike : ∀ entry ∈ first :: rest, entry.1.l2BlockNumber = first.1.l2BlockNumber :=
      fun entry inside => congrArg _ (shared entry inside first List.mem_cons_self)
    by_cases low : first.1.l2BlockNumber ≤ blockNumber
    · rw [if_pos (by simpa [recordOf] using low)]
      refine List.filter_eq_self.mpr (fun entry inside => ?_)
      simpa [alike entry inside] using low
    · rw [if_neg (by simpa [recordOf] using low)]
      refine List.filter_eq_nil_iff.mpr (fun entry inside => ?_)
      simpa [alike entry inside] using low

theorem represents_rollback (represents : Represents store log) (blockNumber synced : Nat) :
    Represents (store.rollback blockNumber synced)
      (log.filter (fun entry => entry.1.l2BlockNumber ≤ blockNumber)) where
  indexed := indexed_rollback represents.indexed blockNumber synced
  consistent := {
    unscoped := fun entry inside => represents.consistent.unscoped entry (List.mem_filter.mp inside).1
    same := fun first inFirst second inSecond => represents.consistent.same
      first (List.mem_filter.mp inFirst).1 second (List.mem_filter.mp inSecond).1 }
  held id := by
    have left := events_rollback represents.indexed.coherent blockNumber synced id
    rw [entriesOf_rollback represents.consistent, ← represents.held]
    cases known : store.events[id]? with
    | none =>
      rw [Option.all_none, if_pos rfl, ← represents.held, known, Option.eq_none_iff_forall_ne_some]
      intro event held
      rw [left, known] at held
      cases held.1
    | some event =>
      by_cases low : event.l2BlockNumber ≤ blockNumber
      · rw [if_pos (by simpa using low), ← represents.held, known, left]
        exact ⟨known, low⟩
      · rw [if_neg (by simpa using low)]
        refine Option.eq_none_iff_forall_ne_some.mpr (fun other held => ?_)
        rw [left, known, Option.some.injEq] at held
        obtain ⟨rfl, below⟩ := held
        exact low below

/-! ## Every history -/

theorem represents_empty : Represents {} [] where
  indexed := indexed_empty
  consistent := ⟨by simp, by simp⟩
  held id := by simp [recordOf, entriesOf]

theorem represents_step (represents : Represents store log) {call : Call} (proper : Proper log call) :
    Represents (step store call) (record log call) := by
  cases call with
  | storePrivateEventLog event scope => exact represents_store represents proper
  | rollback blockNumber synced => exact represents_rollback represents blockNumber synced

theorem represents_run (calls : List Call) (proper : Run.Admitted record Proper [] calls) :
    Represents (run calls) (logOf calls) := by
  unfold run logOf
  induction calls using List.reverseRecOn with
  | nil => exact represents_empty
  | append_singleton calls call ih =>
    rw [List.foldl_append, List.foldl_append]
    exact represents_step (ih (Run.admitted_append proper)) (Run.admitted_last proper)

/-- An answer has the events of the log that are wanted. -/
theorem mem_answer_iff (represents : Represents store log) (selector : EventSelector)
    (filter : PrivateEventQueryFilter) (event : StoredPrivateEvent) :
    event ∈ store.getPrivateEvents selector filter ↔
      (∃ entry ∈ log, event = scopedBy log entry.1) ∧ Wanted selector filter event := by
  rw [mem_getPrivateEvents represents.indexed.coherent, represents.held,
    recordOf_eq_some_iff represents.consistent, PrivateEventQueryFilter.accepts_iff]
  constructor
  · rintro ⟨⟨entry, inside, named, rfl⟩, owned, accepted⟩
    obtain ⟨contract, selected⟩ := ContractSelector.mk.inj owned
    exact ⟨⟨entry, inside, rfl⟩, contract, selected, accepted⟩
  · rintro ⟨⟨entry, inside, rfl⟩, contract, selected, accepted⟩
    exact ⟨⟨entry, inside, rfl, rfl⟩, by rw [StoredPrivateEvent.indexKey, contract, selected],
      accepted⟩

theorem answers_of_represents (represents : Represents store log) (selector : EventSelector)
    (filter : PrivateEventQueryFilter) :
    Answers log selector filter (store.getPrivateEvents selector filter) where
  complete := mem_answer_iff represents selector filter
  scopes := by
    intro event inside scope
    obtain ⟨⟨entry, -, rfl⟩, -⟩ := (mem_answer_iff represents selector filter event).mp inside
    exact mem_scopesOf
  once := nodup_getPrivateEvents represents.indexed selector filter
  sorted := pairwise_getPrivateEvents store selector filter

theorem noDangling_of_coherent (coherent : Coherent store) : NoDangling store where
  bySelector _ _ inside := coherent.bySelector.mem_iff.mp inside
  byBlock _ _ inside := coherent.byBlock.mem_iff.mp inside

/-- Every query is answered as the log has it, and a rollback leaves the events at or below
its block and no id without its record. -/
theorem store_answers_as_log (calls : List Call) (proper : Run.Admitted record Proper [] calls) :
    (∀ (selector : EventSelector) (filter : PrivateEventQueryFilter),
      Answers (logOf calls) selector filter ((run calls).getPrivateEvents selector filter)) ∧
    NoDangling (run calls) ∧
    ∀ blockNumber synced : Nat,
      (∀ (id : Fr) (event : StoredPrivateEvent),
        ((run calls).rollback blockNumber synced).events[id]? = some event ↔
          (run calls).events[id]? = some event ∧ event.l2BlockNumber ≤ blockNumber) ∧
      NoDangling ((run calls).rollback blockNumber synced) := by
  have represents := represents_run calls proper
  refine ⟨answers_of_represents represents, noDangling_of_coherent represents.indexed.coherent,
    fun blockNumber synced => ⟨events_rollback represents.indexed.coherent blockNumber synced, ?_⟩⟩
  exact noDangling_of_coherent (represents_rollback represents blockNumber synced).indexed.coherent

/-- An event in block 3, and the same event in block 5. -/
def sampleEvent (block : Nat) : StoredPrivateEvent :=
  ⟨⟨1⟩, 0, [7], 9, ⟨2⟩, [], ⟨4⟩, block, "0x1", some 0, none⟩

/-- The event is stored for two accounts, rolled back and stored in a later block. -/
def sampleCalls : List Call :=
  [.storePrivateEventLog (sampleEvent 3) ⟨8⟩, .storePrivateEventLog (sampleEvent 3) ⟨9⟩,
    .rollback 2 3, .storePrivateEventLog (sampleEvent 5) ⟨9⟩]

/-- The event that came back has the scope it came back with. -/
theorem event_comes_back :
    { sampleEvent 5 with scopes := [⟨9⟩] } ∈
      (run sampleCalls).getPrivateEvents ⟨1⟩ ⟨⟨2⟩, some 5, some 5, [⟨9⟩], none⟩ := by
  have proper : Run.Admitted record Proper [] sampleCalls := by
    refine Run.admitted_cons ⟨rfl, by decide⟩ (Run.admitted_cons ⟨rfl, by decide⟩
      (Run.admitted_cons trivial (Run.admitted_cons ⟨rfl, by decide⟩ Run.admitted_nil)))
  refine (((store_answers_as_log sampleCalls proper).1 _ _).complete _).mpr
    ⟨⟨(sampleEvent 5, ⟨9⟩), by decide, by decide⟩, ?_⟩
  simp [Wanted, sampleEvent]

end AztecPxe.EventLog
