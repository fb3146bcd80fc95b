import AztecPxe.LogService
import AztecPxe.Run
import AztecPxe.SenderTaggingStore

/-! Which tag indexes a sender hands out. Every index is one above the finalized
and the pending ones, and an index that was handed out stays pending under the
zero hash until it is final, so none is handed out twice. What the recipient
scans is a window above the finalized index; `store_pending_indexes` keeps to it,
and `get_next_index` walks out of it. -/
namespace AztecPxe.TagIndexes
open AztecPxe SenderTaggingStore

/-- The calls that change the store. -/
inductive Call where
  | getNextIndex (secret : Fr)
  | storePendingIndexes (preTags : List PreTag)
  | finalizePendingIndexes (secret : Fr) (upToIndex : Nat)
  | dropPendingIndexes (txHashes : List TxHash)
  deriving DecidableEq, Repr

/-- The store after a call, whether it returned `Ok` or not. -/
def step (store : SenderTaggingStore) : Call → SenderTaggingStore
  | .getNextIndex secret => (store.getNextIndex secret).2
  | .storePendingIndexes preTags => (store.storePendingIndexes preTags).2
  | .finalizePendingIndexes secret upToIndex => store.finalizePendingIndexes secret upToIndex
  | .dropPendingIndexes txHashes => store.dropPendingIndexes txHashes

/-- The store after a run of calls from an empty one. -/
def run (calls : List Call) : SenderTaggingStore := calls.foldl step {}

variable {store : SenderTaggingStore} {secret : Fr}

/-- What every stored pre-tag keeps, a whole call of `store_pending_indexes` keeps. -/
theorem keeps_storePendingIndexes {P : SenderTaggingStore → Prop} {preTags : List PreTag}
    (each : ∀ {store after : SenderTaggingStore} {tag : PreTag}, tag ∈ preTags →
      Stored store tag after → P store → P after) (held : P store) :
    P (store.storePendingIndexes preTags).2 := by
  have loop : ∀ (tags : List PreTag), (∀ tag ∈ tags, tag ∈ preTags) → ∀ store, P store →
      P (storeTags tags store).2 := by
    intro tags
    induction tags with
    | nil => exact fun _ _ held => held
    | cons tag rest ih =>
      intro among store held
      unfold storeTags
      cases done : store.storePendingIndex tag with
      | error e => exact held
      | ok after =>
        have kept := each (among tag List.mem_cons_self) (stored_of_ok done) held
        exact ih (fun other inside => among other (.tail _ inside)) after kept
  unfold storePendingIndexes
  cases checkSecrets [] preTags with
  | error e => exact held
  | ok _ => exact loop preTags (fun _ inside => inside) store held

/-! ## The window -/

/-- Every pending index is above the finalized one of its secret, by twenty at
most. -/
def InWindow (store : SenderTaggingStore) : Prop :=
  ∀ secret, ∀ entry ∈ store.getPendingIndexes secret,
    store.getLastFinalizedIndex secret < entry.index ∧
      entry.index ≤ store.getLastFinalizedIndex secret + windowLen

/-- A call for the next index finds the window of the secret, and the numbers of a
`u64`, not used up. -/
def Roomy (store : SenderTaggingStore) : Call → Prop
  | .getNextIndex secret =>
    store.getLastUsedIndex secret < store.getLastFinalizedIndex secret + windowLen ∧
      store.getLastUsedIndex secret + 1 < 2 ^ 64
  | _ => True

theorem getLastUsedIndex_le_window (inWindow : InWindow store) (secret : Fr) :
    store.getLastUsedIndex secret ≤ store.getLastFinalizedIndex secret + windowLen :=
  getLastUsedIndex_le_iff.mpr
    ⟨Nat.le_add_right _ _, fun entry inside => (inWindow secret entry inside).2⟩

theorem inWindow_getNextIndex_iff (inWindow : InWindow store) (secret : Fr) :
    InWindow (store.getNextIndex secret).2 ↔ Roomy store (.getNextIndex secret) := by
  have finalizedLe : store.getLastFinalizedIndex secret ≤ store.getLastUsedIndex secret :=
    le_max_left _ _
  have near := getLastUsedIndex_le_window inWindow secret
  have next : store.nextIndex secret = (store.getLastUsedIndex secret + 1) % 2 ^ 64 := rfl
  constructor
  · intro after
    have handed : (⟨store.nextIndex secret, ⟨0⟩⟩ : PendingTagIndex) ∈
        (store.getNextIndex secret).2.getPendingIndexes secret := by
      rw [getPendingIndexes_getNextIndex, if_pos rfl]
      exact List.mem_append_right _ (List.mem_singleton.mpr rfl)
    obtain ⟨above, within⟩ := after secret _ handed
    simp only [getLastFinalizedIndex_getNextIndex] at above within
    have small : windowLen = 20 := rfl
    constructor <;> omega
  · rintro ⟨room, fits⟩ other entry inside
    rw [getLastFinalizedIndex_getNextIndex]
    rw [getPendingIndexes_getNextIndex] at inside
    split at inside
    next same =>
      subst same
      rcases List.mem_append.mp inside with old | new
      · exact inWindow other entry old
      · rw [List.mem_singleton.mp new]
        dsimp only
        rw [next, Nat.mod_eq_of_lt fits]
        omega
    next => exact inWindow other entry inside

theorem inWindow_of_stored {after : SenderTaggingStore} {tag : PreTag}
    (stored : Stored store tag after) (inWindow : InWindow store) : InWindow after := by
  intro other entry inside
  rw [stored.finalized]
  rw [stored.pending] at inside
  split at inside
  next same =>
    subst same
    rcases List.mem_append.mp inside with old | new
    · exact inWindow _ entry (List.mem_of_mem_filter old)
    · rw [List.mem_singleton.mp new]
      exact ⟨stored.above, stored.within⟩
  next => exact inWindow other entry inside

theorem inWindow_dropPendingIndexes (inWindow : InWindow store) (txHashes : List TxHash) :
    InWindow (store.dropPendingIndexes txHashes) := by
  intro other entry inside
  rw [getPendingIndexes_dropPendingIndexes] at inside
  exact inWindow other entry (List.mem_of_mem_filter inside)

theorem inWindow_finalizePendingIndexes (inWindow : InWindow store) (secret : Fr)
    (upToIndex : Nat) : InWindow (store.finalizePendingIndexes secret upToIndex) := by
  intro other entry inside
  rw [getPendingIndexes_finalizePendingIndexes] at inside
  rw [getLastFinalizedIndex_finalizePendingIndexes]
  split at inside
  next same =>
    obtain ⟨old, later⟩ := List.mem_filter.mp inside
    obtain ⟨above, within⟩ := inWindow other entry old
    have higher : upToIndex < entry.index := by simpa using later
    rw [if_pos same]
    omega
  next different =>
    rw [if_neg different]
    exact inWindow other entry inside

/-- A call leaves the window exactly where it hands out an index that has no room. -/
theorem inWindow_step_iff (inWindow : InWindow store) (call : Call) :
    InWindow (step store call) ↔ Roomy store call := by
  cases call with
  | getNextIndex secret => exact inWindow_getNextIndex_iff inWindow secret
  | storePendingIndexes preTags =>
    exact iff_of_true (keeps_storePendingIndexes (fun _ => inWindow_of_stored) inWindow) trivial
  | finalizePendingIndexes secret upToIndex =>
    exact iff_of_true (inWindow_finalizePendingIndexes inWindow secret upToIndex) trivial
  | dropPendingIndexes txHashes =>
    exact iff_of_true (inWindow_dropPendingIndexes inWindow txHashes) trivial

theorem inWindow_empty : InWindow {} := by
  intro secret entry inside
  simp [getPendingIndexes] at inside

/-- The indexes whose tags a fetch asks for, above a finalized index. -/
def scanned (finalized : Nat) : List Nat :=
  List.range' ((finalized + 1) % 2 ^ 64)
    ((finalized + LogService.windowLen) % 2 ^ 64 + 1 - (finalized + 1) % 2 ^ 64)

theorem mem_scanned_iff {finalized i : Nat} (room : finalized + windowLen < 2 ^ 64) :
    i ∈ scanned finalized ↔ finalized < i ∧ i ≤ finalized + windowLen := by
  have same : LogService.windowLen = windowLen := rfl
  have first : (finalized + 1) % 2 ^ 64 = finalized + 1 := by
    apply Nat.mod_eq_of_lt
    unfold windowLen at room
    omega
  unfold scanned
  rw [same, first, Nat.mod_eq_of_lt room, List.mem_range'_1]
  omega

/-- The sender stays inside the window in every state of a run exactly where each
index is handed out with room for it; and that window is what a recipient scans. -/
theorem pending_in_window_iff (calls : List Call) :
    ((∀ before after, calls = before ++ after → InWindow (run before)) ↔
      Run.Admitted step Roomy {} calls) ∧
    ∀ finalized i, finalized + windowLen < 2 ^ 64 →
      (i ∈ scanned finalized ↔ finalized < i ∧ i ≤ finalized + windowLen) := by
  exact ⟨Run.always_iff inWindow_empty (fun call inWindow => inWindow_step_iff inWindow call) calls,
    fun finalized i room => mem_scanned_iff room⟩

/-- The twenty-first index in a row is out of the window. -/
theorem many_indexes_leave_window :
    ¬ InWindow (run (List.replicate 21 (.getNextIndex 7))) := by
  intro inWindow
  have pending : (⟨21, ⟨0⟩⟩ : PendingTagIndex) ∈
      (run (List.replicate 21 (.getNextIndex 7))).getPendingIndexes 7 := by decide +kernel
  have within := (inWindow 7 _ pending).2
  revert within
  decide +kernel

/-! ## No index twice -/

/-- Something at or above this index is final, or was handed out and is pending. -/
def Reserved (secret : Fr) (index : Nat) (store : SenderTaggingStore) : Prop :=
  index ≤ store.getLastFinalizedIndex secret ∨
    ∃ entry ∈ store.getPendingIndexes secret, entry.txHash = ⟨0⟩ ∧ index ≤ entry.index

/-- No transaction hash that is dropped is zero, and no index has reached
`u64::MAX` where the next one is asked for. -/
def Proper (store : SenderTaggingStore) : Call → Prop
  | .getNextIndex secret => store.getLastUsedIndex secret < 2 ^ 64 - 1
  | .dropPendingIndexes txHashes => ⟨0⟩ ∉ txHashes
  | _ => True

/-- What the call returns for the secret, if it is one for its next index. -/
def returned (store : SenderTaggingStore) (secret : Fr) : Call → Option Nat
  | .getNextIndex asked => if asked = secret then some (store.getNextIndex secret).1 else none
  | _ => none

theorem returned_getNextIndex (store : SenderTaggingStore) (secret asked : Fr) :
    returned store secret (.getNextIndex asked) =
      if asked = secret then some (store.nextIndex secret) else none := rfl

/-- The indexes a run hands out for a secret, in order. -/
def handedOut (secret : Fr) : SenderTaggingStore → List Call → List Nat
  | _, [] => []
  | store, call :: rest =>
    (returned store secret call).toList ++ handedOut secret (step store call) rest

theorem handedOut_cons (secret : Fr) (store : SenderTaggingStore) (call : Call) (rest : List Call) :
    handedOut secret store (call :: rest) =
      (returned store secret call).toList ++ handedOut secret (step store call) rest := rfl

/-- The call may change what the store holds for the secret. -/
def Concerns (secret : Fr) : Call → Prop
  | .getNextIndex asked => asked = secret
  | .storePendingIndexes preTags => secret ∈ preTags.map (·.secret)
  | .finalizePendingIndexes asked _ => asked = secret
  | .dropPendingIndexes _ => True

instance (secret : Fr) : DecidablePred (Concerns secret)
  | .getNextIndex asked => inferInstanceAs (Decidable (asked = secret))
  | .storePendingIndexes preTags => inferInstanceAs (Decidable (secret ∈ preTags.map (·.secret)))
  | .finalizePendingIndexes asked _ => inferInstanceAs (Decidable (asked = secret))
  | .dropPendingIndexes _ => inferInstanceAs (Decidable True)

/-- The call is about one secret; dropping transactions is about none. -/
def AboutOne : Call → Prop
  | .storePendingIndexes preTags => preTags.length ≤ 1
  | _ => True

/-- What the store holds for a secret. -/
def view (store : SenderTaggingStore) (secret : Fr) : Nat × List PendingTagIndex :=
  (store.getLastFinalizedIndex secret, store.getPendingIndexes secret)

theorem view_getNextIndex (asked : Fr) :
    view (store.getNextIndex asked).2 secret = if secret = asked then
      ((view store secret).1, (view store secret).2 ++ [⟨store.nextIndex secret, ⟨0⟩⟩])
    else view store secret := by
  unfold view
  rw [getPendingIndexes_getNextIndex, getLastFinalizedIndex_getNextIndex]
  split <;> rfl

theorem view_finalizePendingIndexes (asked : Fr) (upToIndex : Nat) :
    view (store.finalizePendingIndexes asked upToIndex) secret = if secret = asked then
      (max (view store secret).1 upToIndex, (view store secret).2.filter (upToIndex < ·.index))
    else view store secret := by
  unfold view
  rw [getPendingIndexes_finalizePendingIndexes, getLastFinalizedIndex_finalizePendingIndexes]
  split <;> rfl

theorem view_dropPendingIndexes (txHashes : List TxHash) :
    view (store.dropPendingIndexes txHashes) secret =
      ((view store secret).1, (view store secret).2.filter (·.txHash ∉ txHashes)) := by
  unfold view
  rw [getPendingIndexes_dropPendingIndexes, getLastFinalizedIndex_dropPendingIndexes]

/-- A call that does not name a secret leaves all the store holds for it. -/
theorem view_of_not_concerns {call : Call} (other : ¬ Concerns secret call) :
    view (step store call) secret = view store secret := by
  cases call with
  | getNextIndex asked =>
    unfold step
    rw [view_getNextIndex, if_neg (Ne.symm other)]
  | finalizePendingIndexes asked upToIndex =>
    unfold step
    rw [view_finalizePendingIndexes, if_neg (Ne.symm other)]
  | dropPendingIndexes txHashes => exact absurd trivial other
  | storePendingIndexes preTags =>
    refine keeps_storePendingIndexes (P := fun after => view after secret = view store secret)
      (fun {before after tag} inside stored same => ?_) rfl
    have apart : secret ≠ tag.secret := fun named =>
      other (named ▸ List.mem_map_of_mem inside)
    rw [← same]
    unfold view
    rw [stored.finalized, stored.pending, if_neg apart]

theorem nextIndex_of_view {again : SenderTaggingStore} (same : view store secret = view again secret) :
    store.nextIndex secret = again.nextIndex secret := by
  obtain ⟨finalized, pending⟩ := Prod.mk.inj same
  unfold nextIndex getLastUsedIndex
  rw [finalized, pending]

theorem storePendingIndexes_single (store : SenderTaggingStore) (tag : PreTag) :
    (store.storePendingIndexes [tag]).2 = (store.storePendingIndex tag).toOption.getD store := by
  have checked : checkSecrets [] [tag] = .ok () := rfl
  unfold storePendingIndexes
  rw [checked]
  dsimp only
  unfold storeTags
  cases store.storePendingIndex tag <;> rfl

/-- A pre-tag is treated alike in stores that hold the same for its secret. -/
theorem view_storePendingIndexes_single {again : SenderTaggingStore} {tag : PreTag}
    (same : view store tag.secret = view again tag.secret) :
    view (store.storePendingIndexes [tag]).2 tag.secret =
      view (again.storePendingIndexes [tag]).2 tag.secret := by
  obtain ⟨finalized, pending⟩ := Prod.mk.inj same
  have alike : (∃ after, store.storePendingIndex tag = .ok after) ↔
      ∃ after, again.storePendingIndex tag = .ok after := by
    rw [storePendingIndex_ok_iff, storePendingIndex_ok_iff, finalized, pending]
  rw [storePendingIndexes_single, storePendingIndexes_single]
  cases done : store.storePendingIndex tag with
  | error e =>
    cases done' : again.storePendingIndex tag with
    | error e' => exact same
    | ok after' =>
      obtain ⟨after, impossible⟩ := alike.mpr ⟨after', done'⟩
      rw [done] at impossible
      cases impossible
  | ok after =>
    obtain ⟨after', done'⟩ := alike.mp ⟨after, done⟩
    have stored := stored_of_ok done
    have stored' := stored_of_ok done'
    rw [done']
    change view after tag.secret = view after' tag.secret
    unfold view
    rw [stored.finalized, stored'.finalized, stored.pending, stored'.pending, if_pos rfl,
      if_pos rfl, finalized, pending]

/-- A call about one secret treats stores alike that hold the same for it. -/
theorem view_step_congr {again : SenderTaggingStore} {call : Call}
    (same : view store secret = view again secret) (about : AboutOne call) :
    view (step store call) secret = view (step again call) secret := by
  by_cases named : Concerns secret call
  · cases call with
    | getNextIndex asked =>
      cases named
      unfold step
      rw [view_getNextIndex, view_getNextIndex, if_pos rfl, if_pos rfl, same, nextIndex_of_view same]
    | finalizePendingIndexes asked upToIndex =>
      cases named
      unfold step
      rw [view_finalizePendingIndexes, view_finalizePendingIndexes, same]
    | dropPendingIndexes txHashes =>
      unfold step
      rw [view_dropPendingIndexes, view_dropPendingIndexes, same]
    | storePendingIndexes preTags =>
      match preTags with
      | [] => exact absurd named (by simp [Concerns])
      | [tag] =>
        obtain rfl : secret = tag.secret := by simpa [Concerns] using named
        exact view_storePendingIndexes_single same
      | _ :: _ :: _ => exact absurd about (by simp [AboutOne])
  · rw [view_of_not_concerns named, view_of_not_concerns named, same]

/-- In a run of calls about one secret each, those about other secrets can be left
out. -/
theorem handedOut_filter {calls : List Call} (about : ∀ call ∈ calls, AboutOne call)
    {again : SenderTaggingStore} (same : view store secret = view again secret) :
    handedOut secret store calls = handedOut secret again (calls.filter (Concerns secret)) := by
  induction calls generalizing store again with
  | nil => rfl
  | cons call rest ih =>
    have later := fun other inside => about other (List.mem_cons_of_mem call inside)
    by_cases named : Concerns secret call
    · have answer : returned store secret call = returned again secret call := by
        cases call with
        | getNextIndex asked =>
          rw [returned_getNextIndex, returned_getNextIndex, nextIndex_of_view same]
        | _ => rfl
      rw [List.filter_cons_of_pos (by simpa using named), handedOut_cons, handedOut_cons, answer,
        ih later (view_step_congr same (about call List.mem_cons_self))]
    · have silent : returned store secret call = none := by
        cases call with
        | getNextIndex asked => exact if_neg named
        | _ => rfl
      rw [List.filter_cons_of_neg (by simpa using named), handedOut_cons, silent,
        ih later ((view_of_not_concerns named).trans same)]
      rfl

/-! What is reserved stays below the next index. -/

theorem Reserved.lt_next {index : Nat} (reserved : Reserved secret index store)
    (small : store.getLastUsedIndex secret < 2 ^ 64 - 1) : index < store.nextIndex secret := by
  obtain ⟨finalizedLe, pendingLe⟩ : store.getLastFinalizedIndex secret ≤
      store.getLastUsedIndex secret ∧ ∀ entry ∈ store.getPendingIndexes secret,
        entry.index ≤ store.getLastUsedIndex secret := getLastUsedIndex_le_iff.mp le_rfl
  unfold nextIndex
  rw [Nat.mod_eq_of_lt (by omega)]
  rcases reserved with final | ⟨entry, inside, -, below⟩
  · omega
  · have := pendingLe entry inside
    omega

theorem Reserved.step {index : Nat} (reserved : Reserved secret index store) {call : Call}
    (proper : Proper store call) : Reserved secret index (step store call) := by
  cases call with
  | getNextIndex asked =>
    rcases reserved with final | ⟨entry, inside, zero, below⟩
    · exact .inl final
    · refine .inr ⟨entry, ?_, zero, below⟩
      unfold TagIndexes.step
      rw [getPendingIndexes_getNextIndex]
      split
      · exact List.mem_append_left _ inside
      · exact inside
  | finalizePendingIndexes asked upToIndex =>
    unfold TagIndexes.step
    unfold Reserved
    rw [getLastFinalizedIndex_finalizePendingIndexes, getPendingIndexes_finalizePendingIndexes]
    by_cases same : secret = asked
    · rw [if_pos same, if_pos same]
      rcases reserved with final | ⟨entry, inside, zero, below⟩
      · exact .inl (le_max_of_le_left final)
      · by_cases later : upToIndex < entry.index
        · exact .inr ⟨entry, List.mem_filter.mpr ⟨inside, by simpa using later⟩, zero, below⟩
        · exact .inl (le_max_of_le_right (by omega))
    · rw [if_neg same, if_neg same]
      exact reserved
  | dropPendingIndexes txHashes =>
    rcases reserved with final | ⟨entry, inside, zero, below⟩
    · exact .inl final
    · refine .inr ⟨entry, ?_, zero, below⟩
      unfold TagIndexes.step
      rw [getPendingIndexes_dropPendingIndexes]
      have kept : entry.txHash ∉ txHashes := by
        rw [zero]
        exact proper
      exact List.mem_filter.mpr ⟨inside, by simpa using kept⟩
  | storePendingIndexes preTags =>
    refine keeps_storePendingIndexes (P := Reserved secret index)
      (fun {before after tag} _ stored held => ?_) reserved
    unfold Reserved
    rw [stored.finalized, stored.pending]
    rcases held with final | ⟨entry, inside, zero, below⟩
    · exact .inl final
    · right
      split
      next named =>
        by_cases replaced : entry.txHash = tag.txHash
        · -- The entry of the same hash had the same index and is written again.
          have same : entry.index = tag.index :=
            stored.agrees entry (named ▸ inside) replaced
          exact ⟨⟨tag.index, tag.txHash⟩, List.mem_append_right _ (List.mem_singleton.mpr rfl),
            replaced ▸ zero, same ▸ below⟩
        · exact ⟨entry, List.mem_append_left _ (List.mem_filter.mpr ⟨inside, by simpa using replaced⟩),
            zero, below⟩
      next => exact ⟨entry, inside, zero, below⟩

theorem reserved_getNextIndex (store : SenderTaggingStore) (secret : Fr) :
    Reserved secret (store.nextIndex secret) (store.getNextIndex secret).2 := by
  refine .inr ⟨⟨store.nextIndex secret, ⟨0⟩⟩, ?_, rfl, le_rfl⟩
  rw [getPendingIndexes_getNextIndex, if_pos rfl]
  exact List.mem_append_right _ (List.mem_singleton.mpr rfl)

theorem reserved_finalizePendingIndexes (store : SenderTaggingStore) (secret : Fr)
    (upToIndex : Nat) :
    Reserved secret upToIndex (store.finalizePendingIndexes secret upToIndex) := by
  left
  rw [getLastFinalizedIndex_finalizePendingIndexes, if_pos rfl]
  exact le_max_right _ _

theorem Reserved.foldl {index : Nat} {calls : List Call} (reserved : Reserved secret index store)
    (proper : Run.Admitted TagIndexes.step Proper store calls) :
    Reserved secret index (calls.foldl TagIndexes.step store) :=
  Run.invariant reserved (fun held admits => Reserved.step held admits) calls proper

/-- Everything handed out later is above what is reserved. -/
theorem Reserved.lt_handedOut {index : Nat} {calls : List Call}
    (reserved : Reserved secret index store)
    (proper : Run.Admitted TagIndexes.step Proper store calls) :
    ∀ next ∈ handedOut secret store calls, index < next := by
  induction calls generalizing store with
  | nil => exact fun _ inside => nomatch inside
  | cons call rest ih =>
    intro next inside
    rw [handedOut_cons, List.mem_append] at inside
    rcases inside with here | later
    · cases call with
      | getNextIndex asked =>
        rw [Option.mem_toList, returned_getNextIndex] at here
        split at here
        next same =>
          subst same
          cases here
          have small : Proper store (.getNextIndex asked) := Run.admitted_head proper
          exact reserved.lt_next small
        next => cases here
      | _ => cases here
    · exact ih (reserved.step (Run.admitted_head proper)) (Run.admitted_tail proper) next later

theorem handedOut_increasing {calls : List Call}
    (proper : Run.Admitted TagIndexes.step Proper store calls) :
    (handedOut secret store calls).Pairwise (· < ·) := by
  induction calls generalizing store with
  | nil => exact .nil
  | cons call rest ih =>
    have tail := ih (Run.admitted_tail proper)
    rw [handedOut_cons]
    cases call with
    | getNextIndex asked =>
      rw [returned_getNextIndex]
      split
      next same =>
        subst same
        refine List.pairwise_cons.mpr ⟨?_, tail⟩
        exact (reserved_getNextIndex store asked).lt_handedOut (Run.admitted_tail proper)
      next => exact tail
    | _ => exact tail

/-- Tag indexes are not reused: those of one secret increase, each is above what is
final and pending for the secret where it is handed out, and calls that do not name
the secret leave all that is held for it. -/
theorem indexes_not_reused (start : SenderTaggingStore) (calls : List Call)
    (proper : Run.Admitted step Proper start calls) (secret : Fr) :
    (handedOut secret start calls).Pairwise (· < ·) ∧
    (∀ before after, calls = before ++ .getNextIndex secret :: after →
      (∀ upToIndex, .finalizePendingIndexes secret upToIndex ∈ before →
        upToIndex < ((before.foldl step start).getNextIndex secret).1) ∧
      (before.foldl step start).getLastFinalizedIndex secret <
        ((before.foldl step start).getNextIndex secret).1 ∧
      ∀ entry ∈ (before.foldl step start).getPendingIndexes secret,
        entry.index < ((before.foldl step start).getNextIndex secret).1) ∧
    (∀ before call after, calls = before ++ call :: after → ¬ Concerns secret call →
      view (step (before.foldl step start) call) secret = view (before.foldl step start) secret) ∧
    ((∀ call ∈ calls, AboutOne call) →
      handedOut secret start calls =
        handedOut secret start (calls.filter (Concerns secret))) := by
  refine ⟨handedOut_increasing proper, fun before after split => ?_,
    fun before call after _ other => view_of_not_concerns other,
    fun about => handedOut_filter about rfl⟩
  have small : (before.foldl step start).getLastUsedIndex secret < 2 ^ 64 - 1 :=
    proper before _ after split
  have next : ((before.foldl step start).getNextIndex secret).1 =
      (before.foldl step start).getLastUsedIndex secret + 1 := by
    change (_ + 1) % 2 ^ 64 = _
    rw [Nat.mod_eq_of_lt (by omega)]
  obtain ⟨finalizedLe, pendingLe⟩ :
      (before.foldl step start).getLastFinalizedIndex secret ≤
        (before.foldl step start).getLastUsedIndex secret ∧
      ∀ entry ∈ (before.foldl step start).getPendingIndexes secret,
        entry.index ≤ (before.foldl step start).getLastUsedIndex secret :=
    getLastUsedIndex_le_iff.mp le_rfl
  refine ⟨fun upToIndex inside => ?_, by omega, fun entry inside => ?_⟩
  · obtain ⟨early, late, rfl⟩ := List.append_of_mem inside
    have reserved := reserved_finalizePendingIndexes (early.foldl step start) secret upToIndex
    rw [split, List.append_assoc] at proper
    have rest : Run.Admitted step Proper (early.foldl step start)
        (.finalizePendingIndexes secret upToIndex :: late) :=
      Run.admitted_append (Run.admitted_drop proper)
    have held := reserved.foldl (Run.admitted_tail rest)
    have reached : (early ++ Call.finalizePendingIndexes secret upToIndex :: late).foldl step start =
        late.foldl step (step (early.foldl step start) (.finalizePendingIndexes secret upToIndex)) := by
      rw [List.foldl_append, List.foldl_cons]
    rw [reached] at small ⊢
    exact held.lt_next small
  · have below := pendingLe entry inside
    omega

/-- An index whose transaction is dropped is handed out no second time. -/
theorem dropped_index_is_not_reused :
    handedOut 7 {} [.getNextIndex 7, .storePendingIndexes [⟨7, 1, ⟨1⟩⟩], .dropPendingIndexes [⟨1⟩],
      .getNextIndex 7] = [1, 2] ∧
    (handedOut 7 {} [.getNextIndex 7, .storePendingIndexes [⟨7, 1, ⟨1⟩⟩],
      .dropPendingIndexes [⟨1⟩], .getNextIndex 7]).Pairwise (· < ·) := by
  refine ⟨by decide +kernel, (indexes_not_reused {} _ ?_ 7).1⟩
  refine Run.admitted_cons ?_ (Run.admitted_cons trivial (Run.admitted_cons ?_
    (Run.admitted_cons ?_ Run.admitted_nil)))
  · unfold Proper
    decide +kernel
  · unfold Proper
    decide +kernel
  · unfold Proper
    decide +kernel

end AztecPxe.TagIndexes
