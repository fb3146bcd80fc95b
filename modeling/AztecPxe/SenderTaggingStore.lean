import AztecPxe.Json

/-! The index counters of `stores/sender_tagging_store.rs`. For each tagging
secret the store holds the indexes that were handed out and are not yet final,
under `sender_tag:pending:{secret}`, and the last final one, under
`sender_tag:finalized:{secret}`. The next index is one above both. -/
namespace AztecPxe

/-- `sender_tagging_store.rs::PendingTagIndex`. -/
structure PendingTagIndex where
  index : Nat
  txHash : TxHash
  deriving DecidableEq, Repr

/-- `sender_tagging_store.rs::PreTag`. -/
structure PreTag where
  secret : Fr
  index : Nat
  txHash : TxHash
  deriving DecidableEq, Repr

/-- The part of the key-value store the sender tagging store owns. -/
structure SenderTaggingStore where
  pending : Std.ExtTreeMap Fr (List PendingTagIndex) := ∅
  finalized : Std.ExtTreeMap Fr Nat := ∅

namespace SenderTaggingStore
variable (store : SenderTaggingStore) (secret : Fr)

/-- `SenderTaggingStore::get_last_finalized_index`. -/
def getLastFinalizedIndex : Nat := (store.finalized[secret]?).getD 0

/-- `SenderTaggingStore::get_pending_indexes`. -/
def getPendingIndexes : List PendingTagIndex := (store.pending[secret]?).getD []

/-- `SenderTaggingStore::get_last_used_index`; `max().unwrap_or(0)` starts from
zero. -/
def getLastUsedIndex : Nat :=
  max (store.getLastFinalizedIndex secret)
    (((store.getPendingIndexes secret).map (·.index)).foldl max 0)

/-- The index the next call hands out, which wraps in a release build. -/
def nextIndex : Nat := (store.getLastUsedIndex secret + 1) % 2 ^ 64

/-- `SenderTaggingStore::get_next_index`: the index is handed out and at once
pending, for no transaction. -/
def getNextIndex : Nat × SenderTaggingStore :=
  let next := store.nextIndex secret
  (next, { store with pending :=
    store.pending.insert secret (store.getPendingIndexes secret ++ [⟨next, ⟨0⟩⟩]) })

/-- `UNFINALIZED_TAGGING_INDEXES_WINDOW_LEN`. -/
def windowLen : Nat := 20

/-- The first loop of `store_pending_indexes`, with the secrets seen so far. -/
def checkSecrets (seen : List Fr) : List PreTag → Except Error Unit
  | [] => .ok ()
  | tag :: rest =>
    if seen.contains tag.secret then
      .error (.invalidData ("duplicate secret in pre-tags: " ++ hex32 tag.secret.val))
    else checkSecrets (tag.secret :: seen) rest

/-- The turn of `store_pending_indexes` for one pre-tag. -/
def storePendingIndex (tag : PreTag) : Except Error SenderTaggingStore :=
  let finalized := store.getLastFinalizedIndex tag.secret
  if (finalized + windowLen) % 2 ^ 64 < tag.index then
    .error (.invalidData ("pending index " ++ toString tag.index ++
      " is too far ahead of finalized index " ++ toString finalized ++ " (window=" ++
      toString windowLen ++ ")"))
  else if tag.index ≤ finalized then
    .error (.invalidData ("pending index " ++ toString tag.index ++
      " is not greater than finalized index " ++ toString finalized))
  else
    let existing := store.getPendingIndexes tag.secret
    match existing.find? (fun entry => entry.txHash = tag.txHash ∧ entry.index ≠ tag.index) with
    | some entry =>
      .error (.invalidData ("conflicting pending index: secret=" ++ hex32 tag.secret.val ++
        " tx_hash=" ++ hex32 tag.txHash.bytes.val ++ " existing_index=" ++ toString entry.index ++
        " new_index=" ++ toString tag.index))
    | none =>
      let pending := existing.filter (·.txHash ≠ tag.txHash) ++ [⟨tag.index, tag.txHash⟩]
      .ok { store with pending := store.pending.insert tag.secret pending }

/-- The second loop of `store_pending_indexes`; what was stored before a tag that
is refused stays stored. -/
def storeTags : List PreTag → SenderTaggingStore → Except Error Unit × SenderTaggingStore
  | [], store => (.ok (), store)
  | tag :: rest, store =>
    match store.storePendingIndex tag with
    | .error e => (.error e, store)
    | .ok after => storeTags rest after

/-- `SenderTaggingStore::store_pending_indexes`. -/
def storePendingIndexes (preTags : List PreTag) : Except Error Unit × SenderTaggingStore :=
  match checkSecrets [] preTags with
  | .error e => (.error e, store)
  | .ok () => storeTags preTags store

/-- `SenderTaggingStore::drop_pending_indexes`: an entry that loses nothing is not
written, one that loses everything is deleted. -/
def dropPendingIndexes (txHashes : List TxHash) : SenderTaggingStore :=
  { store with pending := store.pending.filterMap (fun _ pending =>
      let kept := pending.filter (·.txHash ∉ txHashes)
      if kept.length = pending.length then some pending
      else if kept.isEmpty then none
      else some kept) }

/-- `SenderTaggingStore::finalize_pending_indexes`. -/
def finalizePendingIndexes (upToIndex : Nat) : SenderTaggingStore :=
  let pending := (store.getPendingIndexes secret).filter (upToIndex < ·.index)
  { finalized :=
      if store.getLastFinalizedIndex secret < upToIndex then
        store.finalized.insert secret upToIndex
      else store.finalized
    pending :=
      if pending.isEmpty then store.pending.erase secret
      else store.pending.insert secret pending }

variable {store secret} {other : Fr}

/-! ## What each call does to one secret -/

theorem getPendingIndexes_getNextIndex :
    (store.getNextIndex secret).2.getPendingIndexes other =
      if other = secret then store.getPendingIndexes other ++ [⟨store.nextIndex other, ⟨0⟩⟩]
      else store.getPendingIndexes other := by
  by_cases same : other = secret
  · subst same
    simp [getNextIndex, getPendingIndexes]
  · simp [getNextIndex, getPendingIndexes, Std.ExtTreeMap.getElem?_insert, same, Ne.symm same]

@[simp] theorem getLastFinalizedIndex_getNextIndex :
    (store.getNextIndex secret).2.getLastFinalizedIndex other =
      store.getLastFinalizedIndex other := rfl

/-- What a pre-tag that is stored was checked for, and what it leaves. -/
structure Stored (store : SenderTaggingStore) (tag : PreTag) (after : SenderTaggingStore) :
    Prop where
  above : store.getLastFinalizedIndex tag.secret < tag.index
  within : tag.index ≤ store.getLastFinalizedIndex tag.secret + windowLen
  agrees : ∀ entry ∈ store.getPendingIndexes tag.secret, entry.txHash = tag.txHash →
    entry.index = tag.index
  finalized : ∀ other, after.getLastFinalizedIndex other = store.getLastFinalizedIndex other
  pending : ∀ other, after.getPendingIndexes other =
    if other = tag.secret then
      (store.getPendingIndexes other).filter (·.txHash ≠ tag.txHash) ++ [⟨tag.index, tag.txHash⟩]
    else store.getPendingIndexes other

theorem stored_of_ok {tag : PreTag} {after : SenderTaggingStore}
    (done : store.storePendingIndex tag = .ok after) : Stored store tag after := by
  unfold storePendingIndex at done
  dsimp only at done
  split at done
  · cases done
  next near =>
  split at done
  · cases done
  next above =>
  split at done
  · cases done
  next agrees =>
  cases done
  constructor
  case above => omega
  case within =>
    have wrapped : (store.getLastFinalizedIndex tag.secret + windowLen) % 2 ^ 64 ≤
        store.getLastFinalizedIndex tag.secret + windowLen := Nat.mod_le _ _
    omega
  case agrees =>
    intro entry inside same
    have refused := List.find?_eq_none.mp agrees entry inside
    simpa [same] using refused
  case finalized => exact fun _ => rfl
  case pending =>
    intro other
    by_cases same : other = tag.secret
    · subst same
      simp [getPendingIndexes]
    · simp [getPendingIndexes, Std.ExtTreeMap.getElem?_insert, same, Ne.symm same]

/-- Whether a pre-tag is stored depends on what is held for its secret. -/
theorem storePendingIndex_ok_iff {tag : PreTag} :
    (∃ after, store.storePendingIndex tag = .ok after) ↔
      tag.index ≤ (store.getLastFinalizedIndex tag.secret + windowLen) % 2 ^ 64 ∧
      store.getLastFinalizedIndex tag.secret < tag.index ∧
      ∀ entry ∈ store.getPendingIndexes tag.secret, entry.txHash = tag.txHash →
        entry.index = tag.index := by
  constructor
  · rintro ⟨after, done⟩
    have stored := stored_of_ok done
    refine ⟨?_, stored.above, stored.agrees⟩
    by_contra far
    unfold storePendingIndex at done
    dsimp only at done
    rw [if_pos (Nat.lt_of_not_le far)] at done
    cases done
  · rintro ⟨near, above, agrees⟩
    unfold storePendingIndex
    dsimp only
    rw [if_neg (Nat.not_lt.mpr near), if_neg (Nat.not_le.mpr above)]
    have compatible : (store.getPendingIndexes tag.secret).find?
        (fun entry => entry.txHash = tag.txHash ∧ entry.index ≠ tag.index) = none := by
      apply List.find?_eq_none.mpr
      intro entry inside
      simpa using agrees entry inside
    rw [compatible]
    exact ⟨_, rfl⟩

@[simp] theorem getLastFinalizedIndex_dropPendingIndexes (txHashes : List TxHash) :
    (store.dropPendingIndexes txHashes).getLastFinalizedIndex other =
      store.getLastFinalizedIndex other := rfl

theorem getPendingIndexes_dropPendingIndexes (txHashes : List TxHash) :
    (store.dropPendingIndexes txHashes).getPendingIndexes other =
      (store.getPendingIndexes other).filter (·.txHash ∉ txHashes) := by
  unfold dropPendingIndexes getPendingIndexes
  rw [Std.ExtTreeMap.getElem?_filterMap']
  cases store.pending[other]? with
  | none => rfl
  | some pending =>
    dsimp only [Option.bind_some, Option.getD_some]
    split
    next whole => exact (List.filter_sublist.eq_of_length whole).symm
    next =>
      split
      next nothing => exact (List.isEmpty_iff.mp nothing).symm
      next => rfl

theorem getLastFinalizedIndex_finalizePendingIndexes (upToIndex : Nat) :
    (store.finalizePendingIndexes secret upToIndex).getLastFinalizedIndex other =
      if other = secret then max (store.getLastFinalizedIndex other) upToIndex
      else store.getLastFinalizedIndex other := by
  by_cases same : other = secret
  · subst same
    rw [if_pos rfl]
    by_cases higher : store.getLastFinalizedIndex other < upToIndex
    · rw [max_eq_right (Nat.le_of_lt higher)]
      simp only [finalizePendingIndexes, if_pos higher]
      simp [getLastFinalizedIndex]
    · rw [max_eq_left (Nat.le_of_not_lt higher)]
      simp only [finalizePendingIndexes, if_neg higher]
      rfl
  · rw [if_neg same]
    by_cases higher : store.getLastFinalizedIndex secret < upToIndex
    · simp only [finalizePendingIndexes, if_pos higher]
      simp [getLastFinalizedIndex, Std.ExtTreeMap.getElem?_insert, Ne.symm same]
    · simp only [finalizePendingIndexes, if_neg higher]
      rfl

theorem getPendingIndexes_finalizePendingIndexes (upToIndex : Nat) :
    (store.finalizePendingIndexes secret upToIndex).getPendingIndexes other =
      if other = secret then (store.getPendingIndexes other).filter (upToIndex < ·.index)
      else store.getPendingIndexes other := by
  unfold finalizePendingIndexes
  dsimp only
  by_cases same : other = secret
  · subst same
    rw [if_pos rfl]
    split
    next nothing =>
      rw [List.isEmpty_iff.mp nothing]
      simp [getPendingIndexes]
    next =>
      simp [getPendingIndexes]
  · rw [if_neg same]
    split
    · simp [getPendingIndexes, Std.ExtTreeMap.getElem?_erase, Ne.symm same]
    · simp [getPendingIndexes, Std.ExtTreeMap.getElem?_insert, Ne.symm same]

private theorem foldl_max_le_iff {indexes : List Nat} {start bound : Nat} :
    indexes.foldl max start ≤ bound ↔ start ≤ bound ∧ ∀ i ∈ indexes, i ≤ bound := by
  induction indexes generalizing start with
  | nil => simp
  | cons index rest ih =>
    rw [List.foldl_cons, ih, max_le_iff, List.forall_mem_cons, and_assoc]

/-- The last used index is the least bound of the final and the pending ones. -/
theorem getLastUsedIndex_le_iff {bound : Nat} :
    store.getLastUsedIndex secret ≤ bound ↔ store.getLastFinalizedIndex secret ≤ bound ∧
      ∀ entry ∈ store.getPendingIndexes secret, entry.index ≤ bound := by
  unfold getLastUsedIndex
  rw [max_le_iff, foldl_max_le_iff, List.forall_mem_map]
  simp only [Nat.zero_le, true_and]

/-- Only the last index can be handed out without being used up. -/
theorem getLastUsedIndex_getNextIndex :
    (store.getNextIndex secret).2.getLastUsedIndex other =
      if other = secret ∧ store.getLastUsedIndex secret + 1 < 2 ^ 64 then
        store.getLastUsedIndex secret + 1
      else store.getLastUsedIndex other := by
  by_cases same : other = secret
  · subst same
    have pushed : (store.getNextIndex other).2.getPendingIndexes other =
        store.getPendingIndexes other ++ [⟨store.nextIndex other, ⟨0⟩⟩] := by
      simp [getNextIndex, getPendingIndexes]
    have kept : (store.getNextIndex other).2.getLastFinalizedIndex other =
        store.getLastFinalizedIndex other := rfl
    have last : (store.getNextIndex other).2.getLastUsedIndex other =
        max (store.getLastUsedIndex other) (store.nextIndex other) := by
      unfold getLastUsedIndex
      rw [pushed, kept, List.map_append, List.foldl_append]
      exact (max_assoc _ _ _).symm
    have next : store.nextIndex other = (store.getLastUsedIndex other + 1) % 2 ^ 64 := rfl
    by_cases fits : store.getLastUsedIndex other + 1 < 2 ^ 64
    · rw [last, next, if_pos ⟨rfl, fits⟩]
      omega
    · rw [last, next, if_neg (fun both => fits both.2)]
      omega
  · have kept : (store.getNextIndex secret).2.getPendingIndexes other =
        store.getPendingIndexes other := by
      simp [getNextIndex, getPendingIndexes, Std.ExtTreeMap.getElem?_insert, Ne.symm same]
    rw [if_neg (fun both => same both.1)]
    unfold getLastUsedIndex
    rw [kept]
    rfl

/-- The store after a series of calls. -/
def advance (store : SenderTaggingStore) (secrets : List Fr) : SenderTaggingStore :=
  secrets.foldl (fun store secret => (store.getNextIndex secret).2) store

theorem advance_append (store : SenderTaggingStore) (first second : List Fr) :
    store.advance (first ++ second) = (store.advance first).advance second := List.foldl_append

/-- A secret that is not asked for, or has no index left, stays where it is. -/
theorem getLastUsedIndex_advance_of_idle {secrets : List Fr} (store : SenderTaggingStore)
    (idle : other ∈ secrets → 2 ^ 64 ≤ store.getLastUsedIndex other + 1) :
    (store.advance secrets).getLastUsedIndex other = store.getLastUsedIndex other := by
  induction secrets generalizing store with
  | nil => rfl
  | cons secret rest ih =>
    have stays : (store.getNextIndex secret).2.getLastUsedIndex other =
        store.getLastUsedIndex other := by
      rw [getLastUsedIndex_getNextIndex, if_neg]
      rintro ⟨rfl, fits⟩
      exact absurd fits (Nat.not_lt.mpr (idle List.mem_cons_self))
    have later := ih (store.getNextIndex secret).2 (fun inside => by
      rw [stays]
      exact idle (.tail _ inside))
    exact later.trans stays

theorem getLastUsedIndex_le_advance (secrets : List Fr) (store : SenderTaggingStore) :
    store.getLastUsedIndex other ≤ (store.advance secrets).getLastUsedIndex other := by
  induction secrets generalizing store with
  | nil => exact le_rfl
  | cons secret rest ih =>
    refine le_trans ?_ (ih (store.getNextIndex secret).2)
    rw [getLastUsedIndex_getNextIndex]
    split
    next both =>
      rw [both.1]
      exact Nat.le_succ _
    · exact le_rfl

theorem getLastUsedIndex_advance_lt (secrets : List Fr) (store : SenderTaggingStore)
    (fits : store.getLastUsedIndex other < 2 ^ 64) :
    (store.advance secrets).getLastUsedIndex other < 2 ^ 64 := by
  induction secrets generalizing store with
  | nil => exact fits
  | cons secret rest ih =>
    refine ih (store.getNextIndex secret).2 ?_
    rw [getLastUsedIndex_getNextIndex]
    split
    next both => exact both.2
    · exact fits

/-- A secret with an index left that is asked for moves on. -/
theorem getLastUsedIndex_lt_advance {secrets : List Fr} (asked : other ∈ secrets)
    (store : SenderTaggingStore) (fits : store.getLastUsedIndex other + 1 < 2 ^ 64) :
    store.getLastUsedIndex other < (store.advance secrets).getLastUsedIndex other := by
  induction secrets generalizing store with
  | nil => cases asked
  | cons secret rest ih =>
    by_cases same : other = secret
    · have moved : (store.getNextIndex secret).2.getLastUsedIndex other =
          store.getLastUsedIndex secret + 1 := by
        rw [getLastUsedIndex_getNextIndex, if_pos ⟨same, same ▸ fits⟩]
      calc store.getLastUsedIndex other
          < (store.getNextIndex secret).2.getLastUsedIndex other := by
            rw [moved, same]
            exact Nat.lt_succ_self _
        _ ≤ _ := getLastUsedIndex_le_advance rest _
    · have stays : (store.getNextIndex secret).2.getLastUsedIndex other =
          store.getLastUsedIndex other := by
        rw [getLastUsedIndex_getNextIndex, if_neg (fun both => same both.1)]
      have later := ih ((List.mem_cons.mp asked).resolve_left same) (store.getNextIndex secret).2
        (by rw [stays]; exact fits)
      rw [stays] at later
      exact later

/-- Every secret has the next index it had exactly where each one asked for had
none left. -/
theorem nextIndex_advance_iff (secrets : List Fr) (store : SenderTaggingStore) :
    (∀ secret, (store.advance secrets).nextIndex secret = store.nextIndex secret) ↔
      ∀ secret ∈ secrets, 2 ^ 64 ≤ store.getLastUsedIndex secret + 1 := by
  constructor
  · intro same secret asked
    by_contra fits
    rw [Nat.not_le] at fits
    have moved := getLastUsedIndex_lt_advance asked store fits
    have bounded := getLastUsedIndex_advance_lt secrets store (Nat.lt_of_succ_lt fits)
    have next := same secret
    unfold nextIndex at next
    omega
  · intro exhausted secret
    unfold nextIndex
    rw [getLastUsedIndex_advance_of_idle store (exhausted secret)]

/-- Two stores that used the same indexes. -/
def Alike (store other : SenderTaggingStore) : Prop :=
  ∀ secret, store.getLastUsedIndex secret = other.getLastUsedIndex secret

theorem Alike.nextIndex {store again : SenderTaggingStore} (alike : Alike store again)
    (secret : Fr) : store.nextIndex secret = again.nextIndex secret := by
  unfold SenderTaggingStore.nextIndex
  rw [alike secret]

theorem Alike.getNextIndex {store again : SenderTaggingStore} (alike : Alike store again)
    (secret : Fr) : Alike (store.getNextIndex secret).2 (again.getNextIndex secret).2 := by
  intro other
  rw [getLastUsedIndex_getNextIndex, getLastUsedIndex_getNextIndex, alike secret, alike other]

end SenderTaggingStore
end AztecPxe
