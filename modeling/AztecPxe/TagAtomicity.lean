import AztecPxe.TagIndexes

/-! Whether `store_pending_indexes` stores all pre-tags of a transaction or none. The
duplicate secrets are looked for first, everything else is checked and written tag by
tag; a tag that is refused leaves the tags before it stored. -/
namespace AztecPxe.TagAtomicity
open AztecPxe SenderTaggingStore TagIndexes

/-- What `store_pending_indexes` asks of a pre-tag, which depends on its secret only. -/
def Acceptable (store : SenderTaggingStore) (tag : PreTag) : Prop :=
  tag.index ≤ (store.getLastFinalizedIndex tag.secret + windowLen) % 2 ^ 64 ∧
    store.getLastFinalizedIndex tag.secret < tag.index ∧
    ∀ entry ∈ store.getPendingIndexes tag.secret, entry.txHash = tag.txHash →
      entry.index = tag.index

/-- The pending indexes of a secret once the pre-tag is stored. -/
def withTag (pending : List PendingTagIndex) (tag : PreTag) : List PendingTagIndex :=
  pending.filter (·.txHash ≠ tag.txHash) ++ [⟨tag.index, tag.txHash⟩]

/-- The pre-tag is pending already: the last entry of its secret, and the only one of its
transaction. -/
def Settled (store : SenderTaggingStore) (tag : PreTag) : Prop :=
  ∃ others, store.getPendingIndexes tag.secret = others ++ [⟨tag.index, tag.txHash⟩] ∧
    ∀ entry ∈ others, entry.txHash ≠ tag.txHash

/-- No pre-tag is for this secret and the entry's transaction. -/
def untouched (preTags : List PreTag) (secret : Fr) (entry : PendingTagIndex) : Bool :=
  preTags.all (fun tag => tag.secret ≠ secret || tag.txHash ≠ entry.txHash)

/-- An error leaves everything as it was; else every pre-tag is pending once and the entries
of other transactions are those there were. -/
def AllOrNothing (store : SenderTaggingStore) (preTags : List PreTag) : Prop :=
  match store.storePendingIndexes preTags with
  | (.error _, after) => ∀ secret, view after secret = view store secret
  | (.ok (), after) =>
    (∀ tag ∈ preTags, (after.getPendingIndexes tag.secret).filter (·.txHash = tag.txHash) =
      [⟨tag.index, tag.txHash⟩]) ∧
    ∀ secret, after.getLastFinalizedIndex secret = store.getLastFinalizedIndex secret ∧
      (after.getPendingIndexes secret).filter (untouched preTags secret) =
        (store.getPendingIndexes secret).filter (untouched preTags secret)

/-- Whatever precedes the first pre-tag that is refused is pending already. -/
def EarlierSettled (store : SenderTaggingStore) (preTags : List PreTag) : Prop :=
  (preTags.map (·.secret)).Nodup → ∀ before tag late, preTags = before ++ tag :: late →
    (∀ earlier ∈ before, Acceptable store earlier) → ¬ Acceptable store tag →
      ∀ earlier ∈ before, Settled store earlier

variable {store after : SenderTaggingStore} {tag : PreTag} {preTags : List PreTag}

theorem settled_iff : Settled store tag ↔
    withTag (store.getPendingIndexes tag.secret) tag = store.getPendingIndexes tag.secret := by
  constructor
  · rintro ⟨others, pending, apart⟩
    have kept : others.filter (·.txHash ≠ tag.txHash) = others :=
      List.filter_eq_self.mpr (by simpa using apart)
    rw [pending, withTag, List.filter_append, kept]
    simp
  · intro same
    refine ⟨_, same.symm, fun entry inside => ?_⟩
    simpa using (List.mem_filter.mp inside).2

/-- The first loop lets pass exactly the lists that name no secret twice. -/
theorem checkSecrets_iff (seen : List Fr) (preTags : List PreTag) :
    checkSecrets seen preTags = .ok () ↔
      (preTags.map (·.secret)).Nodup ∧ ∀ tag ∈ preTags, tag.secret ∉ seen := by
  induction preTags generalizing seen with
  | nil => simp [checkSecrets]
  | cons tag rest ih =>
    unfold checkSecrets
    by_cases repeated : tag.secret ∈ seen
    · simp [repeated]
    · rw [if_neg (by simpa using repeated), ih]
      simp only [List.map_cons, List.nodup_cons, List.mem_map, List.mem_cons]
      grind

/-- What is left once some pre-tags are stored. -/
structure StoredAll (store : SenderTaggingStore) (tags : List PreTag) (after : SenderTaggingStore) :
    Prop where
  finalized : ∀ secret, after.getLastFinalizedIndex secret = store.getLastFinalizedIndex secret
  named : ∀ tag ∈ tags, after.getPendingIndexes tag.secret =
    withTag (store.getPendingIndexes tag.secret) tag
  unnamed : ∀ secret ∉ tags.map (·.secret),
    after.getPendingIndexes secret = store.getPendingIndexes secret

theorem storedAll_nil : StoredAll store [] store :=
  ⟨fun _ => rfl, by simp, fun _ _ => rfl⟩

theorem storedAll_cons {between : SenderTaggingStore} {rest : List PreTag}
    (fresh : tag.secret ∉ rest.map (·.secret)) (first : Stored store tag between)
    (later : StoredAll between rest after) : StoredAll store (tag :: rest) after where
  finalized secret := (later.finalized secret).trans (first.finalized secret)
  named other inside := by
    rcases List.mem_cons.mp inside with rfl | inside
    · rw [later.unnamed _ fresh, first.pending, if_pos rfl, withTag]
    · have apart : other.secret ≠ tag.secret := fun same =>
        fresh (same ▸ List.mem_map_of_mem inside)
      rw [later.named other inside, first.pending, if_neg apart]
  unnamed secret absent := by
    rw [List.map_cons, List.mem_cons, not_or] at absent
    rw [later.unnamed secret absent.2, first.pending, if_neg absent.1]

/-- A pre-tag that is stored leaves the verdict on pre-tags of other secrets. -/
theorem acceptable_of_stored {other : PreTag} (stored : Stored store tag after)
    (apart : other.secret ≠ tag.secret) : Acceptable after other ↔ Acceptable store other := by
  unfold Acceptable
  rw [stored.finalized, stored.pending, if_neg apart]

/-- The second loop stores all pre-tags, or those before the first it refuses. -/
theorem storeTags_cases (preTags : List PreTag) (store : SenderTaggingStore)
    (distinct : (preTags.map (·.secret)).Nodup) :
    (∃ after, storeTags preTags store = (.ok (), after) ∧
      (∀ tag ∈ preTags, Acceptable store tag) ∧ StoredAll store preTags after) ∨
    ∃ before tag late e after, preTags = before ++ tag :: late ∧
      storeTags preTags store = (.error e, after) ∧ (∀ earlier ∈ before, Acceptable store earlier) ∧
      ¬ Acceptable store tag ∧ StoredAll store before after := by
  induction preTags generalizing store with
  | nil => exact .inl ⟨store, rfl, by simp, storedAll_nil⟩
  | cons tag rest ih =>
    obtain ⟨fresh, distinct⟩ := List.nodup_cons.mp distinct
    unfold storeTags
    cases done : store.storePendingIndex tag with
    | error e =>
      refine .inr ⟨[], tag, rest, e, store, rfl, rfl, by simp, ?_, storedAll_nil⟩
      intro acceptable
      obtain ⟨between, stored⟩ := storePendingIndex_ok_iff.mpr acceptable
      rw [done] at stored
      cases stored
    | ok between =>
      have first := stored_of_ok done
      have accepted : Acceptable store tag := storePendingIndex_ok_iff.mp ⟨between, done⟩
      have verdict : ∀ other ∈ rest, (Acceptable between other ↔ Acceptable store other) :=
        fun other inside => acceptable_of_stored first
          (fun same => fresh (List.mem_map.mpr ⟨other, inside, same⟩))
      rcases ih between distinct with ⟨after, ran, acceptable, stored⟩ |
        ⟨before, refused, late, e, after, rfl, ran, acceptable, refusal, stored⟩
      · refine .inl ⟨after, ran, ?_, storedAll_cons fresh first stored⟩
        rintro other (_ | ⟨_, inside⟩)
        · exact accepted
        · exact (verdict other inside).mp (acceptable other inside)
      · have early : tag.secret ∉ before.map (·.secret) := fun inside =>
          fresh (by simp_all)
        refine .inr ⟨tag :: before, refused, late, e, after, rfl, ran, ?_, ?_,
          storedAll_cons early first stored⟩
        · rintro other (_ | ⟨_, inside⟩)
          · exact accepted
          · exact (verdict other (List.mem_append_left _ inside)).mp (acceptable other inside)
        · exact fun held => refusal ((verdict refused (by simp)).mpr held)

theorem filter_withTag_same (pending : List PendingTagIndex) (tag : PreTag) :
    (withTag pending tag).filter (·.txHash = tag.txHash) = [⟨tag.index, tag.txHash⟩] := by
  simp [withTag, List.filter_filter]

/-- Entries of transactions that no pre-tag is for are neither lost nor moved. -/
theorem filter_withTag_untouched {secret : Fr} (pending : List PendingTagIndex)
    (inside : tag ∈ preTags) (named : tag.secret = secret) :
    (withTag pending tag).filter (untouched preTags secret) =
      pending.filter (untouched preTags secret) := by
  have replaced : untouched preTags secret ⟨tag.index, tag.txHash⟩ = false := by
    simp only [untouched, List.all_eq_false]
    exact ⟨tag, inside, by simp [named]⟩
  have kept : ∀ entry : PendingTagIndex, untouched preTags secret entry = true →
      entry.txHash ≠ tag.txHash := by
    intro entry free same
    have apart := List.all_eq_true.mp free tag inside
    simp [named, same] at apart
  rw [withTag, List.filter_append, List.filter_filter, List.filter_cons_of_neg (by simp [replaced]),
    List.filter_nil, List.append_nil]
  refine List.filter_congr (fun entry _ => ?_)
  by_cases free : untouched preTags secret entry = true
  · simp [free, kept entry free]
  · rw [Bool.not_eq_true] at free
    simp [free]

/-- Pre-tags stored before an error show in what the store holds, unless they were pending
as they are now. -/
theorem view_storedAll_iff (stored : StoredAll store preTags after) :
    (∀ secret, view after secret = view store secret) ↔ ∀ tag ∈ preTags, Settled store tag := by
  constructor
  · intro same tag inside
    rw [settled_iff, ← stored.named tag inside]
    exact (Prod.mk.inj (same tag.secret)).2
  · intro settled secret
    unfold view
    rw [stored.finalized]
    by_cases named : secret ∈ preTags.map (·.secret)
    · obtain ⟨tag, inside, rfl⟩ := List.mem_map.mp named
      rw [stored.named tag inside, settled_iff.mp (settled tag inside)]
    · rw [stored.unnamed secret named]

/-- There is one first pre-tag that is refused. -/
private theorem first_refused_unique {before before' late late' : List PreTag} {tag' : PreTag}
    (split : before ++ tag :: late = before' ++ tag' :: late')
    (acceptable : ∀ earlier ∈ before, Acceptable store earlier) (refusal : ¬ Acceptable store tag)
    (acceptable' : ∀ earlier ∈ before', Acceptable store earlier)
    (refusal' : ¬ Acceptable store tag') : before = before' := by
  induction before generalizing before' with
  | nil =>
    cases before' with
    | nil => rfl
    | cons first _ =>
      cases split
      exact absurd (acceptable' _ List.mem_cons_self) refusal
  | cons first rest ih =>
    cases before' with
    | nil =>
      cases split
      exact absurd (acceptable _ List.mem_cons_self) refusal'
    | cons first' rest' =>
      obtain ⟨rfl, tails⟩ := List.cons.inj split
      rw [ih tails (fun other inside => acceptable other (.tail _ inside))
        (fun other inside => acceptable' other (.tail _ inside))]

/-- Either all pre-tags are stored or nothing changes, exactly where every pre-tag before the
first that is refused is pending already. -/
theorem all_or_nothing_iff (store : SenderTaggingStore) (preTags : List PreTag) :
    AllOrNothing store preTags ↔ EarlierSettled store preTags := by
  unfold AllOrNothing storePendingIndexes
  by_cases distinct : (preTags.map (·.secret)).Nodup
  · rw [(checkSecrets_iff [] preTags).mpr ⟨distinct, by simp⟩]
    dsimp only
    rcases storeTags_cases preTags store distinct with ⟨after, ran, acceptable, stored⟩ |
      ⟨before, tag, late, e, after, split, ran, acceptable, refusal, stored⟩
    · rw [ran]
      refine iff_of_true ⟨fun tag inside => ?_, fun secret => ⟨stored.finalized secret, ?_⟩⟩ ?_
      · rw [stored.named tag inside, filter_withTag_same]
      · by_cases named : secret ∈ preTags.map (·.secret)
        · obtain ⟨tag, inside, rfl⟩ := List.mem_map.mp named
          rw [stored.named tag inside, filter_withTag_untouched _ inside rfl]
        · rw [stored.unnamed secret named]
      · rintro - before tag late rfl - refusal
        exact absurd (acceptable tag (by simp)) refusal
    · rw [ran]
      dsimp only
      rw [view_storedAll_iff stored]
      constructor
      · rintro settled - before' tag' late' split' acceptable' refusal'
        exact first_refused_unique (split.symm.trans split') acceptable refusal acceptable' refusal' ▸
          settled
      · exact fun earlier => earlier distinct before tag late split acceptable refusal
  · have refused : ∃ e, checkSecrets [] preTags = .error e := by
      cases checked : checkSecrets [] preTags with
      | error e => exact ⟨e, rfl⟩
      | ok _ => exact absurd ((checkSecrets_iff [] preTags).mp checked).1 distinct
    obtain ⟨e, refused⟩ := refused
    rw [refused]
    exact iff_of_true (fun _ => rfl) (fun named => absurd named distinct)

/-- A pre-tag beyond the window is refused with the one before it stored. -/
theorem far_index_leaves_first_stored : ¬ AllOrNothing {} [⟨7, 1, ⟨1⟩⟩, ⟨8, 21, ⟨1⟩⟩] := by
  have stored : view (({} : SenderTaggingStore).storePendingIndexes
      [⟨7, 1, ⟨1⟩⟩, ⟨8, 21, ⟨1⟩⟩]).2 7 = (0, [⟨1, ⟨1⟩⟩]) := by decide +kernel
  intro whole
  have unchanged : view _ 7 = view {} 7 := whole 7
  exact absurd (stored.symm.trans unchanged) (by decide)

end AztecPxe.TagAtomicity
