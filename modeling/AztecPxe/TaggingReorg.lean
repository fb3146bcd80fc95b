import AztecPxe.BlockSync
import AztecPxe.TagIndexes
import AztecPxe.TaggingSync

/-! The recipient's tag indexes over reorgs. A fetch moves the index of a secret to
the highest one it was given a log for, at whatever height that log is, and
`handle_reorg` rolls back notes and events only. So after a reorg the index is at
most the highest index that still has a log exactly where no log that was fetched
went with the orphaned blocks. -/
namespace AztecPxe.TaggingReorg
open AztecPxe LogService RecipientTaggingStore TagIndexes

/-- The logs of the node's chain under each tag, each with the block it is in. -/
abbrev Chain := Fr → List (Nat × Json)

/-- The node's chain and the stores; `found` keeps the indexes under which a fetch
has been given a log. -/
structure World where
  chain : Chain := fun _ => []
  block : BlockState := {}
  tagging : RecipientTaggingStore := {}
  found : List (Fr × Nat) := []

/-- The node moves to another chain, logs are fetched while some of the node's
answers may fail, or the synchronizer handles a reorg. -/
inductive Step where
  | moveTo (chain : Chain)
  | fetch (contract : AztecAddress) (taggingSecrets : List Fr) (fails : List Fr → Option Error)
  | reorg (node : AztecNode) (newBlockNumber oldBlockNumber : Nat)

section Fetch
variable (poseidon2 : List Fr → Fr) (node : List Fr → Except Error Json) (contract : AztecAddress)

/-- The tags a fetch asks for above the stored index of a secret. -/
def windowTags (secret : Fr) (finalized : Nat) : List Fr :=
  (scanned finalized).map (fun i => computeSiloedTag poseidon2 secret i contract)

/-- The indexes of a window whose tags were answered with logs. -/
def filled (finalized : Nat) (logs : List (List TaggedLog)) : List Nat :=
  ((scanned finalized).zip logs).filterMap (fun entry =>
    if entry.2.isEmpty then none else some entry.1)

/-- The indexes a fetch is given logs for, secret by secret until a query fails. -/
def foundBy : List Fr → RecipientTaggingStore → List (Fr × Nat)
  | [], _ => []
  | secret :: rest, store =>
    let finalized := store.getHighestFinalizedIndex secret
    match getPrivateLogsByTags node (windowTags poseidon2 contract secret finalized) with
    | .error _ => []
    | .ok logs =>
      (filled finalized logs).map (secret, ·) ++
        foundBy rest (loadLogsForRange poseidon2 node contract secret ((finalized + 1) % 2 ^ 64)
          ((finalized + windowLen) % 2 ^ 64) store).2

end Fetch

section Runs
variable (poseidon2 : List Fr → Fr)

/-- The world after one step. -/
def step (world : World) : Step → World
  | .moveTo chain => { world with chain := chain }
  | .fetch contract taggingSecrets fails =>
    let node := TaggingSync.answer (fun tag => (world.chain tag).map (·.2)) fails
    { world with
      tagging := (fetchTaggedLogs poseidon2 node contract taggingSecrets world.tagging).2
      found := world.found ++ foundBy poseidon2 node contract taggingSecrets world.tagging }
  | .reorg node newBlockNumber oldBlockNumber =>
    { world with block := (world.block.handleReorg node newBlockNumber oldBlockNumber).2 }

/-- The world after a run. -/
def run (steps : List Step) : World := steps.foldl (step poseidon2) {}

/-- The chain has a log for this index of the secret, in a block at or below this
height. -/
def HasLog (world : World) (secret : Fr) (i height : Nat) : Prop :=
  ∃ contract, ∃ entry ∈ world.chain (computeSiloedTag poseidon2 secret i contract), entry.1 ≤ height

/-- The index is at most the highest one of the secret with a log at or below this
height, which is zero where there is none. -/
def AtMostLogged (world : World) (secret : Fr) (index height : Nat) : Prop :=
  index = 0 ∨ ∃ i, index ≤ i ∧ HasLog poseidon2 world secret i height

/-- No stored index is above the logs at or below this height. -/
def Survives (world : World) (height : Nat) : Prop :=
  ∀ secret, AtMostLogged poseidon2 world secret (world.tagging.getHighestFinalizedIndex secret) height

end Runs

/-! ## One window -/

theorem scanned_fits (finalized : Nat) :
    (finalized + LogService.windowLen) % 2 ^ 64 + 1 - (finalized + 1) % 2 ^ 64 ≤
        LogService.windowLen ∧
      (finalized + 1) % 2 ^ 64 +
        ((finalized + LogService.windowLen) % 2 ^ 64 + 1 - (finalized + 1) % 2 ^ 64) ≤ 2 ^ 64 := by
  unfold LogService.windowLen
  omega

/-- The highest index found is the last one with logs. -/
theorem highestFound_last (first : Nat) (logs : List (List TaggedLog)) :
    (highestFound first logs = none ∧ ∀ ls ∈ logs, ls = []) ∨
    ∃ k ls, logs[k]? = some ls ∧ ls ≠ [] ∧ highestFound first logs = some ((first + k) % 2 ^ 64) ∧
      ∀ (j : Nat) (ls' : List TaggedLog), logs[j]? = some ls' → ls' ≠ [] → j ≤ k := by
  induction logs using List.reverseRecOn with
  | nil => exact .inl ⟨rfl, fun _ inside => nomatch inside⟩
  | append_singleton front last ih =>
    have turn : highestFound first (front ++ [last]) = if last.isEmpty then highestFound first front
        else some ((first + front.length) % 2 ^ 64) := by
      unfold highestFound
      rw [List.zipIdx_append, List.foldl_append]
      simp
    cases last with
    | nil =>
      rw [turn]
      rcases ih with ⟨nothing, empty⟩ | ⟨k, ls, held, nonempty, found, latest⟩
      · left
        refine ⟨nothing, fun ls inside => ?_⟩
        rcases List.mem_append.mp inside with old | new
        · exact empty ls old
        · exact List.mem_singleton.mp new
      · right
        refine ⟨k, ls, ?_, nonempty, found, ?_⟩
        · rw [List.getElem?_append_left (List.getElem?_eq_some_iff.mp held).1]
          exact held
        · intro j ls' held' nonempty'
          rw [List.getElem?_append] at held'
          split at held'
          · exact latest j ls' held' nonempty'
          · rw [List.getElem?_singleton] at held'
            split at held'
            · cases held'
              exact absurd rfl nonempty'
            · cases held'
    | cons log rest =>
      right
      refine ⟨front.length, log :: rest, by simp, by simp, turn, ?_⟩
      intro j ls' held' _
      have inside := (List.getElem?_eq_some_iff.mp held').1
      rw [List.length_append, List.length_singleton] at inside
      omega

section Turn
variable {poseidon2 : List Fr → Fr} {node : List Fr → Except Error Json} {contract : AztecAddress}
variable {store : RecipientTaggingStore} {secret : Fr}

/-- A turn of a fetch is one query, and one index update where it is answered. -/
theorem load_turn (store : RecipientTaggingStore) (secret : Fr) (finalized : Nat) :
    loadLogsForRange poseidon2 node contract secret ((finalized + 1) % 2 ^ 64)
        ((finalized + LogService.windowLen) % 2 ^ 64) store =
      match getPrivateLogsByTags node (windowTags poseidon2 contract secret finalized) with
      | .error e => (.error e, store)
      | .ok logs => (.ok logs.flatten,
          finalizeFound secret (highestFound ((finalized + 1) % 2 ^ 64) logs) store) := by
  obtain ⟨short, -⟩ := scanned_fits finalized
  unfold windowTags scanned
  generalize first : (finalized + 1) % 2 ^ 64 = fromIndex at short ⊢
  generalize last : (finalized + LogService.windowLen) % 2 ^ 64 = toIndex at short ⊢
  by_cases asked : 0 < toIndex + 1 - fromIndex
  · have range : toIndex = fromIndex + (toIndex + 1 - fromIndex) - 1 := by omega
    conv_lhs => rw [range]
    have fits : toIndex + 1 - fromIndex ≤ maxRpcLen := by
      unfold LogService.windowLen at short
      unfold maxRpcLen
      omega
    exact TaggingSync.load_one_request store asked fits
  · have nothing : toIndex + 1 - fromIndex = 0 := by omega
    unfold loadLogsForRange
    rw [nothing]
    rfl

theorem length_of_getPrivateLogs {tags : List Fr} {logs : List (List TaggedLog)}
    (answered : getPrivateLogsByTags node tags = .ok logs) : logs.length = tags.length := by
  unfold getPrivateLogsByTags at answered
  split at answered
  next empty =>
    cases answered
    rw [List.isEmpty_iff.mp empty]
    rfl
  next =>
    obtain ⟨response, -, parsed⟩ := bind_eq_ok.mp answered
    have paired := (mapM_paired parsed).length_eq
    rw [← paired, List.length_zipIdx]

theorem scanned_getElem?_iff {finalized k i : Nat} :
    (scanned finalized)[k]? = some i ↔
      k < (scanned finalized).length ∧ i = (finalized + 1) % 2 ^ 64 + k := by
  unfold scanned
  rw [List.getElem?_eq_some_iff]
  constructor
  · rintro ⟨small, value⟩
    rw [List.getElem_range', Nat.one_mul] at value
    exact ⟨small, value.symm⟩
  · rintro ⟨small, value⟩
    refine ⟨small, ?_⟩
    rw [List.getElem_range', Nat.one_mul]
    exact value.symm

theorem mem_filled_iff {finalized i : Nat} {logs : List (List TaggedLog)} :
    i ∈ filled finalized logs ↔ ∃ (k : Nat) (ls : List TaggedLog), logs[k]? = some ls ∧ ls ≠ [] ∧
      k < (scanned finalized).length ∧ i = (finalized + 1) % 2 ^ 64 + k := by
  unfold filled
  rw [List.mem_filterMap]
  constructor
  · rintro ⟨⟨j, ls⟩, inside, kept⟩
    obtain ⟨k, held⟩ := List.mem_iff_getElem?.mp inside
    obtain ⟨index, answered⟩ := List.getElem?_zip_eq_some.mp held
    cases ls with
    | nil => cases kept
    | cons log rest =>
      cases kept
      obtain ⟨small, value⟩ := scanned_getElem?_iff.mp index
      exact ⟨k, log :: rest, answered, by simp, small, value⟩
  · rintro ⟨k, ls, answered, nonempty, small, rfl⟩
    refine ⟨((finalized + 1) % 2 ^ 64 + k, ls), ?_, by simp [nonempty]⟩
    apply List.mem_iff_getElem?.mpr
    exact ⟨k, List.getElem?_zip_eq_some.mpr ⟨scanned_getElem?_iff.mpr ⟨small, rfl⟩, answered⟩⟩

/-- The stored indexes are the highest ones found. -/
structure Tracks (found : List (Fr × Nat)) (store : RecipientTaggingStore) : Prop where
  below : ∀ {secret i}, (secret, i) ∈ found → i ≤ store.getHighestFinalizedIndex secret
  reached : ∀ secret, store.getHighestFinalizedIndex secret = 0 ∨
    (secret, store.getHighestFinalizedIndex secret) ∈ found

theorem tracks_turn {found : List (Fr × Nat)} (tracks : Tracks found store) {secret : Fr}
    {logs : List (List TaggedLog)} (fits : logs.length =
      (scanned (store.getHighestFinalizedIndex secret)).length) :
    Tracks (found ++ (filled (store.getHighestFinalizedIndex secret) logs).map (secret, ·))
      (finalizeFound secret (highestFound ((store.getHighestFinalizedIndex secret + 1) % 2 ^ 64) logs)
        store) := by
  generalize current : store.getHighestFinalizedIndex secret = finalized at fits ⊢
  have room : (finalized + 1) % 2 ^ 64 + (scanned finalized).length ≤ 2 ^ 64 := by
    have fits := (scanned_fits finalized).2
    unfold scanned
    rw [List.length_range']
    exact fits
  rcases highestFound_last ((finalized + 1) % 2 ^ 64) logs with
    ⟨nothing, empty⟩ | ⟨k, ls, held, nonempty, highest, latest⟩
  · have none_filled : filled finalized logs = [] := by
      apply List.eq_nil_iff_forall_not_mem.mpr
      intro i inside
      obtain ⟨k, ls, answered, nonempty, -⟩ := mem_filled_iff.mp inside
      exact nonempty (empty ls (List.mem_of_getElem? answered))
    rw [nothing, none_filled, List.map_nil, List.append_nil]
    exact tracks
  · have small : k < (scanned finalized).length := fits ▸ (List.getElem?_eq_some_iff.mp held).1
    have exact_index : ((finalized + 1) % 2 ^ 64 + k) % 2 ^ 64 = (finalized + 1) % 2 ^ 64 + k :=
      Nat.mod_eq_of_lt (by omega)
    rw [highest, exact_index]
    constructor
    case below =>
      intro asked i inside
      rw [TaggingSync.index_finalizeFound]
      rcases List.mem_append.mp inside with old | new
      · have before := tracks.below old
        split
        next same =>
          subst same
          exact le_max_of_le_left before
        next => exact before
      · obtain ⟨j, new, same⟩ := List.mem_map.mp new
        cases same
        obtain ⟨k', ls', answered, nonempty', -, rfl⟩ := mem_filled_iff.mp new
        have earlier := latest k' ls' answered nonempty'
        rw [if_pos rfl]
        exact le_max_of_le_right (Nat.add_le_add_left earlier _)
    case reached =>
      intro asked
      rw [TaggingSync.index_finalizeFound]
      split
      next same =>
        subst same
        rw [Option.getD_some]
        rcases le_total (store.getHighestFinalizedIndex asked) ((finalized + 1) % 2 ^ 64 + k) with
          lower | higher
        · rw [max_eq_right lower]
          refine .inr (List.mem_append_right _ (List.mem_map.mpr ⟨_, ?_, rfl⟩))
          exact mem_filled_iff.mpr ⟨k, ls, held, nonempty, small, rfl⟩
        · rw [max_eq_left higher]
          exact (tracks.reached asked).imp_right (List.mem_append_left _)
      next => exact (tracks.reached asked).imp_right (List.mem_append_left _)

theorem tracks_fetchSecrets (secrets : List Fr) {found : List (Fr × Nat)} (before : List TaggedLog)
    (tracks : Tracks found store) :
    Tracks (found ++ foundBy poseidon2 node contract secrets store)
      (fetchSecrets poseidon2 node contract secrets before store).2 := by
  induction secrets generalizing store found before with
  | nil =>
    unfold foundBy fetchSecrets
    rw [List.append_nil]
    exact tracks
  | cons secret rest ih =>
    unfold foundBy fetchSecrets
    dsimp only
    rw [load_turn]
    cases answered : getPrivateLogsByTags node (windowTags poseidon2 contract secret
        (store.getHighestFinalizedIndex secret)) with
    | error e =>
      rw [List.append_nil]
      exact tracks
    | ok logs =>
      have fits := length_of_getPrivateLogs answered
      unfold windowTags at fits
      rw [List.length_map] at fits
      dsimp only
      rw [← List.append_assoc]
      exact ih _ (tracks_turn tracks fits)

end Turn

/-! ## Runs -/

section Reorgs
variable (poseidon2 : List Fr → Fr)

theorem tracks_run (steps : List Step) :
    Tracks (run poseidon2 steps).found (run poseidon2 steps).tagging := by
  refine Run.invariant_all (I := fun world : World => Tracks world.found world.tagging) ?_ ?_ steps
  · exact ⟨fun {_ _} inside => (nomatch inside), fun _ => .inl rfl⟩
  · intro world s tracks
    cases s with
    | moveTo chain => exact tracks
    | fetch contract secrets fails => exact tracks_fetchSecrets secrets [] tracks
    | reorg node new old => exact tracks

theorem survives_iff (steps : List Step) (height : Nat) :
    Survives poseidon2 (run poseidon2 steps) height ↔
      ∀ secret i, (secret, i) ∈ (run poseidon2 steps).found →
        AtMostLogged poseidon2 (run poseidon2 steps) secret i height := by
  have tracks := tracks_run poseidon2 steps
  constructor
  · intro survives secret i inside
    have below := tracks.below inside
    rcases survives secret with zero | ⟨j, above, logged⟩
    · exact .inl (by omega)
    · exact .inr ⟨j, by omega, logged⟩
  · intro logged secret
    rcases tracks.reached secret with zero | inside
    · exact .inl zero
    · exact logged secret _ inside

end Reorgs

/-- A node that only knows one header. -/
def oneHeader : AztecNode where
  getBlockNumber := .ok 10
  getProvenBlockNumber := .ok 9
  getBlockHeader _ := .ok (.obj [])
  getNullifierMembershipWitness _ _ := .ok none
  getTxEffect _ := .ok none

/-- The log of index 1 is in block 10, is fetched from there, and goes with the
block. -/
def orphanedLog (poseidon2 : List Fr → Fr) : List Step :=
  [.moveTo (fun tag => if tag = computeSiloedTag poseidon2 7 1 ⟨1⟩ then [(10, .obj [])] else []),
    .fetch ⟨1⟩ [7] (fun _ => none), .moveTo (fun _ => [])]

end AztecPxe.TaggingReorg
