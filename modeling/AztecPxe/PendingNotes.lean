import AztecPxe.GetNotes
import AztecPxe.TransientMatching

/-! How many pending notes of a hash a private call is offered. Every state of a
call tree offers the notes announced less those announced as nullified, if the
note nullified is always the first of its value, of the nullifying contract and
not nullified yet, and no two contracts make notes of one value. -/
namespace AztecPxe
open PrivateExecutionOracle Script TransientMatching

/-- The note hash recorded with an announced note. -/
def NoteAndSlot.scopedHash (note : NoteAndSlot) : ScopedNoteHash :=
  ⟨⟨note.noteHash, note.counter⟩, note.contractAddress⟩

/-- Two note hashes under different counters, of one value only in one contract. -/
def ScopedNoteHash.Apart (a b : ScopedNoteHash) : Prop :=
  a.noteHash.counter ≠ b.noteHash.counter ∧
    (a.noteHash.value = b.noteHash.value → a.contractAddress = b.contractAddress)

instance (a b : ScopedNoteHash) : Decidable (a.Apart b) :=
  inferInstanceAs (Decidable (a.noteHash.counter ≠ b.noteHash.counter ∧
    (a.noteHash.value = b.noteHash.value → a.contractAddress = b.contractAddress)))

/-- The first note hash of a value is that of an announced note of this
contract, with no nullifier yet. -/
def PrivateExecutionOracle.FindsPending (oracle : PrivateExecutionOracle) (hash : Fr) : Prop :=
  hash ≠ 0 ∧ ∃ first ∈ oracle.firstWith hash, first.contractAddress = oracle.contractAddress ∧
    first ∈ oracle.newNotes.map (·.scopedHash) ∧
    first.noteHash.counter ∉ oracle.noteHashNullifierCounterMap

instance (oracle : PrivateExecutionOracle) (hash : Fr) : Decidable (oracle.FindsPending hash) :=
  inferInstanceAs (Decidable (hash ≠ 0 ∧ ∃ first ∈ oracle.firstWith hash,
    first.contractAddress = oracle.contractAddress ∧
    first ∈ oracle.newNotes.map (·.scopedHash) ∧
    first.noteHash.counter ∉ oracle.noteHashNullifierCounterMap))

namespace Step

/-- A note the step nullifies is pending. -/
def NullifiesPending (step : Step) : Prop :=
  ∀ entry ∈ step.nullification, entry.1.FindsPending entry.2

instance (step : Step) : Decidable step.NullifiesPending :=
  inferInstanceAs (Decidable (∀ entry ∈ step.nullification, entry.1.FindsPending entry.2))

end Step

namespace PendingNotes
variable {crypto : Crypto} {contracts : ContractStore}
variable {oracle next state inner : PrivateExecutionOracle} {args : Args} {script body : Script}
variable {passed : List Step} {contract : AztecAddress} {hash : Fr}

/-- The announcements of notes of a contract with a hash. -/
def created (contract : AztecAddress) (hash : Fr) (passed : List Step) : Nat :=
  (passed.flatMap Step.notes).countP (fun note =>
    decide (note.contractAddress = contract) && decide (note.noteHash = hash))

/-- The announcements that a note of a contract with a hash is nullified. -/
def nullified (contract : AztecAddress) (hash : Fr) (passed : List Step) : Nat :=
  passed.countP (fun step => decide (step.nullifiedHash = some (contract, hash)))

/-- The notes nullified are pending, and the note hashes apart. -/
structure Careful (passed : List Step) : Prop where
  finds : ∀ step ∈ passed, step.NullifiesPending
  apart : (passed.flatMap Step.addedNoteHashes).Pairwise ScopedNoteHash.Apart

theorem Careful.before {later : List Step} (careful : Careful (passed ++ later)) :
    Careful passed := by
  refine ⟨fun step inside => careful.finds step (List.mem_append_left _ inside), ?_⟩
  have apart := careful.apart
  rw [List.flatMap_append, List.pairwise_append] at apart
  exact apart.1

private theorem findsOwn_of_findsPending (finds : oracle.FindsPending hash) :
    oracle.FindsOwn hash := by
  obtain ⟨nonzero, first, found, own, -, unpaired⟩ := finds
  have only : ∀ other ∈ oracle.firstWith hash, other = first := by
    intro other held
    exact Option.mem_unique held found
  refine ⟨fun _ other held => ?_, fun _ => ⟨nonzero, fun other held => ?_⟩⟩
  · rw [only other held]
    exact own
  · rw [only other held]
    exact unpaired

theorem Careful.orderly (careful : Careful passed) : Orderly passed where
  finds step inside entry named := findsOwn_of_findsPending (careful.finds step inside entry named)
  distinct := by
    rw [List.nodup_iff_pairwise_ne, List.pairwise_map]
    exact careful.apart.imp (fun both => both.1)

/-- While a pending note is nullified, its contract has one that is not matched. -/
private theorem waiting_of_findsPending (finds : oracle.FindsPending hash) :
    oracle.matchedCount oracle.contractAddress hash <
      oracle.createdCount oracle.contractAddress hash := by
  obtain ⟨-, first, found, own, -, unpaired⟩ := finds
  by_contra none
  have same : first.noteHash.value = hash := by simpa using List.find?_some found
  have marked := matched_of_not_waiting none (List.mem_of_find?_eq_some found)
    (isOf_iff.mpr ⟨own, same⟩)
  exact unpaired (Std.ExtTreeMap.contains_iff_mem.mp marked)

/-- The tally counts every nullification of a pending note. -/
private theorem tally_snd {step : Step} (sofar : Nat × Nat)
    (waiting : step.nullifiedHash = some (contract, hash) → sofar.2 < sofar.1) :
    (tally contract hash sofar step).2 = sofar.2 + nullified contract hash [step] := by
  unfold tally nullified
  by_cases named : step.nullifiedHash = some (contract, hash)
  · rw [if_pos ⟨named, waiting named⟩]
    simp [named]
  · rw [if_neg (fun both => named both.1)]
    simp [named]

/-- The oracle after the points passed: its notes are the announced ones, as
many notes are matched as were nullified, and only announced notes are. -/
structure Pending (passed : List Step) (oracle : PrivateExecutionOracle) : Prop where
  tallied : Tallied passed oracle
  notes : oracle.newNotes = passed.flatMap Step.notes
  matched : ∀ contract hash, oracle.matchedCount contract hash = nullified contract hash passed
  keys : ∀ k ∈ oracle.noteHashNullifierCounterMap, k ∈ oracle.newNotes.map (·.counter)

private theorem matched_next {step : Step} (pending : Pending passed oracle)
    (after : Tallied (passed ++ [step]) next)
    (waiting : ∀ contract hash, step.nullifiedHash = some (contract, hash) →
      oracle.matchedCount contract hash < oracle.createdCount contract hash) :
    ∀ contract hash, next.matchedCount contract hash = nullified contract hash (passed ++ [step]) := by
  intro contract hash
  have counts := after.counts contract hash
  rw [List.foldl_append, ← pending.tallied.counts, List.foldl_cons, List.foldl_nil] at counts
  have second : next.matchedCount contract hash = _ := congrArg Prod.snd counts
  rw [second, tally_snd _ (waiting contract hash), pending.matched]
  unfold nullified
  rw [List.countP_append]

private theorem waiting_of_careful {step : Step} (finds : step.NullifiesPending)
    (named : step.nullifiedHash = some (contract, hash)) :
    ∃ entry ∈ step.nullification, entry.1.contractAddress = contract ∧ entry.2 = hash ∧
      entry.1.matchedCount contract hash < entry.1.createdCount contract hash := by
  obtain ⟨entry, held, same⟩ := Option.map_eq_some_iff.mp named
  cases same
  exact ⟨entry, held, rfl, rfl, waiting_of_findsPending (finds entry held)⟩

private theorem notes_invariant (crypto : Crypto) (contracts : ContractStore) :
    Invariant crypto contracts (fun passed oracle =>
      oracle.newNotes = [] ++ passed.flatMap Step.notes) :=
  (Recorder.notes crypto contracts).reached (fun _ _ => rfl) []

private theorem keys_handled {handler : Handler} (done : oracle.Handled crypto args handler next)
    (finds : (Step.foreign oracle handler args).NullifiesPending)
    (keys : ∀ k ∈ oracle.noteHashNullifierCounterMap, k ∈ oracle.newNotes.map (·.counter)) :
    ∀ k ∈ next.noteHashNullifierCounterMap, k ∈ next.newNotes.map (·.counter) := by
  intro k held
  cases done with
  | createdNote =>
    change k ∈ (oracle.newNotes ++ _).map (·.counter)
    rw [List.map_append]
    exact List.mem_append_left _ (keys k held)
  | nullifiedNote =>
    obtain ⟨nonzero, first, found, -, told, -⟩ := finds _ rfl
    change k ∈ oracle.counterMapWith ((args.first 1).getD 0) (oracle.numbered (args.counter 2)) at held
    rw [map_inserted nonzero found, Std.ExtTreeMap.mem_insert, compare_eq_iff_eq] at held
    rcases held with rfl | before
    · obtain ⟨note, inside, rfl⟩ := List.mem_map.mp told
      exact List.mem_map_of_mem inside
    · exact keys k before
  | _ => exact keys k held

/-- Careful steps keep the counts of pending notes right. -/
theorem pending_invariant (crypto : Crypto) (contracts : ContractStore) :
    Invariant crypto contracts (fun passed oracle => Careful passed → Pending passed oracle) where
  foreign {passed oracle next args handler} held done careful := by
    have pending := held careful.before
    have tallied := (tallied_invariant crypto contracts).foreign (fun _ => pending.tallied) done
      careful.orderly
    have finds := careful.finds (.foreign oracle handler args) (by simp)
    refine ⟨tallied, (notes_invariant crypto contracts).foreign pending.notes done,
      matched_next pending tallied ?_, keys_handled done finds pending.keys⟩
    intro contract hash named
    obtain ⟨⟨found, value⟩, held, rfl, rfl, waiting⟩ := waiting_of_careful finds named
    cases handler <;> cases held
    exact waiting
  handled {passed oracle next args answer} held protocol careful := by
    have pending := held careful.before
    have tallied := (tallied_invariant crypto contracts).handled (fun _ => pending.tallied) protocol
      careful.orderly
    refine ⟨tallied, (notes_invariant crypto contracts).handled pending.notes protocol,
      matched_next pending tallied (fun _ _ named => by cases named), ?_⟩
    obtain ⟨call, -, -, published⟩ := enter_handled protocol
    cases published <;> exact pending.keys
  entered {passed oracle args call} held enters careful := by
    have pending := held careful.before
    have tallied := (tallied_invariant crypto contracts).entered (fun _ => pending.tallied) enters
      careful.orderly
    exact ⟨tallied, (notes_invariant crypto contracts).entered pending.notes enters,
      matched_next pending tallied (fun _ _ named => by cases named), pending.keys⟩
  returned {passed oracle args call body inside inner} output held enters below ended careful := by
    have outside : Careful passed := by
      have early := careful.before
      exact early.before
    have caller := held outside
    have pending := ended careful.before
    have tallied := (tallied_invariant crypto contracts).returned output
      (fun _ => caller.tallied) enters below (fun _ => pending.tallied) careful.orderly
    have notes := (notes_invariant crypto contracts).returned output caller.notes enters below
      pending.notes
    refine ⟨tallied, notes, matched_next pending tallied (fun _ _ named => by cases named), ?_⟩
    intro k known
    have told := pending.keys k ((CounterPairs.mem_merged_of_runs below k).mp known)
    rw [pending.notes] at told
    rw [notes, List.nil_append, List.flatMap_append, List.map_append]
    exact List.mem_append_left _ told

/-- A root knows no notes. -/
theorem pending_root (root : EmbeddedPxe.Root) : Pending [] root.oracle where
  tallied := tallied_root
  notes := by cases root <;> rfl
  matched contract hash := congrArg Prod.snd (tallied_root.counts contract hash)
  keys k held := by
    have empty : root.oracle.noteHashNullifierCounterMap = ∅ := by cases root <;> rfl
    rw [empty] at held
    exact absurd held Std.ExtTreeMap.not_mem_empty

section Reached

theorem hashAt_eq_iff
    (distinct : (oracle.noteHashes.map (·.noteHash.counter)).Nodup) {k : Nat} :
    oracle.hashAt k = some hash ↔ oracle.noteHashes.any (fun entry =>
      decide (entry.noteHash.value = hash) && decide (entry.noteHash.counter = k)) = true := by
  unfold hashAt
  rw [List.any_eq_true, Option.map_eq_some_iff]
  constructor
  · rintro ⟨entry, found, rfl⟩
    have same : entry.noteHash.counter = k := by simpa using List.find?_some found
    exact ⟨entry, List.mem_of_find?_eq_some found, by simp [same]⟩
  · rintro ⟨entry, inside, both⟩
    rw [Bool.and_eq_true, decide_eq_true_eq, decide_eq_true_eq] at both
    cases found : oracle.noteHashes.find? (fun other => other.noteHash.counter = k) with
    | none =>
      have other := List.find?_eq_none.mp found entry inside
      simp [both.2] at other
    | some first =>
      have same : first.noteHash.counter = k := by simpa using List.find?_some found
      have one : first = entry := List.inj_on_of_nodup_map distinct
        (List.mem_of_find?_eq_some found) inside (same.trans both.2.symm)
      exact ⟨first, rfl, by rw [one]; exact both.1⟩

/-- The keys that are counters of a hash are the matched notes of a contract, if
only that contract has notes of the hash. -/
private theorem countP_hashAt (distinct : (oracle.noteHashes.map (·.noteHash.counter)).Nodup)
    (only : ∀ entry ∈ oracle.noteHashes, entry.noteHash.value = hash →
      entry.contractAddress = contract) :
    oracle.noteHashNullifierCounterMap.keys.countP (fun k => oracle.hashAt k = some hash) =
      oracle.matchedCount contract hash := by
  have read : oracle.noteHashNullifierCounterMap.keys.countP (fun k =>
      oracle.hashAt k = some hash) = oracle.noteHashNullifierCounterMap.keys.countP (fun k =>
        oracle.noteHashes.any (fun entry => decide (entry.noteHash.value = hash) &&
          decide (entry.noteHash.counter = k))) := by
    apply List.countP_congr
    intro k _
    rw [decide_eq_true_eq]
    exact hashAt_eq_iff distinct
  rw [read, countP_keys _ Std.ExtTreeMap.nodup_keys distinct]
  apply List.countP_congr
  intro entry inside
  rw [Bool.and_eq_true, Bool.and_eq_true, decide_eq_true_eq, decide_eq_true_eq, isOf_iff,
    Std.ExtTreeMap.mem_keys, Std.ExtTreeMap.contains_iff_mem]
  constructor
  · rintro ⟨same, known⟩
    exact ⟨⟨only entry inside same, same⟩, known⟩
  · rintro ⟨⟨-, same⟩, known⟩
    exact ⟨same, known⟩

/-- Announced notes are among the note hashes. -/
theorem scopedHash_mem {note : NoteAndSlot} (told : note ∈ passed.flatMap Step.notes) :
    note.scopedHash ∈ passed.flatMap Step.addedNoteHashes := by
  apply CircuitOutputs.announced_added
  obtain ⟨step, inside, told⟩ := List.mem_flatMap.mp told
  refine List.mem_flatMap.mpr ⟨step, inside, ?_⟩
  unfold Step.notes at told
  split at told
  · rw [List.mem_singleton] at told
    rw [told]
    exact List.mem_cons_self
  · cases told

/-- All note hashes of one value are of one contract. -/
private theorem contract_unique (careful : Careful passed) {a b : ScopedNoteHash}
    (held : a ∈ passed.flatMap Step.addedNoteHashes)
    (also : b ∈ passed.flatMap Step.addedNoteHashes) (same : a.noteHash.value = b.noteHash.value) :
    a.contractAddress = b.contractAddress := by
  by_cases one : a = b
  · rw [one]
  · have symmetric : Std.Symm ScopedNoteHash.Apart :=
      ⟨fun _ _ apart => ⟨apart.1.symm, fun equal => (apart.2 equal.symm).symm⟩⟩
    exact (careful.apart.forall held also one).2 same

/-- No more notes of a hash are nullified than were announced. -/
private theorem nullified_le_created (careful : Careful passed) (pending : Pending passed oracle) :
    nullified contract hash passed ≤ created contract hash passed := by
  have distinct := careful.orderly.distinct
  rw [← pending.tallied.noteHashes] at distinct
  rw [← pending.matched, created, ← pending.notes, matchedCount, List.countP_eq_length_filter,
    List.countP_eq_length_filter]
  -- the counters of the matched notes are distinct, and counters of announced notes
  have counters : (oracle.noteHashes.filter (fun entry => entry.isOf contract hash &&
      oracle.noteHashNullifierCounterMap.contains entry.noteHash.counter)).length = _ :=
    (List.length_map (·.noteHash.counter)).symm
  have announced : (oracle.newNotes.filter (fun note =>
      decide (note.contractAddress = contract) && decide (note.noteHash = hash))).length = _ :=
    (List.length_map (·.counter)).symm
  rw [counters, announced]
  apply List.Subperm.length_le
  apply List.subperm_of_subset (distinct.sublist (List.filter_sublist.map _))
  intro k held
  obtain ⟨entry, inside, rfl⟩ := List.mem_map.mp held
  rw [List.mem_filter, Bool.and_eq_true, isOf_iff, Std.ExtTreeMap.contains_iff_mem] at inside
  obtain ⟨recorded, ⟨rfl, rfl⟩, known⟩ := inside
  obtain ⟨note, told, same⟩ := List.mem_map.mp (pending.keys _ known)
  have hashed : note.scopedHash ∈ oracle.noteHashes := by
    rw [pending.tallied.noteHashes]
    rw [pending.notes] at told
    exact scopedHash_mem told
  have one : note.scopedHash = entry := List.inj_on_of_nodup_map distinct hashed recorded same
  rw [← one]
  refine List.mem_map.mpr ⟨note, List.mem_filter.mpr ⟨told, ?_⟩, rfl⟩
  simp [NoteAndSlot.scopedHash]

/-- What a state offers of the notes of a hash. -/
private theorem countP_pending (careful : Careful passed) (pending : Pending passed state)
    {storageSlot : Fr} {owner : Option AztecAddress}
    (under : ∀ note ∈ passed.flatMap Step.notes, note.contractAddress = state.contractAddress →
      note.noteHash = hash → note.storageSlot = storageSlot ∧ ∀ asked ∈ owner, note.owner = asked) :
    (state.pendingNotes storageSlot owner).countP (·.noteHash = hash) =
      created state.contractAddress hash passed - nullified state.contractAddress hash passed := by
  have asked : state.newNotes.countP (fun note =>
      state.asksFor storageSlot owner note && decide (note.noteHash = hash)) =
        created state.contractAddress hash passed := by
    rw [created, ← pending.notes]
    apply List.countP_congr
    intro note told
    rw [pending.notes] at told
    simp only [asksFor, Bool.and_eq_true, decide_eq_true_eq, Option.all_eq_true]
    constructor
    · rintro ⟨⟨⟨own, -⟩, -⟩, same⟩
      exact ⟨own, same⟩
    · rintro ⟨own, same⟩
      obtain ⟨slot, owned⟩ := under note told own same
      exact ⟨⟨⟨own, slot⟩, owned⟩, same⟩
  rw [countP_pendingNotes, asked]
  by_cases none : created state.contractAddress hash passed = 0
  · rw [none, Nat.zero_sub, Nat.zero_sub]
  · obtain ⟨note, told, both⟩ := List.countP_pos_iff.mp (Nat.pos_of_ne_zero none)
    rw [Bool.and_eq_true, decide_eq_true_eq, decide_eq_true_eq] at both
    have distinct := careful.orderly.distinct
    rw [← pending.tallied.noteHashes] at distinct
    rw [countP_hashAt distinct, pending.matched]
    intro entry inside same
    rw [pending.tallied.noteHashes] at inside
    rw [← both.1]
    exact contract_unique careful inside (scopedHash_mem told) (same.trans both.2.symm)

end Reached

/-- In every state of a call tree reached by careful steps, no more notes of a
hash are nullified than created, and the pending part of `get_notes` has as many
notes of the hash as are left, wherever all of them are under the slot and the
owner asked for. -/
theorem pending_notes_counted (crypto : Crypto) (contracts : ContractStore)
    (root : EmbeddedPxe.Root) (script : Script) (passed : List Step)
    (state : PrivateExecutionOracle)
    (reaches : Reaches crypto contracts script root.oracle passed state)
    (finds : ∀ step ∈ passed, step.NullifiesPending)
    (apart : (passed.flatMap Step.addedNoteHashes).Pairwise ScopedNoteHash.Apart) :
    (∀ contract hash, nullified contract hash passed ≤ created contract hash passed) ∧
    ∀ hash storageSlot owner,
      (∀ note ∈ passed.flatMap Step.notes, note.contractAddress = state.contractAddress →
        note.noteHash = hash →
          note.storageSlot = storageSlot ∧ ∀ asked ∈ owner, note.owner = asked) →
      (state.pendingNotes storageSlot owner).countP (·.noteHash = hash) =
        created state.contractAddress hash passed -
          nullified state.contractAddress hash passed := by
  have careful : Careful passed := ⟨finds, apart⟩
  have pending := (pending_invariant crypto contracts).at_state reaches
    (fun _ => pending_root root) careful
  exact ⟨fun contract hash => nullified_le_created careful pending,
    fun hash storageSlot owner under => countP_pending careful pending under⟩

/-- Two notes, one of them spent by a nested call. -/
def oneOfTwoSpent : Script :=
  .foreign .notifyCreatedNote [[1], [2], [3], [4], [], [9], [2]]
    (.foreign .notifyCreatedNote [[1], [2], [3], [4], [], [10], [3]]
      (.callPrivate [[8], [5], [0], [4], [0]]
        (.foreign .notifyNullifiedNote [[11], [9], [5]] .done) {} .done))

/-- The caller is offered the other note only. -/
theorem oneOfTwoSpent_offered :
    ∃ state, Reaches .zero (.one (.fromField 5)) oneOfTwoSpent
        NullifierCollection.bareEntrypoint.oracle
        (oneOfTwoSpent.steps .zero (.one (.fromField 5)) NullifierCollection.bareEntrypoint.oracle)
        state ∧
      (state.pendingNotes 2 (some ⟨1⟩)).countP (·.noteHash = 9) = 1 - 1 ∧
      (state.pendingNotes 2 (some ⟨1⟩)).countP (·.noteHash = 10) = 1 - 0 := by
  have ran : Runs .zero (.one (.fromField 5)) oneOfTwoSpent
      NullifierCollection.bareEntrypoint.oracle _ _ := runs_of_execute rfl
  have counted := (pending_notes_counted .zero (.one (.fromField 5))
    NullifierCollection.bareEntrypoint oneOfTwoSpent _ _ (reaches_of_runs ran) (by decide)
    (by decide)).2
  exact ⟨_, reaches_of_runs ran, counted 9 2 (some ⟨1⟩) (by decide),
    counted 10 2 (some ⟨1⟩) (by decide)⟩

/-- Two notes of one hash are created and nullified, yet one is still offered. -/
theorem equalNotes_offered :
    ∃ state, Reaches .zero .empty equalNotes NullifierCollection.bareEntrypoint.oracle
        (equalNotes.steps .zero .empty NullifierCollection.bareEntrypoint.oracle) state ∧
      (∀ note ∈ (equalNotes.steps .zero .empty
          NullifierCollection.bareEntrypoint.oracle).flatMap Step.notes,
        note.storageSlot = 2 ∧ note.owner = ⟨1⟩) ∧
      (state.pendingNotes 2 (some ⟨1⟩)).countP (·.noteHash = 9) ≠
        created state.contractAddress 9 (equalNotes.steps .zero .empty
          NullifierCollection.bareEntrypoint.oracle) -
        nullified state.contractAddress 9 (equalNotes.steps .zero .empty
          NullifierCollection.bareEntrypoint.oracle) :=
  ⟨_, reaches_of_runs (runs_of_execute rfl), by decide, by decide⟩

end PendingNotes

end AztecPxe
