import AztecPxe.CounterPairs

/-! Which notes of a transaction the counter map pairs with a nullifier. A note
nullified in the transaction that made it should be paired with its nullifier,
one note with one nullifier. The map does so as long as the first note hash of
the nullified value is the one meant: made by the nullifying contract, and not
paired yet while another note of the value is waiting. -/
namespace AztecPxe
open PrivateExecutionOracle Script

/-- The first note hash of a nullified value is of the nullifying contract, and
it is unpaired if any note of that contract and value is. -/
def PrivateExecutionOracle.FindsOwn (oracle : PrivateExecutionOracle) (hash : Fr) : Prop :=
  (hash ≠ 0 → ∀ first ∈ oracle.firstWith hash, first.contractAddress = oracle.contractAddress) ∧
  (oracle.matchedCount oracle.contractAddress hash <
      oracle.createdCount oracle.contractAddress hash →
    hash ≠ 0 ∧ ∀ first ∈ oracle.firstWith hash,
      first.noteHash.counter ∉ oracle.noteHashNullifierCounterMap)

instance (oracle : PrivateExecutionOracle) (hash : Fr) : Decidable (oracle.FindsOwn hash) :=
  inferInstanceAs (Decidable (
    (hash ≠ 0 → ∀ first ∈ oracle.firstWith hash,
      first.contractAddress = oracle.contractAddress) ∧
    (oracle.matchedCount oracle.contractAddress hash <
        oracle.createdCount oracle.contractAddress hash →
      hash ≠ 0 ∧ ∀ first ∈ oracle.firstWith hash,
        first.noteHash.counter ∉ oracle.noteHashNullifierCounterMap)))

namespace Step

/-- How many notes of a contract with a hash a step records. -/
def creates (contract : AztecAddress) (hash : Fr) (step : Step) : Nat :=
  step.addedNoteHashes.countP (·.isOf contract hash)

/-- The note a step nullifies is found by its hash. -/
def MatchesOwn (step : Step) : Prop :=
  ∀ entry ∈ step.nullification, entry.1.FindsOwn entry.2

instance (step : Step) : Decidable step.MatchesOwn :=
  inferInstanceAs (Decidable (∀ entry ∈ step.nullification, entry.1.FindsOwn entry.2))

end Step

namespace TransientMatching

/-- The notes of a contract with a hash created so far, and how many of their
nullifications came while one of them was unmatched. -/
def tally (contract : AztecAddress) (hash : Fr) (sofar : Nat × Nat) (step : Step) : Nat × Nat :=
  if step.nullifiedHash = some (contract, hash) ∧ sofar.2 < sofar.1 then (sofar.1, sofar.2 + 1)
  else (sofar.1 + step.creates contract hash, sofar.2)

variable {crypto : Crypto} {contracts : ContractStore}
variable {oracle next final inner : PrivateExecutionOracle} {args : Args}
variable {script body : Script} {trace : List Step} {call : NestedCall}
variable {output : AcvmExecutionOutput} {contract : AztecAddress} {hash : Fr}

/-- Marking one number among distinct ones adds one to a count of the marked, if
its item counts and was unmarked. -/
private theorem countP_mark {α : Type} {number : α → Nat} {items : List α}
    (distinct : (items.map number).Nodup) {found : α} (held : found ∈ items) (counts : α → Bool)
    (marked : Nat → Bool) :
    items.countP (fun item => counts item &&
        (decide (number found = number item) || marked (number item))) =
      items.countP (fun item => counts item && marked (number item)) +
        if counts found && !marked (number found) then 1 else 0 := by
  induction items with
  | nil => cases held
  | cons item rest ih =>
    rw [List.map_cons, List.nodup_cons] at distinct
    rw [List.countP_cons, List.countP_cons]
    rcases List.mem_cons.mp held with rfl | later
    · have others : rest.countP (fun item => counts item &&
            (decide (number found = number item) || marked (number item))) =
          rest.countP (fun item => counts item && marked (number item)) := by
        apply List.countP_congr
        intro other inside
        have apart : number found ≠ number other := fun same =>
          distinct.1 (same ▸ List.mem_map_of_mem inside)
        simp [apart]
      rw [others]
      cases counts found <;> cases marked (number found) <;> simp
    · have apart : number found ≠ number item := fun same =>
        distinct.1 (same ▸ List.mem_map_of_mem later)
      rw [ih distinct.2 later]
      simp only [apart, decide_false, Bool.false_or]
      omega

/-- Where as many count marked as count at all, whatever counts is marked. -/
private theorem marked_of_countP_eq {α : Type} {counts marked : α → Bool} {items : List α}
    (same : items.countP (fun item => counts item && marked item) = items.countP counts) {item : α}
    (held : item ∈ items) (counted : counts item = true) : marked item = true := by
  induction items with
  | nil => cases held
  | cons first rest ih =>
    have fewer : rest.countP (fun item => counts item && marked item) ≤ rest.countP counts := by
      apply List.countP_mono_left
      intro other _ both
      exact (Bool.and_eq_true_iff.mp both).1
    rw [List.countP_cons, List.countP_cons] at same
    rcases List.mem_cons.mp held with rfl | later
    · cases marks : marked item with
      | true => rfl
      | false =>
        simp only [counted, marks, Bool.and_false, Bool.false_eq_true, if_false, if_true] at same
        omega
    · refine ih ?_ later
      cases countsFirst : counts first <;> cases marksFirst : marked first <;>
        simp [countsFirst, marksFirst] at same <;> omega

section Counts

/-- Keys of the map are counters of recorded note hashes. -/
def Keyed (oracle : PrivateExecutionOracle) : Prop :=
  ∀ k ∈ oracle.noteHashNullifierCounterMap, k ∈ oracle.noteHashes.map (·.noteHash.counter)

/-- New note hashes under fresh counters count as created and unmatched. -/
private theorem counts_grow {items : List ScopedNoteHash} (keyed : Keyed oracle)
    (noteHashes : next.noteHashes = oracle.noteHashes ++ items)
    (keys : ∀ k, k ∈ next.noteHashNullifierCounterMap ↔ k ∈ oracle.noteHashNullifierCounterMap)
    (distinct : ((oracle.noteHashes ++ items).map (·.noteHash.counter)).Nodup) :
    next.createdCount contract hash =
        oracle.createdCount contract hash + items.countP (·.isOf contract hash) ∧
      next.matchedCount contract hash = oracle.matchedCount contract hash := by
  have same : ∀ k, next.noteHashNullifierCounterMap.contains k =
      oracle.noteHashNullifierCounterMap.contains k := by
    intro k
    rw [Bool.eq_iff_iff, Std.ExtTreeMap.contains_iff_mem, Std.ExtTreeMap.contains_iff_mem]
    exact keys k
  refine ⟨by unfold createdCount; rw [noteHashes, List.countP_append], ?_⟩
  unfold matchedCount
  simp only [noteHashes, same, List.countP_append]
  suffices none : items.countP (fun entry => entry.isOf contract hash &&
      oracle.noteHashNullifierCounterMap.contains entry.noteHash.counter) = 0 by omega
  apply List.countP_eq_zero.mpr
  intro entry inside counted
  rw [Bool.and_eq_true, Std.ExtTreeMap.contains_iff_mem] at counted
  rw [List.map_append, List.nodup_append] at distinct
  exact distinct.2.2 _ (keyed _ counted.2) _ (List.mem_map_of_mem inside) rfl

theorem matchedCount_le : oracle.matchedCount contract hash ≤
    oracle.createdCount contract hash := by
  apply List.countP_mono_left
  intro entry _ both
  exact (Bool.and_eq_true_iff.mp both).1

private theorem contains_insert {map : Std.ExtTreeMap Nat Nat} {k v other : Nat} :
    (map.insert k v).contains other = (decide (k = other) || map.contains other) := by
  rw [Std.ExtTreeMap.contains_insert]
  congr 1
  rw [Bool.eq_iff_iff]
  simp

/-- Pairing a recorded note hash counts it as matched, if it was not. -/
private theorem matched_insert {first : ScopedNoteHash} {counter : Nat}
    (noteHashes : next.noteHashes = oracle.noteHashes)
    (map : next.noteHashNullifierCounterMap =
      oracle.noteHashNullifierCounterMap.insert first.noteHash.counter counter)
    (held : first ∈ oracle.noteHashes)
    (distinct : (oracle.noteHashes.map (·.noteHash.counter)).Nodup) :
    next.matchedCount contract hash = oracle.matchedCount contract hash +
      if first.isOf contract hash &&
        !oracle.noteHashNullifierCounterMap.contains first.noteHash.counter then 1 else 0 := by
  unfold matchedCount
  simp only [noteHashes, map, contains_insert]
  exact countP_mark distinct held (·.isOf contract hash)
    (oracle.noteHashNullifierCounterMap.contains ·)

theorem isOf_iff {entry : ScopedNoteHash} :
    entry.isOf contract hash = true ↔
      entry.contractAddress = contract ∧ entry.noteHash.value = hash := by
  simp [ScopedNoteHash.isOf]

/-- All notes of a contract and a hash are matched when none is waiting. -/
theorem matched_of_not_waiting
    (none : ¬ oracle.matchedCount contract hash < oracle.createdCount contract hash)
    {entry : ScopedNoteHash} (held : entry ∈ oracle.noteHashes)
    (own : entry.isOf contract hash = true) :
    oracle.noteHashNullifierCounterMap.contains entry.noteHash.counter = true := by
  have same : oracle.matchedCount contract hash = oracle.createdCount contract hash :=
    le_antisymm matchedCount_le (Nat.le_of_not_lt none)
  exact marked_of_countP_eq same held own

private theorem createdCount_of_none (none : oracle.firstWith hash = none) :
    oracle.createdCount contract hash = 0 := by
  apply List.countP_eq_zero.mpr
  intro entry held counted
  have other := List.find?_eq_none.mp none entry held
  simp [(isOf_iff.mp counted).2] at other

/-- The map is left alone when the value is zero or no note hash has it. -/
theorem map_kept {value : Fr} {counter : Nat}
    (nothing : value = 0 ∨ oracle.firstWith value = none) :
    oracle.counterMapWith value counter = oracle.noteHashNullifierCounterMap := by
  unfold counterMapWith
  rcases nothing with zero | unfound
  · rw [if_pos zero]
  · unfold firstWith at unfound
    rw [unfound]
    simp

theorem map_inserted {value : Fr} {counter : Nat} {first : ScopedNoteHash}
    (nonzero : value ≠ 0) (found : oracle.firstWith value = some first) :
    oracle.counterMapWith value counter =
      oracle.noteHashNullifierCounterMap.insert first.noteHash.counter counter := by
  unfold counterMapWith
  unfold firstWith at found
  rw [if_neg nonzero, found]

/-- What the first note hash of a value adds to the matched notes of a contract
and a hash: one, if they are meant and one of them is waiting. -/
private theorem first_counts {value : Fr} {first : ScopedNoteHash} (finds : oracle.FindsOwn value)
    (nonzero : value ≠ 0) (found : oracle.firstWith value = some first) :
    (first.isOf contract hash &&
        !oracle.noteHashNullifierCounterMap.contains first.noteHash.counter) = true ↔
      (oracle.contractAddress = contract ∧ value = hash) ∧
        oracle.matchedCount contract hash < oracle.createdCount contract hash := by
  have held : first ∈ oracle.noteHashes := List.mem_of_find?_eq_some found
  have same : first.noteHash.value = value := by simpa using List.find?_some found
  have own : first.contractAddress = oracle.contractAddress := finds.1 nonzero first found
  rw [Bool.and_eq_true, isOf_iff, own, same, Bool.not_eq_true']
  apply and_congr_right
  rintro ⟨rfl, rfl⟩
  constructor
  · intro unpaired
    by_contra none
    rw [matched_of_not_waiting none held (isOf_iff.mpr ⟨own, same⟩)] at unpaired
    cases unpaired
  · intro waiting
    have unpaired := (finds.2 waiting).2 first found
    rwa [← Std.ExtTreeMap.contains_iff_mem, Bool.not_eq_true] at unpaired

/-- A note that is nullified: the counts move as the tally does. -/
private theorem counts_nullified (finds : oracle.FindsOwn ((args.first 1).getD 0))
    (distinct : (oracle.noteHashes.map (·.noteHash.counter)).Nodup) :
    ((oracle.withNullifiedNote crypto args).createdCount contract hash,
        (oracle.withNullifiedNote crypto args).matchedCount contract hash) =
      tally contract hash (oracle.createdCount contract hash, oracle.matchedCount contract hash)
        (.foreign oracle .notifyNullifiedNote args) := by
  have map : (oracle.withNullifiedNote crypto args).noteHashNullifierCounterMap =
    oracle.counterMapWith ((args.first 1).getD 0) (oracle.numbered (args.counter 2)) := rfl
  have created : (oracle.withNullifiedNote crypto args).createdCount contract hash =
      oracle.createdCount contract hash := rfl
  have named : (Step.foreign oracle .notifyNullifiedNote args).nullifiedHash =
      some (oracle.contractAddress, (args.first 1).getD 0) := rfl
  have noCreation : (Step.foreign oracle .notifyNullifiedNote args).creates contract hash = 0 := rfl
  unfold tally
  simp only [named, noCreation, created, Nat.add_zero, Option.some.injEq, Prod.mk.injEq]
  generalize (args.first 1).getD 0 = value at finds map ⊢
  by_cases nothing : value = 0 ∨ oracle.firstWith value = none
  · have idle : ¬ ((oracle.contractAddress = contract ∧ value = hash) ∧
        oracle.matchedCount contract hash < oracle.createdCount contract hash) := by
      rintro ⟨⟨rfl, rfl⟩, waiting⟩
      rcases nothing with zero | unfound
      · exact (finds.2 waiting).1 zero
      · rw [createdCount_of_none unfound] at waiting
        cases waiting
    rw [map_kept nothing] at map
    rw [if_neg idle]
    unfold matchedCount
    rw [map]
    rfl
  · rw [not_or, ← Ne, ← Ne, Option.ne_none_iff_exists'] at nothing
    obtain ⟨nonzero, first, found⟩ := nothing
    rw [map_inserted nonzero found] at map
    have frame : (oracle.withNullifiedNote crypto args).noteHashes = oracle.noteHashes := rfl
    have moved : (oracle.withNullifiedNote crypto args).matchedCount contract hash = _ :=
      matched_insert frame map (List.mem_of_find?_eq_some found) distinct
    rw [moved]
    by_cases counts : (oracle.contractAddress = contract ∧ value = hash) ∧
        oracle.matchedCount contract hash < oracle.createdCount contract hash
    · rw [if_pos counts, if_pos ((first_counts finds nonzero found).mpr counts)]
    · rw [if_neg counts, if_neg (fun both => counts ((first_counts finds nonzero found).mp both))]
      rfl

/-- A step that nullifies no note only adds what it records. -/
private theorem counts_recorded {step : Step} (silent : step.nullification = none)
    (keyed : Keyed oracle)
    (noteHashes : next.noteHashes = oracle.noteHashes ++ step.addedNoteHashes)
    (keys : ∀ k, k ∈ next.noteHashNullifierCounterMap ↔ k ∈ oracle.noteHashNullifierCounterMap)
    (distinct : ((oracle.noteHashes ++ step.addedNoteHashes).map (·.noteHash.counter)).Nodup) :
    (next.createdCount contract hash, next.matchedCount contract hash) =
      tally contract hash (oracle.createdCount contract hash, oracle.matchedCount contract hash)
        step := by
  have unnamed : step.nullifiedHash = none := by rw [Step.nullifiedHash, silent, Option.map_none]
  have grown : next.createdCount contract hash = _ ∧ next.matchedCount contract hash = _ :=
    counts_grow keyed noteHashes keys distinct
  unfold tally
  rw [unnamed, if_neg (fun both => by cases both.1), grown.1, grown.2]
  rfl

private theorem counts_handled {handler : Handler} (done : oracle.Handled crypto args handler next)
    (keyed : Keyed oracle) (finds : (Step.foreign oracle handler args).MatchesOwn)
    (distinct : ((oracle.noteHashes ++
      (Step.foreign oracle handler args).addedNoteHashes).map (·.noteHash.counter)).Nodup) :
    (next.createdCount contract hash, next.matchedCount contract hash) =
      tally contract hash (oracle.createdCount contract hash, oracle.matchedCount contract hash)
        (.foreign oracle handler args) := by
  have noteHashes := (CircuitOutputs.noteHashRecorder crypto .empty).handled done
  cases done with
  | nullifiedNote writable =>
    rw [List.map_append, List.nodup_append] at distinct
    exact counts_nullified (finds _ rfl) distinct.1
  | _ => exact counts_recorded rfl keyed noteHashes (fun _ => Iff.rfl) distinct

private theorem keyed_handled {handler : Handler} (done : oracle.Handled crypto args handler next)
    (keyed : Keyed oracle) : Keyed next := by
  cases done with
  | createdNote =>
    intro k held
    exact List.mem_map.mpr (by
      obtain ⟨entry, inside, same⟩ := List.mem_map.mp (keyed k held)
      exact ⟨entry, List.mem_append_left _ inside, same⟩)
  | nullifiedNote =>
    intro k held
    change k ∈ oracle.counterMapWith ((args.first 1).getD 0) (oracle.numbered (args.counter 2)) at held
    by_cases nothing : (args.first 1).getD 0 = 0 ∨ oracle.firstWith ((args.first 1).getD 0) = none
    · rw [map_kept nothing] at held
      exact keyed k held
    · rw [not_or, ← Ne, ← Ne, Option.ne_none_iff_exists'] at nothing
      obtain ⟨nonzero, first, found⟩ := nothing
      rw [map_inserted nonzero found, Std.ExtTreeMap.mem_insert, compare_eq_iff_eq] at held
      rcases held with rfl | before
      · exact List.mem_map_of_mem (List.mem_of_find?_eq_some found)
      · exact keyed k before
  | _ => exact keyed

/-- The oracle holds the note hashes of the points passed, its keys are counters
of them, and its counts are the tally of the points. -/
structure Tallied (passed : List Step) (oracle : PrivateExecutionOracle) : Prop where
  noteHashes : oracle.noteHashes = passed.flatMap Step.addedNoteHashes
  keyed : Keyed oracle
  counts : ∀ contract hash,
    (oracle.createdCount contract hash, oracle.matchedCount contract hash) =
      passed.foldl (tally contract hash) (0, 0)

/-- The notes nullified are found by their hash, and the note hashes have
distinct counters. -/
structure Orderly (passed : List Step) : Prop where
  finds : ∀ step ∈ passed, step.MatchesOwn
  distinct : ((passed.flatMap Step.addedNoteHashes).map (·.noteHash.counter)).Nodup

/-- Less has been passed. -/
theorem Orderly.before {passed later : List Step} (orderly : Orderly (passed ++ later)) :
    Orderly passed := by
  refine ⟨fun step inside => orderly.finds step (List.mem_append_left _ inside), ?_⟩
  have distinct := orderly.distinct
  rw [List.flatMap_append, List.map_append, List.nodup_append] at distinct
  exact distinct.1

private theorem Tallied.moved {passed : List Step} {step : Step} (tallied : Tallied passed oracle)
    (noteHashes : next.noteHashes = oracle.noteHashes ++ step.addedNoteHashes)
    (keyed : Keyed next)
    (counts : ∀ contract hash,
      (next.createdCount contract hash, next.matchedCount contract hash) =
        tally contract hash (oracle.createdCount contract hash, oracle.matchedCount contract hash)
          step) :
    Tallied (passed ++ [step]) next := by
  refine ⟨?_, keyed, fun contract hash => ?_⟩
  · rw [noteHashes, tallied.noteHashes, List.flatMap_append, List.flatMap_singleton]
  · rw [counts, tallied.counts, List.foldl_append]
    rfl

/-- A point that leaves the note hashes and the map alone. -/
private theorem Tallied.silent {passed : List Step} {args : Args} (tallied : Tallied passed oracle)
    (noteHashes : next.noteHashes = oracle.noteHashes)
    (map : next.noteHashNullifierCounterMap = oracle.noteHashNullifierCounterMap) :
    Tallied (passed ++ [.called oracle args]) next := by
  refine tallied.moved (noteHashes.trans (List.append_nil _).symm) ?_ fun contract hash => ?_
  · intro k held
    rw [map] at held
    rw [noteHashes]
    exact tallied.keyed k held
  · unfold createdCount matchedCount
    rw [noteHashes, map]
    rfl

private theorem tallied_returned {passed inside : List Step}
    (below : Runs crypto contracts body (oracle.nested call) inside inner)
    (tallied : Tallied (passed ++ .called oracle args :: inside) inner)
    (distinct : (((passed ++ Step.called oracle args :: inside ++
      [Step.returned oracle call output inner]).flatMap Step.addedNoteHashes).map
        (·.noteHash.counter)).Nodup) :
    Tallied (passed ++ .called oracle args :: inside ++ [.returned oracle call output inner])
      (oracle.merge crypto call output inner).2 := by
  have ended : inner.noteHashes = (oracle.nested call).noteHashes ++ _ :=
    CircuitOutputs.noteHashes_of_runs below
  have inherited : (oracle.nested call).noteHashes = oracle.noteHashes := rfl
  have merged : (oracle.merge crypto call output inner).2.noteHashes =
      inner.noteHashes ++ (Step.returned oracle call output inner).addedNoteHashes := by
    rw [ended, inherited, List.append_assoc]
    exact (CircuitOutputs.noteHashRecorder crypto contracts).merged_of_runs below output
  refine tallied.moved merged ?_ fun contract hash => ?_
  · intro k held
    rw [merged, List.map_append]
    exact List.mem_append_left _
      (tallied.keyed k ((CounterPairs.mem_merged_of_runs below k).mp held))
  · rw [List.flatMap_append, ← tallied.noteHashes, List.flatMap_singleton] at distinct
    exact counts_recorded rfl tallied.keyed merged (CounterPairs.mem_merged_of_runs below) distinct

/-- The tally is kept by every step that finds the note it nullifies. -/
theorem tallied_invariant (crypto : Crypto) (contracts : ContractStore) :
    Invariant crypto contracts (fun passed oracle => Orderly passed → Tallied passed oracle) where
  foreign {passed oracle next args handler} held done orderly := by
    have tallied := held orderly.before
    have distinct := orderly.distinct
    rw [List.flatMap_append, ← tallied.noteHashes, List.flatMap_singleton] at distinct
    exact tallied.moved ((CircuitOutputs.noteHashRecorder crypto contracts).handled done)
      (keyed_handled done tallied.keyed) fun contract hash =>
        counts_handled done tallied.keyed (orderly.finds _ (by simp)) distinct
  handled {passed oracle next args answer} held protocol orderly := by
    obtain ⟨call, -, -, published⟩ := enter_handled protocol
    exact (held orderly.before).silent (by cases published <;> rfl) (by cases published <;> rfl)
  entered held enters orderly := (held orderly.before).silent rfl rfl
  returned output held enters below ended orderly :=
    tallied_returned below (ended orderly.before) orderly.distinct

end Counts

/-- Pairs that match created notes with nullifiers recorded for them, for each
contract and hash as many as the notes created and nullified allow. -/
structure Matching (crypto : Crypto) (contracts : ContractStore) (trace : List Step)
    (pairs : Std.ExtTreeMap Nat Nat) : Prop where
  related : ∀ k v : Nat, pairs[k]? = some v → ∃ note ∈ trace.flatMap Step.addedNoteHashes,
    ∃ nullifier ∈ trace.flatMap (Step.nullifiers crypto contracts),
      note.noteHash.counter = k ∧ nullifier.nullifier.counter = v ∧
      nullifier.contractAddress = note.contractAddress ∧
      nullifier.nullifier.noteHash = note.noteHash.value
  injective : ∀ k other v : Nat, pairs[k]? = some v → pairs[other]? = some v → k = other
  counted : ∀ contract hash, pairs.keys.countP (fun k =>
      (trace.flatMap Step.addedNoteHashes).any (fun note =>
        note.isOf contract hash && decide (note.noteHash.counter = k))) =
    min (trace.foldl (tally contract hash) (0, 0)).1 (trace.foldl (tally contract hash) (0, 0)).2

section Tree
variable {root : EmbeddedPxe.Root} {function : PrivateFunction}

private theorem noteHashes_final (runs : Runs crypto contracts script root.oracle trace final) :
    final.noteHashes = trace.flatMap Step.addedNoteHashes := by
  rw [CircuitOutputs.noteHashes_of_runs runs, CircuitOutputs.noteHashes_root, List.nil_append]

theorem tallied_root : Tallied [] root.oracle := by
  have empty : root.oracle.noteHashNullifierCounterMap = ∅ := by cases root <;> rfl
  refine ⟨CircuitOutputs.noteHashes_root, ?_, fun contract hash => ?_⟩
  · intro k held
    rw [empty] at held
    exact absurd held Std.ExtTreeMap.not_mem_empty
  · unfold createdCount matchedCount
    rw [CircuitOutputs.noteHashes_root]
    rfl

private theorem related_of_runs (runs : Runs crypto contracts script root.oracle trace final)
    (finds : ∀ step ∈ trace, step.MatchesOwn) {k v : Nat}
    (inserted : (k, v) ∈ trace.flatMap Step.pairs) :
    ∃ note ∈ trace.flatMap Step.addedNoteHashes,
      ∃ nullifier ∈ trace.flatMap (Step.nullifiers crypto contracts),
        note.noteHash.counter = k ∧ nullifier.nullifier.counter = v ∧
        nullifier.contractAddress = note.contractAddress ∧
        nullifier.nullifier.noteHash = note.noteHash.value := by
  obtain ⟨oracle, args, first, inside, nonzero, found, rfl, rfl⟩ :=
    CounterPairs.origin_of_pair inserted
  have created : first ∈ trace.flatMap Step.addedNoteHashes := by
    rw [← noteHashes_final runs]
    exact CounterPairs.noteHashes_within runs inside first (List.mem_of_find?_eq_some found)
  have recorded : oracle.nullifiedNote args ∈ trace.flatMap (Step.nullifiers crypto contracts) :=
    List.mem_flatMap.mpr ⟨_, inside, List.mem_cons_self⟩
  have same : first.noteHash.value = (args.first 1).getD 0 := by
    simpa using List.find?_some found
  have own : first.contractAddress = oracle.contractAddress :=
    (finds _ inside _ rfl).1 nonzero first found
  exact ⟨first, created, oracle.nullifiedNote args, recorded, rfl, rfl, own.symm, same.symm⟩

/-- Nullifications of notes under one counter are one step. -/
private theorem step_unique
    (distinct : ((trace.flatMap Step.noteNullifier).map (·.nullifier.counter)).Nodup)
    {earlier later : PrivateExecutionOracle} {args others : Args}
    (inside : .foreign earlier .notifyNullifiedNote args ∈ trace)
    (also : .foreign later .notifyNullifiedNote others ∈ trace)
    (same : earlier.numbered (args.counter 2) = later.numbered (others.counter 2)) :
    Step.foreign earlier .notifyNullifiedNote args =
      Step.foreign later .notifyNullifiedNote others := by
  rw [List.map_flatMap, List.nodup_flatMap] at distinct
  by_contra apart
  have symmetric : Std.Symm (Function.onFun List.Disjoint (fun step : Step =>
      step.noteNullifier.map (·.nullifier.counter))) := ⟨fun _ _ => List.Disjoint.symm⟩
  have clash := distinct.2.forall inside also apart
  have first : earlier.numbered (args.counter 2) ∈
      (Step.foreign earlier .notifyNullifiedNote args).noteNullifier.map
        (·.nullifier.counter) := List.mem_cons_self
  have second : earlier.numbered (args.counter 2) ∈
      (Step.foreign later .notifyNullifiedNote others).noteNullifier.map
        (·.nullifier.counter) := by
    rw [same]
    exact List.mem_cons_self
  exact clash first second

private theorem injective_of_runs
    (distinct : ((trace.flatMap Step.noteNullifier).map (·.nullifier.counter)).Nodup)
    {k other v : Nat} (inserted : (k, v) ∈ trace.flatMap Step.pairs)
    (also : (other, v) ∈ trace.flatMap Step.pairs) : k = other := by
  obtain ⟨oracle, args, first, inside, -, found, rfl, rfl⟩ := CounterPairs.origin_of_pair inserted
  obtain ⟨later, others, second, within, -, foundLater, rfl, same⟩ :=
    CounterPairs.origin_of_pair also
  have one := step_unique distinct inside within same
  cases one
  rw [found] at foundLater
  cases foundLater
  rfl

/-- Among distinct numbers, the marked ones of a kind are as many as the items
of that kind with a mark. -/
theorem countP_keys {keys : List Nat} {items : List ScopedNoteHash}
    (counts : ScopedNoteHash → Bool) (nodup : keys.Nodup)
    (distinct : (items.map (·.noteHash.counter)).Nodup) :
    keys.countP (fun k => items.any (fun item =>
        counts item && decide (item.noteHash.counter = k))) =
      items.countP (fun item => counts item && decide (item.noteHash.counter ∈ keys)) := by
  rw [List.countP_eq_length_filter, List.countP_eq_length_filter]
  have marked : (items.filter (fun item =>
      counts item && decide (item.noteHash.counter ∈ keys))).length = _ :=
    (List.length_map (·.noteHash.counter)).symm
  rw [marked]
  apply List.Perm.length_eq
  apply (List.perm_ext_iff_of_nodup (nodup.filter _)
    (distinct.sublist (List.filter_sublist.map _))).mpr
  intro k
  simp only [List.mem_filter, List.any_eq_true, Bool.and_eq_true, decide_eq_true_eq, List.mem_map]
  constructor
  · rintro ⟨held, item, inside, counted, rfl⟩
    exact ⟨item, ⟨inside, counted, held⟩, rfl⟩
  · rintro ⟨item, ⟨inside, counted, held⟩, rfl⟩
    exact ⟨held, item, inside, counted, rfl⟩

/-- The pairs of a contract and a hash, as the root's oracle counts them. -/
private theorem counted_of_runs (runs : Runs crypto contracts script root.oracle trace final)
    (distinct : ((trace.flatMap Step.addedNoteHashes).map (·.noteHash.counter)).Nodup)
    (contract : AztecAddress) (hash : Fr) :
    (root.bundle function output
        final).executionResult.allNoteHashNullifierCounterMaps.keys.countP (fun k =>
      (trace.flatMap Step.addedNoteHashes).any (fun note =>
        note.isOf contract hash && decide (note.noteHash.counter = k))) =
      final.matchedCount contract hash := by
  rw [countP_keys _ Std.ExtTreeMap.nodup_keys distinct, ← noteHashes_final runs]
  apply List.countP_congr
  intro note _
  rw [Bool.and_eq_true, Bool.and_eq_true, decide_eq_true_eq, Std.ExtTreeMap.mem_keys,
    CounterPairs.mem_result runs, Std.ExtTreeMap.contains_iff_mem]

end Tree

/-- In a tree whose note hashes, and whose nullifiers of notes, have distinct
counters, the collected pairs are a matching if every nullified note is found by
its hash. -/
theorem transient_matching (crypto : Crypto) (contracts : ContractStore) (root : EmbeddedPxe.Root)
    (function : PrivateFunction) (script : Script) (output : AcvmExecutionOutput)
    (final : PrivateExecutionOracle)
    (ran : script.execute crypto contracts root.oracle = .ok final)
    (distinctNotes : (((script.steps crypto contracts root.oracle).flatMap
      Step.addedNoteHashes).map (·.noteHash.counter)).Nodup)
    (distinctNullifiers : (((script.steps crypto contracts root.oracle).flatMap
      Step.noteNullifier).map (·.nullifier.counter)).Nodup)
    (finds : ∀ step ∈ script.steps crypto contracts root.oracle, step.MatchesOwn) :
    Matching crypto contracts (script.steps crypto contracts root.oracle)
      (root.bundle function output final).executionResult.allNoteHashNullifierCounterMaps := by
  have runs := runs_of_execute ran
  refine ⟨?_, ?_, ?_⟩
  · intro k v held
    exact related_of_runs runs finds (CounterPairs.pair_of_result runs held)
  · intro k other v held also
    exact injective_of_runs distinctNullifiers (CounterPairs.pair_of_result runs held)
      (CounterPairs.pair_of_result runs also)
  · intro contract hash
    have tallied : Tallied (script.steps crypto contracts root.oracle) final :=
      (tallied_invariant crypto contracts).at_end runs (fun _ => tallied_root)
        ⟨finds, distinctNotes⟩
    rw [counted_of_runs runs distinctNotes, ← tallied.counts]
    exact (Nat.min_eq_right matchedCount_le).symm

/-- A note, spent by a nested call. -/
def spentBelow : Script :=
  .foreign .notifyCreatedNote [[1], [2], [3], [4], [], [9], [2]]
    (.callPrivate [[8], [5], [0], [3], [0]]
      (.foreign .notifyNullifiedNote [[11], [9], [4]] .done) {} .done)

/-- The note is matched with the nullifier of the nested call. -/
theorem spentBelow_matched :
    ∃ final, spentBelow.execute .zero (.one (.fromField 5))
        NullifierCollection.bareEntrypoint.oracle = .ok final ∧
      Matching .zero (.one (.fromField 5))
        (spentBelow.steps .zero (.one (.fromField 5)) NullifierCollection.bareEntrypoint.oracle)
        (NullifierCollection.bareEntrypoint.bundle ⟨none, false, 0⟩ {}
          final).executionResult.allNoteHashNullifierCounterMaps :=
  ⟨_, rfl, transient_matching .zero (.one (.fromField 5)) NullifierCollection.bareEntrypoint
    ⟨none, false, 0⟩ spentBelow {} _ rfl (by decide) (by decide) (by decide)⟩

/-- Two notes of one hash, both nullified. -/
def equalNotes : Script :=
  .foreign .notifyCreatedNote [[1], [2], [3], [4], [], [9], [2]]
    (.foreign .notifyCreatedNote [[1], [2], [3], [4], [], [9], [3]]
      (.foreign .notifyNullifiedNote [[11], [9], [4]]
        (.foreign .notifyNullifiedNote [[12], [9], [5]] .done)))

/-- The second nullifier takes the place of the first, and one of the notes is
left without a pair. -/
theorem equalNotes_unmatched :
    ∃ final, equalNotes.execute .zero .empty NullifierCollection.bareEntrypoint.oracle = .ok final ∧
      (((equalNotes.steps .zero .empty NullifierCollection.bareEntrypoint.oracle).flatMap
        Step.addedNoteHashes).map (·.noteHash.counter)).Nodup ∧
      (((equalNotes.steps .zero .empty NullifierCollection.bareEntrypoint.oracle).flatMap
        Step.noteNullifier).map (·.nullifier.counter)).Nodup ∧
      ¬ Matching .zero .empty
        (equalNotes.steps .zero .empty NullifierCollection.bareEntrypoint.oracle)
        (NullifierCollection.bareEntrypoint.bundle ⟨none, false, 0⟩ {}
          final).executionResult.allNoteHashNullifierCounterMaps := by
  refine ⟨_, rfl, by decide, by decide, ?_⟩
  intro matching
  have counted := matching.counted ⟨8⟩ 9
  revert counted
  decide

end TransientMatching

end AztecPxe
