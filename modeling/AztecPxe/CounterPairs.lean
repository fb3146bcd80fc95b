import AztecPxe.NestedMerge

/-! The map from the counters of note hashes to the counters of the nullifiers
that spend them, over whole runs. A nullified note is looked for among the note
hashes by its value alone, the first of the value is taken, and its counter is
the key; a nested call hands back only keys its caller did not have. -/
namespace AztecPxe
open PrivateExecutionOracle Script

/-- The entry is a note of the contract with the hash. -/
def ScopedNoteHash.isOf (entry : ScopedNoteHash) (contract : AztecAddress) (hash : Fr) : Bool :=
  decide (entry.contractAddress = contract) && decide (entry.noteHash.value = hash)

namespace PrivateExecutionOracle
variable (oracle : PrivateExecutionOracle)

/-- The first recorded note hash of a value, whichever contract made it. -/
def firstWith (hash : Fr) : Option ScopedNoteHash :=
  oracle.noteHashes.find? (fun other => other.noteHash.value = hash)

/-- How many notes of a contract with a hash are recorded. -/
def createdCount (contract : AztecAddress) (hash : Fr) : Nat :=
  oracle.noteHashes.countP (·.isOf contract hash)

/-- How many of these have a key in the map. -/
def matchedCount (contract : AztecAddress) (hash : Fr) : Nat :=
  oracle.noteHashes.countP (fun entry => entry.isOf contract hash &&
    oracle.noteHashNullifierCounterMap.contains entry.noteHash.counter)

end PrivateExecutionOracle

namespace Step

/-- The oracle a step nullifies a note in, with the note hash it names. -/
def nullification : Step → Option (PrivateExecutionOracle × Fr)
  | .foreign oracle .notifyNullifiedNote args => some (oracle, (args.first 1).getD 0)
  | _ => none

/-- The contract and the hash of the note a step says it nullifies. -/
def nullifiedHash (step : Step) : Option (AztecAddress × Fr) :=
  step.nullification.map (fun entry => (entry.1.contractAddress, entry.2))

/-- The nullifier a step records for a note. -/
def noteNullifier : Step → List ScopedNullifier
  | .foreign oracle .notifyNullifiedNote args => [oracle.nullifiedNote args]
  | _ => []

/-- The pair of counters a step inserts. -/
def pairs : Step → List (Nat × Nat)
  | .foreign oracle .notifyNullifiedNote args =>
    if (args.first 1).getD 0 = 0 then []
    else (oracle.firstWith ((args.first 1).getD 0)).toList.map (fun created =>
      (created.noteHash.counter, oracle.numbered (args.counter 2)))
  | _ => []

end Step

namespace CounterPairs
variable {crypto : Crypto} {contracts : ContractStore}
variable {oracle next final inner : PrivateExecutionOracle} {args : Args}
variable {script body : Script} {trace : List Step} {call : NestedCall}
variable {output : AcvmExecutionOutput}

section Map

private theorem counterMapWith_eq (oracle : PrivateExecutionOracle) (args : Args) :
    oracle.counterMapWith ((args.first 1).getD 0) (oracle.numbered (args.counter 2)) =
      oracle.noteHashNullifierCounterMap.insertMany
        (Step.foreign oracle .notifyNullifiedNote args).pairs := by
  unfold counterMapWith
  simp only [Step.pairs, firstWith]
  split
  · simp
  · split
    next found => simp [found]
    next none => simp [none]

private theorem map_handled {handler : Handler} (done : oracle.Handled crypto args handler next) :
    next.noteHashNullifierCounterMap = oracle.noteHashNullifierCounterMap.insertMany
      (Step.foreign oracle handler args).pairs := by
  cases done with
  | nullifiedNote => exact counterMapWith_eq oracle args
  | _ => exact Std.ExtTreeMap.insertMany_nil.symm

private theorem map_published (done : oracle.Published crypto call next) :
    next.noteHashNullifierCounterMap = oracle.noteHashNullifierCounterMap := by
  cases done <;> rfl

private theorem mem_insertPairs {map : Std.ExtTreeMap Nat Nat} {pairs : List (Nat × Nat)}
    {k : Nat} : k ∈ map.insertMany pairs ↔ k ∈ map ∨ k ∈ pairs.map Prod.fst := by
  rw [Std.ExtTreeMap.mem_insertMany_list, List.contains_iff_mem]

private theorem getElem?_insertPairs {map : Std.ExtTreeMap Nat Nat} {pairs : List (Nat × Nat)}
    {k v : Nat} (held : (map.insertMany pairs)[k]? = some v) :
    map[k]? = some v ∨ (k, v) ∈ pairs := by
  rw [Std.ExtTreeMap.getElem?_insertMany_list, List.findSomeRev?_eq_findSome?_reverse] at held
  rcases Option.or_eq_some_iff.mp held with found | ⟨-, kept⟩
  · obtain ⟨⟨other, value⟩, inside, same⟩ := List.exists_of_findSome?_eq_some found
    have both : other = k ∧ value = v := by simpa using same
    obtain ⟨rfl, rfl⟩ := both
    exact .inr (List.mem_reverse.mp inside)
  · exact .inl kept

private theorem mem_newPairs {k : Nat} :
    k ∈ oracle.newPairs inner ↔ k ∈ inner.noteHashNullifierCounterMap ∧
      k ∉ oracle.noteHashNullifierCounterMap := by
  unfold newPairs
  rw [Std.ExtTreeMap.mem_iff_isSome_getElem?, Std.ExtTreeMap.getElem?_filter',
    Std.ExtTreeMap.mem_iff_isSome_getElem?]
  cases inner.noteHashNullifierCounterMap[k]? with
  | none => simp
  | some v => simp [Option.filter, ← Std.ExtTreeMap.contains_iff_mem]

/-- The pairs a nested call reports are its own. -/
theorem getElem?_newPairs {k v : Nat} (held : (oracle.newPairs inner)[k]? = some v) :
    inner.noteHashNullifierCounterMap[k]? = some v ∧
      k ∉ oracle.noteHashNullifierCounterMap := by
  have fresh : k ∈ oracle.newPairs inner :=
    Std.ExtTreeMap.mem_iff_isSome_getElem?.mpr (by rw [held]; rfl)
  refine ⟨?_, (mem_newPairs.mp fresh).2⟩
  unfold newPairs at held
  rw [Std.ExtTreeMap.getElem?_filter'] at held
  exact (Option.filter_eq_some_iff.mp held).1

theorem map_fst_toList (map : Std.ExtTreeMap Nat Nat) (k : Nat) :
    k ∈ map.toList.map Prod.fst ↔ k ∈ map := by
  rw [Std.ExtTreeMap.map_fst_toList_eq_keys, Std.ExtTreeMap.mem_keys]

/-- After a nested call its caller has the keys of both. -/
private theorem mem_merged {k : Nat} :
    k ∈ (oracle.merge crypto call output inner).2.noteHashNullifierCounterMap ↔
      k ∈ oracle.noteHashNullifierCounterMap ∨ k ∈ inner.noteHashNullifierCounterMap := by
  change k ∈ oracle.noteHashNullifierCounterMap.insertMany (oracle.newPairs inner).toList ↔ _
  rw [mem_insertPairs, map_fst_toList, mem_newPairs]
  tauto

private theorem getElem?_merged {k v : Nat}
    (held : (oracle.merge crypto call output inner).2.noteHashNullifierCounterMap[k]? = some v) :
    oracle.noteHashNullifierCounterMap[k]? = some v ∨
      (inner.noteHashNullifierCounterMap[k]? = some v ∧
        k ∉ oracle.noteHashNullifierCounterMap) := by
  rcases getElem?_insertPairs held with kept | added
  · exact .inl kept
  · exact .inr (getElem?_newPairs (Std.ExtTreeMap.mem_toList_iff_getElem?_eq_some.mp added))

/-- In every state of an execution the keys are those of the start and those
inserted at the points passed. -/
theorem keys_reached (crypto : Crypto) (contracts : ContractStore) (start : PrivateExecutionOracle) :
    Invariant crypto contracts (fun passed oracle => ∀ k,
      k ∈ oracle.noteHashNullifierCounterMap ↔ k ∈ start.noteHashNullifierCounterMap ∨
        k ∈ (passed.flatMap Step.pairs).map Prod.fst) where
  foreign {passed oracle next args handler} held done k := by
    rw [map_handled done, mem_insertPairs, held, List.flatMap_append, List.flatMap_singleton,
      List.map_append, List.mem_append, or_assoc]
  handled {passed oracle next args answer} held protocol k := by
    obtain ⟨call, -, -, published⟩ := enter_handled protocol
    rw [map_published published, held, List.flatMap_append, List.flatMap_singleton]
    simp [Step.pairs]
  entered {passed oracle args call} held enters k := by
    have inherited : (oracle.nested call).noteHashNullifierCounterMap =
        oracle.noteHashNullifierCounterMap := rfl
    rw [inherited, held, List.flatMap_append, List.flatMap_singleton]
    simp [Step.pairs]
  returned {passed oracle args call body inside inner} output held enters below ended k := by
    rw [mem_merged, held, ended]
    simp only [List.flatMap_append, List.flatMap_cons, List.flatMap_nil, List.map_append,
      List.mem_append, Step.pairs, List.map_nil, List.not_mem_nil]
    tauto

/-- The keys of an oracle are those it started with and those inserted below it. -/
theorem mem_map_of_runs (runs : Runs crypto contracts script oracle trace final) (k : Nat) :
    k ∈ final.noteHashNullifierCounterMap ↔ k ∈ oracle.noteHashNullifierCounterMap ∨
      k ∈ (trace.flatMap Step.pairs).map Prod.fst :=
  (keys_reached crypto contracts oracle).at_end runs (fun _ => by simp) k

/-- A caller has the keys its nested call ended with, for it handed all of its own
down. -/
theorem mem_merged_of_runs {inside : List Step}
    (runs : Runs crypto contracts body (oracle.nested call) inside inner) (k : Nat) :
    k ∈ (oracle.merge crypto call output inner).2.noteHashNullifierCounterMap ↔
      k ∈ inner.noteHashNullifierCounterMap := by
  rw [mem_merged]
  constructor
  · rintro (inherited | nested)
    · exact (mem_map_of_runs runs k).mpr (.inl inherited)
    · exact nested
  · exact .inr

/-- Every pair of an oracle is one it started with or one inserted below it. -/
theorem pair_of_runs (runs : Runs crypto contracts script oracle trace final) {k v : Nat}
    (held : final.noteHashNullifierCounterMap[k]? = some v) :
    oracle.noteHashNullifierCounterMap[k]? = some v ∨ (k, v) ∈ trace.flatMap Step.pairs := by
  induction runs with
  | done => exact .inl held
  | foreign handled later ih =>
    rw [List.flatMap_cons, List.mem_append]
    rcases ih held with early | late
    · rw [map_handled (handled_of_ok handled)] at early
      rcases getElem?_insertPairs early with kept | added
      · exact .inl kept
      · exact .inr (.inl added)
    · exact .inr (.inr late)
  | handled protocol later ih =>
    obtain ⟨call, -, -, published⟩ := enter_handled protocol
    rw [← map_published published]
    exact ih held
  | @entered oracle inner final args call body rest output inside after enters below later inIh ih =>
    simp only [List.cons_append, List.flatMap_cons, List.flatMap_append, List.mem_append]
    rcases ih held with early | late
    · rcases getElem?_merged early with kept | ⟨nested, fresh⟩
      · exact .inl kept
      · rcases inIh nested with inherited | inside
        · exact .inl inherited
        · exact .inr (.inr (.inl inside))
    · exact .inr (.inr (.inr (.inr late)))

/-- The step that inserted a pair, with the note hash it found. -/
theorem origin_of_pair {k v : Nat} (inserted : (k, v) ∈ trace.flatMap Step.pairs) :
    ∃ oracle args first, .foreign oracle .notifyNullifiedNote args ∈ trace ∧
      (args.first 1).getD 0 ≠ 0 ∧ oracle.firstWith ((args.first 1).getD 0) = some first ∧
      k = first.noteHash.counter ∧ v = oracle.numbered (args.counter 2) := by
  obtain ⟨step, inside, added⟩ := List.mem_flatMap.mp inserted
  unfold Step.pairs at added
  split at added
  next oracle args =>
    split at added
    · cases added
    next nonzero =>
      obtain ⟨first, found, same⟩ := List.mem_map.mp added
      have held : oracle.firstWith ((args.first 1).getD 0) = some first := by simpa using found
      exact ⟨oracle, args, first, inside, nonzero, held, (congrArg Prod.fst same).symm,
        (congrArg Prod.snd same).symm⟩
  · cases added

/-- No note hash is lost on the way from a foreign call to the end of the run. -/
theorem noteHashes_within (runs : Runs crypto contracts script oracle trace final)
    {found : PrivateExecutionOracle} {handler : Handler}
    (inside : .foreign found handler args ∈ trace) :
    ∀ entry ∈ found.noteHashes, entry ∈ final.noteHashes := by
  obtain ⟨before, after, rfl⟩ := List.append_of_mem inside
  have there : found.noteHashes = oracle.noteHashes ++ before.flatMap Step.addedNoteHashes :=
    ((CircuitOutputs.noteHashRecorder crypto contracts).reached (fun _ _ => rfl) _).at_state
      (reaches_of_runs_split runs rfl) (List.append_nil _).symm
  intro entry held
  rw [there] at held
  rw [CircuitOutputs.noteHashes_of_runs runs, List.flatMap_append, ← List.append_assoc]
  exact List.mem_append_left _ held

end Map

section Result
variable {root : EmbeddedPxe.Root} {function : PrivateFunction}

/-- The pairs of a call, as a list. -/
def ownPairs (call : PrivateCallExecutionResult) : List (Nat × Nat) :=
  call.noteHashNullifierCounterMap.toList

private theorem allMaps_eq (result : PrivateExecutionResult) :
    result.allNoteHashNullifierCounterMaps =
      (∅ : Std.ExtTreeMap Nat Nat).insertMany (result.iterAllCalls.flatMap ownPairs) := by
  have folded : ∀ (calls : List PrivateCallExecutionResult) (map : Std.ExtTreeMap Nat Nat),
      calls.foldl (fun map call => map.insertMany (ownPairs call)) map =
        map.insertMany (calls.flatMap ownPairs) := by
    intro calls
    induction calls with
    | nil => simp
    | cons call rest ih =>
      intro map
      rw [List.foldl_cons, ih, List.flatMap_cons]
      simp only [Std.ExtTreeMap.insertMany_list_eq_foldl, List.foldl_append]
  exact folded _ _

/-- The collector yields the keys of every call. -/
theorem mem_allMaps {result : PrivateExecutionResult} {k : Nat} :
    k ∈ result.allNoteHashNullifierCounterMaps ↔
      ∃ call ∈ result.iterAllCalls, k ∈ call.noteHashNullifierCounterMap := by
  rw [allMaps_eq, mem_insertPairs, List.map_flatMap, List.mem_flatMap,
    or_iff_right Std.ExtTreeMap.not_mem_empty]
  simp only [ownPairs, map_fst_toList]

private theorem pairs_nestedResult {inside : List Step}
    (runs : Runs crypto contracts body (oracle.nested call) inside inner) :
    ∀ pair ∈ ownPairs (oracle.nestedResult call output inner),
      pair ∈ inside.flatMap Step.pairs ∨
        pair ∈ (Step.returned oracle call output inner).pairs := by
  rintro ⟨k, v⟩ held
  obtain ⟨nested, fresh⟩ := getElem?_newPairs
    (Std.ExtTreeMap.mem_toList_iff_getElem?_eq_some.mp held)
  rcases pair_of_runs runs nested with inherited | inside
  · have held : oracle.noteHashNullifierCounterMap[k]? = some v := inherited
    have known : k ∈ oracle.noteHashNullifierCounterMap :=
      Std.ExtTreeMap.mem_iff_isSome_getElem?.mpr (by rw [held]; rfl)
    exact (fresh known).elim
  · exact .inl inside

private theorem map_root : root.oracle.noteHashNullifierCounterMap = ∅ := by
  cases root <;> rfl

private theorem map_bundle :
    (root.bundle function output final).executionResult.entrypoint.noteHashNullifierCounterMap =
      final.noteHashNullifierCounterMap := by
  cases root <;> rfl

/-- Every pair the collector yields was inserted by a step. -/
theorem pair_of_result (runs : Runs crypto contracts script root.oracle trace final) {k v : Nat}
    (held : (root.bundle function output
      final).executionResult.allNoteHashNullifierCounterMaps[k]? = some v) :
    (k, v) ∈ trace.flatMap Step.pairs := by
  rw [allMaps_eq, PrivateExecutionResult.flatMap_iterAllCalls] at held
  rcases getElem?_insertPairs held with none | added
  · simp at none
  rcases List.mem_append.mp added with own | below
  · unfold ownPairs at own
    rw [map_bundle, Std.ExtTreeMap.mem_toList_iff_getElem?_eq_some] at own
    rcases pair_of_runs runs own with none | inserted
    · rw [map_root] at none
      simp at none
    · exact inserted
  · exact NestedMerge.recorded_of_root ownPairs Step.pairs
      (fun bare => by simp [ownPairs, bare.pairs]) pairs_nestedResult runs (k, v) below

/-- The collector yields the keys of the root. -/
theorem mem_result (runs : Runs crypto contracts script root.oracle trace final) (k : Nat) :
    k ∈ (root.bundle function output final).executionResult.allNoteHashNullifierCounterMaps ↔
      k ∈ final.noteHashNullifierCounterMap := by
  constructor
  · intro held
    obtain ⟨v, found⟩ := Option.isSome_iff_exists.mp
      (Std.ExtTreeMap.mem_iff_isSome_getElem?.mp held)
    rw [mem_map_of_runs runs]
    exact .inr (List.mem_map_of_mem (pair_of_result runs found))
  · intro held
    rw [allMaps_eq, PrivateExecutionResult.flatMap_iterAllCalls, mem_insertPairs, List.map_append,
      List.mem_append]
    unfold ownPairs
    rw [map_bundle]
    exact .inr (.inl ((map_fst_toList _ k).mpr held))

end Result

end CounterPairs

end AztecPxe
