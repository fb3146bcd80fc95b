import AztecPxe.CounterPairs
import AztecPxe.KernelConservation

/-! The link between a private log and the note it announces, through the
aggregation of bundles. Aggregation shifts the counters of notes, nullifiers,
logs and pairs, but not the counter by which a log names its note, and the
kernel looks that counter up among the squashed notes even where it is zero,
which stands for no note. -/
namespace AztecPxe.LogLinks
open EmbeddedPxe SimulatedKernel KernelConservation

/-- Some bundle pairs a note, which is shifted to this counter, with a
nullifier. -/
def SquashedAt (bundles : List CallExecutionBundle) (counter : Nat) : Prop :=
  ∃ entry ∈ placed bundles, ∃ noteHash ∈ entry.1.executionResult.allNoteHashNullifierCounterMaps,
    saturatingAdd noteHash entry.2 = counter

/-- Of the logs that reach it, the squashing step drops exactly those linked to a
note of their own bundle that it drops too. -/
def LogsFollow (origin : AztecAddress) (bundles : List CallExecutionBundle) : Prop :=
  let aggregate := (aggregateCallBundles origin bundles).executionResult
  ∀ entry ∈ placed bundles, ∀ log ∈ entry.1.executionResult.allPrivateLogs,
    EffectKind.privateLogs.shift entry.2 log ∈ aggregate.allPrivateLogs →
      (EffectKind.privateLogs.shift entry.2 log ∉ (survivors aggregate).privateLogs ↔
        log.noteHashCounter ≠ 0 ∧
          NoteSquashed aggregate (saturatingAdd log.noteHashCounter entry.2))

/-- The counter a log carries is squashed only if its own note is: a log without
a link meets no note squashed at zero, and a link is squashed as it stands
exactly when it is squashed once shifted. -/
structure LinkHolds (bundles : List CallExecutionBundle) (offset : Nat) (log : PrivateLogData) :
    Prop where
  unlinked : log.noteHashCounter = 0 → ¬ SquashedAt bundles 0
  linked : log.noteHashCounter ≠ 0 → (SquashedAt bundles log.noteHashCounter ↔
    SquashedAt bundles (saturatingAdd log.noteHashCounter offset))

section Links
variable {origin : AztecAddress} {bundles : List CallExecutionBundle}

private theorem noteSquashed_iff_mem {result : PrivateExecutionResult} {counter : Nat} :
    NoteSquashed result counter ↔ counter ∈ result.allNoteHashNullifierCounterMaps := by
  rw [← noteSquashed_iff, Std.ExtTreeMap.contains_iff_mem]

/-- Shifting a call shifts the keys of its pairs. -/
private theorem mem_map_offset {offset counter : Nat} {call : PrivateCallExecutionResult} :
    counter ∈ (offsetPrivateCallResult offset call).noteHashNullifierCounterMap ↔
      ∃ noteHash ∈ call.noteHashNullifierCounterMap, saturatingAdd noteHash offset = counter := by
  cases call with
  | mk own nested =>
    have shifted : (offsetPrivateCallResult offset ⟨own, nested⟩).noteHashNullifierCounterMap =
        Std.ExtTreeMap.ofList (own.noteHashNullifierCounterMap.toList.map (fun pair =>
          (saturatingAdd pair.1 offset, saturatingAdd pair.2 offset))) compare := rfl
    have keys : (own.noteHashNullifierCounterMap.toList.map (fun pair =>
        (saturatingAdd pair.1 offset, saturatingAdd pair.2 offset))).map Prod.fst =
          (own.noteHashNullifierCounterMap.toList.map Prod.fst).map (saturatingAdd · offset) := by
      rw [List.map_map, List.map_map]
      rfl
    rw [shifted, Std.ExtTreeMap.mem_ofList, List.contains_iff_mem, keys, List.mem_map]
    simp only [CounterPairs.map_fst_toList]

/-- The notes squashed in the aggregate are those of the bundles, shifted. -/
private theorem noteSquashed_aggregate {counter : Nat} :
    NoteSquashed (aggregateCallBundles origin bundles).executionResult counter ↔
      SquashedAt bundles counter := by
  rw [noteSquashed_iff_mem, CounterPairs.mem_allMaps, iterAllCalls_aggregate]
  unfold SquashedAt
  simp only [CounterPairs.mem_allMaps]
  constructor
  · rintro ⟨call, listed, held⟩
    rcases List.mem_cons.mp listed with rfl | below
    · -- the root made by the aggregation has no pairs
      exact absurd held Std.ExtTreeMap.not_mem_empty
    · obtain ⟨entry, inPlace, shifted⟩ := List.mem_flatMap.mp below
      obtain ⟨original, inBundle, rfl⟩ := List.mem_map.mp shifted
      obtain ⟨noteHash, paired, same⟩ := mem_map_offset.mp held
      exact ⟨entry, inPlace, noteHash, ⟨original, inBundle, paired⟩, same⟩
  · rintro ⟨entry, inPlace, noteHash, ⟨call, listed, paired⟩, same⟩
    refine ⟨offsetPrivateCallResult entry.2 call, List.mem_cons_of_mem _ ?_,
      mem_map_offset.mpr ⟨noteHash, paired, same⟩⟩
    exact List.mem_flatMap.mpr ⟨entry, inPlace, List.mem_map_of_mem listed⟩

/-- A log that reaches the squashing step is dropped there if the counter it
carries is squashed. -/
private theorem dropped_iff {result : PrivateExecutionResult} {log : PrivateLogData}
    (collected : log ∈ result.allPrivateLogs) :
    log ∉ (survivors result).privateLogs ↔ NoteSquashed result log.noteHashCounter := by
  rw [survivors_eq, List.mem_filter, and_iff_right collected, Bool.not_eq_true', Bool.not_eq_false,
    noteSquashed_iff]

end Links

/-- A call that has numbered ten effects. -/
def tenEffects : CallExecutionBundle where
  executionResult :=
    { entrypoint := { contractAddress := ⟨7⟩, endSideEffectCounter := 10 }
      firstNullifier := 1 }

/-- A call that makes a note, spends it and logs it. -/
def spentAndLogged : CallExecutionBundle where
  executionResult :=
    { entrypoint :=
        { contractAddress := ⟨8⟩
          noteHashes := [⟨⟨9, 5⟩, ⟨8⟩⟩]
          nullifiers := [⟨⟨11, 9, 6⟩, ⟨8⟩⟩]
          noteHashNullifierCounterMap := (∅ : Std.ExtTreeMap Nat Nat).insert 5 6
          privateLogs := [⟨[1], 1, 5, 7, ⟨8⟩⟩]
          endSideEffectCounter := 8 }
      firstNullifier := 1 }

end AztecPxe.LogLinks
