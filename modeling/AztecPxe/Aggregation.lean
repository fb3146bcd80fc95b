import AztecPxe.Entrypoints

/-! Aggregation of top-level calls in `embedded_pxe.rs`: the counters of each
bundle are shifted behind the end of the bundle before it. The end is the own
counter of the bundle's oracle, which effects numbered by the circuit do not
move, so two bundles can be shifted onto the same counters and the collectors
then keep only the first of them. -/
namespace AztecPxe

/-- `offset_private_call_result` on the call's own effects. -/
def CallEffects.offset (offset : Nat) (own : CallEffects) : CallEffects :=
  { own with
    startSideEffectCounter := saturatingAdd own.startSideEffectCounter offset
    endSideEffectCounter := saturatingAdd own.endSideEffectCounter offset
    minRevertibleSideEffectCounter := saturatingAdd own.minRevertibleSideEffectCounter offset
    newNotes := own.newNotes.map (fun note =>
      { note with counter := saturatingAdd note.counter offset })
    noteHashNullifierCounterMap := .ofList (own.noteHashNullifierCounterMap.toList.map
      (fun pair => (saturatingAdd pair.1 offset, saturatingAdd pair.2 offset)))
    contractClassLogs := own.contractClassLogs.map (fun log =>
      { log with counter := saturatingAdd log.counter offset })
    noteHashes := own.noteHashes.map (fun entry =>
      { entry with noteHash.counter := saturatingAdd entry.noteHash.counter offset })
    nullifiers := own.nullifiers.map (fun entry =>
      { entry with nullifier.counter := saturatingAdd entry.nullifier.counter offset })
    privateLogs := own.privateLogs.map (fun log =>
      { log with counter := saturatingAdd log.counter offset })
    publicCallRequests := own.publicCallRequests.map (fun request =>
      { request with counter := saturatingAdd request.counter offset })
    publicTeardownCallRequest := own.publicTeardownCallRequest.map (fun request =>
      { request with counter := saturatingAdd request.counter offset }) }

namespace EmbeddedPxe
open PrivateCallExecutionResult

mutual

/-- `offset_private_call_result`. -/
def offsetPrivateCallResult (offset : Nat) :
    PrivateCallExecutionResult → PrivateCallExecutionResult
  | ⟨own, nested⟩ => ⟨own.offset offset, offsetNested offset nested⟩

/-- The map of `offset_private_call_result` over the nested results. -/
def offsetNested (offset : Nat) :
    List PrivateCallExecutionResult → List PrivateCallExecutionResult
  | [] => []
  | call :: rest => offsetPrivateCallResult offset call :: offsetNested offset rest

end

/-- The offset each bundle is shifted by, and the one left for the root: the
shifted end of the bundle before it. -/
def offsets : Nat → List CallExecutionBundle → List Nat
  | offset, [] => [offset]
  | offset, bundle :: rest => offset ::
      offsets (saturatingAdd bundle.executionResult.entrypoint.endSideEffectCounter offset) rest

/-- The bundles with the offsets they are shifted by. -/
def placed (bundles : List CallExecutionBundle) : List (CallExecutionBundle × Nat) :=
  bundles.zip (offsets 0 bundles)

/-- The expiration of a list of bundles: the first bundle's, lowered by every
later one that has one. -/
def aggregateExpiration (bundles : List CallExecutionBundle) : Nat :=
  match bundles with
  | [] => 0
  | first :: rest => rest.foldl (fun expiration bundle =>
      let next := bundle.executionResult.expirationTimestamp
      if next = 0 then expiration
      else if expiration = 0 then next else min expiration next)
    first.executionResult.expirationTimestamp

/-- `aggregate_call_bundles`. The root takes the boundary of the revertible
phase from the first bundle. -/
def aggregateCallBundles (origin : AztecAddress) (bundles : List CallExecutionBundle) :
    CallExecutionBundle where
  executionResult :=
    { entrypoint :=
        { contractAddress := origin
          callContext :=
            { msgSender := origin
              contractAddress := origin
              functionSelector := 0
              isStaticCall := false }
          nestedExecutionResults := (placed bundles).map (fun entry =>
            offsetPrivateCallResult entry.2 entry.1.executionResult.entrypoint)
          startSideEffectCounter := 0
          endSideEffectCounter := (offsets 0 bundles).getLastD 0
          minRevertibleSideEffectCounter := (bundles.head?.map
            (·.executionResult.entrypoint.minRevertibleSideEffectCounter)).getD 0 }
      firstNullifier := (bundles.head?.map (·.executionResult.firstNullifier)).getD 0
      expirationTimestamp := aggregateExpiration bundles
      publicFunctionCalldata := bundles.flatMap (·.publicFunctionCalldata) }
  contractClassLogFields := bundles.flatMap (·.contractClassLogFields)
  publicFunctionCalldata := bundles.flatMap (·.publicFunctionCalldata)
  firstAcirCallReturnValues := (bundles.head?.map (·.firstAcirCallReturnValues)).getD []
  simulatedReturnValues := (bundles.head?.map (·.simulatedReturnValues)).getD []

mutual

/-- Shifting a tree shifts every call of it. -/
theorem collectCalls_offset (offset : Nat) (call : PrivateCallExecutionResult) :
    (offsetPrivateCallResult offset call).collectCalls =
      call.collectCalls.map (offsetPrivateCallResult offset) := by
  cases call with
  | mk own nested =>
    rw [offsetPrivateCallResult, collectCalls, collectCalls, List.map_cons,
      offsetPrivateCallResult, collectNested_offset offset nested]

theorem collectNested_offset (offset : Nat) (calls : List PrivateCallExecutionResult) :
    collectNested (offsetNested offset calls) =
      (collectNested calls).map (offsetPrivateCallResult offset) := by
  cases calls with
  | nil => rfl
  | cons call rest =>
    rw [offsetNested, collectNested, collectNested, List.map_append,
      collectCalls_offset offset call, collectNested_offset offset rest]

end

/-- The calls of the aggregate: its root, and those of the bundles, shifted. -/
theorem iterAllCalls_aggregate (origin : AztecAddress) (bundles : List CallExecutionBundle) :
    (aggregateCallBundles origin bundles).executionResult.iterAllCalls =
      (aggregateCallBundles origin bundles).executionResult.entrypoint ::
        (placed bundles).flatMap (fun entry =>
          entry.1.executionResult.iterAllCalls.map (offsetPrivateCallResult entry.2)) := by
  unfold PrivateExecutionResult.iterAllCalls
  rw [collectCalls_eq, collectNested_eq]
  change _ :: ((placed bundles).map _).flatMap _ = _
  rw [List.flatMap_map]
  simp only [collectCalls_offset]

end EmbeddedPxe

/-- A kind of effect: where a call keeps its own, how they are counted and
collected, and how a shift of the call changes them. -/
structure EffectKind (ε : Type) where
  own : PrivateCallExecutionResult → List ε
  counter : ε → Nat
  all : PrivateExecutionResult → List ε
  shift : Nat → ε → ε
  all_eq : ∀ result, all result = FirstWins.collect counter (result.iterAllCalls.flatMap own)
  counter_shift : ∀ offset effect,
    counter (shift offset effect) = saturatingAdd (counter effect) offset
  own_offset : ∀ offset call, own (EmbeddedPxe.offsetPrivateCallResult offset call) =
    (own call).map (shift offset)
  own_root : ∀ origin bundles,
    own (EmbeddedPxe.aggregateCallBundles origin bundles).executionResult.entrypoint = []

namespace EffectKind

/-- Note hashes. -/
def noteHashes : EffectKind ScopedNoteHash where
  own := (·.noteHashes)
  counter := (·.noteHash.counter)
  all := (·.allNoteHashes)
  shift offset entry :=
    { entry with noteHash.counter := saturatingAdd entry.noteHash.counter offset }
  all_eq _ := rfl
  counter_shift _ _ := rfl
  own_offset _ call := by cases call; rfl
  own_root _ _ := rfl

/-- Nullifiers. -/
def nullifiers : EffectKind ScopedNullifier where
  own := (·.nullifiers)
  counter := (·.nullifier.counter)
  all := (·.allNullifiers)
  shift offset entry :=
    { entry with nullifier.counter := saturatingAdd entry.nullifier.counter offset }
  all_eq _ := rfl
  counter_shift _ _ := rfl
  own_offset _ call := by cases call; rfl
  own_root _ _ := rfl

/-- Private logs. The link to a note hash is not shifted. -/
def privateLogs : EffectKind PrivateLogData where
  own := (·.privateLogs)
  counter := (·.counter)
  all := (·.allPrivateLogs)
  shift offset log := { log with counter := saturatingAdd log.counter offset }
  all_eq _ := rfl
  counter_shift _ _ := rfl
  own_offset _ call := by cases call; rfl
  own_root _ _ := rfl

/-- Public call requests. -/
def publicCallRequests : EffectKind PublicCallRequestData where
  own := (·.publicCallRequests)
  counter := (·.counter)
  all := (·.allPublicCallRequests)
  shift offset request := { request with counter := saturatingAdd request.counter offset }
  all_eq _ := rfl
  counter_shift _ _ := rfl
  own_offset _ call := by cases call; rfl
  own_root _ _ := rfl

/-- Contract class logs. -/
def contractClassLogs : EffectKind CountedContractClassLog where
  own := (·.contractClassLogs)
  counter := (·.counter)
  all := (·.allContractClassLogsSorted)
  shift offset log := { log with counter := saturatingAdd log.counter offset }
  all_eq _ := rfl
  counter_shift _ _ := rfl
  own_offset _ call := by cases call; rfl
  own_root _ _ := rfl

section Kind
variable {ε : Type} (kind : EffectKind ε)

/-- Every effect a bundle collects is collected from the aggregate with its
counter shifted, and nothing else is. -/
def Lossless (origin : AztecAddress) (bundles : List CallExecutionBundle) : Prop :=
  let aggregate := (EmbeddedPxe.aggregateCallBundles origin bundles).executionResult
  (∀ entry ∈ EmbeddedPxe.placed bundles, ∀ effect ∈ kind.all entry.1.executionResult,
    kind.shift entry.2 effect ∈ kind.all aggregate) ∧
  (kind.all aggregate).length =
    (bundles.map (fun bundle => (kind.all bundle.executionResult).length)).sum

/-- No two effects of the bundles are shifted onto one counter. -/
def Apart (bundles : List CallExecutionBundle) : Prop :=
  ((EmbeddedPxe.placed bundles).flatMap (fun entry =>
    (kind.all entry.1.executionResult).map (fun effect =>
      saturatingAdd (kind.counter effect) entry.2))).Nodup

/-- A bundle as a part of the collection over the aggregate. -/
private def part (entry : CallExecutionBundle × Nat) : FirstWins.Part kind.counter where
  items := entry.1.executionResult.iterAllCalls.flatMap kind.own
  shift := kind.shift entry.2
  renumber counter := saturatingAdd counter entry.2
  number_shift effect := kind.counter_shift entry.2 effect

private theorem own_aggregate (origin : AztecAddress) (bundles : List CallExecutionBundle) :
    (EmbeddedPxe.aggregateCallBundles origin bundles).executionResult.iterAllCalls.flatMap
        kind.own =
      FirstWins.shiftedItems ((EmbeddedPxe.placed bundles).map (part kind)) := by
  unfold FirstWins.shiftedItems
  rw [EmbeddedPxe.iterAllCalls_aggregate, List.flatMap_cons, kind.own_root, List.nil_append,
    List.flatMap_assoc, List.flatMap_map]
  apply List.flatMap_congr
  intro entry _
  rw [List.flatMap_map]
  simp only [part, List.map_flatMap, kind.own_offset]

private theorem shiftedNumbers_parts (bundles : List CallExecutionBundle) :
    FirstWins.shiftedNumbers ((EmbeddedPxe.placed bundles).map (part kind)) =
      (EmbeddedPxe.placed bundles).flatMap (fun entry =>
        (kind.all entry.1.executionResult).map (fun effect =>
          saturatingAdd (kind.counter effect) entry.2)) := by
  unfold FirstWins.shiftedNumbers
  rw [List.flatMap_map]
  simp only [kind.all_eq]
  rfl

theorem length_offsets (offset : Nat) (bundles : List CallExecutionBundle) :
    (EmbeddedPxe.offsets offset bundles).length = bundles.length + 1 := by
  induction bundles generalizing offset with
  | nil => rfl
  | cons bundle rest ih => rw [EmbeddedPxe.offsets, List.length_cons, ih, List.length_cons]

theorem map_fst_placed (bundles : List CallExecutionBundle) :
    (EmbeddedPxe.placed bundles).map Prod.fst = bundles := by
  unfold EmbeddedPxe.placed
  apply List.map_fst_zip
  rw [length_offsets]
  omega

/-- For one kind of effect, nothing is lost exactly when no two effects are
shifted onto one counter. -/
theorem lossless_iff_apart (origin : AztecAddress) (bundles : List CallExecutionBundle) :
    kind.Lossless origin bundles ↔ kind.Apart bundles := by
  have exactly := FirstWins.lossless_iff ((EmbeddedPxe.placed bundles).map (part kind))
  rw [shiftedNumbers_parts, ← own_aggregate kind origin, List.map_map] at exactly
  have lengths : (EmbeddedPxe.placed bundles).map
        ((fun part => (FirstWins.collect kind.counter part.items).length) ∘ part kind) =
      bundles.map (fun bundle => (kind.all bundle.executionResult).length) := by
    nth_rewrite 2 [← map_fst_placed bundles]
    rw [List.map_map]
    simp only [kind.all_eq]
    rfl
  rw [lengths] at exactly
  rw [Apart, ← exactly, Lossless, List.forall_mem_map]
  simp only [kind.all_eq]
  rfl

/-- Bundles whose shifted effects ascend one behind the other are aggregated to
just these. -/
theorem all_aggregate_eq (origin : AztecAddress) (bundles : List CallExecutionBundle)
    (ascending : ((EmbeddedPxe.placed bundles).flatMap (fun entry =>
      (kind.all entry.1.executionResult).map (kind.shift entry.2))).Pairwise (fun a b =>
        kind.counter a < kind.counter b)) :
    kind.all (EmbeddedPxe.aggregateCallBundles origin bundles).executionResult =
      (EmbeddedPxe.placed bundles).flatMap (fun entry =>
        (kind.all entry.1.executionResult).map (kind.shift entry.2)) := by
  have apart : kind.Apart bundles := by
    have counters := List.pairwise_map.mpr ascending
    rw [List.map_flatMap] at counters
    simp only [List.map_map, Function.comp_def, kind.counter_shift] at counters
    exact counters.imp Nat.ne_of_lt
  obtain ⟨kept, count⟩ := (kind.lossless_iff_apart origin bundles).mpr apart
  have lengths : ((EmbeddedPxe.placed bundles).flatMap (fun entry =>
      (kind.all entry.1.executionResult).map (kind.shift entry.2))).length =
        (bundles.map (fun bundle => (kind.all bundle.executionResult).length)).sum := by
    nth_rewrite 2 [← map_fst_placed bundles]
    rw [List.length_flatMap, List.map_map]
    simp only [List.length_map, Function.comp_def]
  have inside : ((EmbeddedPxe.placed bundles).flatMap (fun entry =>
      (kind.all entry.1.executionResult).map (kind.shift entry.2))).Subperm
        (kind.all (EmbeddedPxe.aggregateCallBundles origin bundles).executionResult) := by
    apply List.subperm_of_subset
    · exact ascending.imp (fun less same => by rw [same] at less; exact Nat.lt_irrefl _ less)
    · intro effect listed
      obtain ⟨entry, placed, shifted⟩ := List.mem_flatMap.mp listed
      obtain ⟨original, held, rfl⟩ := List.mem_map.mp shifted
      exact kept entry placed original held
  have perm := inside.perm_of_length_le (by rw [lengths, count])
  rw [kind.all_eq] at perm ⊢
  exact FirstWins.collect_eq_of_ascending ascending perm.symm

/-- Every effect of the aggregate is a shifted effect of some bundle. -/
theorem mem_all_aggregate {origin : AztecAddress} {bundles : List CallExecutionBundle} {effect : ε}
    (held : effect ∈ kind.all (EmbeddedPxe.aggregateCallBundles origin bundles).executionResult) :
    effect ∈ (EmbeddedPxe.placed bundles).flatMap (fun entry =>
      (kind.all entry.1.executionResult).map (kind.shift entry.2)) := by
  rw [kind.all_eq, own_aggregate] at held
  have kept := FirstWins.mem_collect_shifted held
  rw [List.flatMap_map] at kept
  simp only [kind.all_eq]
  exact kept

end Kind

end EffectKind

namespace EmbeddedPxe

/-- Nothing of any kind is lost. -/
def AggregationLossless (origin : AztecAddress) (bundles : List CallExecutionBundle) : Prop :=
  EffectKind.noteHashes.Lossless origin bundles ∧ EffectKind.nullifiers.Lossless origin bundles ∧
    EffectKind.privateLogs.Lossless origin bundles ∧
    EffectKind.publicCallRequests.Lossless origin bundles ∧
    EffectKind.contractClassLogs.Lossless origin bundles

/-- Aggregation loses no effect exactly when, in every kind, the bundles'
counters stay distinct once each is raised by the ends of the bundles before. -/
theorem aggregation_lossless_iff (origin : AztecAddress) (bundles : List CallExecutionBundle) :
    AggregationLossless origin bundles ↔
      EffectKind.noteHashes.Apart bundles ∧ EffectKind.nullifiers.Apart bundles ∧
        EffectKind.privateLogs.Apart bundles ∧ EffectKind.publicCallRequests.Apart bundles ∧
        EffectKind.contractClassLogs.Apart bundles := by
  unfold AggregationLossless
  rw [EffectKind.lossless_iff_apart, EffectKind.lossless_iff_apart, EffectKind.lossless_iff_apart,
    EffectKind.lossless_iff_apart, EffectKind.lossless_iff_apart]

/-- The bundles of a private call whose circuit numbers its effects apart, and
those of public calls. -/
inductive Built (crypto : Crypto) (contracts : ContractStore) (origin : AztecAddress)
    (protocolNullifier : Fr) : CallExecutionBundle → Prop where
  | privateCall (call : DecodedEntrypointCall) (function : PrivateFunction)
      (output : AcvmExecutionOutput) (script : Script) (oracle : PrivateExecutionOracle)
      (ran : script.execute crypto contracts (callOracle call origin protocolNullifier) = .ok oracle)
      (distinct : (Step.circuitCounters crypto contracts
        (script.steps crypto contracts (callOracle call origin protocolNullifier))).Nodup) :
      Built crypto contracts origin protocolNullifier
        (privateCallBundle call origin function output oracle)
  | publicCall (call : DecodedEntrypointCall) (selector : FunctionSelector) :
      Built crypto contracts origin protocolNullifier
        (publicCallBundle crypto call origin protocolNullifier selector)

/-- One note under the circuit's counter five leaves the own counter at zero. -/
def oneNote : Script := .foreign .notifyCreatedNote [[1], [2], [3], [4], [], [9], [5]] .done

/-- A call of a private function that makes that note. -/
def oneNoteCall : DecodedEntrypointCall where
  toAddress := ⟨7⟩
  selector := .fromField 1
  encodedArgs := []
  hideMsgSender := false
  isStatic := false

/-- Two calls that each make one note under the counter five are aggregated to
one note. -/
theorem two_notes_aggregate_to_one :
    ¬ ∀ crypto contracts origin protocolNullifier bundles,
      (∀ bundle ∈ bundles, Built crypto contracts origin protocolNullifier bundle) →
        AggregationLossless origin bundles := by
  intro lossless
  let start := callOracle oneNoteCall ⟨8⟩ 0
  let made : PrivateExecutionOracle := { start with
    newNotes := [⟨⟨7⟩, ⟨1⟩, 2, 3, 4, [], 9, 5⟩]
    noteHashes := [⟨⟨9, 5⟩, ⟨7⟩⟩] }
  let bundle := privateCallBundle oneNoteCall ⟨8⟩ ⟨none, false, 0⟩ {} made
  have built : Built .zero .empty ⟨8⟩ 0 bundle :=
    .privateCall oneNoteCall ⟨none, false, 0⟩ {} oneNote made rfl (by decide)
  have kept := (lossless .zero .empty ⟨8⟩ 0 [bundle, bundle] (by simp [built])).1.2
  exact absurd kept (by decide)

end EmbeddedPxe

end AztecPxe
