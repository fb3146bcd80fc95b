import AztecPxe.SimulatedKernel

/-! What the simulated kernel makes of the effects of a call tree. Where a
counter stands for one effect of its kind, every effect that is not squashed is
in the output once, by ascending counter and on its side of the boundary, and
nothing else is. -/
namespace AztecPxe

namespace EffectKind
variable {ε : Type} (kind : EffectKind ε) (result : PrivateExecutionResult)

/-- The effects of a kind that some call of the tree holds. -/
def inTree : List ε := result.iterAllCalls.flatMap kind.own

/-- A counter stands for one effect of the kind. The copies that a nested call
hands up to its callers are the same effect. -/
def Numbered : Prop :=
  ∀ a ∈ kind.inTree result, ∀ b ∈ kind.inTree result, kind.counter a = kind.counter b → a = b

instance [DecidableEq ε] : Decidable (kind.Numbered result) :=
  inferInstanceAs (Decidable (∀ a ∈ kind.inTree result, ∀ b ∈ kind.inTree result,
    kind.counter a = kind.counter b → a = b))

end EffectKind

namespace KernelConservation
open SimulatedKernel

/-- A list of exactly the effects wanted, each once, by ascending counter. -/
structure Lists {ε : Type} (counter : ε → Nat) (wanted : ε → Prop) (kept : List ε) : Prop where
  ascending : kept.Pairwise (fun a b => counter a < counter b)
  exactly : ∀ effect, effect ∈ kept ↔ wanted effect

section Collectors
variable {ε : Type} {kind : EffectKind ε} {result : PrivateExecutionResult}

/-- A collector lists the effects of its kind. -/
private theorem lists_all (numbered : kind.Numbered result) :
    Lists kind.counter (· ∈ kind.inTree result) (kind.all result) where
  ascending := by
    rw [kind.all_eq]
    exact FirstWins.ascends kind.counter _
  exactly := by
    intro effect
    rw [kind.all_eq]
    constructor
    · exact FirstWins.mem_of_mem_collect
    · intro held
      apply FirstWins.mem_collect.mpr
      apply FirstWins.FirstIn.of_unique held
      intro other listed sameCounter
      exact numbered other listed effect held sameCounter

private theorem lists_filter (numbered : kind.Numbered result) (keep : ε → Bool)
    {wanted : ε → Prop} (same : ∀ effect, keep effect = true ↔ wanted effect) :
    Lists kind.counter (fun effect => effect ∈ kind.inTree result ∧ wanted effect)
      ((kind.all result).filter keep) where
  ascending := (lists_all numbered).ascending.filter keep
  exactly := by
    intro effect
    rw [List.mem_filter, same, (lists_all numbered).exactly]

end Collectors

section Squashing
variable (result : PrivateExecutionResult) (counter : Nat)

/-- The note of this counter was spent in the same transaction. -/
def NoteSquashed : Prop :=
  ∃ nullifier, result.allNoteHashNullifierCounterMaps[counter]? = some nullifier

/-- The nullifier of this counter spent a note of the same transaction. -/
def NullifierSquashed : Prop :=
  ∃ noteHash : Nat, result.allNoteHashNullifierCounterMaps[noteHash]? = some counter

theorem noteSquashed_iff :
    result.allNoteHashNullifierCounterMaps.contains counter = true ↔
      NoteSquashed result counter := by
  rw [Std.ExtTreeMap.contains_iff_mem, Std.ExtTreeMap.mem_iff_isSome_getElem?,
    Option.isSome_iff_exists]
  rfl

theorem nullifierSquashed_iff :
    result.allNoteHashNullifierCounterMaps.toList.any (fun pair => pair.2 = counter) = true ↔
      NullifierSquashed result counter := by
  rw [List.any_eq_true]
  constructor
  · rintro ⟨⟨noteHash, nullifier⟩, listed, same⟩
    obtain rfl : nullifier = counter := by simpa using same
    exact ⟨noteHash, Std.ExtTreeMap.mem_toList_iff_getElem?_eq_some.mp listed⟩
  · rintro ⟨noteHash, paired⟩
    exact ⟨(noteHash, counter), Std.ExtTreeMap.mem_toList_iff_getElem?_eq_some.mpr paired,
      decide_eq_true rfl⟩

end Squashing

/-- The effects of a tree that are split at the boundary. -/
structure Effects where
  noteHashes : List ScopedNoteHash
  nullifiers : List ScopedNullifier
  privateLogs : List PrivateLogData
  publicCallRequests : List PublicCallRequestData

/-- The effects of the tree that are not squashed and whose counters lie
inside. -/
structure Effects.Of (effects : Effects) (result : PrivateExecutionResult) (inside : Nat → Prop) :
    Prop where
  noteHashes : Lists (·.noteHash.counter) (fun entry =>
    entry ∈ EffectKind.noteHashes.inTree result ∧ ¬ NoteSquashed result entry.noteHash.counter ∧
      inside entry.noteHash.counter) effects.noteHashes
  nullifiers : Lists (·.nullifier.counter) (fun entry =>
    entry ∈ EffectKind.nullifiers.inTree result ∧
      ¬ NullifierSquashed result entry.nullifier.counter ∧
      inside entry.nullifier.counter) effects.nullifiers
  privateLogs : Lists (·.counter) (fun log =>
    log ∈ EffectKind.privateLogs.inTree result ∧ ¬ NoteSquashed result log.noteHashCounter ∧
      inside log.counter) effects.privateLogs
  publicCallRequests : Lists (·.counter) (fun request =>
    request ∈ EffectKind.publicCallRequests.inTree result ∧ inside request.counter)
      effects.publicCallRequests

/-- A siloed note hash made unique by its position; zero stays zero. -/
def uniqueNoteHash (poseidon2 : List Fr → Fr) (firstNullifier : Fr) (position : Nat) (siloed : Fr) :
    Fr :=
  if siloed = 0 then 0
  else Hash.computeUniqueNoteHash poseidon2
    (Hash.computeNoteHashNonce poseidon2 firstNullifier position) siloed

/-- The output holds the effects of the tree, and no others. -/
inductive Conserved (poseidon2 : List Fr → Fr) (result : PrivateExecutionResult)
    (output : PrivateKernelTailPublicInputs) : Prop where
  | privateOnly (effects : Effects) (classLogs : List CountedContractClassLog)
      (split : effects.Of result (fun _ => True))
      (listed : Lists (·.counter) (· ∈ EffectKind.contractClassLogs.inTree result) classLogs)
      (noCalls : EffectKind.publicCallRequests.inTree result = [])
      (noTeardown : ∀ call ∈ result.iterAllCalls, call.publicTeardownCallRequest = none)
      (forPublic : output.forPublic = none)
      (forRollup : output.forRollup = some
        { noteHashes := padTo 0 maxNoteHashesPerTx ((effects.noteHashes.map
            (siloedNoteHash poseidon2)).mapIdx (uniqueNoteHash poseidon2 result.firstNullifier))
          nullifiers := padTo 0 maxNullifiersPerTx
            (result.firstNullifier :: effects.nullifiers.map (siloedNullifier poseidon2))
          l2ToL1Msgs := padTo {} maxL2ToL1MsgsPerTx []
          privateLogs := padTo {} maxPrivateLogsPerTx
            (effects.privateLogs.map (siloedPrivateLog poseidon2))
          contractClassLogsHashes := padTo {} maxContractClassLogsPerTx
            (classLogs.map (classLogHash poseidon2)) })
  | withPublicCalls (below above : Effects) (classLogs : List CountedContractClassLog)
      (nonRevertible : below.Of result
        (fun counter => counter < result.entrypoint.minRevertibleSideEffectCounter))
      (revertible : above.Of result
        (fun counter => result.entrypoint.minRevertibleSideEffectCounter ≤ counter))
      (listed : Lists (·.counter) (· ∈ EffectKind.contractClassLogs.inTree result) classLogs)
      (forRollup : output.forRollup = none)
      (forPublic : output.forPublic = some
        { nonRevertibleAccumulatedData := accumulated
            ((below.noteHashes.map (siloedNoteHash poseidon2)).mapIdx
              (uniqueNoteHash poseidon2 result.firstNullifier))
            (result.firstNullifier :: below.nullifiers.map (siloedNullifier poseidon2))
            (below.privateLogs.map (siloedPrivateLog poseidon2))
            (classLogs.map (classLogHash poseidon2))
            (below.publicCallRequests.map publicCallRequest)
          revertibleAccumulatedData := accumulated
            (above.noteHashes.map (siloedNoteHash poseidon2))
            (above.nullifiers.map (siloedNullifier poseidon2))
            (above.privateLogs.map (siloedPrivateLog poseidon2)) []
            (above.publicCallRequests.map publicCallRequest)
          publicTeardownCallRequest :=
            ((result.iterAllCalls.findSome? (·.publicTeardownCallRequest)).map
              publicCallRequest).getD {} })

/-- A counter stands for one effect, in every kind. -/
structure Numbered (result : PrivateExecutionResult) : Prop where
  noteHashes : EffectKind.noteHashes.Numbered result
  nullifiers : EffectKind.nullifiers.Numbered result
  privateLogs : EffectKind.privateLogs.Numbered result
  publicCallRequests : EffectKind.publicCallRequests.Numbered result
  contractClassLogs : EffectKind.contractClassLogs.Numbered result

section Kernel
variable {poseidon2 : List Fr → Fr} {result : PrivateExecutionResult}

/-- What survives squashing and lies on one side of the boundary. -/
def onSide (result : PrivateExecutionResult) (side : Nat → Bool) : Effects where
  noteHashes := (survivors result).noteHashes.filter (fun entry => side entry.noteHash.counter)
  nullifiers := (survivors result).nullifiers.filter (fun entry => side entry.nullifier.counter)
  privateLogs := (survivors result).privateLogs.filter (fun log => side log.counter)
  publicCallRequests :=
    (survivors result).publicCallRequests.filter (fun request => side request.counter)

/-- The survivors on a side are the effects of the tree with counters there. -/
private theorem onSide_of (numbered : Numbered result) {side : Nat → Bool} {inside : Nat → Prop}
    (same : ∀ counter, side counter = true ↔ inside counter) :
    (onSide result side).Of result inside where
  noteHashes := by
    simp only [onSide, survivors_eq, List.filter_filter]
    refine lists_filter numbered.noteHashes _ (fun entry => ?_)
    rw [Bool.and_eq_true, same, ← noteSquashed_iff, Bool.not_eq_true', Bool.not_eq_true, and_comm]
  nullifiers := by
    simp only [onSide, survivors_eq, List.filter_filter]
    refine lists_filter numbered.nullifiers _ (fun entry => ?_)
    rw [Bool.and_eq_true, same, ← nullifierSquashed_iff, Bool.not_eq_true', Bool.not_eq_true,
      and_comm]
  privateLogs := by
    simp only [onSide, survivors_eq, List.filter_filter]
    refine lists_filter numbered.privateLogs _ (fun log => ?_)
    rw [Bool.and_eq_true, same, ← noteSquashed_iff, Bool.not_eq_true', Bool.not_eq_true, and_comm]
  publicCallRequests := by
    simp only [onSide, survivors_eq]
    exact lists_filter numbered.publicCallRequests _ (fun request => same _)

theorem onSide_all : onSide result (fun _ => true) =
    ⟨(survivors result).noteHashes, (survivors result).nullifiers, (survivors result).privateLogs,
      (survivors result).publicCallRequests⟩ := by
  unfold onSide
  simp only [List.filter_true]

private theorem uniqueNoteHashes_eq (firstNullifier : Fr) (siloed : List Fr) :
    uniqueNoteHashes poseidon2 firstNullifier siloed =
      siloed.mapIdx (uniqueNoteHash poseidon2 firstNullifier) := by
  rw [List.mapIdx_eq_zipIdx_map]
  rfl

/-- The counters below the boundary of a result. -/
def belowBoundary (result : PrivateExecutionResult) (counter : Nat) : Bool :=
  not (decide (result.entrypoint.minRevertibleSideEffectCounter ≤ counter))

/-- The counters at or above the boundary of a result. -/
def aboveBoundary (result : PrivateExecutionResult) (counter : Nat) : Bool :=
  id (decide (result.entrypoint.minRevertibleSideEffectCounter ≤ counter))

/-- The two sections are made of what survives on each side of the boundary. -/
theorem forPublic_onSide (poseidon2 : List Fr → Fr) (result : PrivateExecutionResult) :
    forPublic poseidon2 result =
      { nonRevertibleAccumulatedData := accumulated
          (uniqueNoteHashes poseidon2 result.firstNullifier
            ((onSide result (belowBoundary result)).noteHashes.map (siloedNoteHash poseidon2)))
          (result.firstNullifier ::
            (onSide result (belowBoundary result)).nullifiers.map (siloedNullifier poseidon2))
          ((onSide result (belowBoundary result)).privateLogs.map (siloedPrivateLog poseidon2))
          (result.allContractClassLogsSorted.map (classLogHash poseidon2))
          ((onSide result (belowBoundary result)).publicCallRequests.map publicCallRequest)
        revertibleAccumulatedData := accumulated
          ((onSide result (aboveBoundary result)).noteHashes.map (siloedNoteHash poseidon2))
          ((onSide result (aboveBoundary result)).nullifiers.map (siloedNullifier poseidon2))
          ((onSide result (aboveBoundary result)).privateLogs.map (siloedPrivateLog poseidon2)) []
          ((onSide result (aboveBoundary result)).publicCallRequests.map publicCallRequest)
        publicTeardownCallRequest := (result.getTeardownCallRequest.map publicCallRequest).getD {} } := by
  simp only [forPublic, splitByCounter_eq]
  rfl

/-- The kernel conserves the effects of every tree in which a counter stands for
one effect of its kind. -/
theorem kernel_conserves (poseidon2 : List Fr → Fr) (result : PrivateExecutionResult)
    (feePayer : Fr) (expirationTimestamp : Nat) (output : PrivateKernelTailPublicInputs)
    (numbered : Numbered result)
    (processed : process poseidon2 result feePayer expirationTimestamp = .ok output) :
    Conserved poseidon2 result output := by
  unfold process at processed
  split at processed
  next privateOnly =>
    rw [← Except.ok.inj processed]
    rw [isPrivateOnly, Bool.and_eq_true, List.isEmpty_iff, Option.isNone_iff_eq_none] at privateOnly
    refine .privateOnly (onSide result (fun _ => true)) result.allContractClassLogsSorted
      (onSide_of numbered (fun _ => iff_of_true rfl trivial)) (lists_all numbered.contractClassLogs)
      ?_ (List.findSome?_eq_none_iff.mp privateOnly.2) rfl ?_
    · apply List.eq_nil_iff_forall_not_mem.mpr
      intro request held
      have collected : request ∈ result.allPublicCallRequests :=
        ((lists_all numbered.publicCallRequests).exactly request).mpr held
      rw [privateOnly.1] at collected
      cases collected
    · rw [onSide_all, ← uniqueNoteHashes_eq]
      rfl
  next isPublic =>
    rw [← Except.ok.inj processed]
    refine .withPublicCalls (onSide result (belowBoundary result))
      (onSide result (aboveBoundary result)) result.allContractClassLogsSorted
      (onSide_of numbered ?_) (onSide_of numbered ?_) (lists_all numbered.contractClassLogs) rfl ?_
    · intro counter
      simp [belowBoundary]
    · intro counter
      simp [aboveBoundary]
    · rw [← uniqueNoteHashes_eq]
      exact congrArg some (forPublic_onSide poseidon2 result)

/-- A call with a public call, a note hash above the boundary, and a nested call
with a note below it, a note that is spent and the nullifier that spends it. -/
def twoPhases : PrivateExecutionResult where
  entrypoint :=
    { contractAddress := ⟨7⟩
      noteHashes := [⟨⟨11, 6⟩, ⟨7⟩⟩]
      publicCallRequests := [⟨⟨20⟩, ⟨7⟩, false, 9, 7⟩]
      minRevertibleSideEffectCounter := 5
      nestedExecutionResults := [
        { contractAddress := ⟨8⟩
          noteHashes := [⟨⟨12, 3⟩, ⟨8⟩⟩, ⟨⟨13, 2⟩, ⟨8⟩⟩]
          nullifiers := [⟨⟨14, 13, 4⟩, ⟨8⟩⟩]
          noteHashNullifierCounterMap := (∅ : Std.ExtTreeMap Nat Nat).insert 2 4 }] }
  firstNullifier := 1

/-- The effects of that tree are conserved. -/
theorem twoPhases_conserved :
    ∃ output, process Crypto.summed.poseidon2 twoPhases 8 0 = .ok output ∧
      Conserved Crypto.summed.poseidon2 twoPhases output := by
  refine ⟨_, rfl, ?_⟩
  exact kernel_conserves _ twoPhases 8 0 _
    ⟨by decide, by decide, by decide, by decide, by decide⟩ rfl

/-- A log whose first field is zero. -/
def untaggedLog : PrivateLogData where
  fields := [0, 5]
  emittedLength := 2
  noteHashCounter := 0
  counter := 3
  contractAddress := ⟨7⟩

/-- A call that emits just that log. -/
def untagged : PrivateExecutionResult where
  entrypoint := { contractAddress := ⟨7⟩, privateLogs := [untaggedLog] }
  firstNullifier := 1

/-- The log is kept, but it is not siloed with the address of its contract. -/
theorem untaggedLog_not_siloed :
    ∃ output data, process Crypto.summed.poseidon2 untagged 8 0 = .ok output ∧
      output.forRollup = some data ∧ Numbered untagged ∧
      untaggedLog ∈ EffectKind.privateLogs.inTree untagged ∧
      ¬ NoteSquashed untagged untaggedLog.noteHashCounter ∧
      ∀ log ∈ data.privateLogs, log.fields ≠ padTo 0 16
        (Hash.computeSiloedPrivateLogFirstField Crypto.summed.poseidon2 untaggedLog.contractAddress 0
          :: [5]) := by
  refine ⟨_, _, rfl, rfl, ⟨by decide, by decide, by decide, by decide, by decide⟩, by decide, ?_,
    by decide⟩
  rw [← noteSquashed_iff]
  decide

end Kernel

end KernelConservation

end AztecPxe
