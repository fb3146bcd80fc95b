import AztecPxe.KernelConservation
import AztecPxe.RevertiblePhase

/-! Squashing across the boundary of the revertible phase. The boundary is given
to `squash_transient_side_effects` and not used there, so a nullifier of the
revertible phase also removes a note of the other one, with its logs. Two
transactions that agree below the boundary therefore keep the same effects
there exactly when the same notes are spent across it. -/
namespace AztecPxe.PhaseSquash
open SimulatedKernel KernelConservation

variable (a b : PrivateExecutionResult)

/-- The counter from which effects are revertible. -/
def boundary (result : PrivateExecutionResult) : Nat :=
  result.entrypoint.minRevertibleSideEffectCounter

/-- Two results agree on all that lies below the boundary of the first. -/
structure AgreeBelow : Prop where
  boundaries : boundary a = boundary b
  firstNullifiers : a.firstNullifier = b.firstNullifier
  noteHashes : a.allNoteHashes.filter (fun entry => decide (entry.noteHash.counter < boundary a)) =
    b.allNoteHashes.filter (fun entry => decide (entry.noteHash.counter < boundary a))
  nullifiers : a.allNullifiers.filter (fun entry => decide (entry.nullifier.counter < boundary a)) =
    b.allNullifiers.filter (fun entry => decide (entry.nullifier.counter < boundary a))
  privateLogs : a.allPrivateLogs.filter (fun log => decide (log.counter < boundary a)) =
    b.allPrivateLogs.filter (fun log => decide (log.counter < boundary a))
  pairs : ∀ noteHash nullifier : Nat, nullifier < boundary a →
    (a.allNoteHashNullifierCounterMaps[noteHash]? = some nullifier ↔
      b.allNoteHashNullifierCounterMaps[noteHash]? = some nullifier)

/-- Of both results the same effects below the boundary survive squashing. -/
structure SurviveAlike : Prop where
  noteHashes :
    (survivors a).noteHashes.filter (fun entry => decide (entry.noteHash.counter < boundary a)) =
      (survivors b).noteHashes.filter (fun entry => decide (entry.noteHash.counter < boundary a))
  nullifiers :
    (survivors a).nullifiers.filter (fun entry => decide (entry.nullifier.counter < boundary a)) =
      (survivors b).nullifiers.filter (fun entry => decide (entry.nullifier.counter < boundary a))
  privateLogs : (survivors a).privateLogs.filter (fun log => decide (log.counter < boundary a)) =
    (survivors b).privateLogs.filter (fun log => decide (log.counter < boundary a))

/-- The note of this counter is spent by a nullifier at or above the boundary. -/
def Crossed (result : PrivateExecutionResult) (counter : Nat) : Prop :=
  ∃ nullifier, boundary result ≤ nullifier ∧
    result.allNoteHashNullifierCounterMaps[counter]? = some nullifier

/-- The notes below the boundary, and those that a log below it is linked to,
are spent across the boundary in both results or in neither. -/
structure SameCrossings : Prop where
  notes : ∀ entry ∈ a.allNoteHashes, entry.noteHash.counter < boundary a →
    (Crossed a entry.noteHash.counter ↔ Crossed b entry.noteHash.counter)
  links : ∀ log ∈ a.allPrivateLogs, log.counter < boundary a →
    (Crossed a log.noteHashCounter ↔ Crossed b log.noteHashCounter)

/-- Two sections hold the same note hashes, nullifiers and private logs. -/
structure SameEffects (first second : PrivateToPublicAccumulatedData) : Prop where
  noteHashes : first.noteHashes = second.noteHashes
  nullifiers : first.nullifiers = second.nullifiers
  privateLogs : first.privateLogs = second.privateLogs

variable {a b}

section Squashing

private theorem filter_eq_iff {ε : Type} {items : List ε} {p q : ε → Bool} :
    items.filter p = items.filter q ↔ ∀ item ∈ items, (p item = true ↔ q item = true) := by
  constructor
  · intro same item inside
    have both : item ∈ items.filter p ↔ item ∈ items.filter q := by rw [same]
    rw [List.mem_filter, List.mem_filter, and_iff_right inside, and_iff_right inside] at both
    exact both
  · intro alike
    exact List.filter_congr (fun item inside => Bool.eq_iff_iff.mpr (alike item inside))

/-- What is kept of two lists that agree below the boundary agrees there exactly
when no item below it is kept of one list only. -/
private theorem filter_below_iff {ε : Type} {first second : List ε} {low keep keep' : ε → Bool}
    (agree : first.filter low = second.filter low) :
    (first.filter keep).filter low = (second.filter keep').filter low ↔
      ∀ item ∈ first, low item = true → (keep item = true ↔ keep' item = true) := by
  have swap : ∀ (items : List ε) (keep : ε → Bool),
      (items.filter keep).filter low = (items.filter low).filter keep := by
    intro items keep
    rw [List.filter_filter, List.filter_filter]
    exact List.filter_congr (fun item _ => Bool.and_comm _ _)
  rw [swap, swap, ← agree, filter_eq_iff]
  simp only [List.mem_filter, and_imp]

/-- A pair with its nullifier below the boundary is in both results or in
neither, so only crossings tell them apart. -/
private theorem squashed_alike_iff (agree : AgreeBelow a b) (counter : Nat) :
    (NoteSquashed a counter ↔ NoteSquashed b counter) ↔
      (Crossed a counter ↔ Crossed b counter) := by
  by_cases within : ∃ nullifier, nullifier < boundary a ∧
      a.allNoteHashNullifierCounterMaps[counter]? = some nullifier
  · obtain ⟨nullifier, below, inA⟩ := within
    have inB := (agree.pairs counter nullifier below).mp inA
    have notA : ¬ Crossed a counter := by
      rintro ⟨other, above, found⟩
      cases inA.symm.trans found
      omega
    have notB : ¬ Crossed b counter := by
      rintro ⟨other, above, found⟩
      cases inB.symm.trans found
      rw [← agree.boundaries] at above
      omega
    exact iff_of_true (iff_of_true ⟨_, inA⟩ ⟨_, inB⟩) (iff_of_false notA notB)
  · have onlyA : NoteSquashed a counter ↔ Crossed a counter := by
      constructor
      · rintro ⟨nullifier, found⟩
        exact ⟨nullifier, Nat.not_lt.mp (fun below => within ⟨nullifier, below, found⟩), found⟩
      · rintro ⟨nullifier, -, found⟩
        exact ⟨nullifier, found⟩
    have onlyB : NoteSquashed b counter ↔ Crossed b counter := by
      constructor
      · rintro ⟨nullifier, found⟩
        refine ⟨nullifier, ?_, found⟩
        rw [← agree.boundaries]
        exact Nat.not_lt.mp (fun below =>
          within ⟨nullifier, below, (agree.pairs counter nullifier below).mpr found⟩)
      · rintro ⟨nullifier, -, found⟩
        exact ⟨nullifier, found⟩
    rw [onlyA, onlyB]

private theorem kept_alike_iff (agree : AgreeBelow a b) (counter : Nat) :
    ((!a.allNoteHashNullifierCounterMaps.contains counter) = true ↔
        (!b.allNoteHashNullifierCounterMaps.contains counter) = true) ↔
      (Crossed a counter ↔ Crossed b counter) := by
  rw [← squashed_alike_iff agree, ← noteSquashed_iff, ← noteSquashed_iff, Bool.not_eq_true',
    Bool.not_eq_true', ← Bool.not_eq_true, ← Bool.not_eq_true, not_iff_not]

/-- No nullifier below the boundary is squashed in one result only. -/
private theorem nullifiers_alike (agree : AgreeBelow a b) {counter : Nat}
    (below : counter < boundary a) : NullifierSquashed a counter ↔ NullifierSquashed b counter := by
  constructor
  · rintro ⟨noteHash, found⟩
    exact ⟨noteHash, (agree.pairs noteHash counter below).mp found⟩
  · rintro ⟨noteHash, found⟩
    exact ⟨noteHash, (agree.pairs noteHash counter below).mpr found⟩

/-- The same effects survive below the boundary exactly when the same notes are
spent across it. -/
private theorem surviveAlike_iff (agree : AgreeBelow a b) :
    SurviveAlike a b ↔ SameCrossings a b := by
  constructor
  · intro alike
    have notes := alike.noteHashes
    have logs := alike.privateLogs
    rw [survivors_eq, survivors_eq] at notes logs
    have notes := (filter_below_iff agree.noteHashes).mp notes
    have logs := (filter_below_iff agree.privateLogs).mp logs
    constructor
    · intro entry listed below
      exact (kept_alike_iff agree _).mp (notes entry listed (decide_eq_true below))
    · intro log listed below
      exact (kept_alike_iff agree _).mp (logs log listed (decide_eq_true below))
  · intro same
    constructor
    · rw [survivors_eq, survivors_eq]
      apply (filter_below_iff agree.noteHashes).mpr
      intro entry listed below
      exact (kept_alike_iff agree _).mpr (same.notes entry listed (of_decide_eq_true below))
    · rw [survivors_eq, survivors_eq]
      apply (filter_below_iff agree.nullifiers).mpr
      intro entry listed below
      rw [Bool.not_eq_true', Bool.not_eq_true', ← Bool.not_eq_true, ← Bool.not_eq_true,
        not_iff_not, nullifierSquashed_iff, nullifierSquashed_iff]
      exact nullifiers_alike agree (of_decide_eq_true below)
    · rw [survivors_eq, survivors_eq]
      apply (filter_below_iff agree.privateLogs).mpr
      intro log listed below
      exact (kept_alike_iff agree _).mpr (same.links log listed (of_decide_eq_true below))

end Squashing

section Kernel
variable {poseidon2 : List Fr → Fr}

/-- The non-revertible section is made of the survivors below the boundary. -/
private theorem sameEffects_of_alike (agree : AgreeBelow a b) (alike : SurviveAlike a b) :
    SameEffects (forPublic poseidon2 a).nonRevertibleAccumulatedData
      (forPublic poseidon2 b).nonRevertibleAccumulatedData := by
  have low : ∀ boundary counter : Nat,
      (not (decide (boundary ≤ counter))) = decide (counter < boundary) := by
    intro boundary counter
    rw [← decide_not, decide_eq_decide, Nat.not_le]
  obtain ⟨noteHashes, nullifiers, privateLogs⟩ := alike
  have boundaries : a.entrypoint.minRevertibleSideEffectCounter =
      b.entrypoint.minRevertibleSideEffectCounter := agree.boundaries
  unfold boundary at noteHashes nullifiers privateLogs
  constructor
  · simp only [forPublic, splitByCounter_eq, low, accumulated]
    rw [noteHashes, boundaries, agree.firstNullifiers]
  · simp only [forPublic, splitByCounter_eq, low, accumulated]
    rw [nullifiers, boundaries, agree.firstNullifiers]
  · simp only [forPublic, splitByCounter_eq, low, accumulated]
    rw [privateLogs, boundaries]

/-- Of two transactions that agree below the boundary the same effects below it
survive squashing exactly when the same notes are spent across it, and then the
non-revertible sections are equal. -/
theorem same_below_iff_same_crossings (poseidon2 : List Fr → Fr) (a b : PrivateExecutionResult)
    (agree : AgreeBelow a b) :
    (SurviveAlike a b ↔ SameCrossings a b) ∧
      (SameCrossings a b → ∀ feePayerA feePayerB expirationA expirationB outputA outputB
        sectionsA sectionsB,
        process poseidon2 a feePayerA expirationA = .ok outputA →
        process poseidon2 b feePayerB expirationB = .ok outputB →
        outputA.forPublic = some sectionsA → outputB.forPublic = some sectionsB →
          SameEffects sectionsA.nonRevertibleAccumulatedData
            sectionsB.nonRevertibleAccumulatedData) := by
  refine ⟨surviveAlike_iff agree, ?_⟩
  intro same feePayerA feePayerB expirationA expirationB outputA outputB sectionsA sectionsB
    processedA processedB shownA shownB
  obtain ⟨-, rfl⟩ := process_forPublic processedA shownA
  obtain ⟨-, rfl⟩ := process_forPublic processedB shownB
  exact sameEffects_of_alike agree ((surviveAlike_iff agree).mpr same)

end Kernel

section Runs
open RevertiblePhase

/-- Pairs agree below the boundary if the entries of the two maps do. -/
private theorem pairs_of_entries
    (fromA : ∀ pair ∈ a.allNoteHashNullifierCounterMaps.toList, pair.2 < boundary a →
      pair ∈ b.allNoteHashNullifierCounterMaps.toList)
    (fromB : ∀ pair ∈ b.allNoteHashNullifierCounterMaps.toList, pair.2 < boundary a →
      pair ∈ a.allNoteHashNullifierCounterMaps.toList)
    (noteHash nullifier : Nat) (below : nullifier < boundary a) :
    a.allNoteHashNullifierCounterMaps[noteHash]? = some nullifier ↔
      b.allNoteHashNullifierCounterMaps[noteHash]? = some nullifier := by
  rw [← Std.ExtTreeMap.mem_toList_iff_getElem?_eq_some,
    ← Std.ExtTreeMap.mem_toList_iff_getElem?_eq_some]
  exact ⟨fun inside => fromA _ inside below, fun inside => fromB _ inside below⟩

/-- The account makes a note in the setup phase and enters the revertible phase
at the counter five; the phase nullifies the note hash given, or a note from
before if it is zero, and enqueues a public call. -/
def setupNote (spent : Fr) : Transaction :=
  .entrypoint ⟨8⟩ 1 [] [] ⟨none, false, 0⟩
    (.foreign .notifyCreatedNote [[1], [2], [3], [4], [], [9], [2]]
      (.foreign .notifySetMinRevertibleSideEffectCounter [[5]]
        (.foreign .notifyNullifiedNote [[11], [spent], [6]]
          (.foreign .notifyEnqueuedPublicFunctionCall [[20], [0], [8], [0]] .done)))) {}

/-- The account makes the note and does nothing else before it enqueues the
call. -/
def setupOnly : Transaction :=
  .entrypoint ⟨8⟩ 1 [] [] ⟨none, false, 0⟩
    (.foreign .notifyCreatedNote [[1], [2], [3], [4], [], [9], [2]]
      (.foreign .notifySetMinRevertibleSideEffectCounter [[5]]
        (.foreign .notifyEnqueuedPublicFunctionCall [[20], [0], [8], [0]] .done))) {}

/-- Spending a note from before leaves the non-revertible section as it is. -/
theorem settledNote_spent_above :
    ∃ bundlesA a outputA sectionsA bundlesB b outputB sectionsB,
      setupOnly.execute .summed .empty = .ok (bundlesA, a) ∧
      (setupNote 0).execute .summed .empty = .ok (bundlesB, b) ∧
      process Crypto.summed.poseidon2 a 8 0 = .ok outputA ∧
      process Crypto.summed.poseidon2 b 8 0 = .ok outputB ∧
      outputA.forPublic = some sectionsA ∧ outputB.forPublic = some sectionsB ∧
      AgreeBelow a b ∧ SameCrossings a b ∧ SameEffects sectionsA.nonRevertibleAccumulatedData
        sectionsB.nonRevertibleAccumulatedData := by
  have agree : ∀ bundlesA a bundlesB b, setupOnly.execute .summed .empty = .ok (bundlesA, a) →
      (setupNote 0).execute .summed .empty = .ok (bundlesB, b) → AgreeBelow a b := by
    rintro _ _ _ _ ⟨⟩ ⟨⟩
    exact ⟨rfl, rfl, by decide, by decide, by decide,
      pairs_of_entries (by decide) (by decide)⟩
  have alike : ∀ bundlesA a bundlesB b, setupOnly.execute .summed .empty = .ok (bundlesA, a) →
      (setupNote 0).execute .summed .empty = .ok (bundlesB, b) → SurviveAlike a b := by
    rintro _ _ _ _ ⟨⟩ ⟨⟩
    exact ⟨by decide, by decide, by decide⟩
  have both := same_below_iff_same_crossings Crypto.summed.poseidon2 _ _ (agree _ _ _ _ rfl rfl)
  have same := both.1.mp (alike _ _ _ _ rfl rfl)
  exact ⟨_, _, _, _, _, _, _, _, rfl, rfl, rfl, rfl, rfl, rfl, agree _ _ _ _ rfl rfl, same,
    both.2 same 8 8 0 0 _ _ _ _ rfl rfl rfl rfl⟩

/-- A nullifier of the revertible phase takes the note of the setup phase out of
the non-revertible section. -/
theorem setupNote_squashed_above :
    ∃ bundlesA a outputA sectionsA bundlesB b outputB sectionsB,
      setupOnly.execute .summed .empty = .ok (bundlesA, a) ∧
      (setupNote 9).execute .summed .empty = .ok (bundlesB, b) ∧
      process Crypto.summed.poseidon2 a 8 0 = .ok outputA ∧
      process Crypto.summed.poseidon2 b 8 0 = .ok outputB ∧
      outputA.forPublic = some sectionsA ∧ outputB.forPublic = some sectionsB ∧
      0 < boundary a ∧ AgreeBelow a b ∧
      sectionsA.nonRevertibleAccumulatedData.noteHashes ≠
        sectionsB.nonRevertibleAccumulatedData.noteHashes := by
  have agree : ∀ bundlesA a bundlesB b, setupOnly.execute .summed .empty = .ok (bundlesA, a) →
      (setupNote 9).execute .summed .empty = .ok (bundlesB, b) → AgreeBelow a b := by
    rintro _ _ _ _ ⟨⟩ ⟨⟩
    exact ⟨rfl, rfl, by decide, by decide, by decide,
      pairs_of_entries (by decide) (by decide)⟩
  exact ⟨_, _, _, _, _, _, _, _, rfl, rfl, rfl, rfl, rfl, rfl, by decide, agree _ _ _ _ rfl rfl,
    by decide⟩

end Runs

end AztecPxe.PhaseSquash
