import AztecPxe.EventReorg

/-! Where one sync leaves the anchor. A node shows its latest block for the
parameter 0, and the synchronizer uses the same 0 for the genesis block, for a
rollback to block 0 and as the number of an anchor it does not know. On a fixed
chain every sync returns `Ok`; whether it ends at the configured tip depends on
which of these meanings of 0 it runs into, and on a hash it can compare. -/
namespace AztecPxe.AnchorTip
open AztecPxe BlockState EventReorg

/-- The height of the header a node shows for a parameter. -/
def shown (chain : FixedChain) (n : Nat) : Nat := if n = 0 then chain.tip else n

/-- The anchor is the chain's block at this height. -/
def AtTip (chain : FixedChain) (latest : Nat) (anchor : Option AnchorBlockHeader) : Prop :=
  ∃ header, anchor = some header ∧ header.blockNumber = latest ∧ header.blockHash = chain.hash latest

/-- A hash the same-height check compares. -/
def Comparable (hash : String) : Prop := hash ≠ "" ∧ hash ≠ "0x0"

instance (hash : String) : Decidable (Comparable hash) := inferInstanceAs (Decidable (_ ∧ _))

/-- When a sync starting from this anchor ends at the tip. An anchor at block 0
is never moved. Above it, a tip at block 0 is only reached on a chain that ends
there; a replaced block 1 sends the anchor to the latest block, past a tip that
is behind it; and a hash that is not compared stays when the anchor is at the
tip's height. -/
structure EndsAtTip (chain : FixedChain) (latest : Nat) (anchor : AnchorBlockHeader) : Prop where
  atZero : anchor.blockNumber = 0 → latest = 0 ∧ anchor.blockHash = chain.hash 0
  behind : latest < anchor.blockNumber → latest = 0 → chain.tip = 0
  replacedOne : anchor.blockNumber = 1 → 1 ≤ latest → Comparable anchor.blockHash →
    anchor.blockHash ≠ chain.hash 1 → latest = chain.tip
  sameHeight : anchor.blockNumber = latest → ¬ Comparable anchor.blockHash →
    anchor.blockHash = chain.hash latest

section Chain
variable {chain : FixedChain} {node : AztecNode} {state : BlockState}

theorem atTip_header {n latest : Nat} (below : n ≤ chain.tip) (tip : latest ≤ chain.tip) :
    AtTip chain latest (some (.fromHeaderJson (chain.header n))) ↔ n = latest := by
  have hash : (AnchorBlockHeader.fromHeaderJson (chain.header n)).blockHash = chain.hash n := by
    unfold AnchorBlockHeader.fromHeaderJson
    simp only [chain.hashed n below, Option.getD_some]
  constructor
  · rintro ⟨header, same, number, -⟩
    rw [← Option.some.inj same, chain.numbered n below] at number
    exact number
  · rintro rfl
    exact ⟨_, rfl, chain.numbered n below, hash⟩

/-- A replaced anchor ends at the tip unless it is at block 1 and the tip is not the
chain's own. -/
theorem replaced_endsAtTip_iff {anchor : AnchorBlockHeader} {latest : Nat}
    (positive : 0 < anchor.blockNumber) (ahead : anchor.blockNumber ≤ latest)
    (comparable : Comparable anchor.blockHash)
    (moved : chain.hash anchor.blockNumber ≠ anchor.blockHash) :
    EndsAtTip chain latest anchor ↔ (anchor.blockNumber = 1 → latest = chain.tip) := by
  constructor
  · intro ends one
    rw [one] at moved
    exact ends.replacedOne one (by omega) comparable (Ne.symm moved)
  · intro ends
    exact ⟨fun zero => by omega, fun lower => by omega, fun one _ _ _ => ends one,
      fun _ blank => absurd comparable blank⟩

/-- An anchor that is not replaced ends at the tip unless it is at the tip's height
with another hash. -/
theorem kept_endsAtTip_iff {anchor : AnchorBlockHeader} {latest : Nat}
    (positive : 0 < anchor.blockNumber) (ahead : anchor.blockNumber ≤ latest)
    (kept : ¬ (Comparable anchor.blockHash ∧ chain.hash anchor.blockNumber ≠ anchor.blockHash)) :
    EndsAtTip chain latest anchor ↔
      (anchor.blockNumber = latest → anchor.blockHash = chain.hash latest) := by
  constructor
  · intro ends equal
    by_cases comparable : Comparable anchor.blockHash
    · by_contra differs
      rw [← equal] at differs
      exact kept ⟨comparable, Ne.symm differs⟩
    · exact ends.sameHeight equal comparable
  · intro ends
    refine ⟨fun zero => by omega, fun above => by omega, ?_, fun equal _ => ends equal⟩
    intro one _ comparable differs
    rw [one] at kept
    exact absurd ⟨comparable, Ne.symm differs⟩ kept

/-- An anchor at block 0 is left alone. -/
theorem zero_ends_iff {anchor : AnchorBlockHeader} (held : state.anchor = some anchor)
    (latest : Nat) (zero : anchor.blockNumber = 0) :
    (state.followTip node latest).1 = .ok () ∧
      (AtTip chain latest (state.followTip node latest).2.anchor ↔
        EndsAtTip chain latest anchor) := by
  have number : state.anchorBlockNumber = 0 := by
    simp [anchorBlockNumber, held, zero]
  unfold followTip
  dsimp only
  rw [number, if_neg (by omega), if_neg (by omega)]
  refine ⟨rfl, ?_⟩
  constructor
  · rintro ⟨header, same, height, hash⟩
    rw [held, Option.some.injEq] at same
    rw [← same] at height hash
    have atGenesis : latest = 0 := by omega
    refine ⟨fun _ => ⟨atGenesis, ?_⟩, fun below => by omega, fun one => by omega, fun _ _ => hash⟩
    rw [hash, atGenesis]
  · intro ends
    obtain ⟨atGenesis, hash⟩ := ends.atZero zero
    refine ⟨anchor, held, zero.trans atGenesis.symm, ?_⟩
    rw [hash, atGenesis]

variable (answers : AnswersFrom node chain)
include answers

/-- Advancing moves an anchor below the tip to the tip, and no other. -/
theorem anchor_advance {latest : Nat} (below : latest ≤ chain.tip) (state : BlockState) :
    (state.advance node latest).1 = .ok () ∧ (state.advance node latest).2.anchor =
      if state.anchorBlockNumber < latest then some (.fromHeaderJson (chain.header latest))
      else state.anchor := by
  unfold advance
  split
  · rename_i lower
    have positive : latest ≠ 0 := by omega
    rw [answers.header latest below positive]
    exact ⟨rfl, rfl⟩
  · exact ⟨rfl, rfl⟩

variable (zeroIsLatest : node.getBlockHeader 0 = .ok (chain.header chain.tip))
include zeroIsLatest

theorem header_shown {n : Nat} (below : n ≤ chain.tip) :
    node.getBlockHeader n = .ok (chain.header (shown chain n)) := by
  unfold shown
  by_cases zero : n = 0
  · subst n
    rw [if_pos rfl, zeroIsLatest]
  · rw [if_neg zero, answers.header n below zero]

/-- A reorg leaves the anchor at the header shown for its block. -/
theorem anchor_handleReorg {n : Nat} (below : n ≤ chain.tip) (old : Nat) (state : BlockState) :
    ∃ after, state.handleReorg node n old = (.ok (), after) ∧
      after.anchor = some (.fromHeaderJson (chain.header (shown chain n))) := by
  unfold handleReorg
  rw [header_shown answers zeroIsLatest below]
  exact ⟨_, rfl, rfl⟩

/-- A replaced block at the anchor's height is the only thing the check acts on. -/
theorem anchor_checkAnchorHash {anchor : AnchorBlockHeader} (held : state.anchor = some anchor)
    (positive : 0 < anchor.blockNumber) (below : anchor.blockNumber ≤ chain.tip) :
    ∃ after, state.checkAnchorHash node = (.ok (), after) ∧ after.anchor =
      if Comparable anchor.blockHash ∧ chain.hash anchor.blockNumber ≠ anchor.blockHash then
        some (.fromHeaderJson (chain.header (shown chain (anchor.blockNumber - 1))))
      else some anchor := by
  obtain ⟨rolled, kept⟩ := checkAnchorHash_eq answers held positive below
  have same : Rehashed chain anchor ↔
      Comparable anchor.blockHash ∧ chain.hash anchor.blockNumber ≠ anchor.blockHash := by
    constructor
    · rintro ⟨-, named, real, moved⟩
      exact ⟨⟨named, real⟩, moved⟩
    · rintro ⟨⟨named, real⟩, moved⟩
      exact ⟨positive, named, real, moved⟩
  by_cases rehashed : Rehashed chain anchor
  · have target : anchor.blockNumber - 1 ≤ chain.tip := by omega
    obtain ⟨after, done, anchored⟩ :=
      anchor_handleReorg answers zeroIsLatest target anchor.blockNumber state
    rw [if_pos (same.mp rehashed)]
    exact ⟨after, (rolled rehashed).trans done, anchored⟩
  · rw [if_neg (fun both => rehashed (same.mpr both))]
    exact ⟨state, kept rehashed, held⟩

/-- An anchor above the tip falls back to the header shown for the tip. -/
theorem behind_ends_iff {anchor : AnchorBlockHeader} (held : state.anchor = some anchor)
    {latest : Nat} (below : latest ≤ chain.tip) (behind : latest < anchor.blockNumber) :
    (state.followTip node latest).1 = .ok () ∧
      (AtTip chain latest (state.followTip node latest).2.anchor ↔
        EndsAtTip chain latest anchor) := by
  obtain ⟨after, done, anchored⟩ :=
    anchor_handleReorg answers zeroIsLatest below anchor.blockNumber state
  unfold followTip
  simp only [anchorBlockNumber_of_held held]
  rw [if_pos ⟨behind, by omega⟩, done]
  refine ⟨rfl, ?_⟩
  have height : shown chain latest ≤ chain.tip := by
    unfold shown
    split
    · exact Nat.le_refl _
    · exact below
  rw [anchored, atTip_header height below]
  unfold shown
  constructor
  · intro same
    refine ⟨fun zero => by omega, fun _ zero => ?_, fun one ahead => by omega,
      fun equal => by omega⟩
    rw [if_pos zero] at same
    omega
  · intro ends
    split
    · rename_i zero
      rw [ends.behind behind zero, zero]
    · rfl

/-- An anchor at or below the tip is compared, perhaps rolled back by one, and
advanced. -/
theorem ahead_ends_iff {anchor : AnchorBlockHeader} (held : state.anchor = some anchor)
    {latest : Nat} (below : latest ≤ chain.tip) (positive : 0 < anchor.blockNumber)
    (ahead : anchor.blockNumber ≤ latest) :
    (state.followTip node latest).1 = .ok () ∧
      (AtTip chain latest (state.followTip node latest).2.anchor ↔
        EndsAtTip chain latest anchor) := by
  obtain ⟨after, done, anchored⟩ :=
    anchor_checkAnchorHash answers zeroIsLatest held positive (by omega)
  obtain ⟨ok, advanced⟩ := anchor_advance answers below after
  unfold followTip
  simp only [anchorBlockNumber_of_held held]
  rw [if_neg (by omega), if_pos ⟨ahead, positive⟩, done]
  refine ⟨ok, ?_⟩
  dsimp only
  rw [advanced]
  by_cases replaced : Comparable anchor.blockHash ∧
      chain.hash anchor.blockNumber ≠ anchor.blockHash
  · rw [if_pos replaced] at anchored
    rw [replaced_endsAtTip_iff positive ahead replaced.1 replaced.2]
    have height : shown chain (anchor.blockNumber - 1) ≤ chain.tip := by
      unfold shown
      split <;> omega
    have reached : after.anchorBlockNumber = shown chain (anchor.blockNumber - 1) := by
      unfold anchorBlockNumber
      rw [anchored]
      exact chain.numbered _ height
    rw [reached, anchored]
    by_cases one : anchor.blockNumber = 1
    · -- The rollback to block 0 is answered with the latest block.
      have latestShown : shown chain (anchor.blockNumber - 1) = chain.tip := by
        rw [one]
        rfl
      rw [latestShown, if_neg (by omega), atTip_header (Nat.le_refl _) below]
      exact ⟨fun same _ => same.symm, fun ends => (ends one).symm⟩
    · have shownBelow : shown chain (anchor.blockNumber - 1) = anchor.blockNumber - 1 := by
        unfold shown
        rw [if_neg (by omega)]
      rw [shownBelow, if_pos (by omega), atTip_header below below]
      exact ⟨fun _ same => absurd same one, fun _ => rfl⟩
  · rw [if_neg replaced] at anchored
    rw [kept_endsAtTip_iff positive ahead replaced]
    have reached : after.anchorBlockNumber = anchor.blockNumber := by
      unfold anchorBlockNumber
      rw [anchored]
      rfl
    rw [reached, anchored]
    by_cases lower : anchor.blockNumber < latest
    · rw [if_pos lower, atTip_header below below]
      exact ⟨fun _ equal => by omega, fun _ => rfl⟩
    · rw [if_neg lower]
      have equal : anchor.blockNumber = latest := by omega
      constructor
      · rintro ⟨header, same, -, hash⟩ _
        rw [Option.some.inj same]
        exact hash
      · intro ends
        exact ⟨anchor, rfl, equal, ends equal⟩

end Chain

/-- The anchor a sync starts from: the stored one, or the header shown for the
parameter 0. -/
def startsFrom (chain : FixedChain) (state : BlockState) : AnchorBlockHeader :=
  state.anchor.getD (.fromHeaderJson (chain.header chain.tip))

end AztecPxe.AnchorTip
