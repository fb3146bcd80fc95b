import AztecPxe.CapsuleArrays

/-! `copy_capsule` against a copy of a region of slots. All entries are read before the first is
written, so overlapping regions do not matter. But the slots are sums of machine words: beyond 64
bits they are not the slots that field addition gives, which arrays and circuits use. -/
namespace AztecPxe
open CapsuleArrays

namespace CapsuleStore

/-- `Fr::from((start.to_usize() + i) as u64)`. -/
def copySlot (start : Fr) (i : Nat) : Fr := Fr.ofU64 (start.toUsize + i)

/-- The loop of `copy_capsule` that reads the entries. -/
def readCopied (store : CapsuleStore) (contract : AztecAddress) (srcSlot : Fr) (numEntries : Nat) :
    Except Error (List (List Fr)) :=
  (List.range numEntries).mapM (fun i =>
    match store.loadCapsule contract (copySlot srcSlot i) with
    | some data => .ok data
    | none => .error (.invalidData ("attempted to copy empty capsule slot " ++
        hex32 (copySlot srcSlot i).val ++ " for contract " ++ hex32 contract.inner.val)))

/-- `CapsuleStore::copy_capsule`: what it returns, or nothing where it panics, and the store it
leaves. No `Vec` of entries, 24 bytes each, takes more than `isize::MAX`. -/
def copyCapsule (store : CapsuleStore) (contract : AztecAddress) (srcSlot dstSlot : Fr)
    (numEntries : Nat) : Option (Except Error Unit) × CapsuleStore :=
  if numEntries = 0 then (some (.ok ()), store)
  else if 2 ^ 63 ≤ numEntries * 24 then (none, store)
  else match store.readCopied contract srcSlot numEntries with
    | .error e => (some (.error e), store)
    | .ok copied => (some (.ok ()), storeEntries contract (copySlot dstSlot) copied store)

end CapsuleStore

namespace CapsuleCopy
open CapsuleStore

/-- The slot `i` after the start, by addition in the field. -/
def slotAfter (start : Fr) (i : Nat) : Fr := start + Fr.ofU64 i

/-- The region was copied, and nothing else changed; or an entry is missing, and nothing did. -/
def Copies (store : CapsuleStore) (contract : AztecAddress) (srcSlot dstSlot : Fr)
    (numEntries : Nat) (outcome : Option (Except Error Unit) × CapsuleStore) : Prop :=
  if ∀ i < numEntries, store.slots contract (slotAfter srcSlot i) ≠ none then
    outcome.1 = some (.ok ()) ∧
      (∀ i < numEntries, outcome.2.slots contract (slotAfter dstSlot i) =
        store.slots contract (slotAfter srcSlot i)) ∧
      ∀ other slot, ¬ (other = contract ∧ ∃ i < numEntries, slot = slotAfter dstSlot i) →
        outcome.2.slots other slot = store.slots other slot
  else (∃ e, outcome.1 = some (.error e)) ∧ outcome.2 = store

/-- Every slot of the region is a machine word. -/
def Low (start : Fr) (numEntries : Nat) : Prop := start.val + numEntries ≤ 2 ^ 64

/-! ## Slots -/

section Slots
variable {start : Fr} {numEntries i j : Nat}

/-- In a low region both ways to add agree. -/
theorem copySlot_eq (low : Low start numEntries) (inside : i < numEntries) :
    copySlot start i = slotAfter start i := by
  unfold Low at low
  apply Fin.ext
  have wide : 2 ^ 64 < frModulus := by decide
  rw [copySlot, slotAfter, Fr.val_ofU64, Fin.val_add, Fr.val_ofU64, Fr.toUsize,
    Nat.mod_eq_of_lt (show start.val < 2 ^ 64 by omega), Nat.mod_eq_of_lt (show i < 2 ^ 64 by omega),
    Nat.mod_eq_of_lt (show start.val + i < 2 ^ 64 by omega),
    Nat.mod_eq_of_lt (show start.val + i < frModulus by omega)]

theorem copySlot_lt : (copySlot start i).val < 2 ^ 64 := by
  rw [copySlot, Fr.val_ofU64]
  exact Nat.mod_lt _ (by decide)

/-- A region that is not low reaches a slot that is no machine word. -/
theorem exists_high (high : ¬ Low start numEntries) (some_entry : 0 < numEntries)
    (few : numEntries ≤ 2 ^ 64) : ∃ i < numEntries, 2 ^ 64 ≤ (slotAfter start i).val := by
  unfold Low at high
  have wide : 2 ^ 64 < frModulus := by decide
  by_cases far : 2 ^ 64 ≤ start.val
  · refine ⟨0, some_entry, ?_⟩
    have same : slotAfter start 0 = start := add_zero start
    rw [same]
    exact far
  · -- The word after the last one.
    refine ⟨2 ^ 64 - start.val, by omega, ?_⟩
    rw [slotAfter, Fin.val_add, Fr.val_ofU64, Nat.mod_eq_of_lt (show 2 ^ 64 - start.val < 2 ^ 64 by omega),
      Nat.add_sub_cancel' (by omega), Nat.mod_eq_of_lt wide]

theorem slotAfter_inj (small : i < 2 ^ 64) (small' : j < 2 ^ 64) :
    slotAfter start i = slotAfter start j ↔ i = j := by
  rw [slotAfter, slotAfter, add_right_inj, Fr.ofU64_inj small small']

end Slots
/-! ## Reading the entries -/

section Reading
variable {store : CapsuleStore} {contract : AztecAddress} {srcSlot dstSlot : Fr} {numEntries : Nat}

theorem readCopied_present {entry : Nat → List Fr}
    (present : ∀ i < numEntries, store.slots contract (copySlot srcSlot i) = some (entry i)) :
    store.readCopied contract srcSlot numEntries = .ok ((List.range numEntries).map entry) := by
  refine mapM_eq_ok (fun i inside => ?_)
  rw [loadCapsule, present i (List.mem_range.mp inside)]

theorem readCopied_missing {i : Nat} (inside : i < numEntries)
    (missing : store.slots contract (copySlot srcSlot i) = none) :
    ∃ e, store.readCopied contract srcSlot numEntries = .error e := by
  cases outcome : store.readCopied contract srcSlot numEntries with
  | error e => exact ⟨e, rfl⟩
  | ok found =>
    obtain ⟨data, -, read⟩ := mapM_each outcome (List.mem_range.mpr inside)
    rw [loadCapsule, missing] at read
    cases read

theorem copyCapsule_eq (some_entry : numEntries ≠ 0) (fits : numEntries * 24 < 2 ^ 63) :
    store.copyCapsule contract srcSlot dstSlot numEntries =
      match store.readCopied contract srcSlot numEntries with
      | .error e => (some (.error e), store)
      | .ok copied => (some (.ok ()), storeEntries contract (copySlot dstSlot) copied store) := by
  rw [copyCapsule, if_neg some_entry, if_neg (Nat.not_le.mpr fits)]

/-- Nothing is copied where there is nothing to copy. -/
theorem copies_nothing : Copies store contract srcSlot dstSlot 0
    (store.copyCapsule contract srcSlot dstSlot 0) := by
  have nothing : store.copyCapsule contract srcSlot dstSlot 0 = (some (.ok ()), store) := if_pos rfl
  rw [Copies, if_pos (fun i inside => absurd inside (Nat.not_lt_zero i)), nothing]
  exact ⟨rfl, fun i inside => absurd inside (Nat.not_lt_zero i), fun _ _ _ => rfl⟩

/-- Low regions are copied. -/
theorem copies_of_low (fits : numEntries * 24 < 2 ^ 63) (low : Low srcSlot numEntries)
    (low' : Low dstSlot numEntries) :
    Copies store contract srcSlot dstSlot numEntries
      (store.copyCapsule contract srcSlot dstSlot numEntries) := by
  rcases Nat.eq_zero_or_pos numEntries with rfl | some_entry
  · exact copies_nothing
  · rw [copyCapsule_eq (Nat.ne_of_gt some_entry) fits]
    unfold Copies
    split
    next present =>
      have each : ∀ i < numEntries, store.slots contract (copySlot srcSlot i) =
          some ((store.slots contract (slotAfter srcSlot i)).getD []) := by
        intro i inside
        rw [copySlot_eq low inside]
        obtain ⟨data, held⟩ := Option.ne_none_iff_exists'.mp (present i inside)
        rw [held, Option.getD_some]
      rw [readCopied_present each]
      have distinct : ∀ i < numEntries, ∀ j < numEntries,
          copySlot dstSlot i = copySlot dstSlot j → i = j := by
        intro i inside j inside' same
        rw [copySlot_eq low' inside, copySlot_eq low' inside'] at same
        exact (slotAfter_inj (by omega) (by omega)).mp same
      refine ⟨rfl, ?_, ?_⟩
      · intro i inside
        rw [← copySlot_eq low' inside, storeEntries_entry (by simpa using inside) (by simpa using distinct),
          List.getElem?_map, List.getElem?_range inside, ← copySlot_eq low inside, each i inside]
        rfl
      · intro other slot outside
        refine storeEntries_other (fun own i inside same => ?_)
        have small : i < numEntries := by simpa using inside
        exact outside ⟨own, i, small, same.trans (copySlot_eq low' small)⟩
    next absent =>
      push Not at absent
      obtain ⟨i, inside, missing⟩ := absent
      obtain ⟨e, failed⟩ := readCopied_missing inside (by rw [copySlot_eq low inside, missing])
      rw [failed]
      exact ⟨⟨e, rfl⟩, rfl⟩

/-- A missing entry that is no machine word is not noticed. -/
theorem exists_not_copied_of_high_src (some_entry : 0 < numEntries)
    (fits : numEntries * 24 < 2 ^ 63) (high : ¬ Low srcSlot numEntries) :
    ∃ store : CapsuleStore, ¬ Copies store contract srcSlot dstSlot numEntries
      (store.copyCapsule contract srcSlot dstSlot numEntries) := by
  obtain ⟨i, inside, far⟩ := exists_high high some_entry (by omega)
  refine ⟨⟨fun _ slot => if slot = slotAfter srcSlot i then none else some []⟩, ?_⟩
  have present : ∀ k < numEntries, (if copySlot srcSlot k = slotAfter srcSlot i then none
      else some ([] : List Fr)) = some [] := by
    intro k _
    refine if_neg (fun same => ?_)
    have near : (copySlot srcSlot k).val < 2 ^ 64 := copySlot_lt
    rw [same] at near
    omega
  rw [copyCapsule_eq (Nat.ne_of_gt some_entry) fits, readCopied_present present, Copies, if_neg]
  · rintro ⟨⟨e, failed⟩, -⟩
    cases failed
  · intro all
    exact all i inside (if_pos rfl)

/-- A slot to copy to that is no machine word is not written. -/
theorem exists_not_copied_of_high_dst (some_entry : 0 < numEntries)
    (fits : numEntries * 24 < 2 ^ 63) (low : Low srcSlot numEntries)
    (high : ¬ Low dstSlot numEntries) :
    ∃ store : CapsuleStore, ¬ Copies store contract srcSlot dstSlot numEntries
      (store.copyCapsule contract srcSlot dstSlot numEntries) := by
  obtain ⟨i, inside, far⟩ := exists_high high some_entry (by omega)
  -- Every slot holds itself.
  refine ⟨⟨fun _ slot => some [slot]⟩, ?_⟩
  rw [copyCapsule_eq (Nat.ne_of_gt some_entry) fits, readCopied_present (fun k _ => rfl), Copies,
    if_pos (fun _ _ => by simp)]
  rintro ⟨-, written, -⟩
  have copied := written i inside
  rw [storeEntries_other] at copied
  · have same : dstSlot = srcSlot := by
      simpa [slotAfter] using copied
    rw [same] at high
    exact high low
  · intro _ k _ same
    have near : (copySlot dstSlot k).val < 2 ^ 64 := copySlot_lt
    rw [← same] at near
    omega

end Reading

/-- One capsule, in slot 5. -/
private def oneCapsule : CapsuleStore := ({} : CapsuleStore).storeCapsule ⟨3⟩ 5 [9]

/-- A slot that is no machine word. -/
private def highSlot : Fr := 18446744073709551616

end CapsuleCopy
end AztecPxe
