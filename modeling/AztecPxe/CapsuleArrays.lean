import AztecPxe.CapsuleStore

/-! Capsule arrays as lists. An array keeps its length in the base slot and its entries in the
slots after it, by addition in the field; as far as lengths go these slots are distinct, and none
is the base slot. So the calls on an array do to its slots what the same calls do to a list. -/
namespace AztecPxe
open CapsuleStore

/-- A `Vec<Vec<Fr>>`: its entries take 24 bytes each, and all of it no more than `isize::MAX`. -/
structure Entries where
  list : List (List Fr)
  fits : list.length * 24 < 2 ^ 63

namespace CapsuleArrays

/-- The array at the base slot holds the list. -/
structure Holds (store : CapsuleStore) (contract : AztecAddress) (base : Fr)
    (list : List (List Fr)) : Prop where
  length : store.arrayLength contract base = list.length
  entries : ∀ i < list.length, store.slots contract (arraySlot base i) = list[i]?

/-- The slots of an array of this length: the base slot and its entries. -/
def InRegion (contract : AztecAddress) (base : Fr) (length : Nat) (other : AztecAddress)
    (slot : Fr) : Prop :=
  other = contract ∧ (slot = base ∨ ∃ i < length, slot = arraySlot base i)

/-- Outside the slots of an array of this length the stores agree. -/
def SameOutside (contract : AztecAddress) (base : Fr) (length : Nat)
    (before after : CapsuleStore) : Prop :=
  ∀ other slot, ¬ InRegion contract base length other slot →
    after.slots other slot = before.slots other slot

/-! ## Slots -/

section Slots
variable {base : Fr} {i j : Nat}

theorem arraySlot_inj (small : 1 + i < 2 ^ 64) (small' : 1 + j < 2 ^ 64) :
    arraySlot base i = arraySlot base j ↔ i = j := by
  rw [arraySlot, arraySlot, add_right_inj, Fr.ofU64_inj small small']
  omega

theorem arraySlot_ne_base (small : 1 + i < 2 ^ 64) : arraySlot base i ≠ base := by
  intro same
  have zero : Fr.ofU64 (1 + i) = Fr.ofU64 0 := by
    rw [arraySlot, add_eq_left] at same
    exact same
  have none := (Fr.ofU64_inj small (by decide)).mp zero
  omega

end Slots

/-! ## Writing slots -/

section Put
variable {store : CapsuleStore} {contract other : AztecAddress} {slot written : Fr}
  {value : Option (List Fr)}

@[simp] theorem slots_put_self : (store.put contract slot value).slots contract slot = value :=
  if_pos ⟨rfl, rfl⟩

theorem slots_put_ne (apart : ¬ (other = contract ∧ slot = written)) :
    (store.put contract written value).slots other slot = store.slots other slot :=
  if_neg apart

end Put

section Writes
variable {store : CapsuleStore} {contract other : AztecAddress} {slot : Fr} {slotAt : Nat → Fr}

/-- The loop that stores entries, each in the slot of its index. -/
def storeEntries (contract : AztecAddress) (slotAt : Nat → Fr) (content : List (List Fr))
    (store : CapsuleStore) : CapsuleStore :=
  content.zipIdx.foldl (fun store entry => store.storeCapsule contract (slotAt entry.2) entry.1)
    store

theorem storeEntries_concat (content : List (List Fr)) (entry : List Fr) :
    storeEntries contract slotAt (content ++ [entry]) store =
      (storeEntries contract slotAt content store).storeCapsule contract (slotAt content.length)
        entry := by
  simp [storeEntries, List.zipIdx_append]

theorem storeEntries_other {content : List (List Fr)}
    (apart : other = contract → ∀ i < content.length, slot ≠ slotAt i) :
    (storeEntries contract slotAt content store).slots other slot = store.slots other slot := by
  induction content using List.reverseRecOn with
  | nil => rfl
  | append_singleton content entry ih =>
    rw [List.length_append, List.length_singleton] at apart
    rw [storeEntries_concat, storeCapsule, slots_put_ne]
    · exact ih (fun own i below => apart own i (Nat.lt_succ_of_lt below))
    · rintro ⟨own, last⟩
      exact apart own content.length (Nat.lt_succ_self _) last

theorem storeEntries_entry {content : List (List Fr)} {i : Nat} (inside : i < content.length)
    (distinct : ∀ i < content.length, ∀ j < content.length, slotAt i = slotAt j → i = j) :
    (storeEntries contract slotAt content store).slots contract (slotAt i) = content[i]? := by
  induction content using List.reverseRecOn with
  | nil => cases inside
  | append_singleton content entry ih =>
    rw [List.length_append, List.length_singleton] at inside distinct
    rw [storeEntries_concat, storeCapsule]
    rcases Nat.lt_succ_iff_lt_or_eq.mp inside with before | rfl
    · -- A later entry goes into another slot.
      rw [slots_put_ne, List.getElem?_append_left before]
      · exact ih before (fun i small j small' => distinct i (Nat.lt_succ_of_lt small) j
          (Nat.lt_succ_of_lt small'))
      · rintro ⟨-, same⟩
        exact Nat.ne_of_lt before (distinct i inside content.length (Nat.lt_succ_self _) same)
    · rw [slots_put_self, List.getElem?_concat_length]

/-- The loop that deletes the entries with the indices from `first` on. -/
def deleteEntries (contract : AztecAddress) (slotAt : Nat → Fr) (first count : Nat)
    (store : CapsuleStore) : CapsuleStore :=
  (List.range' first count).foldl (fun store i => store.deleteCapsule contract (slotAt i)) store

theorem deleteEntries_concat (first count : Nat) :
    deleteEntries contract slotAt first (count + 1) store =
      (deleteEntries contract slotAt first count store).deleteCapsule contract
        (slotAt (first + count)) := by
  simp [deleteEntries, List.range'_concat]

theorem deleteEntries_other {first count : Nat}
    (apart : other = contract → ∀ i, first ≤ i → i < first + count → slot ≠ slotAt i) :
    (deleteEntries contract slotAt first count store).slots other slot = store.slots other slot := by
  induction count with
  | zero => rfl
  | succ count ih =>
    rw [deleteEntries_concat, CapsuleStore.deleteCapsule, slots_put_ne]
    · exact ih (fun own i above below => apart own i above (by omega))
    · rintro ⟨own, last⟩
      exact apart own (first + count) (by omega) (by omega) last

theorem deleteEntries_entry {first count i : Nat} (above : first ≤ i) (below : i < first + count) :
    (deleteEntries contract slotAt first count store).slots contract (slotAt i) = none := by
  induction count with
  | zero => omega
  | succ count ih =>
    rw [deleteEntries_concat, CapsuleStore.deleteCapsule]
    by_cases last : slotAt i = slotAt (first + count)
    · rw [last, slots_put_self]
    · rw [slots_put_ne (fun both => last both.2)]
      refine ih (lt_of_le_of_ne (by omega) ?_)
      rintro rfl
      exact last rfl

end Writes

/-! ## The calls on an array -/

section Calls
variable {store : CapsuleStore} {contract : AztecAddress} {base : Fr} {old : List (List Fr)}

/-- A base slot that holds a length. -/
theorem arrayLength_of_slot {length : Nat} (small : length < 2 ^ 64)
    (held : store.slots contract base = some [Fr.ofU64 length]) :
    store.arrayLength contract base = length := by
  simp [arrayLength, loadCapsule, held, Fr.toUsize_ofU64 small]

/-- An array that holds a list is read as the list. -/
theorem Holds.read (holds : Holds store contract base old) :
    store.readCapsuleArray contract base = .ok old := by
  have all : (List.range old.length).map (fun i => (old[i]?).getD []) = old := by
    apply List.ext_getElem
    · simp
    · intro i small small'
      simp [List.getElem?_eq_getElem small']
  unfold readCapsuleArray
  rw [holds.length]
  refine (mapM_eq_ok (g := fun i => (old[i]?).getD []) ?_).trans (congrArg Except.ok all)
  intro i inside
  have below := List.mem_range.mp inside
  rw [loadCapsule, holds.entries i below, List.getElem?_eq_getElem below]
  rfl

theorem appendToCapsuleArray_eq (content : List (List Fr)) :
    store.appendToCapsuleArray contract base content =
      (storeEntries contract (fun i => arraySlot base (store.arrayLength contract base + i)) content
        store).storeCapsule contract base
          [Fr.ofU64 (store.arrayLength contract base + content.length)] := rfl

theorem setCapsuleArray_eq (content : List (List Fr)) :
    store.setCapsuleArray contract base content =
      deleteEntries contract (arraySlot base) content.length
        (store.arrayLength contract base - content.length)
        (storeEntries contract (arraySlot base) content
          (store.storeCapsule contract base [Fr.ofU64 content.length])) := rfl

/-- Appending leaves an array of both lists. -/
theorem Holds.append (holds : Holds store contract base old) {content : List (List Fr)}
    (room : (old ++ content).length < 2 ^ 64) :
    Holds (store.appendToCapsuleArray contract base content) contract base (old ++ content) := by
  rw [List.length_append] at room
  rw [appendToCapsuleArray_eq, holds.length]
  constructor
  · rw [List.length_append]
    exact arrayLength_of_slot room slots_put_self
  · intro i inside
    rw [List.length_append] at inside
    have notBase : arraySlot base i ≠ base := arraySlot_ne_base (by omega)
    rw [CapsuleStore.storeCapsule, slots_put_ne (fun both => notBase both.2)]
    by_cases before : i < old.length
    · -- The new entries go into the slots behind the old ones.
      rw [storeEntries_other, holds.entries i before, List.getElem?_append_left before]
      intro _ j small same
      have index := (arraySlot_inj (by omega) (by omega)).mp same
      omega
    · obtain ⟨k, rfl⟩ := Nat.exists_eq_add_of_le (Nat.le_of_not_lt before)
      have distinct : ∀ i < content.length, ∀ j < content.length,
          arraySlot base (old.length + i) = arraySlot base (old.length + j) → i = j := by
        intro i small j small' same
        have index := (arraySlot_inj (by omega) (by omega)).mp same
        omega
      have entry := @storeEntries_entry store contract (fun i => arraySlot base (old.length + i))
        content k (by omega) distinct
      rw [entry, List.getElem?_append_right (Nat.le_add_right _ _), Nat.add_sub_cancel_left]

/-- Setting leaves an array of the new list. -/
theorem Holds.set (holds : Holds store contract base old) {content : List (List Fr)}
    (small : old.length < 2 ^ 64) (room : content.length < 2 ^ 64) :
    Holds (store.setCapsuleArray contract base content) contract base content := by
  rw [setCapsuleArray_eq, holds.length]
  have kept : ∀ slot, (∀ i, content.length ≤ i → i < old.length → slot ≠ arraySlot base i) →
      (deleteEntries contract (arraySlot base) content.length (old.length - content.length)
        (storeEntries contract (arraySlot base) content
          (store.storeCapsule contract base [Fr.ofU64 content.length]))).slots contract slot =
        (storeEntries contract (arraySlot base) content
          (store.storeCapsule contract base [Fr.ofU64 content.length])).slots contract slot := by
    intro slot apart
    exact deleteEntries_other (fun _ i above below => apart i above (by omega))
  constructor
  · refine arrayLength_of_slot room ?_
    rw [kept, storeEntries_other, CapsuleStore.storeCapsule, slots_put_self]
    · intro _ i inside
      exact (arraySlot_ne_base (by omega)).symm
    · intro i _ below
      exact (arraySlot_ne_base (by omega)).symm
  · intro i inside
    rw [kept, storeEntries_entry inside]
    · intro i below j below' same
      exact (arraySlot_inj (by omega) (by omega)).mp same
    · intro j above below same
      have index := (arraySlot_inj (by omega) (by omega)).mp same
      omega

/-- After a set the slots of the entries that are gone are empty. -/
theorem emptied_set (holds : Holds store contract base old) {content : List (List Fr)} {i : Nat}
    (above : content.length ≤ i) (below : i < old.length) :
    (store.setCapsuleArray contract base content).slots contract (arraySlot base i) = none := by
  rw [setCapsuleArray_eq, holds.length]
  exact deleteEntries_entry above (by omega)

theorem sameOutside_append (holds : Holds store contract base old) (content : List (List Fr)) :
    SameOutside contract base (old ++ content).length store
      (store.appendToCapsuleArray contract base content) := by
  intro other slot outside
  rw [List.length_append] at outside
  rw [appendToCapsuleArray_eq, holds.length, CapsuleStore.storeCapsule, slots_put_ne,
    storeEntries_other]
  · intro own i inside same
    exact outside ⟨own, .inr ⟨old.length + i, by omega, same⟩⟩
  · rintro ⟨own, same⟩
    exact outside ⟨own, .inl same⟩

theorem sameOutside_set (holds : Holds store contract base old) (content : List (List Fr)) :
    SameOutside contract base (max old.length content.length) store
      (store.setCapsuleArray contract base content) := by
  intro other slot outside
  rw [setCapsuleArray_eq, holds.length, deleteEntries_other, storeEntries_other,
    CapsuleStore.storeCapsule, slots_put_ne]
  · rintro ⟨own, same⟩
    exact outside ⟨own, .inl same⟩
  · intro own i inside same
    exact outside ⟨own, .inr ⟨i, by omega, same⟩⟩
  · intro own i above below same
    exact outside ⟨own, .inr ⟨i, by omega, same⟩⟩

end Calls

/-! ## Runs -/

/-- A call on an array. -/
inductive Call where
  | append (content : Entries)
  | set (content : Entries)
  | read

/-- A call on a plain list: the list after it, and what it returns. A list that takes more than a
`Vec` may is none. -/
def Call.onList (list : Entries) : Call → Option (Entries × Option (List (List Fr)))
  | .append content =>
    if fits : (list.list ++ content.list).length * 24 < 2 ^ 63 then
      some (⟨list.list ++ content.list, fits⟩, none)
    else none
  | .set content => some (content, none)
  | .read => some (list, some list.list)

/-- The call on the array at a base slot. -/
def Call.onStore (contract : AztecAddress) (base : Fr) (store : CapsuleStore) :
    Call → CapsuleStore × Option (Except Error (List (List Fr)))
  | .append content => (store.appendToCapsuleArray contract base content.list, none)
  | .set content => (store.setCapsuleArray contract base content.list, none)
  | .read => (store, some (store.readCapsuleArray contract base))

/-- Calls one after the other on a list, with what they return. -/
def runList (list : Entries) : List Call → Option (Entries × List (Option (List (List Fr))))
  | [] => some (list, [])
  | call :: rest => do
    let (list, answer) ← call.onList list
    let (list, answers) ← runList list rest
    return (list, answer :: answers)

/-- Calls one after the other on the array. -/
def runStore (contract : AztecAddress) (base : Fr) (store : CapsuleStore) :
    List Call → CapsuleStore × List (Option (Except Error (List (List Fr))))
  | [] => (store, [])
  | call :: rest =>
    let (store, answer) := call.onStore contract base store
    let (store, answers) := runStore contract base store rest
    (store, answer :: answers)

section Runs
variable {store : CapsuleStore} {contract : AztecAddress} {base : Fr} {old : Entries}

/-- One call does the same to the array and to the list it holds. -/
theorem onStore_refines (holds : Holds store contract base old.list) {call : Call} {new : Entries}
    {answer : Option (List (List Fr))} (done : call.onList old = some (new, answer)) :
    (call.onStore contract base store).2 = answer.map .ok ∧
      Holds (call.onStore contract base store).1 contract base new.list := by
  have small := old.fits
  cases call with
  | append content =>
    by_cases fits : (old.list ++ content.list).length * 24 < 2 ^ 63
    · rw [Call.onList, dif_pos fits] at done
      cases done
      exact ⟨rfl, holds.append (by omega)⟩
    · rw [Call.onList, dif_neg fits] at done
      cases done
  | set content =>
    cases done
    have room := new.fits
    exact ⟨rfl, holds.set (by omega) (by omega)⟩
  | read =>
    cases done
    exact ⟨congrArg some holds.read, holds⟩

/-- Any sequence of calls does. -/
theorem runStore_refines (holds : Holds store contract base old.list) {calls : List Call}
    {new : Entries} {answers : List (Option (List (List Fr)))}
    (done : runList old calls = some (new, answers)) :
    (runStore contract base store calls).2 = answers.map (Option.map .ok) ∧
      Holds (runStore contract base store calls).1 contract base new.list := by
  induction calls generalizing store old new answers with
  | nil =>
    cases done
    exact ⟨rfl, holds⟩
  | cons call rest ih =>
    simp only [runList, Option.bind_eq_bind, Option.bind_eq_some_iff, Prod.exists] at done
    obtain ⟨middle, answer, first, final, others, later, same⟩ := done
    cases same
    obtain ⟨answered, held⟩ := onStore_refines holds first
    obtain ⟨restAnswered, restHeld⟩ := ih held later
    exact ⟨congrArg₂ List.cons answered restAnswered, restHeld⟩

/-- The calls on a well-formed array return what the calls on its list return, keep every slot
outside the longer of both lists, and leave no entry behind the end after a set. -/
theorem arrays_behave_as_lists (holds : Holds store contract base old.list) (content : Entries) :
    ((old.list ++ content.list).length * 24 < 2 ^ 63 →
      (store.appendToCapsuleArray contract base content.list).readCapsuleArray contract base =
        .ok (old.list ++ content.list)) ∧
    (store.setCapsuleArray contract base content.list).readCapsuleArray contract base =
      .ok content.list ∧
    SameOutside contract base (old.list ++ content.list).length store
      (store.appendToCapsuleArray contract base content.list) ∧
    SameOutside contract base (max old.list.length content.list.length) store
      (store.setCapsuleArray contract base content.list) ∧
    (∀ i, content.list.length ≤ i → i < old.list.length →
      (store.setCapsuleArray contract base content.list).slots contract (arraySlot base i) =
        none) ∧
    ∀ calls new answers, runList old calls = some (new, answers) →
      (runStore contract base store calls).2 = answers.map (Option.map .ok) ∧
        Holds (runStore contract base store calls).1 contract base new.list := by
  have small := old.fits
  have room := content.fits
  refine ⟨fun fits => (holds.append (by omega)).read, (holds.set (by omega) (by omega)).read,
    sameOutside_append holds _, sameOutside_set holds _, fun i => emptied_set holds, ?_⟩
  intro calls new answers done
  exact runStore_refines holds done

end Runs
/-- An array of two entries whose second slot is behind the last number of the field. -/
private def wrapping : CapsuleStore :=
  (({} : CapsuleStore).storeCapsule ⟨3⟩ (-2) [2]).storeCapsule ⟨3⟩ (-1) [5] |>.storeCapsule ⟨3⟩ 0 [6]

private def twoEntries : Entries := ⟨[[5], [6]], by decide⟩

private theorem holds_wrapping : Holds wrapping ⟨3⟩ (-2) twoEntries.list where
  length := by decide
  entries := by decide

private def sampleCalls : List Call :=
  [.append ⟨[[7]], by decide⟩, .read, .set ⟨[], by decide⟩, .read]

theorem arrays_behave_as_lists_wrapping :
    (wrapping.appendToCapsuleArray ⟨3⟩ (-2) [[7]]).readCapsuleArray ⟨3⟩ (-2) =
        .ok [[5], [6], [7]] ∧
      (wrapping.setCapsuleArray ⟨3⟩ (-2) [[7]]).slots ⟨3⟩ 0 = none ∧
      (runStore ⟨3⟩ (-2) wrapping sampleCalls).2 =
        [none, some (.ok [[5], [6], [7]]), none, some (.ok [])] := by
  have behaves := arrays_behave_as_lists holds_wrapping ⟨[[7]], by decide⟩
  have run := behaves.2.2.2.2.2 sampleCalls ⟨[], by decide⟩
    [none, some [[5], [6], [7]], none, some []] rfl
  exact ⟨behaves.1 (by decide), behaves.2.2.2.2.1 1 (by decide) (by decide), run.1⟩

end CapsuleArrays
end AztecPxe
