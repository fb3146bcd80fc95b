import AztecPxe.Json

/-! The contract-scoped slots of `stores/capsule_store.rs` and the arrays laid
out in them: a base slot with the length, and the entries in the slots after
it. Slots wrap around in the field, lengths are cut to a machine word. -/
namespace AztecPxe

/-- The `capsule_db:{contract}:{slot}` entries. -/
structure CapsuleStore where
  slots : AztecAddress → Fr → Option (List Fr) := fun _ _ => none

namespace CapsuleStore

/-- `CapsuleStore::load_capsule`. -/
def loadCapsule (store : CapsuleStore) (contract : AztecAddress) (slot : Fr) : Option (List Fr) :=
  store.slots contract slot

/-- Write or delete one slot. -/
def put (store : CapsuleStore) (contract : AztecAddress) (slot : Fr) (value : Option (List Fr)) :
    CapsuleStore where
  slots c s := if c = contract ∧ s = slot then value else store.slots c s

/-- `CapsuleStore::store_capsule`. -/
def storeCapsule (store : CapsuleStore) (contract : AztecAddress) (slot : Fr) (capsule : List Fr) :
    CapsuleStore :=
  store.put contract slot (some capsule)

/-- `CapsuleStore::delete_capsule`. -/
def deleteCapsule (store : CapsuleStore) (contract : AztecAddress) (slot : Fr) : CapsuleStore :=
  store.put contract slot none

/-- `array_slot`: `base_slot + 1 + index`, in the field. -/
def arraySlot (base : Fr) (index : Nat) : Fr := base + Fr.ofU64 (1 + index)

/-- The length an array's base slot holds. -/
def arrayLength (store : CapsuleStore) (contract : AztecAddress) (base : Fr) : Nat :=
  (((store.loadCapsule contract base).bind List.head?).getD 0).toUsize

/-- `CapsuleStore::append_to_capsule_array`. -/
def appendToCapsuleArray (store : CapsuleStore) (contract : AztecAddress) (base : Fr)
    (content : List (List Fr)) : CapsuleStore :=
  let currentLength := store.arrayLength contract base
  let store := content.zipIdx.foldl (fun store entry =>
    store.storeCapsule contract (arraySlot base (currentLength + entry.2)) entry.1) store
  store.storeCapsule contract base [Fr.ofU64 (currentLength + content.length)]

/-- `CapsuleStore::read_capsule_array`. -/
def readCapsuleArray (store : CapsuleStore) (contract : AztecAddress) (base : Fr) :
    Except Error (List (List Fr)) :=
  (List.range (store.arrayLength contract base)).mapM (fun i =>
    match store.loadCapsule contract (arraySlot base i) with
    | some value => .ok value
    | none => .error (.invalidData ("expected non-empty capsule array value at slot " ++
        hex32 (arraySlot base i).val ++ " for contract " ++ hex32 contract.inner.val)))

/-- `CapsuleStore::set_capsule_array`. -/
def setCapsuleArray (store : CapsuleStore) (contract : AztecAddress) (base : Fr)
    (content : List (List Fr)) : CapsuleStore :=
  let originalLength := store.arrayLength contract base
  let store := store.storeCapsule contract base [Fr.ofU64 content.length]
  let store := content.zipIdx.foldl (fun store entry =>
    store.storeCapsule contract (arraySlot base entry.2) entry.1) store
  (List.range' content.length (originalLength - content.length)).foldl (fun store i =>
    store.deleteCapsule contract (arraySlot base i)) store

end CapsuleStore
end AztecPxe
