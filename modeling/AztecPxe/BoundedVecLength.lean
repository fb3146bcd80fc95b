import AztecPxe.AbiRoundTrip

/-! The length of a `BoundedVec` given as its struct. The decoder cuts the items off at the length
it reads. The encoder takes the items of the storage and writes how many they are; the `len` beside
them is never read. -/
namespace AztecPxe.AbiCodec
open AztecPxe Abi

/-- A length, given as an integer or as a field. -/
def lengthOf : AbiValue → Option Nat
  | .integer i => if 0 ≤ i then some i.toNat else none
  | .field f => some f.val
  | _ => none

/-- The struct value of a bounded vector of length `len` over a storage that holds these items. -/
structure IsBoundedVec (map : List (String × AbiValue)) (items : List AbiValue) (len : Nat) :
    Prop where
  storage : map.lookup "storage" = some (.array items)
  length : ∃ value, map.lookup "len" = some value ∧ lengthOf value = some len
  fits : len ≤ items.length

section Shape
variable {name : String} {members : List AbiParameter}

/-- A name has one last character. -/
theorem endsWith_apart {tail other : String} (ends : AbiType.endsWith name tail = true)
    (some_tail : tail.toList ≠ []) (some_other : other.toList ≠ [])
    (apart : tail.toList.getLast? ≠ other.toList.getLast?) :
    AbiType.endsWith name other = false := by
  rw [Bool.eq_false_iff]
  intro also
  obtain ⟨front, first⟩ := List.isSuffixOf_iff_suffix.mp ends
  obtain ⟨front', second⟩ := List.isSuffixOf_iff_suffix.mp also
  have last := congrArg List.getLast? (first.trans second.symm)
  rw [List.getLast?_append_of_ne_nil _ some_tail, List.getLast?_append_of_ne_nil _ some_other]
    at last
  exact apart last

/-- No other special shape goes with the name and members of a bounded vector. -/
theorem structShape_boundedVec
    (bounded : (AbiType.struct name members).isBoundedVecStruct = true) :
    structShape name members = .boundedVec := by
  have ends : AbiType.endsWith name "bounded_vec::BoundedVec" = true := by
    unfold AbiType.isBoundedVecStruct at bounded
    split at bounded
    next same =>
      cases same
      exact bounded
    next => cases bounded
  have unwrapped : (AbiType.struct name members).isWrappedFieldStruct = false := by
    rw [Bool.eq_false_iff]
    intro wrapped
    obtain ⟨⟨p, q, two⟩, -⟩ := isBoundedVec_two bounded
    obtain ⟨visibility, one⟩ := isWrapped_inner wrapped
    cases two.symm.trans one
  have aztec : (AbiType.struct name members).isAztecAddressStruct = false :=
    endsWith_apart ends (by decide) (by decide) (by decide)
  have eth : (AbiType.struct name members).isEthAddressStruct = false :=
    endsWith_apart ends (by decide) (by decide) (by decide)
  have selector : (AbiType.struct name members).isFunctionSelectorStruct = false :=
    endsWith_apart ends (by decide) (by decide) (by decide)
  simp [structShape, AbiType.isAddressStruct, aztec, eth, selector, unwrapped, bounded]

end Shape

section Encoding
variable {t : AbiType} {map : List (String × AbiValue)} {items : List AbiValue} {len : Nat}
  {out : List Fr}

/-- Only bounded vectors with an array for their storage are encoded. -/
theorem boundedVec_of_encoded {value : AbiValue} (bounded : t.isBoundedVecStruct = true)
    (done : encodeValue t value = .ok out) :
    ∃ name p q element maxLen, t = .struct name [p, q] ∧ p.typ = .array element maxLen ∧
      structShape name [p, q] = .boundedVec ∧
      encodeBoundedVec (encodeValue element) element.size maxLen value = .ok out := by
  cases t with
  | struct name members =>
    have shape := structShape_boundedVec bounded
    cases structEncoded done with
    | boundedVec _ p q element maxLen two storage written =>
      subst two
      exact ⟨name, p, q, element, maxLen, rfl, storage, shape, written⟩
    | address other | selector other | wrapped other | option other | plain other =>
      cases shape.symm.trans other
  | _ => cases bounded

theorem boundedVecItems_struct (given : IsBoundedVec map items len) :
    boundedVecItems (.struct map) = .ok items := by
  simp [boundedVecItems, given.storage]

/-- The last field is the number of items in the storage. -/
theorem getLast_encoded (bounded : t.isBoundedVecStruct = true)
    (given : IsBoundedVec map items len) (done : encodeValue t (.struct map) = .ok out) :
    out.getLast? = some (Fr.ofU64 items.length) := by
  obtain ⟨-, -, -, element, maxLen, -, -, -, done⟩ := boundedVec_of_encoded bounded done
  obtain ⟨found, first, listed, -, -, rfl⟩ := encodeBoundedVec_eq_ok done
  rw [boundedVecItems_struct given] at listed
  cases listed
  exact List.getLast?_concat

/-- The struct stands for the array of all items of its storage. -/
theorem represent_struct (bounded : t.isBoundedVecStruct = true)
    (given : IsBoundedVec map items len) (done : encodeValue t (.struct map) = .ok out) :
    represent t (.struct map) = represent t (.array items) := by
  obtain ⟨name, ⟨_, typ, _⟩, q, element, maxLen, rfl, storage, shape, -⟩ :=
    boundedVec_of_encoded bounded done
  cases storage
  have items_struct : itemsOf (.struct map) = items := by
    unfold itemsOf
    rw [boundedVecItems_struct given]
    rfl
  have items_array : itemsOf (.array items) = items := rfl
  unfold represent
  simp only [shape, items_struct, items_array]

end Encoding

/-- A bounded vector of four fields. -/
private def fourFields : AbiType :=
  .struct "std::collections::bounded_vec::BoundedVec"
    [⟨"storage", .array .field 4, none⟩, ⟨"len", .integer "unsigned" 32, none⟩]

/-- Two items as a contract returns them, in a storage of four. -/
private def twoOfFour : List (String × AbiValue) :=
  [("len", .integer 2), ("storage", .array [.field 7, .field 8, .field 0, .field 0])]

/-- Four items in a storage of four. -/
private def fourOfFour : List (String × AbiValue) :=
  [("len", .integer 4), ("storage", .array [.field 7, .field 8, .field 0, .field 0])]

end AztecPxe.AbiCodec
