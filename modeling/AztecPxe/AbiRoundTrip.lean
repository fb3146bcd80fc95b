import AztecPxe.AbiSizes
import AztecPxe.HexText

/-! What the decoder makes of an encoding. `represent` says which decoded value stands
for a given one: options stand for their content, so nothing tells `Some(None)` from
`None`; addresses, selectors and bounded vectors have their own forms. On regular types
decoding an encoding gives what represents the value. -/
namespace AztecPxe.AbiCodec
open AztecPxe Abi HexText

/-! ## The values a decoding stands for -/

/-- An integer in the range of its declared sign and width, and of `i128`. -/
def InRange (sign : String) (width : Nat) (i : Int) : Prop :=
  (-2 ^ 127 ≤ i ∧ i < 2 ^ 127) ∧
    if sign = "signed" then -2 ^ (width - 1) ≤ i ∧ i < 2 ^ (width - 1) else 0 ≤ i ∧ i < 2 ^ width

/-- The field of an address or of a wrapped field, given bare or in its struct. -/
def wrappedField : AbiValue → Fr
  | .field f => f
  | .struct map => match (map.lookup "inner").or (map.lookup "address") with
    | some (.field f) => f
    | _ => 0
  | _ => 0

/-- The content of a selector, given bare or in its struct. -/
def selectorValue : AbiValue → AbiValue
  | .struct map => ((map.lookup "value").or (map.lookup "inner")).getD (.struct map)
  | value => value

/-- The items of a bounded vector. -/
def itemsOf (value : AbiValue) : List AbiValue := (boundedVecItems value).toOption.getD []

/-- The content of an option, given bare or in its struct. -/
def optionValue : AbiValue → AbiValue
  | .struct map => (map.lookup "_value").getD (.struct map)
  | value => value

/-- The option is given as none. -/
def isNone : AbiValue → Bool
  | .struct map => match map.lookup "_is_some" with
    | some (.boolean flag) => !flag
    | _ => false
  | _ => false

/-- The members of a struct value. -/
def membersOf : AbiValue → List (String × AbiValue)
  | .struct map => map
  | _ => []

/-- The one member of a selector, of this type. -/
def representSelector : AbiType → AbiValue → AbiDecoded
  | .integer _ _, .integer i => .integer i
  | .integer _ _, .field f => .integer f.val
  | _, .integer i => .field (Fr.ofU64 i.toNat)
  | _, .field f => .field f
  | _, _ => .none

mutual

/-- The decoded value that stands for a value of this type. -/
def represent : AbiType → AbiValue → AbiDecoded
  | .field, .field f => .field f
  | .boolean, .boolean flag => .boolean flag
  | .integer _ _, .integer i => .integer i
  | .integer _ _, .field f => .integer f.val
  | .string _, .string text => .string text
  | .array element _, .array items => .array (items.map (represent element))
  | .tuple elements, .tuple values => .tuple (representElements elements values)
  | .struct name members, value => match members, structShape name members with
    | members, .address =>
      if (AbiType.struct name members).isAztecAddressStruct then .address ⟨wrappedField value⟩
      else .field (wrappedField value)
    | [⟨name, t, _⟩], .selector => .struct [(name, representSelector t (selectorValue value))]
    | _, .wrapped => .struct [("inner", .field (wrappedField value))]
    | [⟨_, .array element _, _⟩, _], .boundedVec => .array ((itemsOf value).map (represent element))
    | [_, ⟨_, inner, _⟩], .option =>
      if isNone value then .none else represent inner (optionValue value)
    | members, _ => .struct (representMembers members (membersOf value) [])
  | _, _ => .none

/-- Values one by one, each at its type. -/
def representElements : List AbiType → List AbiValue → List AbiDecoded
  | t :: types, value :: values => represent t value :: representElements types values
  | _, _ => []

/-- The members of the type in the order of their names, added to a map. -/
def representMembers : List (Parameter AbiType) → List (String × AbiValue) →
    List (String × AbiDecoded) → List (String × AbiDecoded)
  | [], _, map => map
  | ⟨name, t, _⟩ :: rest, values, map =>
    representMembers rest values
      (insertMember name (represent t ((values.lookup name).getD (.tuple []))) map)

end

/-- The content of a selector is in the range of its type, or of `u64`. -/
def SoundSelector : AbiType → AbiValue → Prop
  | .integer sign width, .integer i => InRange sign width i ∧ 0 ≤ i ∧ i < 2 ^ 64
  | .integer sign width, .field f => InRange sign width f.val
  | _, .integer i => 0 ≤ i ∧ i < 2 ^ 64
  | _, _ => True

mutual

/-- Every integer is in the range of its type, and every string is of ASCII characters
other than the zero character. -/
def Sound : AbiType → AbiValue → Prop
  | .integer sign width, .integer i => InRange sign width i
  | .integer sign width, .field f => InRange sign width f.val
  | .string _, .string text => ∀ c ∈ text.toList, 0 < c.toNat ∧ c.toNat < 128
  | .array element _, .array items => ∀ item ∈ items, Sound element item
  | .tuple elements, .tuple values => SoundElements elements values
  | .struct name members, value => match members, structShape name members with
    | _, .address => True
    | [⟨_, t, _⟩], .selector => SoundSelector t (selectorValue value)
    | _, .wrapped => True
    | [⟨_, .array element _, _⟩, _], .boundedVec => ∀ item ∈ itemsOf value, Sound element item
    | [_, ⟨_, inner, _⟩], .option => Sound inner (optionValue value)
    | members, _ => SoundMembers members (membersOf value)
  | _, _ => True

/-- The same for values one by one. -/
def SoundElements : List AbiType → List AbiValue → Prop
  | t :: types, value :: values => Sound t value ∧ SoundElements types values
  | _, _ => True

/-- The same for the members of the type. -/
def SoundMembers : List (Parameter AbiType) → List (String × AbiValue) → Prop
  | [], _ => True
  | ⟨name, t, _⟩ :: rest, values =>
    Sound t ((values.lookup name).getD (.tuple [])) ∧ SoundMembers rest values

end

mutual

/-- The size of a type without the wrapping of `usize`. -/
def fieldCount : AbiType → Nat
  | .field | .boolean | .integer _ _ => 1
  | .string length => length
  | .array element length => length * fieldCount element
  | .struct _ members => memberCounts members
  | .tuple elements => elementCounts elements

/-- The sum over a list of types. -/
def elementCounts : List AbiType → Nat
  | [] => 0
  | t :: rest => fieldCount t + elementCounts rest

/-- The sum over the members of a struct. -/
def memberCounts : List (Parameter AbiType) → Nat
  | [] => 0
  | ⟨_, t, _⟩ :: rest => fieldCount t + memberCounts rest

end

/-- The special structs are as the compiler declares them: an address is one field, a
selector one field or integer, the flag of an option a boolean, and a bounded vector an
array with a length of one field. -/
structure StructRegular (name : String) (members : List AbiParameter) : Prop where
  address : structShape name members = .address → ∃ p, members = [p] ∧ fieldCount p.typ = 1
  selector : structShape name members = .selector → ∃ p, members = [p] ∧
    (p.typ = .field ∨ ∃ sign width, p.typ = .integer sign width)
  isSome : structShape name members = .option → ∀ p q, members = [p, q] → p.typ = .boolean
  storage : structShape name members = .boundedVec → ∀ p q, members = [p, q] →
    (∃ element maxLen, p.typ = .array element maxLen) ∧ fieldCount q.typ = 1

/-- A regular struct that is neither an address nor one of the two-member shapes is
decoded member by member. -/
theorem StructRegular.byMembers {name : String} {members : List AbiParameter}
    (regular : StructRegular name members) (unbounded : structShape name members ≠ .boundedVec)
    (present : structShape name members ≠ .option) (other : structShape name members ≠ .address) :
    (AbiType.struct name members).isBoundedVecStruct = false ∧
      (AbiType.struct name members).isOptionStruct = false := by
  have spec := structShape_spec name members
  cases kind : structShape name members with
  | address => exact absurd kind other
  | boundedVec => exact absurd kind unbounded
  | option => exact absurd kind present
  | selector =>
    obtain ⟨p, rfl, -⟩ := regular.selector kind
    simp [AbiType.isBoundedVecStruct, AbiType.isOptionStruct]
  | wrapped =>
    rw [kind] at spec
    obtain ⟨visibility, rfl⟩ := isWrapped_inner spec
    exact ⟨rfl, rfl⟩
  | plain =>
    rw [kind] at spec
    exact spec

theorem StructRegular.of_option {name : String} {p q : AbiParameter}
    (kind : structShape name [p, q] = .option) (flag : p.typ = .boolean) :
    StructRegular name [p, q] where
  address other := nomatch kind.symm.trans other
  selector other := nomatch kind.symm.trans other
  isSome _ p q same := by
    cases same
    exact flag
  storage other := nomatch kind.symm.trans other

theorem StructRegular.of_boundedVec {name : String} {p q : AbiParameter} {element : AbiType}
    {maxLen : Nat} (kind : structShape name [p, q] = .boundedVec)
    (storage : p.typ = .array element maxLen) (one : fieldCount q.typ = 1) :
    StructRegular name [p, q] where
  address other := nomatch kind.symm.trans other
  selector other := nomatch kind.symm.trans other
  isSome other := nomatch kind.symm.trans other
  storage _ p q same := by
    cases same
    exact ⟨⟨element, maxLen, storage⟩, one⟩

/-- Every special struct in the type is regular. -/
def Regular (t : AbiType) : Prop := EveryStruct StructRegular t

/-! ## Scalars -/

theorem frOfU128_val (n : Int) : (frOfU128 n).val = (n % 2 ^ 128).toNat := by
  unfold frOfU128
  apply Nat.mod_eq_of_lt
  unfold frModulus
  omega

theorem asI128_of_small {n : Int} (low : -2 ^ 127 ≤ n) (high : n < 2 ^ 127) : asI128 n = n := by
  unfold asI128
  rw [Int.bmod_eq_of_le] <;> omega

theorem asI128_of_large {n : Int} (low : 2 ^ 127 ≤ n) (high : n < 2 ^ 128) :
    asI128 n = n - 2 ^ 128 := by
  have remainder : n % ((2 ^ 128 : Nat) : Int) = n :=
    Int.emod_eq_of_lt (by omega) (by push_cast; exact high)
  unfold asI128 Int.bmod
  dsimp only
  rw [remainder, if_neg (by push_cast; omega)]
  norm_num

/-- A field that holds a number of the range of its type is read as that number. -/
theorem decodeInteger_of_val {sign : String} {width : Nat} {fr : Fr} (positive : width ≠ 0)
    (range : InRange sign width fr.val) : decodeInteger sign width fr = fr.val := by
  obtain ⟨⟨-, high⟩, range⟩ := range
  have raw : ((fr.val : Int) % 2 ^ 128) = fr.val := Int.emod_eq_of_lt (by omega) (by omega)
  unfold decodeInteger
  dsimp only
  rw [raw, asI128_of_small (by omega) high]
  split
  next signed =>
    rw [if_pos signed] at range
    split
    next => rfl
    next narrow =>
      have shift : (width + 65535) % 65536 % 128 = width - 1 := by omega
      rw [shift, if_neg (by omega)]
  next => rfl

/-- An integer of the range of its type is read back from its field. -/
theorem decodeInteger_encodeInteger {sign : String} {width : Nat} {i : Int} (positive : width ≠ 0)
    (range : InRange sign width i) : decodeInteger sign width (encodeInteger sign width i) = i := by
  by_cases negative : sign = "signed" ∧ i < 0
  · obtain ⟨signed, negative⟩ := negative
    obtain ⟨⟨low, -⟩, range⟩ := range
    rw [if_pos signed] at range
    have encoded : encodeInteger sign width i =
        if 128 ≤ width then frOfU128 i else frOfU128 (i + 2 ^ width) := if_pos ⟨signed, negative⟩
    rw [encoded]
    unfold decodeInteger
    dsimp only
    rw [if_pos signed]
    by_cases wide : 128 ≤ width
    · rw [if_pos wide, if_pos wide, frOfU128_val]
      have raw : (((i % 2 ^ 128).toNat : Int) % 2 ^ 128) = i + 2 ^ 128 := by omega
      rw [raw, asI128_of_large (by omega) (by omega)]
      omega
    · -- The number below `2 ^ width` that the negative one stands for.
      have half : (2 : Int) ^ width = 2 * 2 ^ (width - 1) := by
        rw [← pow_succ', Nat.sub_add_cancel (by omega)]
      have bound : (2 : Int) ^ (width - 1) ≤ 2 ^ 126 := pow_le_pow_right₀ (by norm_num) (by omega)
      have shift : (width + 65535) % 65536 % 128 = width - 1 := by omega
      rw [if_neg wide, if_neg wide, frOfU128_val, shift]
      have raw : (((i + 2 ^ width) % 2 ^ 128).toNat : Int) % 2 ^ 128 = i + 2 ^ width := by omega
      have read : asI128 (i + 2 ^ width) = i + 2 ^ width := asI128_of_small (by omega) (by omega)
      rw [raw, if_pos (by omega), read, Int.add_sub_cancel, asI128_of_small low (by omega)]
  · have natural : 0 ≤ i := by
      by_contra below
      obtain ⟨-, range⟩ := range
      split at range
      next signed => exact negative ⟨signed, by omega⟩
      next => omega
    have value : ((encodeInteger sign width i).val : Int) = i := by
      unfold encodeInteger
      rw [if_neg negative, frOfU128_val]
      have high := range.1.2
      omega
    rw [← value] at range
    rw [decodeInteger_of_val positive range, value]

/-! ## Reading what was written -/

/-- These fields are in the list from this place on. -/
def Held (fields : List Fr) (cursor : Nat) (out : List Fr) : Prop :=
  ∃ rest, fields.drop cursor = out ++ rest

section Held
variable {fields : List Fr} {cursor : Nat}

theorem Held.left {out more : List Fr} (held : Held fields cursor (out ++ more)) :
    Held fields cursor out := by
  obtain ⟨rest, same⟩ := held
  exact ⟨more ++ rest, by rw [same, List.append_assoc]⟩

theorem Held.right {out more : List Fr} (held : Held fields cursor (out ++ more)) :
    Held fields (cursor + out.length) more := by
  obtain ⟨rest, same⟩ := held
  refine ⟨rest, ?_⟩
  rw [← List.drop_drop, same, List.append_assoc, List.drop_left]

theorem take_of_held {fr : Fr} {rest : List Fr} (held : Held fields cursor (fr :: rest)) :
    take fields cursor = .ok (fr, cursor + 1) := by
  obtain ⟨more, same⟩ := held
  have found : fields[cursor + 0]? = some fr := by
    rw [← List.getElem?_drop, same]
    rfl
  rw [Nat.add_zero] at found
  unfold take
  rw [found]

theorem decodeNext_field_of_held {fr : Fr} (held : Held fields cursor [fr]) :
    decodeNext .field fields cursor = .ok (.field fr, cursor + 1) := by
  unfold decodeNext
  rw [take_of_held held]
  rfl

theorem decodeNext_integer_of_held {sign : String} {width : Nat} {fr : Fr}
    (held : Held fields cursor [fr]) :
    decodeNext (.integer sign width) fields cursor =
      .ok (.integer (decodeInteger sign width fr), cursor + 1) := by
  unfold decodeNext
  rw [take_of_held held]
  rfl

theorem skip_of_held {out : List Fr} (held : Held fields cursor out) :
    skip fields out.length cursor = .ok (cursor + out.length) := by
  induction out generalizing cursor with
  | nil => rfl
  | cons fr rest ih =>
    have later : Held fields (cursor + 1) rest := @Held.right fields cursor [fr] rest held
    rw [List.length_cons, skip, take_of_held held, ok_bind]
    dsimp only
    rw [ih later, Nat.add_assoc, Nat.add_comm 1]

end Held

/-- The bytes of a string that has no zero among them are read up to the padding. -/
theorem decodeChars_of_held {fields : List Fr} {cursor : Nat} {chars : List Char} {padding : Nat}
    (ascii : ∀ c ∈ chars, 0 < c.toNat ∧ c.toNat < 128)
    (held : Held fields cursor (chars.map (fun c => Fr.ofU64 (UInt8.ofNat c.toNat).toNat) ++
      List.replicate padding 0)) :
    decodeChars fields (chars.length + padding) cursor =
      .ok (chars, cursor + (chars.length + padding)) := by
  induction chars generalizing cursor with
  | nil =>
    rw [List.length_nil, Nat.zero_add]
    cases padding with
    | zero => rfl
    | succ padding =>
      have zeros : Held fields cursor ([0] ++ List.replicate padding 0) := held
      have skipped := skip_of_held zeros.right
      rw [List.length_replicate, List.length_singleton] at skipped
      rw [decodeChars, take_of_held zeros, ok_bind]
      dsimp only
      rw [if_pos (by decide), skipped, ok_bind, Nat.add_assoc, Nat.add_comm 1]
      rfl
  | cons c rest ih =>
    obtain ⟨positive, small⟩ := ascii c List.mem_cons_self
    have byte : (Fr.ofU64 (UInt8.ofNat c.toNat).toNat).toUsize % 256 = c.toNat := by
      have same : (UInt8.ofNat c.toNat).toNat = c.toNat := by
        rw [UInt8.toNat_ofNat']
        omega
      rw [same, Fr.toUsize_ofU64 (by omega)]
      omega
    have later := @ih (cursor + 1) (fun c inside => ascii c (List.mem_cons_of_mem _ inside))
      (@Held.right fields cursor [_] _ held)
    rw [List.length_cons, Nat.add_right_comm, decodeChars, take_of_held held, ok_bind]
    dsimp only
    rw [byte, if_neg (Nat.ne_of_gt positive), later, ok_bind, Char.ofNat_toNat, Nat.add_assoc,
      Nat.add_comm 1]
    rfl

/-! ## Sizes that do not wrap -/

theorem size_eq_fieldCount {t : AbiType} (fits : fieldCount t < 2 ^ 64) : t.size = fieldCount t := by
  induction t using AbiType.memberInduction with
  | field => rfl
  | boolean => rfl
  | integer sign width => rfl
  | string length => exact Nat.mod_eq_of_lt fits
  | array element length ih =>
    unfold fieldCount at fits ⊢
    rw [AbiType.size]
    rcases Nat.eq_zero_or_pos length with rfl | positive
    · rw [Nat.zero_mul, Nat.zero_mul]
      rfl
    · have small : fieldCount element < 2 ^ 64 :=
        Nat.lt_of_le_of_lt (Nat.le_mul_of_pos_left _ positive) fits
      rw [ih small, Nat.mod_eq_of_lt fits]
  | struct name members ih =>
    unfold fieldCount at fits ⊢
    rw [AbiType.size]
    induction members with
    | nil => rfl
    | cons p rest tail =>
      unfold memberCounts at fits ⊢
      unfold AbiType.memberSizes
      rw [ih p List.mem_cons_self (by omega),
        tail (fun p inside => ih p (List.mem_cons_of_mem _ inside)) (by omega), Nat.mod_eq_of_lt fits]
  | tuple elements ih =>
    unfold fieldCount at fits ⊢
    rw [AbiType.size]
    induction elements with
    | nil => rfl
    | cons t rest tail =>
      unfold elementCounts at fits ⊢
      unfold AbiType.sizes
      rw [ih t List.mem_cons_self (by omega),
        tail (fun t inside => ih t (List.mem_cons_of_mem _ inside)) (by omega), Nat.mod_eq_of_lt fits]

theorem memberCounts_one (p : AbiParameter) : memberCounts [p] = fieldCount p.typ := rfl

theorem memberCounts_two (p q : AbiParameter) :
    memberCounts [p, q] = fieldCount p.typ + fieldCount q.typ := rfl

theorem fieldCount_le_members {members : List AbiParameter} {p : AbiParameter} (inside : p ∈ members) :
    fieldCount p.typ ≤ memberCounts members := by
  induction members with
  | nil => cases inside
  | cons q rest ih =>
    unfold memberCounts
    rcases List.mem_cons.mp inside with rfl | inside
    · exact Nat.le_add_right _ _
    · exact (ih inside).trans (Nat.le_add_left _ _)

theorem fieldCount_le_elements {elements : List AbiType} {t : AbiType} (inside : t ∈ elements) :
    fieldCount t ≤ elementCounts elements := by
  induction elements with
  | nil => cases inside
  | cons u rest ih =>
    unfold elementCounts
    rcases List.mem_cons.mp inside with rfl | inside
    · exact Nat.le_add_right _ _
    · exact (ih inside).trans (Nat.le_add_left _ _)

/-! ## Padding

The decoder reads a bounded vector's padding as elements too, and drops them. Where
there are enough fields it gets through any regular type. -/

/-- A decoding that succeeds wherever this many fields are left, and moves over them. -/
def Passes {α : Type} (fields : List Fr) (decode : Nat → Except Error (α × Nat)) (n : Nat) : Prop :=
  ∀ cursor, cursor + n ≤ fields.length → ∃ value, decode cursor = .ok (value, cursor + n)

section Passing
variable {fields : List Fr}

theorem take_passes {cursor : Nat} (room : cursor + 1 ≤ fields.length) :
    ∃ fr, take fields cursor = .ok (fr, cursor + 1) := by
  unfold take
  rw [List.getElem?_eq_getElem (Nat.lt_of_succ_le room)]
  exact ⟨_, rfl⟩

theorem skip_passes {n cursor : Nat} (room : cursor + n ≤ fields.length) :
    skip fields n cursor = .ok (cursor + n) := by
  induction n generalizing cursor with
  | zero => rfl
  | succ n ih =>
    obtain ⟨fr, taken⟩ := take_passes (show cursor + 1 ≤ fields.length by omega)
    rw [skip, taken, ok_bind]
    dsimp only
    rw [ih (by omega), Nat.add_assoc, Nat.add_comm 1]

theorem decodeChars_passes (n : Nat) : Passes fields (decodeChars fields n) n := by
  induction n with
  | zero => exact fun cursor _ => ⟨[], rfl⟩
  | succ n ih =>
    intro cursor room
    obtain ⟨fr, taken⟩ := take_passes (show cursor + 1 ≤ fields.length by omega)
    have next : cursor + (n + 1) = cursor + 1 + n := by omega
    rw [decodeChars, taken, ok_bind]
    dsimp only
    split
    · rw [skip_passes (by omega), ok_bind, next]
      exact ⟨_, rfl⟩
    · obtain ⟨chars, read⟩ := ih (cursor + 1) (by omega)
      rw [read, ok_bind, next]
      exact ⟨_, rfl⟩

theorem decodeItems_passes {α : Type} {decode : Nat → Except Error (α × Nat)} {n : Nat}
    (count : Nat) (passes : 0 < count → Passes fields decode n) :
    Passes fields (decodeItems decode count) (count * n) := by
  induction count with
  | zero =>
    intro cursor _
    rw [Nat.zero_mul]
    exact ⟨[], rfl⟩
  | succ count ih =>
    intro cursor room
    rw [Nat.succ_mul] at room
    have next : cursor + (count + 1) * n = cursor + n + count * n := by
      rw [Nat.succ_mul]
      omega
    obtain ⟨item, first⟩ := passes (Nat.succ_pos count) cursor (by omega)
    obtain ⟨items, later⟩ := ih (fun _ => passes (Nat.succ_pos count)) (cursor + n) (by omega)
    rw [decodeItems, first, ok_bind]
    dsimp only
    rw [later, ok_bind, next]
    exact ⟨_, rfl⟩

theorem decodeElements_passes {types : List AbiType}
    (each : ∀ t ∈ types, Passes fields (decodeNext t fields) (fieldCount t)) :
    Passes fields (decodeElements types fields) (elementCounts types) := by
  induction types with
  | nil => exact fun cursor _ => ⟨[], rfl⟩
  | cons t types ih =>
    intro cursor room
    unfold elementCounts at room ⊢
    obtain ⟨item, first⟩ := each t List.mem_cons_self cursor (by omega)
    obtain ⟨items, later⟩ := ih (fun t inside => each t (List.mem_cons_of_mem _ inside))
      (cursor + fieldCount t) (by omega)
    unfold decodeElements
    rw [first, ok_bind]
    dsimp only
    rw [later, ok_bind, Nat.add_assoc]
    exact ⟨_, rfl⟩

theorem decodeMembers_passes {members : List AbiParameter}
    (each : ∀ p ∈ members, Passes fields (decodeNext p.typ fields) (fieldCount p.typ))
    (map : List (String × AbiDecoded)) :
    Passes fields (decodeMembers members map fields) (memberCounts members) := by
  induction members generalizing map with
  | nil => exact fun cursor _ => ⟨map, rfl⟩
  | cons p rest ih =>
    intro cursor room
    unfold memberCounts at room ⊢
    obtain ⟨item, first⟩ := each p List.mem_cons_self cursor (by omega)
    obtain ⟨map', later⟩ := ih (fun p inside => each p (List.mem_cons_of_mem _ inside))
      (insertMember p.name item map) (cursor + fieldCount p.typ) (by omega)
    unfold decodeMembers
    rw [first, ok_bind]
    dsimp only
    rw [later, Nat.add_assoc]
    exact ⟨_, rfl⟩

theorem boundedVec_passes {element : AbiType} {maxLen : Nat}
    (passes : 0 < maxLen → Passes fields (decodeNext element fields) (fieldCount element)) :
    Passes fields (fun cursor => do
      let (items, cursor) ← decodeItems (decodeNext element fields) maxLen cursor
      let (len, cursor) ← take fields cursor
      return (AbiDecoded.array (items.take len.toUsize), cursor))
      (maxLen * fieldCount element + 1) := by
  intro cursor room
  obtain ⟨items, read⟩ := decodeItems_passes maxLen passes cursor (by omega)
  obtain ⟨len, taken⟩ := take_passes (show cursor + maxLen * fieldCount element + 1 ≤ fields.length by
    omega)
  beta_reduce
  rw [read, ok_bind]
  dsimp only
  rw [taken]
  exact ⟨_, rfl⟩

theorem option_passes {inner : AbiType} (fits : fieldCount inner < 2 ^ 64)
    (passes : Passes fields (decodeNext inner fields) (fieldCount inner)) :
    Passes fields (fun cursor => do
      let (isSome, cursor) ← take fields cursor
      if isSome = 0 then do
        let cursor ← skip fields inner.size cursor
        return (AbiDecoded.none, cursor)
      else decodeNext inner fields cursor) (1 + fieldCount inner) := by
  intro cursor room
  obtain ⟨flag, taken⟩ := take_passes (show cursor + 1 ≤ fields.length by omega)
  beta_reduce
  rw [taken, ok_bind, ← Nat.add_assoc]
  dsimp only
  split
  · rw [size_eq_fieldCount fits, skip_passes (by omega)]
    exact ⟨_, rfl⟩
  · exact passes (cursor + 1) (by omega)

/-- The decoder gets through every regular type. -/
theorem decodeNext_passes {t : AbiType} (regular : Regular t) (fits : fieldCount t < 2 ^ 64) :
    Passes fields (decodeNext t fields) (fieldCount t) := by
  induction t with
  | field | boolean | integer =>
    intro cursor room
    obtain ⟨fr, taken⟩ := take_passes room
    unfold decodeNext
    rw [taken]
    exact ⟨_, rfl⟩
  | string length =>
    intro cursor room
    obtain ⟨chars, read⟩ := decodeChars_passes length cursor room
    unfold decodeNext
    rw [read]
    exact ⟨_, rfl⟩
  | array element length ih =>
    intro cursor room
    obtain ⟨items, read⟩ := decodeItems_passes length
      (fun positive => ih regular ((Nat.le_mul_of_pos_left _ positive).trans_lt fits)) cursor room
    unfold decodeNext
    rw [read]
    exact ⟨_, rfl⟩
  | tuple elements ih =>
    intro cursor room
    obtain ⟨items, read⟩ := decodeElements_passes (fun t inside => ih t inside
      (everyInElements_iff.mp regular t inside)
      ((fieldCount_le_elements inside).trans_lt fits)) cursor room
    unfold decodeNext
    rw [read]
    exact ⟨_, rfl⟩
  | struct name members ih storageIh =>
    intro cursor room
    obtain ⟨shape, deep⟩ := regular
    replace fits : memberCounts members < 2 ^ 64 := fits
    replace room : cursor + memberCounts members ≤ fields.length := room
    have each : ∀ p ∈ members, Passes fields (decodeNext p.typ fields) (fieldCount p.typ) :=
      fun p inside => ih p inside (everyInMembers_iff.mp deep p inside)
        ((fieldCount_le_members inside).trans_lt fits)
    have spec := structShape_spec name members
    change ∃ value, _ = Except.ok (value, cursor + memberCounts members)
    cases kind : structShape name members with
    | address =>
      rw [kind] at spec
      obtain ⟨p, rfl, one⟩ := shape.address kind
      rw [memberCounts_one, one] at room ⊢
      obtain ⟨fr, taken⟩ := take_passes room
      rw [decodeNext_address fields cursor spec, taken]
      exact ⟨_, rfl⟩
    | selector | wrapped | plain =>
      obtain ⟨unbounded, plain⟩ := shape.byMembers (by simp [kind]) (by simp [kind])
        (by simp [kind])
      obtain ⟨map, read⟩ := decodeMembers_passes each [] cursor room
      rw [decodeNext_members fields cursor (not_address_of_shape (by simp [kind])) unbounded plain, read]
      exact ⟨_, rfl⟩
    | boundedVec =>
      rw [kind] at spec
      obtain ⟨⟨p, q, rfl⟩, -⟩ := isBoundedVec_two spec
      obtain ⟨⟨element, maxLen, storage⟩, one⟩ := shape.storage kind p q rfl
      have count : memberCounts [p, q] = maxLen * fieldCount element + 1 := by
        rw [memberCounts_two, storage, one]
        rfl
      rw [count] at fits room ⊢
      have regular : Regular element := everyStruct_storage deep (by simp) storage
      rw [decodeNext_boundedVec fields cursor (not_address_of_shape (by simp [kind])) spec storage]
      exact boundedVec_passes (fun positive => storageIh p (by simp) element maxLen storage regular
        ((Nat.le_mul_of_pos_left _ positive).trans_lt (Nat.lt_of_succ_lt fits))) cursor room
    | option =>
      rw [kind] at spec
      obtain ⟨p, q, rfl⟩ := isOption_two spec
      have count : memberCounts [p, q] = 1 + fieldCount q.typ := by
        rw [memberCounts_two, shape.isSome kind p q rfl]
        rfl
      rw [count] at fits room ⊢
      rw [decodeNext_option fields cursor (not_address_of_shape (by simp [kind])) spec]
      exact option_passes (by omega) (each q (by simp)) cursor room

end Passing

/-! ## Types that pass validation -/

/-- `validate_abi_type` finds nothing wrong with the type. -/
def Accepted (t : AbiType) : Prop := ∃ path, t.validate path = []

theorem accepted_element {element : AbiType} {length : Nat}
    (accepted : Accepted (.array element length)) : Accepted element := by
  obtain ⟨path, valid⟩ := accepted
  unfold AbiType.validate at valid
  exact ⟨_, (List.append_eq_nil_iff.mp valid).2⟩

theorem accepted_member {name : String} {members : List AbiParameter}
    (accepted : Accepted (.struct name members)) {p : AbiParameter} (inside : p ∈ members) :
    Accepted p.typ := by
  obtain ⟨path, valid⟩ := accepted
  unfold AbiType.validate at valid
  have members_valid := (List.append_eq_nil_iff.mp valid).2
  clear valid
  induction members with
  | nil => cases inside
  | cons q rest ih =>
    unfold AbiType.validateMembers at members_valid
    obtain ⟨first, later⟩ := List.append_eq_nil_iff.mp members_valid
    rcases List.mem_cons.mp inside with rfl | inside
    · exact ⟨_, first⟩
    · exact ih inside later

theorem accepted_tuple {elements : List AbiType} (accepted : Accepted (.tuple elements))
    {t : AbiType} (inside : t ∈ elements) : Accepted t := by
  obtain ⟨path, valid⟩ := accepted
  unfold AbiType.validate at valid
  have elements_valid := (List.append_eq_nil_iff.mp valid).2
  clear valid
  generalize 0 = i at elements_valid
  induction elements generalizing i with
  | nil => cases inside
  | cons u rest ih =>
    unfold AbiType.validateElements at elements_valid
    obtain ⟨first, later⟩ := List.append_eq_nil_iff.mp elements_valid
    rcases List.mem_cons.mp inside with rfl | inside
    · exact ⟨_, first⟩
    · exact ih inside (i + 1) later

theorem accepted_width {sign : String} {width : Nat} (accepted : Accepted (.integer sign width)) :
    width ≠ 0 := by
  obtain ⟨path, valid⟩ := accepted
  rintro rfl
  cases valid

/-- A type that passes takes at least one field. -/
theorem fieldCount_pos {t : AbiType} (accepted : Accepted t) : 0 < fieldCount t := by
  induction t using AbiType.memberInduction with
  | field | boolean | integer => exact Nat.one_pos
  | string length =>
    obtain ⟨path, valid⟩ := accepted
    rcases Nat.eq_zero_or_pos length with rfl | positive
    · cases valid
    · exact positive
  | array element length ih =>
    have inner := ih (accepted_element accepted)
    obtain ⟨path, valid⟩ := accepted
    rcases Nat.eq_zero_or_pos length with rfl | positive
    · cases valid
    · exact Nat.mul_pos positive inner
  | struct name members ih =>
    cases members with
    | nil =>
      obtain ⟨path, valid⟩ := accepted
      unfold AbiType.validate at valid
      have empty := (List.append_eq_nil_iff.mp (List.append_eq_nil_iff.mp valid).1).2
      cases empty
    | cons p rest =>
      have first := ih p List.mem_cons_self (accepted_member accepted List.mem_cons_self)
      exact first.trans_le (fieldCount_le_members List.mem_cons_self)
  | tuple elements ih =>
    cases elements with
    | nil =>
      obtain ⟨path, valid⟩ := accepted
      cases valid
    | cons t rest =>
      have first := ih t List.mem_cons_self (accepted_tuple accepted List.mem_cons_self)
      exact first.trans_le (fieldCount_le_elements List.mem_cons_self)

/-! ## The round trip -/

/-- Every encoding of a sound value takes the fields of its type and is read back as
what represents the value. -/
def RoundTrips (t : AbiType) : Prop :=
  ∀ {value out}, encodeValue t value = .ok out → Sound t value → out.length = fieldCount t ∧
    ∀ {fields cursor}, Held fields cursor out →
      decodeNext t fields cursor = .ok (represent t value, cursor + fieldCount t)

/-- The encoding is as long as its type, and is read back as what represents the value. -/
def ReadsBack (t : AbiType) (value : AbiValue) (out : List Fr) : Prop :=
  out.length = fieldCount t ∧ ∀ {fields cursor}, Held fields cursor out →
    decodeNext t fields cursor = .ok (represent t value, cursor + fieldCount t)

theorem roundTrip_items {element : AbiType} (trips : RoundTrips element) {items : List AbiValue}
    {out : List Fr} (done : encodeItems (encodeValue element) items = .ok out)
    (sound : ∀ item ∈ items, Sound element item) :
    out.length = items.length * fieldCount element ∧ ∀ {fields cursor}, Held fields cursor out →
      decodeItems (decodeNext element fields) items.length cursor =
        .ok (items.map (represent element), cursor + items.length * fieldCount element) := by
  induction items generalizing out with
  | nil =>
    cases done
    simp only [List.length_nil, Nat.zero_mul]
    exact ⟨trivial, fun _ => rfl⟩
  | cons item rest ih =>
    obtain ⟨first, later, head, tail, rfl⟩ := encodeItems_cons done
    obtain ⟨firstLength, firstRead⟩ := trips head (sound item List.mem_cons_self)
    obtain ⟨laterLength, laterRead⟩ :=
      ih tail (fun item inside => sound item (List.mem_cons_of_mem _ inside))
    rw [List.length_cons, Nat.succ_mul, Nat.add_comm (rest.length * _)]
    refine ⟨by rw [List.length_append, firstLength, laterLength], ?_⟩
    intro fields cursor held
    have heldLater := held.right
    rw [firstLength] at heldLater
    rw [decodeItems, firstRead held.left, ok_bind]
    dsimp only
    rw [laterRead heldLater, ok_bind, Nat.add_assoc]
    rfl

theorem roundTrip_elements {types : List AbiType} (trips : ∀ t ∈ types, RoundTrips t)
    {values : List AbiValue} (paired : types.length = values.length) {out : List Fr}
    (done : encodeElements types values = .ok out) (sound : SoundElements types values) :
    out.length = elementCounts types ∧ ∀ {fields cursor}, Held fields cursor out →
      decodeElements types fields cursor =
        .ok (representElements types values, cursor + elementCounts types) := by
  induction types generalizing values out with
  | nil =>
    unfold encodeElements at done
    cases done
    exact ⟨rfl, fun _ => rfl⟩
  | cons t types ih =>
    obtain ⟨value, others, first, later, rfl, paired, head, tail, rfl⟩ :=
      encodeElements_cons paired done
    obtain ⟨firstLength, firstRead⟩ := trips t List.mem_cons_self head sound.1
    obtain ⟨laterLength, laterRead⟩ := ih (fun t inside => trips t (List.mem_cons_of_mem _ inside))
      paired tail sound.2
    refine ⟨by rw [List.length_append, firstLength, laterLength]; rfl, ?_⟩
    intro fields cursor held
    have heldLater := held.right
    rw [firstLength] at heldLater
    unfold decodeElements elementCounts representElements
    rw [firstRead held.left, ok_bind]
    dsimp only
    rw [laterRead heldLater, ok_bind, Nat.add_assoc]
    rfl

theorem roundTrip_members {members : List AbiParameter} (trips : ∀ p ∈ members, RoundTrips p.typ)
    {values : List (String × AbiValue)} {out : List Fr}
    (done : encodeMembers members values = .ok out) (sound : SoundMembers members values)
    (map : List (String × AbiDecoded)) :
    out.length = memberCounts members ∧ ∀ {fields cursor}, Held fields cursor out →
      decodeMembers members map fields cursor =
        .ok (representMembers members values map, cursor + memberCounts members) := by
  induction members generalizing out map with
  | nil =>
    cases done
    exact ⟨rfl, fun _ => rfl⟩
  | cons p rest ih =>
    obtain ⟨value, first, later, found, head, tail, rfl⟩ := encodeMembers_cons done
    obtain ⟨name, t, visibility⟩ := p
    unfold SoundMembers at sound
    rw [found, Option.getD_some] at sound
    obtain ⟨firstLength, firstRead⟩ := trips _ List.mem_cons_self head sound.1
    obtain ⟨laterLength, laterRead⟩ := ih (fun p inside => trips p (List.mem_cons_of_mem _ inside))
      tail sound.2 (insertMember name (represent t value) map)
    refine ⟨by rw [List.length_append, firstLength, laterLength]; rfl, ?_⟩
    intro fields cursor held
    have heldLater := held.right
    rw [firstLength] at heldLater
    unfold decodeMembers memberCounts representMembers
    rw [firstRead held.left, ok_bind, found, Option.getD_some]
    dsimp only
    rw [laterRead heldLater, Nat.add_assoc]

theorem decodeItems_add {α : Type} {decode : Nat → Except Error (α × Nat)}
    {m n cursor middle next : Nat} {first later : List α}
    (head : decodeItems decode m cursor = .ok (first, middle))
    (tail : decodeItems decode n middle = .ok (later, next)) :
    decodeItems decode (m + n) cursor = .ok (first ++ later, next) := by
  induction m generalizing cursor first with
  | zero =>
    cases head
    rw [Nat.zero_add]
    exact tail
  | succ m ih =>
    obtain ⟨⟨item, second⟩, read, head⟩ := bind_eq_ok.mp head
    obtain ⟨⟨items, third⟩, rest, head⟩ := bind_eq_ok.mp head
    cases head
    rw [Nat.succ_add, decodeItems, read, ok_bind]
    dsimp only
    rw [ih rest, ok_bind]
    rfl

theorem Held.fits {fields : List Fr} {cursor : Nat} {out : List Fr} (held : Held fields cursor out)
    (some_field : out ≠ []) : cursor + out.length ≤ fields.length := by
  obtain ⟨rest, same⟩ := held
  have length := congrArg List.length same
  rw [List.length_drop, List.length_append] at length
  have positive := List.length_pos_iff.mpr some_field
  omega

/-- The items of a bounded vector are read back, and what is read from the padding is
cut off. -/
theorem roundTrip_boundedVec {element : AbiType} {maxLen : Nat} (regular : Regular element)
    (positive : 0 < fieldCount element) (fits : maxLen * fieldCount element + 1 < 2 ^ 64)
    (trips : fieldCount element < 2 ^ 64 → RoundTrips element) {value : AbiValue} {out : List Fr}
    (done : encodeBoundedVec (encodeValue element) element.size maxLen value = .ok out)
    (sound : ∀ item ∈ itemsOf value, Sound element item) :
    out.length = maxLen * fieldCount element + 1 ∧ ∀ {fields cursor}, Held fields cursor out →
      (do
        let (items, cursor) ← decodeItems (decodeNext element fields) maxLen cursor
        let (len, cursor) ← take fields cursor
        return (AbiDecoded.array (items.take len.toUsize), cursor)) =
      .ok (.array ((itemsOf value).map (represent element)),
        cursor + (maxLen * fieldCount element + 1)) := by
  obtain ⟨items, first, given, room, head, rfl⟩ := encodeBoundedVec_eq_ok done
  have listed : itemsOf value = items := by
    unfold itemsOf
    rw [given]
    rfl
  rw [listed] at sound ⊢
  rcases Nat.eq_zero_or_pos maxLen with rfl | capacity
  · -- There is room for no item, so nothing but the length is written.
    have none_given : items = [] := List.eq_nil_of_length_eq_zero (by omega)
    subst none_given
    cases head
    simp only [List.length_nil, Nat.zero_mul, Nat.sub_self, Nat.zero_mod, List.replicate_zero,
      List.nil_append]
    refine ⟨rfl, fun held => ?_⟩
    rw [decodeItems, ok_bind]
    dsimp only
    rw [take_of_held held, ok_bind]
    rfl
  · have small : fieldCount element < 2 ^ 64 :=
      Nat.lt_of_le_of_lt (Nat.le_mul_of_pos_left _ capacity) (Nat.lt_of_succ_lt fits)
    obtain ⟨firstLength, firstRead⟩ := roundTrip_items (trips small) head sound
    have parts : maxLen * fieldCount element =
        items.length * fieldCount element + (maxLen - items.length) * fieldCount element := by
      rw [← Nat.add_mul, Nat.add_sub_cancel' (not_lt.mp room)]
    have padding : (maxLen - items.length) * element.size % 2 ^ 64 =
        (maxLen - items.length) * fieldCount element := by
      rw [size_eq_fieldCount small]
      exact Nat.mod_eq_of_lt (by omega)
    have short : items.length < 2 ^ 64 := by
      have atLeast := Nat.le_mul_of_pos_right maxLen positive
      omega
    rw [padding]
    have total : (first ++ List.replicate ((maxLen - items.length) * fieldCount element) 0 ++
        [Fr.ofU64 items.length]).length = maxLen * fieldCount element + 1 := by
      rw [List.length_append, List.length_append, firstLength, List.length_replicate,
        List.length_singleton, parts]
    refine ⟨total, ?_⟩
    intro fields cursor held
    have room_left := held.fits (by simp)
    rw [total] at room_left
    have read := firstRead held.left.left
    obtain ⟨padded, skipped⟩ := decodeItems_passes (maxLen - items.length)
      (fun _ => decodeNext_passes regular small) (cursor + items.length * fieldCount element)
      (show _ ≤ fields.length by omega)
    have lenAt := take_of_held held.right
    rw [List.length_append, firstLength, List.length_replicate, ← parts] at lenAt
    have len : (Fr.ofU64 items.length).toUsize = items.length := Fr.toUsize_ofU64 short
    have split_items : maxLen = items.length + (maxLen - items.length) := by omega
    have all_items : decodeItems (decodeNext element fields) maxLen cursor =
        .ok (items.map (represent element) ++ padded, cursor + maxLen * fieldCount element) := by
      rw [Nat.add_assoc, ← parts] at skipped
      conv_lhs => rw [split_items]
      exact decodeItems_add read skipped
    rw [all_items, ok_bind]
    dsimp only
    rw [lenAt, ok_bind, len]
    dsimp only
    rw [List.take_left' (List.length_map _), Nat.add_assoc]
    rfl

theorem encodeField_eq_ok {value : AbiValue} {out : List Fr} (done : encodeField value = .ok out) :
    ∃ f, value = .field f ∧ out = [f] := by
  cases value with
  | field f =>
    cases done
    exact ⟨f, rfl, rfl⟩
  | _ => cases done

theorem encodeAddress_eq_ok {value : AbiValue} {out : List Fr}
    (done : encodeAddress value = .ok out) : out = [wrappedField value] := by
  unfold encodeAddress at done
  split at done
  next =>
    cases done
    rfl
  next map =>
    split at done
    next found =>
      obtain ⟨f, rfl, rfl⟩ := encodeField_eq_ok done
      unfold wrappedField
      dsimp only
      rw [found]
    next => cases done
  next => cases done

theorem encodeWrappedField_eq_ok {value : AbiValue} {out : List Fr}
    (done : encodeWrappedField value = .ok out) : out = [wrappedField value] := by
  unfold encodeWrappedField at done
  split at done
  next =>
    cases done
    rfl
  next map =>
    split at done
    next found =>
      obtain ⟨f, rfl, rfl⟩ := encodeField_eq_ok done
      unfold wrappedField
      dsimp only
      rw [found]
      rfl
    next => cases done
  next => cases done

theorem encodeFunctionSelector_eq_ok {value : AbiValue} {out : List Fr}
    (done : encodeFunctionSelector value = .ok out) :
    (∃ i, selectorValue value = .integer i ∧ out = [Fr.ofU64 (i % 2 ^ 64).toNat]) ∨
      ∃ f, selectorValue value = .field f ∧ out = [f] := by
  unfold encodeFunctionSelector at done
  split at done
  next i =>
    cases done
    exact .inl ⟨i, rfl, rfl⟩
  next f =>
    cases done
    exact .inr ⟨f, rfl, rfl⟩
  next map =>
    unfold selectorValue
    dsimp only
    split at done
    next => cases done
    next f found =>
      cases done
      rw [found]
      exact .inr ⟨f, rfl, rfl⟩
    next i found =>
      cases done
      rw [found]
      exact .inl ⟨i, rfl, rfl⟩
    next => cases done
  next => cases done

/-- The one member of a selector is read back in the form of its type. -/
theorem roundTrip_selector {t : AbiType} (kind : t = .field ∨ ∃ sign width, t = .integer sign width)
    (accepted : Accepted t) {value : AbiValue} {out : List Fr}
    (done : encodeFunctionSelector value = .ok out) (sound : SoundSelector t (selectorValue value)) :
    out.length = 1 ∧ ∀ {fields cursor}, Held fields cursor out →
      decodeNext t fields cursor = .ok (representSelector t (selectorValue value), cursor + 1) := by
  refine ⟨length_encodeFunctionSelector done, ?_⟩
  intro fields cursor held
  rcases encodeFunctionSelector_eq_ok done with ⟨i, given, rfl⟩ | ⟨f, given, rfl⟩
  · rw [given] at sound ⊢
    rcases kind with rfl | ⟨sign, width, rfl⟩
    · have same : (i % 2 ^ 64).toNat = i.toNat := by
        rw [Int.emod_eq_of_lt sound.1 sound.2]
      rw [same] at held
      rw [decodeNext_field_of_held held]
      rfl
    · obtain ⟨range, low, high⟩ := sound
      have value_of : ((Fr.ofU64 (i % 2 ^ 64).toNat).val : Int) = i := by
        rw [Fr.val_ofU64]
        omega
      rw [decodeNext_integer_of_held held,
        decodeInteger_of_val (accepted_width accepted) (value_of.symm ▸ range), value_of]
      rfl
  · rw [given] at sound ⊢
    rcases kind with rfl | ⟨sign, width, rfl⟩
    · rw [decodeNext_field_of_held held]
      rfl
    · rw [decodeNext_integer_of_held held, decodeInteger_of_val (accepted_width accepted) sound]
      rfl

/-- An option is read back as its content, or as none. -/
theorem roundTrip_option {inner : AbiType} (fits : fieldCount inner < 2 ^ 64)
    (trips : RoundTrips inner) {value : AbiValue} {out : List Fr}
    (done : encodeOption (encodeValue .boolean) (encodeValue inner) value = .ok out)
    (sound : Sound inner (optionValue value)) :
    out.length = 1 + fieldCount inner ∧ ∀ {fields cursor}, Held fields cursor out →
      (do
        let (isSome, cursor) ← take fields cursor
        if isSome = 0 then do
          let cursor ← skip fields inner.size cursor
          return (AbiDecoded.none, cursor)
        else decodeNext inner fields cursor) =
      .ok (if isNone value then .none else represent inner (optionValue value),
        cursor + (1 + fieldCount inner)) := by
  rcases encodeOption_eq_ok done with
    ⟨map, isSome, content, first, later, rfl, flagAt, contentAt, head, tail, rfl⟩ |
    ⟨bare, later, tail, rfl⟩
  · obtain ⟨flag, rfl, rfl⟩ : ∃ flag, isSome = .boolean flag ∧ first = [Fr.ofBool flag] := by
      cases isSome with
      | boolean flag =>
        cases head
        exact ⟨flag, rfl, rfl⟩
      | _ => cases head
    have given : optionValue (.struct map) = content := by
      unfold optionValue
      dsimp only
      rw [contentAt]
      rfl
    have absent : isNone (.struct map) = !flag := by
      unfold isNone
      dsimp only
      rw [flagAt]
    rw [given] at sound ⊢
    rw [absent]
    obtain ⟨length, read⟩ := trips tail sound
    refine ⟨by rw [List.length_append, length]; rfl, ?_⟩
    intro fields cursor held
    rw [take_of_held held.left, ok_bind, ← Nat.add_assoc]
    dsimp only
    cases flag with
    | false =>
      have skipped := skip_of_held held.right
      rw [length] at skipped
      rw [if_pos (by decide), size_eq_fieldCount fits]
      exact bind_eq_ok.mpr ⟨_, skipped, rfl⟩
    | true =>
      rw [if_neg (by decide)]
      exact read held.right
  · have given : optionValue value = value := by
      cases value with
      | struct map => exact absurd rfl (bare map)
      | _ => rfl
    have present : isNone value = false := by
      cases value with
      | struct map => exact absurd rfl (bare map)
      | _ => rfl
    rw [given] at sound ⊢
    rw [present]
    obtain ⟨length, read⟩ := trips tail sound
    refine ⟨by rw [List.length_cons, length, Nat.add_comm], ?_⟩
    intro fields cursor held
    rw [take_of_held held, ok_bind, ← Nat.add_assoc]
    dsimp only
    rw [if_neg (by decide)]
    exact read (@Held.right fields cursor [1] later held)

/-! ### Scalars, arrays and tuples -/

theorem roundTrips_field : RoundTrips .field := by
  intro value out done _
  obtain ⟨f, rfl, rfl⟩ := encodeField_eq_ok done
  exact ⟨rfl, fun held => decodeNext_field_of_held held⟩

theorem roundTrips_boolean : RoundTrips .boolean := by
  intro value out done _
  cases value with
  | boolean flag =>
    cases done
    refine ⟨rfl, fun held => ?_⟩
    unfold decodeNext
    rw [take_of_held held]
    cases flag <;> rfl
  | _ => cases done

theorem roundTrips_integer {sign : String} {width : Nat} (positive : width ≠ 0) :
    RoundTrips (.integer sign width) := by
  intro value out done sound
  cases value with
  | integer i =>
    cases done
    refine ⟨rfl, fun held => ?_⟩
    rw [decodeNext_integer_of_held held, decodeInteger_encodeInteger positive sound]
    rfl
  | field f =>
    cases done
    refine ⟨rfl, fun held => ?_⟩
    rw [decodeNext_integer_of_held held, decodeInteger_of_val positive sound]
    rfl
  | _ => cases done

theorem roundTrips_string (length : Nat) : RoundTrips (.string length) := by
  intro value out done sound
  obtain ⟨text, rfl, encoded⟩ := encodeValue_string done
  replace sound : ∀ c ∈ text.toList, 0 < c.toNat ∧ c.toNat < 128 := sound
  unfold encodeString at encoded
  dsimp only at encoded
  rw [utf8_of_ascii (fun c inside => (sound c inside).2), List.length_map, List.map_map] at encoded
  split at encoded
  next => cases encoded
  next room =>
    cases encoded
    have total : text.toList.length + (length - text.toList.length) = length := by omega
    refine ⟨by rw [List.length_append, List.length_map, List.length_replicate, total]; rfl, ?_⟩
    intro fields cursor held
    have read := decodeChars_of_held sound held
    rw [total] at read
    unfold decodeNext
    rw [read, ok_bind]
    dsimp only
    rw [String.ofList_toList]
    rfl

theorem roundTrips_array {element : AbiType} (trips : RoundTrips element) (length : Nat) :
    RoundTrips (.array element length) := by
  intro value out done sound
  obtain ⟨items, rfl, rfl, encoded⟩ := encodeValue_array done
  obtain ⟨total, read⟩ := roundTrip_items trips encoded sound
  refine ⟨total, fun held => ?_⟩
  unfold decodeNext
  rw [read held]
  rfl

theorem roundTrips_tuple {elements : List AbiType} (trips : ∀ t ∈ elements, RoundTrips t) :
    RoundTrips (.tuple elements) := by
  intro value out done sound
  obtain ⟨values, rfl, same, encoded⟩ := encodeValue_tuple done
  obtain ⟨total, read⟩ := roundTrip_elements trips same encoded sound
  refine ⟨total, fun held => ?_⟩
  unfold decodeNext
  rw [read held]
  rfl

/-! ### Structs, shape by shape -/

section Structs
variable {name : String} {members : List AbiParameter} {value : AbiValue} {out : List Fr}

theorem readsBack_address (shape : StructRegular name members)
    (kind : structShape name members = .address) (encoded : encodeAddress value = .ok out) :
    ReadsBack (.struct name members) value out := by
  have named := structShape_spec name members
  rw [kind] at named
  obtain ⟨p, rfl, one⟩ := shape.address kind
  have count : fieldCount (.struct name [p]) = 1 := one
  unfold ReadsBack
  rw [count, encodeAddress_eq_ok encoded]
  refine ⟨rfl, fun held => ?_⟩
  rw [decodeNext_address _ _ named, take_of_held held]
  unfold represent
  rw [kind]
  rfl

theorem readsBack_selector (shape : StructRegular name members)
    (kind : structShape name members = .selector)
    (accepted : Accepted (.struct name members)) (encoded : encodeFunctionSelector value = .ok out)
    (sound : Sound (.struct name members) value) : ReadsBack (.struct name members) value out := by
  obtain ⟨⟨n, t, v⟩, rfl, member⟩ := shape.selector kind
  have content : SoundSelector t (selectorValue value) := by
    unfold Sound at sound
    rw [kind] at sound
    exact sound
  obtain ⟨total, read⟩ := roundTrip_selector member
    (accepted_member accepted List.mem_cons_self) encoded content
  have count : fieldCount (.struct name [⟨n, t, v⟩]) = 1 := by
    rcases member with rfl | ⟨sign, width, rfl⟩ <;> rfl
  obtain ⟨unbounded, plain⟩ := shape.byMembers (by simp [kind]) (by simp [kind]) (by simp [kind])
  unfold ReadsBack
  rw [count]
  refine ⟨total, fun held => ?_⟩
  rw [decodeNext_members _ _ (not_address_of_shape (by simp [kind])) unbounded plain]
  unfold decodeMembers
  rw [read held]
  unfold represent
  rw [kind]
  rfl

theorem readsBack_boundedVec {p q : AbiParameter} {element : AbiType} {maxLen : Nat}
    (shape : StructRegular name members)
    (kind : structShape name members = .boundedVec) (two : members = [p, q])
    (storage : p.typ = .array element maxLen) (regular : Regular element)
    (accepted : Accepted element) (fits : fieldCount (.struct name members) < 2 ^ 64)
    (trips : fieldCount element < 2 ^ 64 → RoundTrips element)
    (encoded : encodeBoundedVec (encodeValue element) element.size maxLen value = .ok out)
    (sound : Sound (.struct name members) value) : ReadsBack (.struct name members) value out := by
  have named := structShape_spec name members
  rw [kind] at named
  obtain ⟨-, one⟩ := shape.storage kind p q two
  subst two
  obtain ⟨n, t, v⟩ := p
  cases storage
  have count : fieldCount (.struct name [⟨n, .array element maxLen, v⟩, q]) =
      maxLen * fieldCount element + 1 := by
    change memberCounts _ = _
    rw [memberCounts_two, one]
    rfl
  have items : ∀ item ∈ itemsOf value, Sound element item := by
    unfold Sound at sound
    rw [kind] at sound
    exact sound
  rw [count] at fits
  obtain ⟨total, read⟩ :=
    roundTrip_boundedVec regular (fieldCount_pos accepted) fits trips encoded items
  unfold ReadsBack
  rw [count]
  refine ⟨total, fun held => ?_⟩
  rw [decodeNext_boundedVec _ _ (not_address_of_shape (by simp [kind])) named rfl, read held]
  unfold represent
  rw [kind]

theorem readsBack_option {p q : AbiParameter} (shape : StructRegular name members)
    (kind : structShape name members = .option) (two : members = [p, q])
    (fits : fieldCount (.struct name members) < 2 ^ 64) (trips : RoundTrips q.typ)
    (encoded : encodeOption (encodeValue p.typ) (encodeValue q.typ) value = .ok out)
    (sound : Sound (.struct name members) value) : ReadsBack (.struct name members) value out := by
  have named := structShape_spec name members
  rw [kind] at named
  have flag := shape.isSome kind p q two
  subst two
  have count : fieldCount (.struct name [p, q]) = 1 + fieldCount q.typ := by
    change memberCounts _ = _
    rw [memberCounts_two, flag]
    rfl
  have content : Sound q.typ (optionValue value) := by
    unfold Sound at sound
    rw [kind] at sound
    exact sound
  rw [count] at fits
  rw [flag] at encoded
  obtain ⟨total, read⟩ := roundTrip_option (by omega) trips encoded content
  unfold ReadsBack
  rw [count]
  refine ⟨total, fun held => ?_⟩
  rw [decodeNext_option _ _ (not_address_of_shape (by simp [kind])) named, read held]
  conv_rhs => unfold represent
  rw [kind]

theorem readsBack_wrapped (kind : structShape name members = .wrapped)
    (encoded : encodeWrappedField value = .ok out) :
    ReadsBack (.struct name members) value out := by
  have named := structShape_spec name members
  rw [kind] at named
  obtain ⟨visibility, rfl⟩ := isWrapped_inner named
  rw [encodeWrappedField_eq_ok encoded]
  refine ⟨rfl, fun held => ?_⟩
  rw [decodeNext_members _ _ (not_address_of_shape (by simp [kind])) rfl rfl]
  unfold decodeMembers
  rw [decodeNext_field_of_held held]
  unfold represent
  rw [kind]
  rfl

theorem readsBack_plain {values : List (String × AbiValue)}
    (kind : structShape name members = .plain) (trips : ∀ p ∈ members, RoundTrips p.typ)
    (encoded : encodeMembers members values = .ok out)
    (sound : Sound (.struct name members) (.struct values)) :
    ReadsBack (.struct name members) (.struct values) out := by
  have named := structShape_spec name members
  rw [kind] at named
  have content : SoundMembers members values := by
    unfold Sound at sound
    rw [kind] at sound
    exact sound
  obtain ⟨total, read⟩ := roundTrip_members trips encoded content []
  refine ⟨total, fun held => ?_⟩
  rw [decodeNext_members _ _ (not_address_of_shape (by simp [kind])) named.1 named.2, read held]
  unfold represent
  rw [kind]
  rfl

end Structs

/-- Every accepted regular type makes the round trip. -/
theorem roundTrips {t : AbiType} (regular : Regular t) (accepted : Accepted t)
    (fits : fieldCount t < 2 ^ 64) : RoundTrips t := by
  induction t with
  | field => exact roundTrips_field
  | boolean => exact roundTrips_boolean
  | integer sign width => exact roundTrips_integer (accepted_width accepted)
  | string length => exact roundTrips_string length
  | array element length ih =>
    have small : fieldCount element < 2 ^ 64 := by
      have positive : 0 < length * fieldCount element := fieldCount_pos accepted
      exact (Nat.le_mul_of_pos_left _ (Nat.pos_of_mul_pos_right positive)).trans_lt fits
    have trips : RoundTrips element := ih regular (accepted_element accepted) small
    exact @roundTrips_array element trips length
  | tuple elements ih =>
    exact roundTrips_tuple fun t inside => ih t inside (everyInElements_iff.mp regular t inside)
      (accepted_tuple accepted inside) ((fieldCount_le_elements inside).trans_lt fits)
  | struct name members ih storageIh =>
    intro value out done sound
    obtain ⟨shape, deep⟩ := regular
    have each : ∀ p ∈ members, RoundTrips p.typ := fun p inside =>
      ih p inside (everyInMembers_iff.mp deep p inside) (accepted_member accepted inside)
        ((fieldCount_le_members inside).trans_lt fits)
    cases structEncoded done with
    | address kind encoded => exact readsBack_address shape kind encoded
    | selector kind encoded => exact readsBack_selector shape kind accepted encoded sound
    | wrapped kind encoded => exact readsBack_wrapped kind encoded
    | boundedVec kind p q element maxLen two storage encoded =>
      have inside : p ∈ members := by
        rw [two]
        exact List.mem_cons_self
      have regular : Regular element := everyStruct_storage deep inside storage
      have stored := accepted_member accepted inside
      rw [storage] at stored
      exact readsBack_boundedVec shape kind two storage regular (accepted_element stored) fits
        (storageIh p inside element maxLen storage regular (accepted_element stored)) encoded sound
    | option kind p q two encoded =>
      exact readsBack_option shape kind two fits (each q (by simp [two])) encoded sound
    | plain kind values given encoded =>
      subst given
      exact readsBack_plain kind each encoded sound

/-- The `Option` of a type. -/
def optionOf (t : AbiType) : AbiType :=
  .struct "std::option::Option" [⟨"_is_some", .boolean, none⟩, ⟨"_value", t, none⟩]

/-- `None` of an option. -/
def noneOf (padding : AbiValue) : AbiValue :=
  .struct [("_is_some", .boolean false), ("_value", padding)]

/-- `Some` of an option. -/
def someOf (value : AbiValue) : AbiValue := .struct [("_is_some", .boolean true), ("_value", value)]

end AztecPxe.AbiCodec
