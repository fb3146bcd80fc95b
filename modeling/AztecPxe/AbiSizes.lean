import AztecPxe.AbiCodec

/-! The sizes of `abi_type_size` against the fields the encoder writes and the decoder
reads. Where the structs that are special by name have the members the special shapes
suppose, all three agree on every type, so each value starts where the sizes before it
end. -/
namespace AztecPxe.AbiCodec
open AztecPxe Abi

/-! ## Structs the codec treats as special -/

/-- The members of a special struct take the fields its special encoding takes: an
address or a selector is one field, and so is the flag of an option and the length of
a bounded vector. -/
structure StructShaped (name : String) (members : List AbiParameter) : Prop where
  single : (AbiType.struct name members).isAddressStruct = true ∨
    (AbiType.struct name members).isFunctionSelectorStruct = true →
      ∃ p, members = [p] ∧ p.typ.size = 1
  isSome : (AbiType.struct name members).isOptionStruct = true →
    ∀ p q, members = [p, q] → p.typ.size = 1
  len : (AbiType.struct name members).isBoundedVecStruct = true →
    ∀ p q, members = [p, q] → q.typ.size = 1

mutual

/-- Every struct in the type has this property of its name and members. -/
def EveryStruct (P : String → List (Parameter AbiType) → Prop) : AbiType → Prop
  | .array element _ => EveryStruct P element
  | .struct name members => P name members ∧ EveryInMembers P members
  | .tuple elements => EveryInElements P elements
  | _ => True

/-- Every struct in the members has the property. -/
def EveryInMembers (P : String → List (Parameter AbiType) → Prop) : List (Parameter AbiType) → Prop
  | [] => True
  | ⟨_, t, _⟩ :: rest => EveryStruct P t ∧ EveryInMembers P rest

/-- Every struct in the elements has the property. -/
def EveryInElements (P : String → List (Parameter AbiType) → Prop) : List AbiType → Prop
  | [] => True
  | t :: rest => EveryStruct P t ∧ EveryInElements P rest

end

section EveryStruct
variable {P : String → List AbiParameter → Prop}

theorem everyInElements_iff {elements : List AbiType} :
    EveryInElements P elements ↔ ∀ t ∈ elements, EveryStruct P t := by
  induction elements with
  | nil => simp [EveryInElements]
  | cons t rest ih => simp [EveryInElements, ih]

theorem everyInMembers_iff {members : List AbiParameter} :
    EveryInMembers P members ↔ ∀ p ∈ members, EveryStruct P p.typ := by
  induction members with
  | nil => simp [EveryInMembers]
  | cons p rest ih => simp [EveryInMembers, ih]

/-- The property holds all through the elements of a bounded vector's storage. -/
theorem everyStruct_storage {members : List AbiParameter} (every : EveryInMembers P members)
    {p : AbiParameter} (inside : p ∈ members) {element : AbiType} {maxLen : Nat}
    (storage : p.typ = .array element maxLen) : EveryStruct P element := by
  have held := everyInMembers_iff.mp every p inside
  rw [storage] at held
  exact held

end EveryStruct

/-- Every special struct in the type has the members its shape supposes. -/
def Shaped (t : AbiType) : Prop := EveryStruct StructShaped t

theorem isOption_two {name : String} {members : List AbiParameter}
    (option : (AbiType.struct name members).isOptionStruct = true) : ∃ p q, members = [p, q] := by
  unfold AbiType.isOptionStruct at option
  split at option
  next same =>
    cases same
    exact ⟨_, _, rfl⟩
  next => cases option

theorem isBoundedVec_two {name : String} {members : List AbiParameter}
    (bounded : (AbiType.struct name members).isBoundedVecStruct = true) :
    (∃ p q, members = [p, q]) ∧ (AbiType.struct name members).isOptionStruct = false := by
  unfold AbiType.isBoundedVecStruct at bounded
  split at bounded
  next same =>
    cases same
    exact ⟨⟨_, _, rfl⟩, rfl⟩
  next => cases bounded

theorem isWrapped_inner {name : String} {members : List AbiParameter}
    (wrapped : (AbiType.struct name members).isWrappedFieldStruct = true) :
    ∃ visibility, members = [⟨"inner", .field, visibility⟩] := by
  unfold AbiType.isWrappedFieldStruct at wrapped
  split at wrapped
  next same =>
    cases same
    exact ⟨_, rfl⟩
  next => cases wrapped

/-- The shapes a struct is encoded in. -/
inductive StructShape where
  | address
  | selector
  | wrapped
  | boundedVec
  | option
  | plain
  deriving DecidableEq, Repr

/-- The shape of a struct: the first of the special ones its name and members fit. -/
def structShape (name : String) (members : List AbiParameter) : StructShape :=
  if (AbiType.struct name members).isAddressStruct then .address
  else if (AbiType.struct name members).isFunctionSelectorStruct then .selector
  else if (AbiType.struct name members).isWrappedFieldStruct then .wrapped
  else if (AbiType.struct name members).isBoundedVecStruct then .boundedVec
  else if (AbiType.struct name members).isOptionStruct then .option
  else .plain

/-- How a struct is encoded, shape by shape. -/
inductive StructEncoded (name : String) (members : List AbiParameter) (value : AbiValue)
    (out : List Fr) : Prop
  | address (shape : structShape name members = .address) (done : encodeAddress value = .ok out)
  | selector (shape : structShape name members = .selector)
    (done : encodeFunctionSelector value = .ok out)
  | wrapped (shape : structShape name members = .wrapped)
    (done : encodeWrappedField value = .ok out)
  | boundedVec (shape : structShape name members = .boundedVec) (p q : AbiParameter)
    (element : AbiType) (maxLen : Nat) (two : members = [p, q])
    (storage : p.typ = .array element maxLen)
    (done : encodeBoundedVec (encodeValue element) element.size maxLen value = .ok out)
  | option (shape : structShape name members = .option) (p q : AbiParameter)
    (two : members = [p, q])
    (done : encodeOption (encodeValue p.typ) (encodeValue q.typ) value = .ok out)
  | plain (shape : structShape name members = .plain) (values : List (String × AbiValue))
    (given : value = .struct values) (done : encodeMembers members values = .ok out)

section StructShapes
variable {name : String} {members : List AbiParameter}

/-- What the checks say of a struct of each shape. -/
theorem structShape_spec (name : String) (members : List AbiParameter) :
    match structShape name members with
    | .address => (AbiType.struct name members).isAddressStruct = true
    | .selector => (AbiType.struct name members).isFunctionSelectorStruct = true
    | .wrapped => (AbiType.struct name members).isWrappedFieldStruct = true
    | .boundedVec => (AbiType.struct name members).isBoundedVecStruct = true
    | .option => (AbiType.struct name members).isOptionStruct = true
    | .plain => (AbiType.struct name members).isBoundedVecStruct = false ∧
        (AbiType.struct name members).isOptionStruct = false := by
  unfold structShape
  split_ifs with address selector wrapped bounded option
  · exact address
  · exact selector
  · exact wrapped
  · exact bounded
  · exact option
  · exact ⟨Bool.eq_false_iff.mpr bounded, Bool.eq_false_iff.mpr option⟩

theorem not_address_of_shape (shape : structShape name members ≠ .address) :
    (AbiType.struct name members).isAddressStruct = false := by
  rw [Bool.eq_false_iff]
  intro named
  exact shape (if_pos named)

theorem structEncoded {value : AbiValue} {out : List Fr}
    (done : encodeValue (.struct name members) value = .ok out) :
    StructEncoded name members value out := by
  unfold encodeValue at done
  split at done
  next named => exact .address (if_pos named) done
  next other =>
    split at done
    next named => exact .selector (by simp [structShape, other, named]) done
    next unnamed =>
      split at done
      next wrapped => exact .wrapped (by simp [structShape, other, unnamed, wrapped]) done
      next unwrapped =>
        split at done
        next bounded =>
          exact .boundedVec (by simp [structShape, other, unnamed, unwrapped, bounded]) _ _ _ _ rfl rfl
            done
        next =>
          obtain ⟨items, -, failed⟩ := bind_eq_ok.mp done
          cases failed
        next unbounded option =>
          exact .option (by simp [structShape, other, unnamed, unwrapped, unbounded, option]) _ _ rfl
            done
        next members _ _ _ _ two option =>
          -- Neither of the two shapes is left for the struct.
          have unbounded : (AbiType.struct name members).isBoundedVecStruct = false := by
            rw [Bool.eq_false_iff]
            intro bounded
            obtain ⟨⟨p, q, two_members⟩, -⟩ := isBoundedVec_two bounded
            exact two p q two_members bounded
          have plain : (AbiType.struct name members).isOptionStruct = false := by
            rw [Bool.eq_false_iff]
            intro named
            obtain ⟨p, q, two_members⟩ := isOption_two named
            exact option _ _ _ _ _ _ two_members unbounded named
          split at done
          next values =>
            exact .plain (by simp [structShape, other, unnamed, unwrapped, unbounded, plain]) values rfl
              done
          next => cases done

end StructShapes

theorem encodeValue_string {length : Nat} {value : AbiValue} {out : List Fr}
    (done : encodeValue (.string length) value = .ok out) :
    ∃ text, value = .string text ∧ encodeString length text = .ok out := by
  cases value with
  | string text => exact ⟨text, rfl, done⟩
  | _ => cases done

theorem encodeValue_array {element : AbiType} {length : Nat} {value : AbiValue} {out : List Fr}
    (done : encodeValue (.array element length) value = .ok out) :
    ∃ items, value = .array items ∧ items.length = length ∧
      encodeItems (encodeValue element) items = .ok out := by
  cases value with
  | array items =>
    unfold encodeValue at done
    split at done
    next => cases done
    next same => exact ⟨items, rfl, not_not.mp same, done⟩
  | _ => cases done

theorem encodeValue_tuple {elements : List AbiType} {value : AbiValue} {out : List Fr}
    (done : encodeValue (.tuple elements) value = .ok out) :
    ∃ values, value = .tuple values ∧ elements.length = values.length ∧
      encodeElements elements values = .ok out := by
  cases value with
  | tuple values =>
    unfold encodeValue at done
    split at done
    next => cases done
    next same => exact ⟨values, rfl, not_not.mp same, done⟩
  | _ => cases done

/-! How a struct is decoded, shape by shape. -/

section StructDecoding
variable {name : String} {members : List AbiParameter} (fields : List Fr) (cursor : Nat)

theorem decodeNext_address (named : (AbiType.struct name members).isAddressStruct = true) :
    decodeNext (.struct name members) fields cursor = do
      let (fr, cursor) ← take fields cursor
      return (if (AbiType.struct name members).isAztecAddressStruct then .address ⟨fr⟩ else .field fr,
        cursor) := by
  unfold decodeNext
  split
  next => rfl
  next aztec =>
    have eth : (AbiType.struct name members).isEthAddressStruct = true := by
      unfold AbiType.isAddressStruct at named
      rw [Bool.eq_false_iff.mpr aztec] at named
      exact named
    rw [if_pos eth]

theorem not_address {typ : AbiType} (other : typ.isAddressStruct = false) :
    ¬ typ.isAztecAddressStruct = true ∧ ¬ typ.isEthAddressStruct = true := by
  unfold AbiType.isAddressStruct at other
  rw [Bool.or_eq_false_iff] at other
  rw [other.1, other.2]
  exact ⟨Bool.false_ne_true, Bool.false_ne_true⟩

theorem decodeNext_option {p q : AbiParameter}
    (other : (AbiType.struct name [p, q]).isAddressStruct = false)
    (named : (AbiType.struct name [p, q]).isOptionStruct = true) :
    decodeNext (.struct name [p, q]) fields cursor = (do
      let (isSome, cursor) ← take fields cursor
      if isSome = 0 then do
        let cursor ← skip fields q.typ.size cursor
        return (.none, cursor)
      else decodeNext q.typ fields cursor) := by
  obtain ⟨aztec, eth⟩ := not_address other
  conv_lhs => unfold decodeNext
  rw [if_neg aztec, if_neg eth, named]

theorem decodeNext_boundedVec {p q : AbiParameter} {element : AbiType} {maxLen : Nat}
    (other : (AbiType.struct name [p, q]).isAddressStruct = false)
    (named : (AbiType.struct name [p, q]).isBoundedVecStruct = true)
    (storage : p.typ = .array element maxLen) :
    decodeNext (.struct name [p, q]) fields cursor = do
      let (items, cursor) ← decodeItems (decodeNext element fields) maxLen cursor
      let (len, cursor) ← take fields cursor
      return (.array (items.take len.toUsize), cursor) := by
  obtain ⟨aztec, eth⟩ := not_address other
  obtain ⟨-, plain⟩ := isBoundedVec_two named
  obtain ⟨n, t, v⟩ := p
  cases storage
  conv_lhs => unfold decodeNext
  rw [if_neg aztec, if_neg eth, named, plain]

/-- A bounded vector is decoded only where its storage is an array. -/
theorem storage_of_decoded {p q : AbiParameter} {decoded : AbiDecoded × Nat}
    (other : (AbiType.struct name [p, q]).isAddressStruct = false)
    (named : (AbiType.struct name [p, q]).isBoundedVecStruct = true)
    (done : decodeNext (.struct name [p, q]) fields cursor = .ok decoded) :
    ∃ element maxLen, p.typ = .array element maxLen := by
  obtain ⟨aztec, eth⟩ := not_address other
  obtain ⟨-, plain⟩ := isBoundedVec_two named
  obtain ⟨n, t, v⟩ := p
  unfold decodeNext at done
  rw [if_neg aztec, if_neg eth, named, plain] at done
  cases t with
  | array element maxLen => exact ⟨element, maxLen, rfl⟩
  | _ => cases done

theorem decodeNext_members (other : (AbiType.struct name members).isAddressStruct = false)
    (unbounded : (AbiType.struct name members).isBoundedVecStruct = false)
    (plain : (AbiType.struct name members).isOptionStruct = false) :
    decodeNext (.struct name members) fields cursor = do
      let (map, cursor) ← decodeMembers members [] fields cursor
      return (.struct map, cursor) := by
  obtain ⟨aztec, eth⟩ := not_address other
  unfold decodeNext
  rw [if_neg aztec, if_neg eth]
  split
  next option =>
    rw [plain] at option
    cases option
  next bounded =>
    rw [unbounded] at bounded
    cases bounded
  next bounded =>
    rw [unbounded] at bounded
    cases bounded
  next => rfl

end StructDecoding

/-! ## What the encoder writes -/

theorem length_encodeField {value : AbiValue} {out : List Fr} (done : encodeField value = .ok out) :
    out.length = 1 := by
  unfold encodeField at done
  split at done
  next => cases done; rfl
  next => cases done

theorem length_encodeAddress {value : AbiValue} {out : List Fr}
    (done : encodeAddress value = .ok out) : out.length = 1 := by
  unfold encodeAddress at done
  split at done
  next => cases done; rfl
  next =>
    split at done
    next => exact length_encodeField done
    next => cases done
  next => cases done

theorem length_encodeFunctionSelector {value : AbiValue} {out : List Fr}
    (done : encodeFunctionSelector value = .ok out) : out.length = 1 := by
  unfold encodeFunctionSelector at done
  split at done
  next => cases done; rfl
  next => cases done; rfl
  next =>
    split at done
    next => cases done
    next => cases done; rfl
    next => cases done; rfl
    next => cases done
  next => cases done

theorem length_encodeWrappedField {value : AbiValue} {out : List Fr}
    (done : encodeWrappedField value = .ok out) : out.length = 1 := by
  unfold encodeWrappedField at done
  split at done
  next => cases done; rfl
  next =>
    split at done
    next => exact length_encodeField done
    next => cases done
  next => cases done

/-- Every encoding of this kind that fits a vector has this many fields. -/
def Writes (encode : AbiValue → Except Error (List Fr)) (n : Nat) : Prop :=
  ∀ {value out}, encode value = .ok out → out.length < 2 ^ 64 → out.length = n

theorem length_encodeItems {encode : AbiValue → Except Error (List Fr)} {n : Nat}
    (writes : Writes encode n) {items : List AbiValue} {out : List Fr}
    (done : encodeItems encode items = .ok out) (fits : out.length < 2 ^ 64) :
    out.length = items.length * n := by
  induction items generalizing out with
  | nil =>
    cases done
    exact (Nat.zero_mul n).symm
  | cons item rest ih =>
    obtain ⟨first, later, head, tail, rfl⟩ := encodeItems_cons done
    rw [List.length_append] at fits ⊢
    rw [writes head (by omega), ih tail (by omega), List.length_cons, Nat.succ_mul, Nat.add_comm]

/-- The padding makes up for the items a bounded vector does not have. -/
theorem length_encodeBoundedVec {encode : AbiValue → Except Error (List Fr)} {n maxLen : Nat}
    (writes : Writes encode n) {value : AbiValue} {out : List Fr}
    (done : encodeBoundedVec encode n maxLen value = .ok out) (fits : out.length < 2 ^ 64) :
    out.length = (maxLen * n % 2 ^ 64 + 1) % 2 ^ 64 := by
  obtain ⟨items, first, -, room, head, rfl⟩ := encodeBoundedVec_eq_ok done
  rw [List.length_append, List.length_append, List.length_replicate, List.length_singleton] at fits ⊢
  have length := length_encodeItems writes head (by omega)
  rw [length] at fits ⊢
  have parts : maxLen * n = items.length * n + (maxLen - items.length) * n := by
    rw [← Nat.add_mul, Nat.add_sub_cancel' (not_lt.mp room)]
  omega

theorem length_encodeOption {encodeIsSome encode : AbiValue → Except Error (List Fr)} {n : Nat}
    (flag : Writes encodeIsSome 1) (writes : Writes encode n) {value : AbiValue} {out : List Fr}
    (done : encodeOption encodeIsSome encode value = .ok out) (fits : out.length < 2 ^ 64) :
    out.length = 1 + n := by
  rcases encodeOption_eq_ok done with ⟨_, _, _, first, later, -, -, -, head, tail, rfl⟩ |
    ⟨-, later, tail, rfl⟩
  · rw [List.length_append] at fits ⊢
    rw [flag head (by omega), writes tail (by omega)]
  · rw [List.length_cons] at fits ⊢
    rw [writes tail (by omega), Nat.add_comm]

theorem length_encodeElements {types : List AbiType} (each : ∀ t ∈ types, Writes (encodeValue t) t.size)
    {values : List AbiValue} (paired : types.length = values.length) {out : List Fr}
    (done : encodeElements types values = .ok out) (fits : out.length < 2 ^ 64) :
    out.length = AbiType.sizes types := by
  induction types generalizing values out with
  | nil =>
    unfold encodeElements at done
    cases done
    rfl
  | cons t types ih =>
    obtain ⟨value, others, first, later, rfl, paired, head, tail, rfl⟩ :=
      encodeElements_cons paired done
    rw [List.length_append] at fits ⊢
    have headLength := each t List.mem_cons_self head (by omega)
    have tailLength := ih (fun t inside => each t (List.mem_cons_of_mem _ inside)) paired tail
      (by omega)
    rw [headLength, tailLength] at fits ⊢
    exact (Nat.mod_eq_of_lt fits).symm

theorem length_encodeMembers {members : List AbiParameter}
    (each : ∀ p ∈ members, Writes (encodeValue p.typ) p.typ.size) {values : List (String × AbiValue)}
    {out : List Fr} (done : encodeMembers members values = .ok out) (fits : out.length < 2 ^ 64) :
    out.length = AbiType.memberSizes members := by
  induction members generalizing out with
  | nil =>
    cases done
    rfl
  | cons p rest ih =>
    obtain ⟨value, first, later, -, head, tail, rfl⟩ := encodeMembers_cons done
    rw [List.length_append] at fits ⊢
    have headLength := each p List.mem_cons_self head (by omega)
    have tailLength := ih (fun t inside => each t (List.mem_cons_of_mem _ inside)) tail (by omega)
    rw [headLength, tailLength] at fits ⊢
    exact (Nat.mod_eq_of_lt fits).symm

theorem memberSizes_one (p : AbiParameter) : AbiType.memberSizes [p] = p.typ.size :=
  Nat.mod_eq_of_lt (AbiType.size_lt p.typ)

theorem memberSizes_two (p q : AbiParameter) :
    AbiType.memberSizes [p, q] = (p.typ.size + q.typ.size) % 2 ^ 64 :=
  congrArg (fun n => (p.typ.size + n) % 2 ^ 64) (memberSizes_one q)

/-- The encoder writes as many fields as the size says. -/
theorem writes_size {t : AbiType} (shaped : Shaped t) : Writes (encodeValue t) t.size := by
  induction t with
  | field =>
    intro value out done _
    exact length_encodeField done
  | boolean =>
    intro value out done _
    cases value <;> cases done
    rfl
  | integer sign width =>
    intro value out done _
    cases value <;> cases done <;> rfl
  | string length =>
    intro value out done fits
    obtain ⟨text, rfl, encoded⟩ := encodeValue_string done
    unfold encodeString at encoded
    dsimp only at encoded
    split at encoded
    next => cases encoded
    next room =>
      cases encoded
      rw [List.length_append, List.length_map, List.length_replicate] at fits ⊢
      rw [AbiType.size]
      omega
  | array element length ih =>
    intro value out done fits
    obtain ⟨items, rfl, same, encoded⟩ := encodeValue_array done
    have total := length_encodeItems (ih shaped) encoded fits
    rw [same] at total
    rw [total] at fits ⊢
    exact (Nat.mod_eq_of_lt fits).symm
  | tuple elements ih =>
    intro value out done fits
    obtain ⟨values, rfl, same, encoded⟩ := encodeValue_tuple done
    exact length_encodeElements (fun t inside => ih t inside (everyInElements_iff.mp shaped t inside))
      same encoded fits
  | struct name members ih storageIh =>
    intro value out done fits
    obtain ⟨shape, deep⟩ := shaped
    have each : ∀ p ∈ members, Writes (encodeValue p.typ) p.typ.size :=
      fun p inside => ih p inside (everyInMembers_iff.mp deep p inside)
    rw [AbiType.size]
    have spec := structShape_spec name members
    cases structEncoded done with
    | address kind encoded =>
      rw [kind] at spec
      obtain ⟨p, rfl, one⟩ := shape.single (.inl spec)
      rw [length_encodeAddress encoded, memberSizes_one, one]
    | selector kind encoded =>
      rw [kind] at spec
      obtain ⟨p, rfl, one⟩ := shape.single (.inr spec)
      rw [length_encodeFunctionSelector encoded, memberSizes_one, one]
    | wrapped kind encoded =>
      rw [kind] at spec
      obtain ⟨visibility, rfl⟩ := isWrapped_inner spec
      rw [length_encodeWrappedField encoded]
      rfl
    | boundedVec kind p q element maxLen two storage encoded =>
      subst two
      rw [kind] at spec
      have elementWrites : Writes (encodeValue element) element.size :=
        storageIh p (by simp) element maxLen storage (everyStruct_storage deep (by simp) storage)
      rw [length_encodeBoundedVec elementWrites encoded fits, memberSizes_two, shape.len spec p q rfl,
        storage]
      rfl
    | option kind p q two encoded =>
      subst two
      rw [kind] at spec
      have flag : Writes (encodeValue p.typ) 1 := by
        rw [← shape.isSome spec p q rfl]
        exact each p (by simp)
      have total := length_encodeOption flag (each q (by simp)) encoded fits
      rw [total] at fits ⊢
      rw [memberSizes_two, shape.isSome spec p q rfl]
      exact (Nat.mod_eq_of_lt fits).symm
    | plain kind values given encoded =>
      exact length_encodeMembers each encoded fits

/-! ## What the decoder reads -/

/-- The cursor has moved over this many fields of the list. -/
def Advanced (fields : List Fr) (cursor n next : Nat) : Prop :=
  next = cursor + n ∧ (n = 0 ∨ next ≤ fields.length)

section Advances
variable {fields : List Fr} {cursor next : Nat}

theorem Advanced.trans {middle m n : Nat} (first : Advanced fields cursor m middle)
    (second : Advanced fields middle n next) : Advanced fields cursor (m + n) next := by
  obtain ⟨rfl, inside⟩ := first
  obtain ⟨rfl, inside'⟩ := second
  refine ⟨Nat.add_assoc _ _ _, ?_⟩
  rcases inside' with zero | inside'
  · rcases inside with zero' | inside
    · exact .inl (by omega)
    · exact .inr (by omega)
  · exact .inr inside'

theorem Advanced.lt {n : Nat} (moved : Advanced fields cursor n next) (fits : fields.length < 2 ^ 64) :
    n < 2 ^ 64 := by
  obtain ⟨rfl, inside⟩ := moved
  omega

theorem advanced_take {fr : Fr} (done : take fields cursor = .ok (fr, next)) :
    Advanced fields cursor 1 next := by
  unfold take at done
  split at done
  next found =>
    cases done
    have inside := (List.getElem?_eq_some_iff.mp found).1
    exact ⟨rfl, .inr inside⟩
  next => cases done

theorem advanced_skip {n : Nat} (done : skip fields n cursor = .ok next) :
    Advanced fields cursor n next := by
  induction n generalizing cursor with
  | zero =>
    cases done
    exact ⟨rfl, .inl rfl⟩
  | succ n ih =>
    obtain ⟨⟨fr, middle⟩, taken, done⟩ := bind_eq_ok.mp done
    rw [Nat.add_comm]
    exact (advanced_take taken).trans (ih done)

/-- A string is read to its end, also past a zero byte. -/
theorem advanced_decodeChars {n : Nat} {chars : List Char}
    (done : decodeChars fields n cursor = .ok (chars, next)) : Advanced fields cursor n next := by
  induction n generalizing cursor chars with
  | zero =>
    cases done
    exact ⟨rfl, .inl rfl⟩
  | succ n ih =>
    obtain ⟨⟨fr, middle⟩, taken, done⟩ := bind_eq_ok.mp done
    dsimp only at done
    rw [Nat.add_comm]
    split at done
    next =>
      obtain ⟨last, skipped, done⟩ := bind_eq_ok.mp done
      cases done
      exact (advanced_take taken).trans (advanced_skip skipped)
    next =>
      obtain ⟨⟨later, last⟩, read, done⟩ := bind_eq_ok.mp done
      cases done
      exact (advanced_take taken).trans (ih read)

/-- Every decoding of this kind moves the cursor over this many fields. -/
def Reads {α : Type} (fields : List Fr) (decode : Nat → Except Error (α × Nat)) (n : Nat) : Prop :=
  ∀ {cursor value next}, decode cursor = .ok (value, next) → Advanced fields cursor n next

theorem advanced_decodeItems {α : Type} {decode : Nat → Except Error (α × Nat)} {n : Nat}
    (reads : Reads fields decode n) {count : Nat} {items : List α}
    (done : decodeItems decode count cursor = .ok (items, next)) :
    Advanced fields cursor (count * n) next := by
  induction count generalizing cursor items with
  | zero =>
    cases done
    rw [Nat.zero_mul]
    exact ⟨rfl, .inl rfl⟩
  | succ count ih =>
    obtain ⟨⟨item, middle⟩, head, done⟩ := bind_eq_ok.mp done
    obtain ⟨⟨later, last⟩, tail, done⟩ := bind_eq_ok.mp done
    cases done
    rw [Nat.succ_mul, Nat.add_comm]
    exact (reads head).trans (ih tail)

theorem advanced_decodeElements (fits : fields.length < 2 ^ 64) {types : List AbiType}
    (each : ∀ t ∈ types, Reads fields (decodeNext t fields) t.size) {items : List AbiDecoded}
    (done : decodeElements types fields cursor = .ok (items, next)) :
    Advanced fields cursor (AbiType.sizes types) next := by
  induction types generalizing cursor items with
  | nil =>
    cases done
    exact ⟨rfl, .inl rfl⟩
  | cons t types ih =>
    obtain ⟨⟨item, middle⟩, head, done⟩ := bind_eq_ok.mp done
    obtain ⟨⟨later, last⟩, tail, done⟩ := bind_eq_ok.mp done
    cases done
    have moved := (each t List.mem_cons_self head).trans
      (ih (fun t inside => each t (List.mem_cons_of_mem _ inside)) tail)
    rw [AbiType.sizes, Nat.mod_eq_of_lt (moved.lt fits)]
    exact moved

theorem advanced_decodeMembers (fits : fields.length < 2 ^ 64) {members : List AbiParameter}
    (each : ∀ p ∈ members, Reads fields (decodeNext p.typ fields) p.typ.size)
    {map map' : List (String × AbiDecoded)}
    (done : decodeMembers members map fields cursor = .ok (map', next)) :
    Advanced fields cursor (AbiType.memberSizes members) next := by
  induction members generalizing cursor map with
  | nil =>
    cases done
    exact ⟨rfl, .inl rfl⟩
  | cons p rest ih =>
    obtain ⟨⟨item, middle⟩, head, tail⟩ := bind_eq_ok.mp done
    have moved := (each p List.mem_cons_self head).trans
      (ih (fun p inside => each p (List.mem_cons_of_mem _ inside)) tail)
    rw [AbiType.memberSizes, Nat.mod_eq_of_lt (moved.lt fits)]
    exact moved

end Advances

/-- The decoder reads as many fields as the size says. -/
theorem reads_size {fields : List Fr} (fits : fields.length < 2 ^ 64) {t : AbiType}
    (shaped : Shaped t) : Reads fields (decodeNext t fields) t.size := by
  induction t with
  | field | boolean | integer =>
    intro cursor value next done
    obtain ⟨⟨fr, middle⟩, taken, done⟩ := bind_eq_ok.mp done
    cases done
    exact advanced_take taken
  | string length =>
    intro cursor value next done
    obtain ⟨⟨chars, middle⟩, read, done⟩ := bind_eq_ok.mp done
    cases done
    have moved := advanced_decodeChars read
    rw [AbiType.size, Nat.mod_eq_of_lt (moved.lt fits)]
    exact moved
  | array element length ih =>
    intro cursor value next done
    obtain ⟨⟨items, middle⟩, read, done⟩ := bind_eq_ok.mp done
    cases done
    have moved := advanced_decodeItems (ih shaped) read
    rw [AbiType.size, Nat.mod_eq_of_lt (moved.lt fits)]
    exact moved
  | tuple elements ih =>
    intro cursor value next done
    obtain ⟨⟨items, middle⟩, read, done⟩ := bind_eq_ok.mp done
    cases done
    exact advanced_decodeElements fits
      (fun t inside => ih t inside (everyInElements_iff.mp shaped t inside)) read
  | struct name members ih storageIh =>
    intro cursor value next done
    obtain ⟨shape, deep⟩ := shaped
    have each : ∀ p ∈ members, Reads fields (decodeNext p.typ fields) p.typ.size :=
      fun p inside => ih p inside (everyInMembers_iff.mp deep p inside)
    rw [AbiType.size]
    cases address : (AbiType.struct name members).isAddressStruct with
    | true =>
      rw [decodeNext_address fields cursor address] at done
      obtain ⟨⟨fr, middle⟩, taken, done⟩ := bind_eq_ok.mp done
      cases done
      obtain ⟨p, rfl, one⟩ := shape.single (.inl address)
      rw [memberSizes_one, one]
      exact advanced_take taken
    | false =>
      cases option : (AbiType.struct name members).isOptionStruct with
      | true =>
        obtain ⟨p, q, rfl⟩ := isOption_two option
        rw [decodeNext_option fields cursor address option] at done
        obtain ⟨⟨flag, middle⟩, taken, done⟩ := bind_eq_ok.mp done
        dsimp only at done
        have moved : Advanced fields cursor (1 + q.typ.size) next := by
          split at done
          next =>
            obtain ⟨last, skipped, done⟩ := bind_eq_ok.mp done
            cases done
            exact (advanced_take taken).trans (advanced_skip skipped)
          next => exact (advanced_take taken).trans (each q (by simp) done)
        rw [memberSizes_two, shape.isSome option p q rfl, Nat.mod_eq_of_lt (moved.lt fits)]
        exact moved
      | false =>
        cases bounded : (AbiType.struct name members).isBoundedVecStruct with
        | true =>
          obtain ⟨⟨p, q, rfl⟩, -⟩ := isBoundedVec_two bounded
          obtain ⟨element, maxLen, storage⟩ := storage_of_decoded fields cursor address bounded done
          rw [decodeNext_boundedVec fields cursor address bounded storage] at done
          obtain ⟨⟨items, middle⟩, read, done⟩ := bind_eq_ok.mp done
          obtain ⟨⟨len, last⟩, taken, done⟩ := bind_eq_ok.mp done
          cases done
          have reads : Reads fields (decodeNext element fields) element.size :=
            storageIh p (by simp) element maxLen storage (everyStruct_storage deep (by simp) storage)
          have moved := (advanced_decodeItems reads read).trans (advanced_take taken)
          have bound := moved.lt fits
          rw [memberSizes_two, shape.len bounded p q rfl, storage, AbiType.size,
            Nat.mod_eq_of_lt (Nat.lt_of_succ_lt bound), Nat.mod_eq_of_lt bound]
          exact moved
        | false =>
          rw [decodeNext_members fields cursor address bounded option] at done
          obtain ⟨⟨map, middle⟩, read, done⟩ := bind_eq_ok.mp done
          cases done
          exact advanced_decodeMembers fits each read

/-- Decoding a list of types starts each one where the sizes of those before it end. -/
theorem decodeElements_starts {fields : List Fr} (fits : fields.length < 2 ^ 64)
    {types : List AbiType} (shaped : ∀ t ∈ types, Shaped t) {items : List AbiDecoded} {last : Nat}
    {cursor : Nat} (done : decodeElements types fields cursor = .ok (items, last)) :
    items.length = types.length ∧ ∀ (i : Nat) (t : AbiType) (item : AbiDecoded),
      types[i]? = some t → items[i]? = some item →
      decodeNext t fields (cursor + ((types.take i).map AbiType.size).sum) =
        .ok (item, cursor + ((types.take (i + 1)).map AbiType.size).sum) := by
  induction types generalizing cursor items with
  | nil =>
    cases done
    refine ⟨rfl, fun i t item found => ?_⟩
    cases found
  | cons t types ih =>
    obtain ⟨⟨item, middle⟩, head, done⟩ := bind_eq_ok.mp done
    obtain ⟨⟨later, last⟩, tail, done⟩ := bind_eq_ok.mp done
    cases done
    have moved := (reads_size fits (shaped t List.mem_cons_self) head).1
    obtain ⟨length, starts⟩ := ih (fun t inside => shaped t (List.mem_cons_of_mem _ inside)) tail
    refine ⟨by rw [List.length_cons, List.length_cons, length], fun i t' item' found held => ?_⟩
    cases i with
    | zero =>
      cases found
      cases held
      rw [List.take_zero, List.map_nil, List.sum_nil, List.take_succ_cons, List.take_zero,
        List.map_singleton, List.sum_singleton, ← moved]
      exact head
    | succ i =>
      have next := starts i t' item' found held
      rw [moved] at next
      simpa [Nat.add_assoc] using next

theorem decodeFromAbi_elements {types : List AbiType} {fields : List Fr} {value : AbiDecoded}
    (done : decodeFromAbi types fields = .ok value) :
    ∃ items last, (value = .tuple items ∨ types.length = 1 ∧ items = [value]) ∧
      decodeElements types fields 0 = .ok (items, last) := by
  unfold decodeFromAbi at done
  split at done
  next t =>
    obtain ⟨⟨item, last⟩, read, done⟩ := bind_eq_ok.mp done
    cases done
    refine ⟨[value], last, .inr ⟨rfl, rfl⟩, ?_⟩
    unfold decodeElements
    rw [read]
    rfl
  next =>
    obtain ⟨⟨items, last⟩, read, done⟩ := bind_eq_ok.mp done
    cases done
    exact ⟨items, last, .inl rfl, read⟩

/-- Where every special struct has the members its shape supposes, the encoder writes and
the decoder reads as many fields as the sizes say, for one type, for the arguments of a
function and for a list of types. -/
theorem abi_sizes_agree :
    (∀ t, Shaped t →
      (∀ value out, encodeValue t value = .ok out → out.length < 2 ^ 64 → out.length = t.size) ∧
      ∀ fields cursor value next, fields.length < 2 ^ 64 →
        decodeNext t fields cursor = .ok (value, next) → next = cursor + t.size) ∧
    (∀ (function : FunctionArtifact) args out, (∀ p ∈ function.parameters, Shaped p.typ) →
      encodeArguments function args = .ok out → out.length < 2 ^ 64 →
      out.length = function.countArgumentsSize) ∧
    ∀ types fields value, (∀ t ∈ types, Shaped t) → fields.length < 2 ^ 64 →
      decodeFromAbi types fields = .ok value →
      ∃ items : List AbiDecoded, (value = .tuple items ∨ types.length = 1 ∧ items = [value]) ∧
        items.length = types.length ∧ ∀ (i : Nat) (t : AbiType) (item : AbiDecoded),
          types[i]? = some t → items[i]? = some item →
          decodeNext t fields ((types.take i).map AbiType.size).sum =
            .ok (item, ((types.take (i + 1)).map AbiType.size).sum) := by
  refine ⟨fun t shaped => ⟨?_, ?_⟩, ?_, ?_⟩
  · intro value out done fits
    exact writes_size shaped done fits
  · intro fields cursor value next fits done
    exact (reads_size fits shaped done).1
  · intro function args out shaped done fits
    unfold encodeArguments at done
    split at done
    next => cases done
    next paired =>
      have each : ∀ t ∈ function.parameters.map (·.typ), Writes (encodeValue t) t.size := by
        intro t inside
        obtain ⟨p, listed, rfl⟩ := List.mem_map.mp inside
        exact writes_size (shaped p listed)
      rw [FunctionArtifact.countArgumentsSize, AbiType.memberSizes_eq]
      exact length_encodeElements each (by rw [List.length_map]; exact not_not.mp paired) done fits
  · intro types fields value shaped fits done
    obtain ⟨items, last, shape, elements⟩ := decodeFromAbi_elements done
    have starts := decodeElements_starts fits shaped elements
    simp only [Nat.zero_add] at starts
    exact ⟨items, shape, starts⟩

end AztecPxe.AbiCodec
