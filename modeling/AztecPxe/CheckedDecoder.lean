import AztecPxe.AbiRoundTrip

/-! The decoder of `abi/decoder.rs` as a build with overflow checks runs it: an operation whose
result leaves its type panics, and so does `Vec::with_capacity` beyond `isize::MAX` bytes, which it
does in every build. Whether memory or stack is left is not modelled. -/
namespace AztecPxe.CheckedDecoder
open AztecPxe Abi AbiCodec

/-- What Rust panics with. -/
inductive Panic where
  | addOverflow
  | subtractOverflow
  | multiplyOverflow
  | capacityOverflow
  deriving DecidableEq, Repr

/-- How a call ends without `Ok`. -/
inductive Stop where
  | err (error : Error)
  | panic (panic : Panic)

/-- A call of a function that does not panic. -/
def orErr {α : Type} (result : Except Error α) : Except Stop α := result.mapError .err

/-- `isize::MAX`. -/
def isizeMax : Nat := 2 ^ 63 - 1

/-- `Vec::with_capacity`, for items of this many bytes. -/
def withCapacity (itemBytes n : Nat) : Except Stop Unit :=
  if n * itemBytes ≤ isizeMax then .ok () else .error (.panic .capacityOverflow)

/-- The result of an operation on `usize`. -/
def usize (overflow : Panic) (n : Nat) : Except Panic Nat :=
  if n < 2 ^ 64 then .ok n else .error overflow

mutual

/-- `abi_type_size`. -/
def abiTypeSize : AbiType → Except Panic Nat
  | .field | .boolean | .integer _ _ => .ok 1
  | .string length => usize .multiplyOverflow length
  | .array element length => do usize .multiplyOverflow (length * (← abiTypeSize element))
  | .struct _ fields => sumMemberSizes fields 0
  | .tuple elements => sumSizes elements 0

/-- The sum over the elements of a tuple, on top of what was summed before. -/
def sumSizes : List AbiType → Nat → Except Panic Nat
  | [], sum => .ok sum
  | t :: rest, sum => do
    let size ← abiTypeSize t
    let sum ← usize .addOverflow (sum + size)
    sumSizes rest sum

/-- The sum over the members of a struct, on top of what was summed before. -/
def sumMemberSizes : List (Parameter AbiType) → Nat → Except Panic Nat
  | [], sum => .ok sum
  | ⟨_, t, _⟩ :: rest, sum => do
    let size ← abiTypeSize t
    let sum ← usize .addOverflow (sum + size)
    sumMemberSizes rest sum

end

/-- The `AbiType::Integer` arm: `1i128 << 127` is `i128::MIN`, and only the subtractions can leave
their types. -/
def decodeIntegerChecked (sign : String) (width : Nat) (fr : Fr) : Except Stop Int :=
  let raw : Int := fr.val % 2 ^ 128
  if sign = "signed" then
    if 128 ≤ width then .ok (asI128 raw)
    else if width = 0 then .error (.panic .subtractOverflow)
    else if 2 ^ (width - 1) ≤ raw then
      let value := asI128 raw - asI128 (2 ^ width)
      if -2 ^ 127 ≤ value ∧ value < 2 ^ 127 then .ok value
      else .error (.panic .subtractOverflow)
    else .ok (asI128 raw)
  else .ok (asI128 raw)

/-- This many values of one type, one after the other. -/
def decodeItemsChecked (decode : Nat → Except Stop (AbiDecoded × Nat)) :
    Nat → Nat → Except Stop (List AbiDecoded × Nat)
  | 0, cursor => .ok ([], cursor)
  | n + 1, cursor => do
    let (item, cursor) ← decode cursor
    let (items, cursor) ← decodeItemsChecked decode n cursor
    return (item :: items, cursor)

section Decoder
variable (itemBytes : Nat)

mutual

/-- `decode_next`, where an `AbiDecoded` takes this many bytes and a `char` takes four. -/
def decodeNextChecked : AbiType → List Fr → Nat → Except Stop (AbiDecoded × Nat)
  | .field, fields, cursor => do
    let (fr, cursor) ← orErr (take fields cursor)
    return (.field fr, cursor)
  | .boolean, fields, cursor => do
    let (fr, cursor) ← orErr (take fields cursor)
    return (.boolean (fr ≠ 0), cursor)
  | .integer sign width, fields, cursor => do
    let (fr, cursor) ← orErr (take fields cursor)
    let value ← decodeIntegerChecked sign width fr
    return (.integer value, cursor)
  | .array element length, fields, cursor => do
    withCapacity itemBytes length
    let (items, cursor) ← decodeItemsChecked (decodeNextChecked element fields) length cursor
    return (.array items, cursor)
  | .string length, fields, cursor => do
    withCapacity 4 length
    let (chars, cursor) ← orErr (decodeChars fields length cursor)
    return (.string (String.ofList chars), cursor)
  | .struct name members, fields, cursor =>
    if (AbiType.struct name members).isAztecAddressStruct then do
      let (fr, cursor) ← orErr (take fields cursor)
      return (.address ⟨fr⟩, cursor)
    else if (AbiType.struct name members).isEthAddressStruct then do
      let (fr, cursor) ← orErr (take fields cursor)
      return (.field fr, cursor)
    else match members, (AbiType.struct name members).isOptionStruct,
        (AbiType.struct name members).isBoundedVecStruct with
      | [_, ⟨_, inner, _⟩], true, _ => do
        let (isSome, cursor) ← orErr (take fields cursor)
        if isSome = 0 then do
          let valueSize ← (abiTypeSize inner).mapError Stop.panic
          let cursor ← orErr (skip fields valueSize cursor)
          return (.none, cursor)
        else decodeNextChecked inner fields cursor
      | [⟨_, .array element maxLen, _⟩, _], false, true => do
        withCapacity itemBytes maxLen
        let (items, cursor) ← decodeItemsChecked (decodeNextChecked element fields) maxLen cursor
        let (len, cursor) ← orErr (take fields cursor)
        return (.array (items.take len.toUsize), cursor)
      | [_, _], false, true => .error (.err (.abi "BoundedVec storage must be an Array"))
      | members, _, _ => do
        let (map, cursor) ← decodeMembersChecked members [] fields cursor
        return (.struct map, cursor)
  | .tuple elements, fields, cursor => do
    withCapacity itemBytes elements.length
    let (items, cursor) ← decodeElementsChecked elements fields cursor
    return (.tuple items, cursor)

/-- The members of a struct, each inserted into the map. -/
def decodeMembersChecked : List (Parameter AbiType) → List (String × AbiDecoded) → List Fr → Nat →
    Except Stop (List (String × AbiDecoded) × Nat)
  | [], map, _, cursor => .ok (map, cursor)
  | ⟨name, t, _⟩ :: rest, map, fields, cursor => do
    let (value, cursor) ← decodeNextChecked t fields cursor
    decodeMembersChecked rest (insertMember name value map) fields cursor

/-- Values of these types, one after the other. -/
def decodeElementsChecked : List AbiType → List Fr → Nat → Except Stop (List AbiDecoded × Nat)
  | [], _, cursor => .ok ([], cursor)
  | t :: types, fields, cursor => do
    let (item, cursor) ← decodeNextChecked t fields cursor
    let (items, cursor) ← decodeElementsChecked types fields cursor
    return (item :: items, cursor)

end

/-- `decode_from_abi`. -/
def decodeFromAbiChecked (types : List AbiType) (fields : List Fr) : Except Stop AbiDecoded :=
  match types with
  | [t] => do
    let (value, _) ← decodeNextChecked itemBytes t fields 0
    return value
  | types => do
    let (items, _) ← decodeElementsChecked itemBytes types fields 0
    return .tuple items

end Decoder

/-! ## How a struct is decoded -/

/-- What the decoder takes a struct for. -/
inductive StructDecoding where
  | single
  | option (value : AbiType)
  | items (element : AbiType) (maxLen : Nat)
  | refused
  | members

/-- The first arm of `decode_next` a struct goes to. -/
def structDecoding (name : String) (members : List AbiParameter) : StructDecoding :=
  if (AbiType.struct name members).isAddressStruct then .single
  else match members, (AbiType.struct name members).isOptionStruct,
      (AbiType.struct name members).isBoundedVecStruct with
    | [_, ⟨_, inner, _⟩], true, _ => .option inner
    | [⟨_, .array element maxLen, _⟩, _], false, true => .items element maxLen
    | [_, _], false, true => .refused
    | _, _, _ => .members

section Structs
variable {itemBytes : Nat} {name : String} {members : List AbiParameter} {fields : List Fr}
  {cursor : Nat}

theorem decodeNextChecked_struct :
    decodeNextChecked itemBytes (.struct name members) fields cursor =
      match structDecoding name members with
      | .single => do
        let (fr, cursor) ← orErr (take fields cursor)
        return (if (AbiType.struct name members).isAztecAddressStruct then .address ⟨fr⟩ else .field fr,
          cursor)
      | .option inner => do
        let (isSome, cursor) ← orErr (take fields cursor)
        if isSome = 0 then do
          let valueSize ← (abiTypeSize inner).mapError Stop.panic
          let cursor ← orErr (skip fields valueSize cursor)
          return (.none, cursor)
        else decodeNextChecked itemBytes inner fields cursor
      | .items element maxLen => do
        withCapacity itemBytes maxLen
        let (items, cursor) ←
          decodeItemsChecked (decodeNextChecked itemBytes element fields) maxLen cursor
        let (len, cursor) ← orErr (take fields cursor)
        return (.array (items.take len.toUsize), cursor)
      | .refused => .error (.err (.abi "BoundedVec storage must be an Array"))
      | .members => do
        let (map, cursor) ← decodeMembersChecked itemBytes members [] fields cursor
        return (.struct map, cursor) := by
  unfold structDecoding AbiType.isAddressStruct
  conv_lhs => unfold decodeNextChecked
  cases aztec : (AbiType.struct name members).isAztecAddressStruct with
  | true => rfl
  | false =>
    cases eth : (AbiType.struct name members).isEthAddressStruct with
    | true => rfl
    | false =>
      simp only [Bool.false_eq_true, if_false, Bool.or_self]
      generalize (AbiType.struct name members).isOptionStruct = option
      generalize (AbiType.struct name members).isBoundedVecStruct = bounded
      match members, option, bounded with
      | [], _, _ | [_], _, _ | _ :: _ :: _ :: _, _, _ => rfl
      | [_, _], true, _ => rfl
      | [⟨_, t, _⟩, _], false, false | [⟨_, t, _⟩, _], false, true => cases t <;> rfl

theorem structDecoding_option {inner : AbiType} (kind : structDecoding name members = .option inner) :
    ∃ p q, members = [p, q] ∧ q.typ = inner := by
  unfold structDecoding at kind
  split at kind
  next => cases kind
  next =>
    split at kind
    next =>
      cases kind
      exact ⟨_, _, rfl, rfl⟩
    next => cases kind
    next => cases kind
    next => cases kind

theorem structDecoding_items {element : AbiType} {maxLen : Nat}
    (kind : structDecoding name members = .items element maxLen) :
    ∃ p q, members = [p, q] ∧ p.typ = .array element maxLen := by
  unfold structDecoding at kind
  split at kind
  next => cases kind
  next =>
    split at kind
    next => cases kind
    next =>
      cases kind
      exact ⟨_, _, rfl, rfl⟩
    next => cases kind
    next => cases kind

end Structs

/-! ## Sizes -/

theorem usize_eq (overflow : Panic) {n : Nat} : (n < 2 ^ 64 → usize overflow n = .ok n) ∧
    (2 ^ 64 ≤ n → ∃ panic, usize overflow n = .error panic) := by
  unfold usize
  exact ⟨fun fits => if_pos fits, fun large => ⟨overflow, if_neg (Nat.not_lt_of_le large)⟩⟩

/-- A computation of a size has this number for its result, or panics where the number is no
`usize`. -/
def Measures (result : Except Panic Nat) (n : Nat) : Prop :=
  (n < 2 ^ 64 → result = .ok n) ∧ (2 ^ 64 ≤ n → ∃ panic, result = .error panic)

/-- The sum goes on from `sum` over sizes that are measured each. -/
theorem measures_sumSizes {types : List AbiType}
    (each : ∀ t ∈ types, Measures (abiTypeSize t) (fieldCount t)) {sum : Nat} (fits : sum < 2 ^ 64) :
    Measures (sumSizes types sum) (sum + elementCounts types) := by
  induction types generalizing sum with
  | nil => exact ⟨fun _ => rfl, fun large => absurd fits (Nat.not_lt_of_le large)⟩
  | cons t types ih =>
    obtain ⟨small, large⟩ := each t List.mem_cons_self
    unfold sumSizes elementCounts
    rcases Nat.lt_or_ge (fieldCount t) (2 ^ 64) with one_fits | one_large
    · rw [small one_fits, ok_bind, ← Nat.add_assoc]
      rcases Nat.lt_or_ge (sum + fieldCount t) (2 ^ 64) with both_fit | overflow
      · rw [(usize_eq _).1 both_fit, ok_bind]
        exact ih (fun t inside => each t (List.mem_cons_of_mem _ inside)) both_fit
      · obtain ⟨panic, failed⟩ := (usize_eq .addOverflow).2 overflow
        rw [failed]
        exact ⟨fun fits => by omega, fun _ => ⟨panic, rfl⟩⟩
    · obtain ⟨panic, failed⟩ := large one_large
      rw [failed]
      exact ⟨fun fits => by omega, fun _ => ⟨panic, rfl⟩⟩

theorem sumMemberSizes_eq (members : List AbiParameter) (sum : Nat) :
    sumMemberSizes members sum = sumSizes (members.map (·.typ)) sum := by
  induction members generalizing sum with
  | nil => rfl
  | cons p rest ih =>
    rw [List.map_cons, sumSizes]
    simp only [← ih]
    rfl

theorem memberCounts_eq (members : List AbiParameter) :
    memberCounts members = elementCounts (members.map (·.typ)) := by
  induction members with
  | nil => rfl
  | cons p rest ih =>
    rw [List.map_cons, elementCounts, ← ih]
    rfl

/-- The size of an accepted type is the number of its fields, or it overflows. -/
theorem measures_abiTypeSize {t : AbiType} (accepted : Accepted t) :
    Measures (abiTypeSize t) (fieldCount t) := by
  induction t using AbiType.memberInduction with
  | field | boolean | integer => exact ⟨fun _ => rfl, fun large => absurd large (by simp [fieldCount])⟩
  | string length => exact usize_eq _
  | array element length ih =>
    obtain ⟨small, large⟩ := ih (accepted_element accepted)
    have positive : 0 < length := by
      have whole := fieldCount_pos accepted
      unfold fieldCount at whole
      exact Nat.pos_of_mul_pos_right whole
    have grows : fieldCount element ≤ length * fieldCount element :=
      Nat.le_mul_of_pos_left _ positive
    unfold abiTypeSize fieldCount
    rcases Nat.lt_or_ge (fieldCount element) (2 ^ 64) with one_fits | one_large
    · rw [small one_fits]
      exact usize_eq _
    · obtain ⟨panic, failed⟩ := large one_large
      rw [failed]
      exact ⟨fun fits => by omega, fun _ => ⟨panic, rfl⟩⟩
  | struct name members ih =>
    have each : ∀ t ∈ members.map (·.typ), Measures (abiTypeSize t) (fieldCount t) := by
      intro t inside
      obtain ⟨p, listed, rfl⟩ := List.mem_map.mp inside
      exact ih p listed (accepted_member accepted listed)
    have sum := @measures_sumSizes _ each 0 (by decide)
    rw [Nat.zero_add, ← memberCounts_eq, ← sumMemberSizes_eq] at sum
    exact sum
  | tuple elements ih =>
    have each : ∀ t ∈ elements, Measures (abiTypeSize t) (fieldCount t) :=
      fun t inside => ih t inside (accepted_tuple accepted inside)
    have sum := @measures_sumSizes _ each 0 (by decide)
    rw [Nat.zero_add] at sum
    exact sum

/-! ## The decoder without the checks

Where the checked decoder does not panic, it does what the one with wrapping arithmetic does. -/

section Agreement
variable {α β : Type}

/-- The same value or the same error, unless the checked side panics. -/
def Agrees (checked : Except Stop α) (plain : Except Error α) : Prop :=
  match checked with
  | .ok a => plain = .ok a
  | .error (.err error) => plain = .error error
  | .error (.panic _) => True

theorem agrees_orErr (result : Except Error α) : Agrees (orErr result) result := by
  cases result with
  | ok a => rfl
  | error error => rfl

theorem Agrees.bind {checked : Except Stop α} {plain : Except Error α} (agrees : Agrees checked plain)
    {next : α → Except Stop β} {next' : α → Except Error β} (later : ∀ a, Agrees (next a) (next' a)) :
    Agrees (checked >>= next) (plain >>= next') := by
  match checked, agrees with
  | .ok a, same =>
    rw [show plain = .ok a from same]
    exact later a
  | .error (.err error), same =>
    rw [show plain = .error error from same]
    rfl
  | .error (.panic _), _ => trivial

/-- Asking for a vector changes nothing else. -/
theorem Agrees.reserve {bytes n : Nat} {checked : Except Stop α} {plain : Except Error α}
    (agrees : Agrees checked plain) :
    Agrees (do
      withCapacity bytes n
      checked) plain := by
  unfold withCapacity
  split
  · exact agrees
  · trivial

theorem agrees_integer {sign : String} {width : Nat} (positive : width ≠ 0) (fr : Fr) :
    Agrees (decodeIntegerChecked sign width fr) (.ok (decodeInteger sign width fr)) := by
  unfold decodeIntegerChecked decodeInteger
  generalize (fr.val : Int) % 2 ^ 128 = raw
  by_cases signed : sign = "signed"
  swap
  · dsimp only
    rw [if_neg signed, if_neg signed]
    rfl
  · dsimp only
    rw [if_pos signed, if_pos signed]
    by_cases wide : 128 ≤ width
    · rw [if_pos wide, if_pos wide]
      rfl
    · have shift : (width + 65535) % 65536 % 128 = width - 1 := by omega
      rw [if_neg wide, if_neg wide, if_neg positive, shift]
      split
      next =>
        split
        next stays =>
          have wrapped : asI128 (asI128 raw - 2 ^ width) = asI128 (asI128 raw - asI128 (2 ^ width)) :=
            (Int.sub_bmod_bmod ..).symm
          rw [wrapped, asI128_of_small stays.1 stays.2]
          rfl
        next => trivial
      next => rfl

variable {itemBytes : Nat} {fields : List Fr}

theorem agrees_items {decode : Nat → Except Stop (AbiDecoded × Nat)}
    {decode' : Nat → Except Error (AbiDecoded × Nat)} (each : ∀ cursor, Agrees (decode cursor) (decode' cursor))
    (n cursor : Nat) : Agrees (decodeItemsChecked decode n cursor) (decodeItems decode' n cursor) := by
  induction n generalizing cursor with
  | zero => rfl
  | succ n ih =>
    exact (each cursor).bind fun item => (ih item.2).bind fun _ => rfl

theorem agrees_elements {types : List AbiType}
    (each : ∀ t ∈ types, ∀ cursor,
      Agrees (decodeNextChecked itemBytes t fields cursor) (decodeNext t fields cursor)) (cursor : Nat) :
    Agrees (decodeElementsChecked itemBytes types fields cursor) (decodeElements types fields cursor) := by
  induction types generalizing cursor with
  | nil => rfl
  | cons t types ih =>
    exact (each t List.mem_cons_self cursor).bind fun item =>
      (ih (fun t listed => each t (List.mem_cons_of_mem _ listed)) item.2).bind fun _ => rfl

theorem agrees_members {members : List AbiParameter}
    (each : ∀ p ∈ members, ∀ cursor,
      Agrees (decodeNextChecked itemBytes p.typ fields cursor) (decodeNext p.typ fields cursor))
    (map : List (String × AbiDecoded)) (cursor : Nat) :
    Agrees (decodeMembersChecked itemBytes members map fields cursor)
      (decodeMembers members map fields cursor) := by
  induction members generalizing map cursor with
  | nil => rfl
  | cons p rest ih =>
    exact (each p List.mem_cons_self cursor).bind fun value =>
      ih (fun p listed => each p (List.mem_cons_of_mem _ listed)) _ value.2

theorem decodeNext_struct {name : String} {members : List AbiParameter} {cursor : Nat} :
    decodeNext (.struct name members) fields cursor =
      match structDecoding name members with
      | .single => do
        let (fr, cursor) ← take fields cursor
        return (if (AbiType.struct name members).isAztecAddressStruct then .address ⟨fr⟩ else .field fr,
          cursor)
      | .option inner => do
        let (isSome, cursor) ← take fields cursor
        if isSome = 0 then do
          let cursor ← skip fields inner.size cursor
          return (.none, cursor)
        else decodeNext inner fields cursor
      | .items element maxLen => do
        let (items, cursor) ← decodeItems (decodeNext element fields) maxLen cursor
        let (len, cursor) ← take fields cursor
        return (.array (items.take len.toUsize), cursor)
      | .refused => .error (.abi "BoundedVec storage must be an Array")
      | .members => do
        let (map, cursor) ← decodeMembers members [] fields cursor
        return (.struct map, cursor) := by
  unfold structDecoding AbiType.isAddressStruct
  conv_lhs => unfold decodeNext
  cases aztec : (AbiType.struct name members).isAztecAddressStruct with
  | true => rfl
  | false =>
    cases eth : (AbiType.struct name members).isEthAddressStruct with
    | true => rfl
    | false =>
      simp only [Bool.false_eq_true, if_false, Bool.or_self]
      generalize (AbiType.struct name members).isOptionStruct = option
      generalize (AbiType.struct name members).isBoundedVecStruct = bounded
      match members, option, bounded with
      | [], _, _ | [_], _, _ | _ :: _ :: _ :: _, _, _ => rfl
      | [_, _], true, _ => rfl
      | [⟨_, t, _⟩, _], false, false | [⟨_, t, _⟩, _], false, true => cases t <;> rfl

/-- The checked decoder does what the decoder does, or panics. -/
theorem decodeNextChecked_agrees {t : AbiType} (accepted : Accepted t) (cursor : Nat) :
    Agrees (decodeNextChecked itemBytes t fields cursor) (decodeNext t fields cursor) := by
  induction t generalizing cursor with
  | field | boolean =>
    unfold decodeNextChecked decodeNext
    refine (agrees_orErr _).bind fun _ => ?_
    rfl
  | integer sign width =>
    unfold decodeNextChecked decodeNext
    refine (agrees_orErr (take fields cursor)).bind fun found => ?_
    show Agrees
      (decodeIntegerChecked sign width found.1 >>= fun value => pure (AbiDecoded.integer value, found.2))
      (Except.ok (decodeInteger sign width found.1) >>= fun value =>
        pure (AbiDecoded.integer value, found.2))
    exact (agrees_integer (accepted_width accepted) found.1).bind fun _ => rfl
  | string length =>
    unfold decodeNextChecked decodeNext
    refine ((agrees_orErr _).bind fun _ => ?_).reserve
    rfl
  | array element length ih =>
    unfold decodeNextChecked decodeNext
    refine ((agrees_items (fun cursor => ih (accepted_element accepted) cursor) length cursor).bind
      fun _ => ?_).reserve
    rfl
  | tuple elements ih =>
    unfold decodeNextChecked decodeNext
    refine ((agrees_elements (fun t listed => ih t listed (accepted_tuple accepted listed))
      cursor).bind fun _ => ?_).reserve
    rfl
  | struct name members ih storageIh =>
    rw [decodeNextChecked_struct, decodeNext_struct]
    have each : ∀ p ∈ members, Accepted p.typ := fun p listed => accepted_member accepted listed
    cases kind : structDecoding name members with
    | single => exact (agrees_orErr _).bind fun _ => rfl
    | refused => rfl
    | members =>
      exact (agrees_members (fun p listed => ih p listed (each p listed)) [] cursor).bind fun _ => rfl
    | option inner =>
      obtain ⟨p, q, rfl, rfl⟩ := structDecoding_option kind
      refine (agrees_orErr (take fields cursor)).bind fun found => ?_
      dsimp only
      split
      · obtain ⟨small, large⟩ := measures_abiTypeSize (each q (by simp))
        rcases Nat.lt_or_ge (fieldCount q.typ) (2 ^ 64) with fits | overflow
        · rw [small fits, size_eq_fieldCount fits]
          exact (agrees_orErr _).bind fun _ => rfl
        · obtain ⟨panic, failed⟩ := large overflow
          rw [failed]
          trivial
      · exact ih q (by simp) (each q (by simp)) _
    | items element maxLen =>
      obtain ⟨p, q, rfl, storage⟩ := structDecoding_items kind
      have array_accepted := each p List.mem_cons_self
      rw [storage] at array_accepted
      have items := agrees_items (storageIh p List.mem_cons_self element maxLen storage
        (accepted_element array_accepted)) maxLen cursor
      refine (items.bind fun items => ?_).reserve
      refine (agrees_orErr (take fields items.2)).bind fun _ => ?_
      rfl

end Agreement

/-- `decode_from_abi` of both builds answers the same, unless the checked one panics. -/
theorem decodeFromAbiChecked_agrees {itemBytes : Nat} {types : List AbiType} {fields : List Fr}
    (accepted : ∀ t ∈ types, Accepted t) :
    Agrees (decodeFromAbiChecked itemBytes types fields) (decodeFromAbi types fields) := by
  have elements : Agrees (decodeElementsChecked itemBytes types fields 0)
      (decodeElements types fields 0) :=
    agrees_elements (fun t listed => decodeNextChecked_agrees (accepted t listed)) 0
  match types, accepted, elements with
  | [], _, _ => rfl
  | [t], accepted, _ =>
    exact (decodeNextChecked_agrees (accepted t List.mem_cons_self) 0).bind fun _ => rfl
  | t :: u :: rest, _, elements => exact elements.bind fun _ => rfl

end AztecPxe.CheckedDecoder
