import AztecPxe.AbiTypes

/-! The typed codec of `abi/encoder.rs` and `abi/decoder.rs`. Both are recursions over
the type; a few structs are recognised by their name and encoded in a shape of their
own. Integers are `i128` on the one side and the low sixteen bytes of a field on the
other, with the wrapping arithmetic of a release build. -/
namespace AztecPxe.AbiCodec
open AztecPxe Abi

/-- A number of `u128` as a field. -/
def frOfU128 (n : Int) : Fr := Fin.ofNat frModulus (n % 2 ^ 128).toNat

/-- `as i128`. -/
def asI128 (n : Int) : Int := n.bmod (2 ^ 128)

/-! ## Encoding -/

/-- The error of every value that does not go with its type. -/
def mismatch {α : Type} : Except Error α := .error (.abi "argument type/value mismatch")

/-- `encode_value` at `AbiType::Field`. -/
def encodeField : AbiValue → Except Error (List Fr)
  | .field f => .ok [f]
  | _ => mismatch

/-- The `AbiType::Integer` arm, for an `AbiValue::Integer`. -/
def encodeInteger (sign : String) (width : Nat) (integer : Int) : Fr :=
  if sign = "signed" ∧ integer < 0 then
    if 128 ≤ width then frOfU128 integer else frOfU128 (integer + 2 ^ width)
  else frOfU128 integer

/-- The `AbiType::String` arm. -/
def encodeString (length : Nat) (text : String) : Except Error (List Fr) :=
  let bytes := text.toUTF8.data.toList
  if length < bytes.length then
    .error (.abi ("string exceeds fixed ABI length " ++ toString length))
  else .ok (bytes.map (fun byte => Fr.ofU64 byte.toNat) ++ List.replicate (length - bytes.length) 0)

/-- The `is_address_struct` arm. -/
def encodeAddress : AbiValue → Except Error (List Fr)
  | .field f => .ok [f]
  | .struct map => match (map.lookup "inner").or (map.lookup "address") with
    | some f => encodeField f
    | none => .error (.abi "address struct must have 'inner' or 'address' field")
  | _ => .error (.abi "expected Field or Struct for address type")

/-- The `is_function_selector_struct` arm. -/
def encodeFunctionSelector : AbiValue → Except Error (List Fr)
  | .integer v => .ok [Fr.ofU64 (v % 2 ^ 64).toNat]
  | .field f => .ok [f]
  | .struct map => match (map.lookup "value").or (map.lookup "inner") with
    | none => .error (.abi "FunctionSelector struct must have 'value' or 'inner' field")
    | some (.field f) => .ok [f]
    | some (.integer v) => .ok [Fr.ofU64 (v % 2 ^ 64).toNat]
    | some _ => .error (.abi "FunctionSelector inner must be Field or Integer")
  | _ => .error (.abi "expected Integer, Field, or Struct for FunctionSelector")

/-- The `is_wrapped_field_struct` arm. -/
def encodeWrappedField : AbiValue → Except Error (List Fr)
  | .field f => .ok [f]
  | .struct map => match map.lookup "inner" with
    | some f => encodeField f
    | none => .error (.abi "wrapped field struct must have 'inner' field")
  | _ => .error (.abi "expected Field or Struct for wrapped field type")

/-- The items of a `BoundedVec`, given as an array or as its struct. -/
def boundedVecItems : AbiValue → Except Error (List AbiValue)
  | .array items => .ok items
  | .struct map => match map.lookup "storage" with
    | some (.array items) => .ok items
    | _ => .error (.abi "BoundedVec struct must have 'storage' array field")
  | _ => .error (.abi "expected Array or Struct for BoundedVec")

/-- The encodings of items of one type, in order. -/
def encodeItems (encode : AbiValue → Except Error (List Fr)) :
    List AbiValue → Except Error (List Fr)
  | [] => .ok []
  | item :: rest => do return (← encode item) ++ (← encodeItems encode rest)

/-- The `is_bounded_vec_struct` arm: the items, zeros up to the capacity, the length. -/
def encodeBoundedVec (encode : AbiValue → Except Error (List Fr)) (elemSize maxLen : Nat)
    (value : AbiValue) : Except Error (List Fr) := do
  let items ← boundedVecItems value
  if maxLen < items.length then
    .error (.abi ("BoundedVec has " ++ toString items.length ++ " items but max capacity is " ++
      toString maxLen))
  else do
    let out ← encodeItems encode items
    return out ++ List.replicate ((maxLen - items.length) * elemSize % 2 ^ 64) 0 ++
      [Fr.ofU64 items.length]

/-- The `is_option_struct` arm: anything but a struct stands for itself. -/
def encodeOption (encodeIsSome encode : AbiValue → Except Error (List Fr)) :
    AbiValue → Except Error (List Fr)
  | .struct map => match map.lookup "_is_some", map.lookup "_value" with
    | some isSome, some value => do return (← encodeIsSome isSome) ++ (← encode value)
    | _, _ => .error (.abi "Option struct must have '_is_some' and '_value' fields")
  | value => do return 1 :: (← encode value)

mutual

/-- `encode_value`: the fields it appends. -/
def encodeValue : AbiType → AbiValue → Except Error (List Fr)
  | .field, value => encodeField value
  | .boolean, .boolean flag => .ok [Fr.ofBool flag]
  | .integer sign width, .integer integer => .ok [encodeInteger sign width integer]
  | .integer _ _, .field f => .ok [f]
  | .array element length, .array items =>
    if items.length ≠ length then
      .error (.abi ("expected array of length " ++ toString length ++ ", got " ++
        toString items.length))
    else encodeItems (encodeValue element) items
  | .string length, .string text => encodeString length text
  | .struct name members, value =>
    if (AbiType.struct name members).isAddressStruct then encodeAddress value
    else if (AbiType.struct name members).isFunctionSelectorStruct then encodeFunctionSelector value
    else if (AbiType.struct name members).isWrappedFieldStruct then encodeWrappedField value
    else match members, (AbiType.struct name members).isBoundedVecStruct,
        (AbiType.struct name members).isOptionStruct with
      | [⟨_, .array element maxLen, _⟩, _], true, _ =>
        encodeBoundedVec (encodeValue element) element.size maxLen value
      | [_, _], true, _ => do
        let _ ← boundedVecItems value
        .error (.abi "BoundedVec storage must be an Array")
      | [⟨_, isSome, _⟩, ⟨_, inner, _⟩], false, true =>
        encodeOption (encodeValue isSome) (encodeValue inner) value
      | members, _, _ => match value with
        | .struct values => encodeMembers members values
        | _ => mismatch
  | .tuple elements, .tuple values =>
    if elements.length ≠ values.length then
      .error (.abi ("expected tuple of length " ++ toString elements.length ++ ", got " ++
        toString values.length))
    else encodeElements elements values
  | _, _ => mismatch

/-- The members of a struct, in the order of the type. -/
def encodeMembers : List (Parameter AbiType) → List (String × AbiValue) → Except Error (List Fr)
  | [], _ => .ok []
  | ⟨name, t, _⟩ :: rest, values => match values.lookup name with
    | none => .error (.abi ("missing struct field '" ++ name ++ "'"))
    | some value => do return (← encodeValue t value) ++ (← encodeMembers rest values)

/-- Values one by one, each at its type. -/
def encodeElements : List AbiType → List AbiValue → Except Error (List Fr)
  | t :: types, value :: values => do
    return (← encodeValue t value) ++ (← encodeElements types values)
  | _, _ => .ok []

end

/-- `encode_arguments`. -/
def encodeArguments (function : FunctionArtifact) (args : List AbiValue) : Except Error (List Fr) :=
  if function.parameters.length ≠ args.length then
    .error (.abi ("function '" ++ function.name ++ "' expects " ++
      toString function.parameters.length ++ " argument(s), got " ++ toString args.length))
  else encodeElements (function.parameters.map (·.typ)) args

/-! ### What an encoding is made of -/

section Parts
variable {encode : AbiValue → Except Error (List Fr)} {value : AbiValue} {out : List Fr}

private theorem append_eq_ok {first later : Except Error (List Fr)}
    (done : (do return (← first) ++ (← later)) = Except.ok out) :
    ∃ a b, first = .ok a ∧ later = .ok b ∧ out = a ++ b := by
  obtain ⟨a, head, done⟩ := bind_eq_ok.mp done
  obtain ⟨b, tail, done⟩ := bind_eq_ok.mp done
  cases done
  exact ⟨a, b, head, tail, rfl⟩

theorem encodeItems_cons {rest : List AbiValue}
    (done : encodeItems encode (value :: rest) = .ok out) :
    ∃ first later, encode value = .ok first ∧ encodeItems encode rest = .ok later ∧
      out = first ++ later :=
  append_eq_ok done

theorem encodeElements_cons {t : AbiType} {types : List AbiType} {values : List AbiValue}
    (paired : (t :: types).length = values.length)
    (done : encodeElements (t :: types) values = .ok out) :
    ∃ value others first later, values = value :: others ∧ types.length = others.length ∧
      encodeValue t value = .ok first ∧ encodeElements types others = .ok later ∧
      out = first ++ later := by
  cases values with
  | nil => cases paired
  | cons value others =>
    unfold encodeElements at done
    obtain ⟨first, later, head, tail, rfl⟩ := append_eq_ok done
    exact ⟨value, others, first, later, rfl, Nat.succ.inj paired, head, tail, rfl⟩

theorem encodeMembers_cons {p : Parameter AbiType} {rest : List (Parameter AbiType)}
    {values : List (String × AbiValue)} (done : encodeMembers (p :: rest) values = .ok out) :
    ∃ value first later, values.lookup p.name = some value ∧
      encodeValue p.typ value = .ok first ∧ encodeMembers rest values = .ok later ∧
      out = first ++ later := by
  obtain ⟨name, t, visibility⟩ := p
  unfold encodeMembers at done
  split at done
  next => cases done
  next value found =>
    obtain ⟨first, later, head, tail, rfl⟩ := append_eq_ok done
    exact ⟨value, first, later, found, head, tail, rfl⟩

/-- A bounded vector that is encoded has no more items than its capacity. -/
theorem encodeBoundedVec_eq_ok {n maxLen : Nat}
    (done : encodeBoundedVec encode n maxLen value = .ok out) :
    ∃ items first, boundedVecItems value = .ok items ∧ ¬ maxLen < items.length ∧
      encodeItems encode items = .ok first ∧
      out = first ++ List.replicate ((maxLen - items.length) * n % 2 ^ 64) 0 ++
        [Fr.ofU64 items.length] := by
  unfold encodeBoundedVec at done
  obtain ⟨items, given, done⟩ := bind_eq_ok.mp done
  split at done
  next => cases done
  next room =>
    obtain ⟨first, head, done⟩ := bind_eq_ok.mp done
    cases done
    exact ⟨items, first, given, room, head, rfl⟩

/-- An option is encoded member by member where it is a struct, and else after a flag. -/
theorem encodeOption_eq_ok {encodeIsSome : AbiValue → Except Error (List Fr)}
    (done : encodeOption encodeIsSome encode value = .ok out) :
    (∃ map isSome content first later, value = .struct map ∧
      map.lookup "_is_some" = some isSome ∧ map.lookup "_value" = some content ∧
      encodeIsSome isSome = .ok first ∧ encode content = .ok later ∧ out = first ++ later) ∨
    ((∀ map, value ≠ .struct map) ∧ ∃ later, encode value = .ok later ∧ out = 1 :: later) := by
  unfold encodeOption at done
  split at done
  next map =>
    split at done
    next isSome content flagAt contentAt =>
      obtain ⟨first, later, head, tail, rfl⟩ := append_eq_ok done
      exact .inl ⟨map, isSome, content, first, later, rfl, flagAt, contentAt, head, tail, rfl⟩
    next => cases done
  next bare =>
    obtain ⟨later, tail, done⟩ := bind_eq_ok.mp done
    cases done
    exact .inr ⟨bare, later, tail, rfl⟩

end Parts

/-! ## Decoding -/

/-- `decoder.rs::AbiDecoded`; a struct is the list of its members in the order of their
names. -/
inductive AbiDecoded where
  | field (value : Fr)
  | boolean (value : Bool)
  | integer (value : Int)
  | array (elements : List AbiDecoded)
  | string (value : String)
  | struct (members : List (String × AbiDecoded))
  | tuple (elements : List AbiDecoded)
  | address (value : AztecAddress)
  | none

/-- `BTreeMap::insert`. -/
def insertMember {α : Type} (name : String) (value : α) : List (String × α) → List (String × α)
  | [] => [(name, value)]
  | (key, held) :: rest =>
    if name < key then (name, value) :: (key, held) :: rest
    else if name = key then (name, value) :: rest
    else (key, held) :: insertMember name value rest

/-- `take`: the field under the cursor and the cursor after it. -/
def take (fields : List Fr) (cursor : Nat) : Except Error (Fr × Nat) :=
  match fields[cursor]? with
  | some fr => .ok (fr, cursor + 1)
  | none => .error (.abi ("insufficient fields for decoding: cursor " ++ toString cursor ++
      " >= len " ++ toString fields.length))

/-- A number of `take`s whose fields are dropped. -/
def skip (fields : List Fr) : Nat → Nat → Except Error Nat
  | 0, cursor => .ok cursor
  | n + 1, cursor => do
    let (_, cursor) ← take fields cursor
    skip fields n cursor

/-- The `AbiType::Integer` arm, over the low sixteen bytes; a shift takes its amount
modulo 128, and the `u16` below width 0 is 65535. -/
def decodeInteger (sign : String) (width : Nat) (fr : Fr) : Int :=
  let raw : Int := fr.val % 2 ^ 128
  if sign = "signed" then
    if 128 ≤ width then asI128 raw
    else if 2 ^ ((width + 65535) % 65536 % 128) ≤ raw then asI128 (asI128 raw - 2 ^ width)
    else asI128 raw
  else asI128 raw

/-- The characters of a string of this many fields, up to the first zero byte. -/
def decodeChars (fields : List Fr) : Nat → Nat → Except Error (List Char × Nat)
  | 0, cursor => .ok ([], cursor)
  | left + 1, cursor => do
    let (fr, cursor) ← take fields cursor
    let byte := fr.toUsize % 256
    if byte = 0 then
      let cursor ← skip fields left cursor
      return ([], cursor)
    else
      let (chars, cursor) ← decodeChars fields left cursor
      return (Char.ofNat byte :: chars, cursor)

/-- This many values of one type, one after the other. -/
def decodeItems {α : Type} (decode : Nat → Except Error (α × Nat)) :
    Nat → Nat → Except Error (List α × Nat)
  | 0, cursor => .ok ([], cursor)
  | n + 1, cursor => do
    let (item, cursor) ← decode cursor
    let (items, cursor) ← decodeItems decode n cursor
    return (item :: items, cursor)

mutual

/-- `decode_next`, with the cursor after it. -/
def decodeNext : AbiType → List Fr → Nat → Except Error (AbiDecoded × Nat)
  | .field, fields, cursor => do
    let (fr, cursor) ← take fields cursor
    return (.field fr, cursor)
  | .boolean, fields, cursor => do
    let (fr, cursor) ← take fields cursor
    return (.boolean (fr ≠ 0), cursor)
  | .integer sign width, fields, cursor => do
    let (fr, cursor) ← take fields cursor
    return (.integer (decodeInteger sign width fr), cursor)
  | .array element length, fields, cursor => do
    let (items, cursor) ← decodeItems (decodeNext element fields) length cursor
    return (.array items, cursor)
  | .string length, fields, cursor => do
    let (chars, cursor) ← decodeChars fields length cursor
    return (.string (String.ofList chars), cursor)
  | .struct name members, fields, cursor =>
    if (AbiType.struct name members).isAztecAddressStruct then do
      let (fr, cursor) ← take fields cursor
      return (.address ⟨fr⟩, cursor)
    else if (AbiType.struct name members).isEthAddressStruct then do
      let (fr, cursor) ← take fields cursor
      return (.field fr, cursor)
    else match members, (AbiType.struct name members).isOptionStruct,
        (AbiType.struct name members).isBoundedVecStruct with
      | [_, ⟨_, inner, _⟩], true, _ => do
        let (isSome, cursor) ← take fields cursor
        if isSome = 0 then do
          let cursor ← skip fields inner.size cursor
          return (.none, cursor)
        else decodeNext inner fields cursor
      | [⟨_, .array element maxLen, _⟩, _], false, true => do
        let (items, cursor) ← decodeItems (decodeNext element fields) maxLen cursor
        let (len, cursor) ← take fields cursor
        return (.array (items.take len.toUsize), cursor)
      | [_, _], false, true => .error (.abi "BoundedVec storage must be an Array")
      | members, _, _ => do
        let (map, cursor) ← decodeMembers members [] fields cursor
        return (.struct map, cursor)
  | .tuple elements, fields, cursor => do
    let (items, cursor) ← decodeElements elements fields cursor
    return (.tuple items, cursor)

/-- The members of a struct, each inserted into the map. -/
def decodeMembers : List (Parameter AbiType) → List (String × AbiDecoded) → List Fr → Nat →
    Except Error (List (String × AbiDecoded) × Nat)
  | [], map, _, cursor => .ok (map, cursor)
  | ⟨name, t, _⟩ :: rest, map, fields, cursor => do
    let (value, cursor) ← decodeNext t fields cursor
    decodeMembers rest (insertMember name value map) fields cursor

/-- Values of these types, one after the other. -/
def decodeElements : List AbiType → List Fr → Nat → Except Error (List AbiDecoded × Nat)
  | [], _, cursor => .ok ([], cursor)
  | t :: types, fields, cursor => do
    let (item, cursor) ← decodeNext t fields cursor
    let (items, cursor) ← decodeElements types fields cursor
    return (item :: items, cursor)

end

/-- `decode_from_abi`. -/
def decodeFromAbi (types : List AbiType) (fields : List Fr) : Except Error AbiDecoded :=
  match types with
  | [t] => do
    let (value, _) ← decodeNext t fields 0
    return value
  | types => do
    let (items, _) ← decodeElements types fields 0
    return .tuple items

end AztecPxe.AbiCodec
