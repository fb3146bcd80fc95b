import AztecPxe.AbiRoundTrip
import AztecPxe.AccountEntrypoint

/-! The two ways a value becomes fields. `encode_arguments` knows the type; the flattening
of `hash.rs`, which the hashes of calls and authorizations take, has to guess it. It goes
by the names of members where the encoder goes by their declaration, takes every small
negative integer for one of 64 bits, and knows neither padding nor presence flags. -/
namespace AztecPxe.AbiFlatten
open AztecPxe AbiCodec AccountEntrypoint

/-! ## Where the two agree -/

/-- An integer that is not negative, or that the flattening wraps to the width its type
has: 64 bits from `-2 ^ 63` on, none below. -/
def IntegerAgrees (sign : String) (width : Nat) (i : Int) : Prop :=
  0 ≤ i ∨ if sign = "signed" ∧ width < 128 then width = 64 ∧ -2 ^ 63 ≤ i else i < -2 ^ 63

/-- A value given bare, or as a struct with no other member. -/
def Alone : AbiValue → Prop
  | .struct map => map.length = 1
  | _ => True

/-- A selector given alone, by a field or by an integer of 64 bits. -/
def SelectorAgrees (value : AbiValue) : Prop :=
  Alone value ∧ ∀ i, selectorValue value = .integer i → -2 ^ 63 ≤ i ∧ i < 2 ^ 64

/-- The values of a map, in the order of their names, are those of the members, in the
order of their declaration. -/
def InOrder (members : List AbiParameter) (map : List (String × AbiValue)) : Prop :=
  members.map (fun p => map.lookup p.name) = map.map (fun entry => some entry.2)

mutual

/-- No part of the value reaches a place where the flattening guesses wrong. -/
def Agrees : AbiType → AbiValue → Prop
  | .integer sign width, .integer i => IntegerAgrees sign width i
  | .string length, .string text => text.toUTF8.data.toList.length = length
  | .array element _, .array items => ∀ item ∈ items, Agrees element item
  | .tuple elements, .tuple values => AgreesElements elements values
  | .struct name members, value => match structShape name members with
    | .address | .wrapped => Alone value
    | .selector => SelectorAgrees value
    | .boundedVec => False
    | .option | .plain =>
      (∃ map, value = .struct map ∧ InOrder members map) ∧ AgreesMembers members (membersOf value)
  | _, _ => True

/-- The same for values one by one. -/
def AgreesElements : List AbiType → List AbiValue → Prop
  | t :: types, value :: values => Agrees t value ∧ AgreesElements types values
  | _, _ => True

/-- The same for the members of the type. -/
def AgreesMembers : List (Parameter AbiType) → List (String × AbiValue) → Prop
  | [], _ => True
  | ⟨name, t, _⟩ :: rest, values =>
    Agrees t ((values.lookup name).getD (.tuple [])) ∧ AgreesMembers rest values

end

/-! ## Scalars -/

theorem frOfU128_eq_iff {a b : Int} : frOfU128 a = frOfU128 b ↔ a % 2 ^ 128 = b % 2 ^ 128 := by
  rw [Fin.ext_iff, frOfU128_val, frOfU128_val]
  omega

theorem two_pow_eq_iff {width : Nat} (small : width < 128) : (2 : Int) ^ width = 2 ^ 64 ↔ width = 64 := by
  constructor
  · intro same
    exact_mod_cast Int.pow_right_injective (by decide : 1 < (2 : Int).natAbs) same
  · rintro rfl
    rfl

/-- The exact condition for an integer. -/
theorem flattenInteger_eq_iff {sign : String} {width : Nat} {i : Int} :
    flattenInteger i = encodeInteger sign width i ↔ IntegerAgrees sign width i := by
  unfold flattenInteger encodeInteger IntegerAgrees
  by_cases negative : i < 0
  · have unsigned : ¬ 0 ≤ i := not_le.mpr negative
    rw [if_neg unsigned, or_iff_right unsigned]
    by_cases narrow : sign = "signed" ∧ width < 128
    · have positive : (0 : Int) < 2 ^ width := by positivity
      have power : (2 : Int) ^ width < 2 ^ 128 := Int.pow_lt_pow_of_lt (by decide) narrow.2
      have signed : sign = "signed" ∧ i < 0 := ⟨narrow.1, negative⟩
      rw [if_pos signed, if_neg (not_le.mpr narrow.2), if_pos narrow, ← two_pow_eq_iff narrow.2]
      generalize (2 : Int) ^ width = modulus at *
      by_cases close : -2 ^ 63 ≤ i
      · rw [if_pos close, frOfU128_eq_iff]
        omega
      · rw [if_neg close, frOfU128_eq_iff]
        omega
    · have plain : (if sign = "signed" ∧ i < 0 then
          if 128 ≤ width then frOfU128 i else frOfU128 (i + 2 ^ width) else frOfU128 i) =
            frOfU128 i := by
        split_ifs with signed wide
        · rfl
        · exact absurd ⟨signed.1, not_le.mp wide⟩ narrow
        · rfl
      rw [plain, if_neg narrow]
      by_cases close : -2 ^ 63 ≤ i
      · rw [if_pos close, frOfU128_eq_iff]
        omega
      · rw [if_neg close, frOfU128_eq_iff]
        omega
  · have nonneg : 0 ≤ i := not_lt.mp negative
    rw [if_pos nonneg, if_neg (fun both => negative both.2)]
    exact iff_of_true rfl (.inl nonneg)

theorem flattenMembers_of_lookup {map : List (String × AbiValue)} (alone : map.length = 1)
    {name : String} {value : AbiValue} (found : map.lookup name = some value) :
    flattenMembers map = flattenAbiValue value := by
  obtain ⟨⟨key, held⟩, rfl⟩ := List.length_eq_one_iff.mp alone
  rw [List.lookup_cons] at found
  split at found
  · cases found
    rw [flattenMembers, flattenMembers, List.append_nil]
  · cases found

theorem flattenMembers_of_either {map : List (String × AbiValue)} (alone : map.length = 1)
    {name other : String} {value : AbiValue}
    (found : (map.lookup name).or (map.lookup other) = some value) :
    flattenMembers map = flattenAbiValue value := by
  rcases Option.or_eq_some_iff.mp found with first | ⟨-, second⟩
  · exact flattenMembers_of_lookup alone first
  · exact flattenMembers_of_lookup alone second

theorem flatten_of_encodeField {value : AbiValue} {out : List Fr}
    (done : encodeField value = .ok out) : flattenAbiValue value = out := by
  obtain ⟨f, rfl, rfl⟩ := encodeField_eq_ok done
  rfl

theorem flatten_of_encodeAddress {value : AbiValue} {out : List Fr}
    (done : encodeAddress value = .ok out) (alone : Alone value) : flattenAbiValue value = out := by
  unfold encodeAddress at done
  split at done
  next =>
    cases done
    rfl
  next map =>
    split at done
    next found => rw [flattenAbiValue, flattenMembers_of_either alone found, flatten_of_encodeField done]
    next => cases done
  next => cases done

theorem flatten_of_encodeWrappedField {value : AbiValue} {out : List Fr}
    (done : encodeWrappedField value = .ok out) (alone : Alone value) :
    flattenAbiValue value = out := by
  unfold encodeWrappedField at done
  split at done
  next =>
    cases done
    rfl
  next map =>
    split at done
    next found => rw [flattenAbiValue, flattenMembers_of_lookup alone found, flatten_of_encodeField done]
    next => cases done
  next => cases done

theorem flattenInteger_of_u64 {i : Int} (low : -2 ^ 63 ≤ i) (high : i < 2 ^ 64) :
    flattenInteger i = Fr.ofU64 (i % 2 ^ 64).toNat := by
  have value : flattenInteger i = frOfU128 (i % 2 ^ 64) := by
    unfold flattenInteger
    split_ifs with nonneg
    · rw [frOfU128_eq_iff]
      omega
    · rw [frOfU128_eq_iff]
      omega
  have same : (i % 2 ^ 64 % 2 ^ 128).toNat = (i % 2 ^ 64).toNat % 2 ^ 64 := by omega
  rw [value, frOfU128, same, Fr.ofU64]

theorem flatten_of_encodeFunctionSelector {value : AbiValue} {out : List Fr}
    (done : encodeFunctionSelector value = .ok out) (agrees : SelectorAgrees value) :
    flattenAbiValue value = out := by
  obtain ⟨alone, bounds⟩ := agrees
  have content : flattenAbiValue value = flattenAbiValue (selectorValue value) := by
    unfold encodeFunctionSelector at done
    split at done
    next => rfl
    next => rfl
    next map =>
      cases found : (map.lookup "value").or (map.lookup "inner") with
      | none =>
        rw [found] at done
        cases done
      | some held =>
        rw [flattenAbiValue, flattenMembers_of_either alone found, selectorValue, found]
        rfl
    next => cases done
  rw [content]
  rcases encodeFunctionSelector_eq_ok done with ⟨i, held, rfl⟩ | ⟨f, held, rfl⟩
  · obtain ⟨low, high⟩ := bounds i held
    rw [held, flattenAbiValue, flattenInteger_of_u64 low high]
  · rw [held, flattenAbiValue]

/-! ## Types -/

theorem flatten_of_encodeString {length : Nat} {text : String} {out : List Fr}
    (done : encodeString length text = .ok out) (full : text.toUTF8.data.toList.length = length) :
    flattenAbiValue (.string text) = out := by
  unfold encodeString at done
  dsimp only at done
  rw [if_neg (not_lt.mpr full.le), full, Nat.sub_self, List.replicate_zero, List.append_nil] at done
  cases done
  rfl

/-- Every encoding of this type that reaches no wrong guess is the flattening. -/
def Flattens (t : AbiType) : Prop :=
  ∀ {value out}, encodeValue t value = .ok out → Agrees t value → flattenAbiValue value = out

theorem flatten_items {element : AbiType} (flattens : Flattens element) {items : List AbiValue}
    {out : List Fr} (done : encodeItems (encodeValue element) items = .ok out)
    (agrees : ∀ item ∈ items, Agrees element item) : abiValuesToFields items = out := by
  induction items generalizing out with
  | nil =>
    cases done
    rfl
  | cons item rest ih =>
    obtain ⟨first, later, head, tail, rfl⟩ := encodeItems_cons done
    rw [abiValuesToFields, flattens head (agrees item List.mem_cons_self),
      ih tail (fun item held => agrees item (List.mem_cons_of_mem _ held))]

theorem flatten_elements {types : List AbiType} (flattens : ∀ t ∈ types, Flattens t)
    {values : List AbiValue} {out : List Fr} (lengths : types.length = values.length)
    (done : encodeElements types values = .ok out) (agrees : AgreesElements types values) :
    abiValuesToFields values = out := by
  induction types generalizing values out with
  | nil =>
    cases List.length_eq_zero_iff.mp lengths.symm
    cases done
    rfl
  | cons t rest ih =>
    obtain ⟨value, others, first, later, rfl, lengths, head, tail, rfl⟩ :=
      encodeElements_cons lengths done
    rw [abiValuesToFields, flattens t List.mem_cons_self head agrees.1,
      ih (fun t held => flattens t (List.mem_cons_of_mem _ held)) lengths tail agrees.2]

/-- The encoding of members is the flattening of their values in declared order. -/
theorem flatten_members {members : List AbiParameter} (flattens : ∀ p ∈ members, Flattens p.typ)
    {map : List (String × AbiValue)} {out : List Fr} (done : encodeMembers members map = .ok out)
    (agrees : AgreesMembers members map) :
    ∃ values, members.map (fun p => map.lookup p.name) = values.map some ∧
      abiValuesToFields values = out := by
  induction members generalizing out with
  | nil =>
    cases done
    exact ⟨[], rfl, rfl⟩
  | cons p rest ih =>
    obtain ⟨value, first, later, found, head, tail, rfl⟩ := encodeMembers_cons done
    obtain ⟨name, t, visibility⟩ := p
    have own : Agrees t value := by
      have own := agrees.1
      rw [found] at own
      exact own
    obtain ⟨values, named, flat⟩ :=
      ih (fun p held => flattens p (List.mem_cons_of_mem _ held)) tail agrees.2
    refine ⟨value :: values, ?_, ?_⟩
    · rw [List.map_cons, List.map_cons, named, found]
    · rw [abiValuesToFields, flat, flattens _ List.mem_cons_self head own]

theorem flattenMembers_eq (map : List (String × AbiValue)) :
    flattenMembers map = abiValuesToFields (map.map (·.2)) := by
  induction map with
  | nil => rfl
  | cons entry rest ih => rw [flattenMembers, List.map_cons, abiValuesToFields, ih]

theorem flatten_struct {members : List AbiParameter} (flattens : ∀ p ∈ members, Flattens p.typ)
    {map : List (String × AbiValue)} {out : List Fr} (done : encodeMembers members map = .ok out)
    (ordered : InOrder members map) (agrees : AgreesMembers members map) :
    flattenAbiValue (.struct map) = out := by
  obtain ⟨values, named, flat⟩ := flatten_members flattens done agrees
  have same : values = map.map (·.2) := by
    apply List.map_injective_iff.mpr (Option.some_injective _)
    rw [← named, ordered, List.map_map]
    rfl
  rw [flattenAbiValue, flattenMembers_eq, ← same, flat]

theorem isOption_names {name : String} {members : List AbiParameter}
    (option : (AbiType.struct name members).isOptionStruct = true) :
    ∃ isSome inner v w, members = [⟨"_is_some", isSome, v⟩, ⟨"_value", inner, w⟩] := by
  unfold AbiType.isOptionStruct at option
  split at option
  next same =>
    cases same
    exact ⟨_, _, _, _, rfl⟩
  next => cases option

/-- An option given as its struct is encoded member by member. -/
theorem encodeMembers_of_option {isSome inner : AbiType} {v w : Option String}
    {map : List (String × AbiValue)} {out : List Fr}
    (done : encodeOption (encodeValue isSome) (encodeValue inner) (.struct map) = .ok out) :
    encodeMembers [⟨"_is_some", isSome, v⟩, ⟨"_value", inner, w⟩] map = .ok out := by
  rcases encodeOption_eq_ok done with
    ⟨_, flag, value, first, later, same, flagFound, valueFound, head, tail, rfl⟩ | ⟨bare, -⟩
  · cases same
    simp only [encodeMembers, flagFound, valueFound, head, tail, ok_bind, pure, Except.pure,
      List.append_nil]
  · exact absurd rfl (bare map)

theorem flattens (t : AbiType) : Flattens t := by
  induction t using AbiType.memberInduction with
  | field => exact fun done _ => flatten_of_encodeField done
  | boolean =>
    intro value out done _
    cases value with
    | boolean flag =>
      cases done
      rfl
    | _ => cases done
  | integer sign width =>
    intro value out done agrees
    cases value with
    | integer i =>
      cases done
      exact congrArg (fun f => [f]) (flattenInteger_eq_iff.mpr agrees)
    | field f =>
      cases done
      rfl
    | _ => cases done
  | string length =>
    intro value out done agrees
    obtain ⟨text, rfl, done⟩ := encodeValue_string done
    exact flatten_of_encodeString done agrees
  | array element length ih =>
    intro value out done agrees
    obtain ⟨items, rfl, -, done⟩ := encodeValue_array done
    exact flatten_items ih done agrees
  | tuple elements ih =>
    intro value out done agrees
    obtain ⟨values, rfl, lengths, done⟩ := encodeValue_tuple done
    exact flatten_elements ih lengths done agrees
  | struct name members ih =>
    intro value out done agrees
    have spec := structShape_spec name members
    unfold Agrees at agrees
    cases structEncoded done with
    | address shape done =>
      rw [shape] at agrees
      exact flatten_of_encodeAddress done agrees
    | selector shape done =>
      rw [shape] at agrees
      exact flatten_of_encodeFunctionSelector done agrees
    | wrapped shape done =>
      rw [shape] at agrees
      exact flatten_of_encodeWrappedField done agrees
    | boundedVec shape =>
      rw [shape] at agrees
      exact agrees.elim
    | option shape p q two done =>
      rw [shape] at agrees spec
      obtain ⟨⟨map, rfl, ordered⟩, agrees⟩ := agrees
      obtain ⟨isSome, inner, v, w, rfl⟩ := isOption_names spec
      cases two
      exact flatten_struct ih (encodeMembers_of_option done) ordered agrees
    | plain shape values given encoded =>
      rw [shape] at agrees
      obtain ⟨⟨map, rfl, ordered⟩, agrees⟩ := agrees
      cases given
      exact flatten_struct ih encoded ordered agrees

theorem flatten_of_encodeArguments {function : Abi.FunctionArtifact} {args : List AbiValue}
    {out : List Fr} (done : encodeArguments function args = .ok out)
    (agrees : AgreesElements (function.parameters.map (·.typ)) args) :
    abiValuesToFields args = out := by
  unfold encodeArguments at done
  split at done
  next => cases done
  next lengths =>
    exact flatten_elements (fun t _ => flattens t) ((List.length_map _).trans (not_not.mp lengths)) done
      agrees

/-! ## The wrapped entrypoint call -/

/-- The fields of a call in the order of the names of its struct. -/
theorem flatten_call (call : EncodedCall) :
    flattenAbiValue (buildEncodedCallValue call) =
      [call.argsHash, call.functionSelector, Fr.ofBool call.hideMsgSender, Fr.ofBool call.isPublic,
        Fr.ofBool call.isStatic, call.targetAddress] := by
  rw [buildEncodedCallValue_eq]
  rfl

/-- A call whose target is, as a field, what both of its flags are. -/
def SameBothWays (call : EncodedCall) : Prop :=
  call.hideMsgSender = call.isStatic ∧ call.targetAddress = Fr.ofBool call.hideMsgSender

theorem ofBool_inj {a b : Bool} : Fr.ofBool a = Fr.ofBool b ↔ a = b := by
  cases a <;> cases b <;> decide

theorem flatten_call_iff (call : EncodedCall) :
    flattenAbiValue (buildEncodedCallValue call) = call.toFields ↔ SameBothWays call := by
  rw [flatten_call, EncodedCall.toFields, SameBothWays]
  simp only [List.cons.injEq, true_and, and_true, ofBool_inj]
  constructor
  · rintro ⟨target, static, -⟩
    exact ⟨static.symm, target.symm⟩
  · rintro ⟨same, target⟩
    rw [target, same]
    exact ⟨rfl, rfl, rfl⟩

theorem length_flatten_call (call : EncodedCall) :
    (flattenAbiValue (buildEncodedCallValue call)).length = call.toFields.length := by
  rw [flatten_call]
  rfl

/-- Calls take six fields either way, so they agree one by one. -/
theorem flatten_calls_iff (calls : List EncodedCall) :
    abiValuesToFields (calls.map buildEncodedCallValue) = calls.flatMap (·.toFields) ↔
      ∀ call ∈ calls, SameBothWays call := by
  induction calls with
  | nil => exact iff_of_true rfl (by simp)
  | cons call rest ih =>
    rw [List.map_cons, abiValuesToFields, List.flatMap_cons, List.forall_mem_cons, ← ih,
      ← flatten_call_iff]
    constructor
    · exact fun same => List.append_inj same (length_flatten_call call)
    · rintro ⟨first, later⟩
      rw [first, later]

theorem flatten_entrypointArgs (encoded : EncodedAppEntrypointCalls)
    (options : DefaultAccountEntrypointOptions) :
    abiValuesToFields (entrypointArgs encoded options) =
      abiValuesToFields (encoded.encodedCalls.map buildEncodedCallValue) ++
        ([encoded.txNonce] ++ [frOfU128 options.feePaymentMethodOptions.discriminant,
          Fr.ofBool options.cancellable]) := by
  have nonneg : flattenInteger options.feePaymentMethodOptions.discriminant =
      frOfU128 options.feePaymentMethodOptions.discriminant := by
    cases options.feePaymentMethodOptions <;> rfl
  simp only [entrypointArgs, buildAppPayloadValue_eq, abiValuesToFields, flattenAbiValue,
    flattenMembers, nonneg, List.append_nil, List.append_assoc, List.cons_append, List.nil_append]

/-- The wrapped call flattens to its encoding exactly where each of its calls does. -/
theorem flatten_entrypointArgs_iff {encoded : EncodedAppEntrypointCalls}
    (five : encoded.encodedCalls.length = appMaxCalls) (options : DefaultAccountEntrypointOptions)
    {out : List Fr} (done : encodeArguments entrypointAbi (entrypointArgs encoded options) = .ok out) :
    abiValuesToFields (entrypointArgs encoded options) = out ↔
      ∀ call ∈ encoded.encodedCalls, SameBothWays call := by
  rw [encodeArguments_entrypoint five, EncodedAppEntrypointCalls.toFields] at done
  cases done
  rw [flatten_entrypointArgs, ← flatten_calls_iff, List.append_assoc, List.append_left_inj]

/-! ## Where the guess is wrong -/

theorem flatten_string_iff {length : Nat} {text : String} {out : List Fr}
    (done : encodeValue (.string length) (.string text) = .ok out) :
    flattenAbiValue (.string text) = out ↔ text.toUTF8.data.toList.length = length := by
  refine ⟨fun same => ?_, flatten_of_encodeString done⟩
  have longer := done
  unfold encodeValue encodeString at longer
  dsimp only at longer
  split at longer
  next => cases longer
  next room =>
    cases longer
    rw [flattenAbiValue, List.self_eq_append_right, List.replicate_eq_nil_iff] at same
    omega

/-- An option given bare is encoded after its flag, which the flattening does not add. -/
theorem flatten_bare_option {name : String} {p q : AbiParameter} {value : AbiValue} {out : List Fr}
    (option : structShape name [p, q] = .option)
    (done : encodeValue (.struct name [p, q]) value = .ok out) (bare : ∀ map, value ≠ .struct map)
    (agrees : Agrees q.typ value) : flattenAbiValue value ≠ out := by
  cases structEncoded done with
  | option shape p' q' two done =>
    cases two
    rcases encodeOption_eq_ok done with ⟨map, _, _, _, _, same, -⟩ | ⟨-, content, inner, rfl⟩
    · exact absurd same (bare map)
    · rw [flattens q.typ inner agrees]
      exact List.ne_cons_self
  | address shape => exact absurd (option.symm.trans shape) (by decide)
  | selector shape => exact absurd (option.symm.trans shape) (by decide)
  | wrapped shape => exact absurd (option.symm.trans shape) (by decide)
  | boundedVec shape => exact absurd (option.symm.trans shape) (by decide)
  | plain shape => exact absurd (option.symm.trans shape) (by decide)

/-- A bounded vector given as its items is encoded with padding and a length, which the
flattening does not add. -/
theorem flatten_boundedVec {name : String} {p q : AbiParameter} {element : AbiType} {maxLen : Nat}
    {items : List AbiValue} {out : List Fr} (bounded : structShape name [p, q] = .boundedVec)
    (storage : p.typ = .array element maxLen)
    (done : encodeValue (.struct name [p, q]) (.array items) = .ok out)
    (agrees : ∀ item ∈ items, Agrees element item) : flattenAbiValue (.array items) ≠ out := by
  cases structEncoded done with
  | boundedVec shape p' q' element' maxLen' two storage' done =>
    cases two
    cases storage.symm.trans storage'
    obtain ⟨_, given, done⟩ := bind_eq_ok.mp done
    cases given
    split at done
    next => cases done
    next =>
      obtain ⟨encoded, head, done⟩ := bind_eq_ok.mp done
      cases done
      rw [flattenAbiValue, flatten_items (flattens element) head agrees, List.append_assoc]
      intro same
      exact absurd (List.self_eq_append_right.mp same) (by simp)
  | address shape => exact absurd (bounded.symm.trans shape) (by decide)
  | selector shape => exact absurd (bounded.symm.trans shape) (by decide)
  | wrapped shape => exact absurd (bounded.symm.trans shape) (by decide)
  | option shape => exact absurd (bounded.symm.trans shape) (by decide)
  | plain shape => exact absurd (bounded.symm.trans shape) (by decide)

/-! ## Hashes -/

section Hashes
variable (poseidon2 : List Fr → Fr)

/-- `hash.rs::compute_inner_auth_wit_hash`, with `domain_separator::AUTHWIT_INNER`. -/
def computeInnerAuthWitHash (args : List Fr) : Fr :=
  Hash.poseidon2HashWithSeparator poseidon2 args 221354163

/-- `hash.rs::compute_inner_auth_wit_hash_from_action`. -/
def computeInnerAuthWitHashFromAction (caller : AztecAddress) (call : FunctionCall) : Fr :=
  computeInnerAuthWitHash poseidon2 [caller.inner, call.selector.toField,
    Hash.computeVarArgsHash poseidon2 (abiValuesToFields call.args)]

theorem wrapped_eq {entrypoint : DefaultAccountEntrypoint} {exec wrapped : ExecutionPayload}
    {chainInfo : ChainInfo} {options : DefaultAccountEntrypointOptions} {random : Fr}
    (built : entrypoint.wrapExecutionPayload poseidon2 exec chainInfo options random = .ok wrapped) :
    exec.calls.length ≤ appMaxCalls ∧ ∃ call, wrapped.calls = [call] ∧
      call.args = entrypointArgs (encodedOf poseidon2 exec.calls (options.txNonce.getD random)) options := by
  obtain ⟨callData, data, done⟩ := bind_eq_ok.mp built
  have few : exec.calls.length ≤ appMaxCalls := by
    obtain ⟨encoded, created, -⟩ := bind_eq_ok.mp data
    unfold EncodedAppEntrypointCalls.create at created
    split at created
    next => cases created
    next few => exact not_lt.mp few
  rw [buildEntrypointCallData_eq few] at data
  obtain ⟨payloadAuthWitness, -, given⟩ := bind_eq_ok.mp data
  cases given
  cases done
  exact ⟨few, _, rfl, rfl⟩

theorem sameBothWays_padded {calls : List FunctionCall} {txNonce : Fr} :
    (∀ call ∈ (encodedOf poseidon2 calls txNonce).encodedCalls, SameBothWays call) ↔
      ∀ call ∈ calls, call.hideMsgSender = call.isStatic ∧
        call.toAddress.inner = Fr.ofBool call.hideMsgSender := by
  rw [encodedOf, List.forall_mem_map, paddedCalls, List.forall_mem_append]
  refine and_iff_left ?_
  intro call padding
  rw [List.eq_of_mem_replicate padding]
  exact ⟨rfl, rfl⟩

end Hashes

/-- Arguments that reach no wrong guess flatten to their encoding, so the hash in an
authorization is that of the fields the circuit receives. The guess is wrong for every
other integer and string, for bare options and for bounded vectors given by their items;
and the wrapped call of an account agrees exactly where the target of each call is, as a
field, what both of its flags are. -/
theorem flattening_agrees (poseidon2 : List Fr → Fr) :
    (∀ function args out, encodeArguments function args = .ok out →
      AgreesElements (function.parameters.map (·.typ)) args →
      abiValuesToFields args = out ∧
      ∀ caller call, call.args = args → computeInnerAuthWitHashFromAction poseidon2 caller call =
        computeInnerAuthWitHash poseidon2
          [caller.inner, call.selector.toField, Hash.computeVarArgsHash poseidon2 out]) ∧
    ((∀ sign width i, flattenInteger i = encodeInteger sign width i ↔ IntegerAgrees sign width i) ∧
      (∀ length text out, encodeValue (.string length) (.string text) = .ok out →
        (flattenAbiValue (.string text) = out ↔ text.toUTF8.data.toList.length = length)) ∧
      (∀ name p q value out, structShape name [p, q] = .option →
        encodeValue (.struct name [p, q]) value = .ok out → (∀ map, value ≠ .struct map) →
        Agrees q.typ value → flattenAbiValue value ≠ out) ∧
      ∀ name p q element maxLen items out, structShape name [p, q] = .boundedVec →
        p.typ = .array element maxLen → encodeValue (.struct name [p, q]) (.array items) = .ok out →
        (∀ item ∈ items, Agrees element item) → flattenAbiValue (.array items) ≠ out) ∧
    ∀ (entrypoint : DefaultAccountEntrypoint) exec chainInfo options random wrapped,
      entrypoint.wrapExecutionPayload poseidon2 exec chainInfo options random = .ok wrapped →
      ∃ call, wrapped.calls = [call] ∧ ∀ out, encodeArguments entrypointAbi call.args = .ok out →
        (abiValuesToFields call.args = out ↔ ∀ call ∈ exec.calls,
          call.hideMsgSender = call.isStatic ∧ call.toAddress.inner = Fr.ofBool call.hideMsgSender) := by
  refine ⟨?_, ⟨?_, ?_, ?_, ?_⟩, ?_⟩
  · intro function args out done agrees
    have same := flatten_of_encodeArguments done agrees
    refine ⟨same, fun caller call given => ?_⟩
    rw [computeInnerAuthWitHashFromAction, given, same]
  · exact fun sign width i => flattenInteger_eq_iff
  · exact fun length text out done => flatten_string_iff done
  · exact fun name p q value out option done bare agrees => flatten_bare_option option done bare agrees
  · exact fun name p q element maxLen items out bounded storage done agrees =>
      flatten_boundedVec bounded storage done agrees
  · intro entrypoint exec chainInfo options random wrapped built
    obtain ⟨few, call, only, args⟩ := wrapped_eq poseidon2 built
    refine ⟨call, only, fun out done => ?_⟩
    rw [args] at done ⊢
    rw [flatten_entrypointArgs_iff (length_encodedOf few _) options done, sameBothWays_padded]

/-- A transfer of an amount by a signed difference, with a memo of four bytes. -/
def transfer : Abi.FunctionArtifact where
  name := "transfer"
  functionType := .privateFunction
  parameters := [⟨"to", addressStruct, none⟩, ⟨"difference", .integer "signed" 64, none⟩,
    ⟨"memo", .string 4, none⟩,
    ⟨"note", .struct "Note" [⟨"owner", .field, none⟩, ⟨"value", .integer "unsigned" 128, none⟩], none⟩]

/-- Arguments of a transfer, as its ABI lays them out. -/
def transferArgs : List AbiValue :=
  [.field 9, .integer (-5), .string "rent", .struct [("owner", .field 3), ("value", .integer 4)]]

theorem transfer_flattens :
    encodeArguments transfer transferArgs = .ok (abiValuesToFields transferArgs) ∧
      abiValuesToFields transferArgs = [9, 18446744073709551611, 114, 101, 110, 116, 3, 4] := by
  have encoded : encodeArguments transfer transferArgs =
      .ok [9, 18446744073709551611, 114, 101, 110, 116, 3, 4] := rfl
  have agrees : AgreesElements (transfer.parameters.map (·.typ)) transferArgs :=
    ⟨trivial, .inr ⟨rfl, by decide⟩, rfl, ⟨⟨_, rfl, rfl⟩, trivial, .inl (by decide), trivial⟩, trivial⟩
  have flat := ((flattening_agrees spread).1 transfer _ _ encoded agrees).1
  exact ⟨encoded.trans (congrArg Except.ok flat.symm), flat⟩

/-- A call to a contract other than zero and one. -/
def oneCall : ExecutionPayload where
  calls := [
    { toAddress := ⟨2⟩, selector := ⟨7⟩, args := [.field 99], functionType := .privateFunction }]

/-- The wrapped call of an account is hashed over fields the entrypoint never receives. -/
theorem wrapped_call_flattens_apart : ∃ wrapped call out,
    signingEntrypoint.wrapExecutionPayload spread oneCall ⟨31337, 1⟩ {} 11 = .ok wrapped ∧
      wrapped.calls = [call] ∧ encodeArguments entrypointAbi call.args = .ok out ∧
      abiValuesToFields call.args ≠ out ∧
      Hash.computeVarArgsHash spread (abiValuesToFields call.args) ≠
        Hash.computeVarArgsHash spread out := by
  have built : ∃ wrapped call,
      signingEntrypoint.wrapExecutionPayload spread oneCall ⟨31337, 1⟩ {} 11 = .ok wrapped ∧
        wrapped.calls = [call] ∧ call.args = entrypointArgs (encodedOf spread oneCall.calls 11) {} := by
    unfold DefaultAccountEntrypoint.wrapExecutionPayload
    rw [buildEntrypointCallData_eq (by decide)]
    exact ⟨_, _, rfl, rfl, rfl⟩
  obtain ⟨wrapped, call, built, only, args⟩ := built
  have five : (encodedOf spread oneCall.calls 11).encodedCalls.length = appMaxCalls :=
    length_encodedOf (by decide) 11
  have done := encodeArguments_entrypoint five {}
  rw [← args] at done
  refine ⟨wrapped, call, _, built, only, done, ?_⟩
  rw [args, flatten_entrypointArgs]
  decide +kernel

end AztecPxe.AbiFlatten
