import AztecPxe.AbiCodec
import AztecPxe.Entrypoints
import AztecPxe.FeePayload

/-! The payload of the account entrypoint on its two sides. `account/src/entrypoint`
packs up to five calls into a struct keyed by names, encodes it by the ABI of the
entrypoint and puts the hashed arguments of the calls beside it; `embedded_pxe.rs` reads
the calls back at fixed offsets and finds their arguments by hash in one list. -/
namespace AztecPxe.AccountEntrypoint
open AztecPxe AbiCodec

/-! ## The untyped flattening -/

/-- `flatten_abi_value` of an integer, without the width of its type. -/
def flattenInteger (i : Int) : Fr :=
  if 0 ≤ i then frOfU128 i
  else if -2 ^ 63 ≤ i then frOfU128 (i + 2 ^ 64)
  else frOfU128 i

mutual

/-- `hash.rs::flatten_abi_value`: the fields it appends. -/
def flattenAbiValue : AbiValue → List Fr
  | .field f => [f]
  | .boolean flag => [Fr.ofBool flag]
  | .integer i => [flattenInteger i]
  | .array items => abiValuesToFields items
  | .string text => text.toUTF8.data.toList.map (fun byte => Fr.ofU64 byte.toNat)
  | .struct map => flattenMembers map
  | .tuple items => abiValuesToFields items

/-- `hash.rs::abi_values_to_fields`. -/
def abiValuesToFields : List AbiValue → List Fr
  | [] => []
  | value :: rest => flattenAbiValue value ++ abiValuesToFields rest

/-- The values of a map, in the order of their names. -/
def flattenMembers : List (String × AbiValue) → List Fr
  | [] => []
  | (_, value) :: rest => flattenAbiValue value ++ flattenMembers rest

end

theorem abiValuesToFields_fields (fields : List Fr) : abiValuesToFields (fields.map .field) = fields := by
  induction fields with
  | nil => rfl
  | cons f rest ih =>
    rw [List.map_cons, abiValuesToFields, ih]
    rfl

/-! ## Encoding -/

/-- `encoding.rs::APP_MAX_CALLS`. -/
def appMaxCalls : Nat := 5

/-- `encoding.rs::EncodedCall`. -/
structure EncodedCall where
  argsHash : Fr
  functionSelector : Fr
  targetAddress : Fr
  isPublic : Bool
  hideMsgSender : Bool
  isStatic : Bool
  deriving DecidableEq, Repr

/-- `EncodedCall::to_fields`. -/
def EncodedCall.toFields (call : EncodedCall) : List Fr :=
  [call.argsHash, call.functionSelector, call.targetAddress, Fr.ofBool call.isPublic,
    Fr.ofBool call.hideMsgSender, Fr.ofBool call.isStatic]

/-- `encoding.rs::EncodedAppEntrypointCalls`. -/
structure EncodedAppEntrypointCalls where
  encodedCalls : List EncodedCall
  txNonce : Fr
  hashedArgsList : List HashedValues

/-- The calls of a payload, padded with empty ones. -/
def paddedCalls (calls : List FunctionCall) : List FunctionCall :=
  calls ++ List.replicate (appMaxCalls - calls.length) .empty

/-- `EncodedAppEntrypointCalls::to_fields`. -/
def EncodedAppEntrypointCalls.toFields (encoded : EncodedAppEntrypointCalls) : List Fr :=
  encoded.encodedCalls.flatMap (·.toFields) ++ [encoded.txNonce]

section Encoding
variable (poseidon2 : List Fr → Fr)

/-- The hashed values of one call: calldata for a public call, arguments for any other. -/
def hashedArgs (call : FunctionCall) : HashedValues :=
  if call.functionType = .publicFunction then
    Hash.fromCalldata poseidon2 (call.selector.toField :: abiValuesToFields call.args)
  else Hash.fromArgs poseidon2 (abiValuesToFields call.args)

/-- One round of `EncodedAppEntrypointCalls::create`. -/
def encodeCall (call : FunctionCall) : EncodedCall where
  argsHash := (hashedArgs poseidon2 call).hash
  functionSelector := call.selector.toField
  targetAddress := call.toAddress.inner
  isPublic := call.functionType = .publicFunction
  hideMsgSender := call.hideMsgSender
  isStatic := call.isStatic

/-- `EncodedAppEntrypointCalls::create`, with the nonce drawn when none is given. -/
def EncodedAppEntrypointCalls.create (calls : List FunctionCall) (txNonce : Option Fr) (random : Fr) :
    Except Error EncodedAppEntrypointCalls :=
  if appMaxCalls < calls.length then
    .error (.invalidData ("Too many calls: " ++ toString calls.length ++ " > " ++
      toString appMaxCalls))
  else .ok
    { encodedCalls := (paddedCalls calls).map (encodeCall poseidon2)
      txNonce := txNonce.getD random
      hashedArgsList := (paddedCalls calls).map (hashedArgs poseidon2) }

/-- `EncodedAppEntrypointCalls::hash`, with `domain_separator::SIGNATURE_PAYLOAD`. -/
def EncodedAppEntrypointCalls.hash (encoded : EncodedAppEntrypointCalls) : Fr :=
  Hash.poseidon2HashWithSeparator poseidon2 encoded.toFields 463525807

end Encoding

/-- A `BTreeMap` of these insertions. -/
def structOf (insertions : List (String × AbiValue)) : AbiValue :=
  .struct (insertions.foldl (fun map entry => insertMember entry.1 entry.2 map) [])

/-- `build_encoded_call_value`. -/
def buildEncodedCallValue (call : EncodedCall) : AbiValue :=
  structOf [("args_hash", .field call.argsHash),
    ("function_selector", .field call.functionSelector),
    ("target_address", .field call.targetAddress),
    ("is_public", .boolean call.isPublic),
    ("hide_msg_sender", .boolean call.hideMsgSender),
    ("is_static", .boolean call.isStatic)]

/-- `build_app_payload_value`. -/
def buildAppPayloadValue (encoded : EncodedAppEntrypointCalls) : AbiValue :=
  structOf [("function_calls", .array (encoded.encodedCalls.map buildEncodedCallValue)),
    ("tx_nonce", .field encoded.txNonce)]

/-- The type of a selector in `entrypoint_abi`. -/
def functionSelectorStruct : AbiType :=
  .struct "authwit::aztec::protocol_types::abis::function_selector::FunctionSelector"
    [⟨"inner", .integer "unsigned" 32, none⟩]

/-- The type of an address in `entrypoint_abi`. -/
def addressStruct : AbiType :=
  .struct "authwit::aztec::protocol_types::address::AztecAddress" [⟨"inner", .field, none⟩]

/-- The type of a call in `entrypoint_abi`. -/
def functionCallStruct : AbiType :=
  .struct "authwit::entrypoint::function_call::FunctionCall"
    [⟨"args_hash", .field, none⟩, ⟨"function_selector", functionSelectorStruct, none⟩,
      ⟨"target_address", addressStruct, none⟩, ⟨"is_public", .boolean, none⟩,
      ⟨"hide_msg_sender", .boolean, none⟩, ⟨"is_static", .boolean, none⟩]

/-- The type of a payload in `entrypoint_abi`. -/
def appPayloadStruct : AbiType :=
  .struct "authwit::entrypoint::app::AppPayload"
    [⟨"function_calls", .array functionCallStruct 5, none⟩, ⟨"tx_nonce", .field, none⟩]

/-- `DefaultAccountEntrypoint::entrypoint_abi`. -/
def entrypointAbi : Abi.FunctionArtifact where
  name := "entrypoint"
  functionType := .privateFunction
  parameters := [⟨"app_payload", appPayloadStruct, some "public"⟩,
    ⟨"fee_payment_method", .integer "unsigned" 8, none⟩, ⟨"cancellable", .boolean, none⟩]

/-- `AccountFeePaymentMethodOptions`. -/
inductive AccountFeePaymentMethodOptions where
  | external
  | preexistingFeeJuice
  | feeJuiceWithClaim
  deriving DecidableEq, Repr

/-- The discriminant of the option. -/
def AccountFeePaymentMethodOptions.discriminant : AccountFeePaymentMethodOptions → Int
  | external => 0
  | preexistingFeeJuice => 1
  | feeJuiceWithClaim => 2

/-- `DefaultAccountEntrypointOptions`, with its defaults. -/
structure DefaultAccountEntrypointOptions where
  cancellable : Bool := false
  txNonce : Option Fr := none
  feePaymentMethodOptions : AccountFeePaymentMethodOptions := .external
  deriving DecidableEq, Repr

/-- The arguments of the entrypoint. -/
def entrypointArgs (encoded : EncodedAppEntrypointCalls) (options : DefaultAccountEntrypointOptions) :
    List AbiValue :=
  [buildAppPayloadValue encoded, .integer options.feePaymentMethodOptions.discriminant,
    .boolean options.cancellable]

/-- `EntrypointCallData`. -/
structure EntrypointCallData where
  encodedCalls : EncodedAppEntrypointCalls
  encodedArgs : List Fr
  functionSelector : FunctionSelector
  payloadAuthWitness : AuthWitness

/-- `tx.rs::TxContext`. -/
structure TxContext where
  chainId : Fr
  version : Fr
  gasSettings : GasSettings

/-- `account.rs::TxExecutionRequest`. -/
structure TxExecutionRequest where
  origin : AztecAddress
  functionSelector : FunctionSelector
  firstCallArgsHash : Fr
  txContext : TxContext
  argsOfCalls : List HashedValues
  authWitnesses : List AuthWitness
  capsules : List Capsule
  salt : Fr
  feePayer : Option AztecAddress

/-- `DefaultAccountEntrypoint`: its address, and what its authorization provider answers to
a hash. -/
structure DefaultAccountEntrypoint where
  address : AztecAddress
  createAuthWit : Fr → ChainInfo → Except Error AuthWitness

namespace DefaultAccountEntrypoint
variable (poseidon2 : List Fr → Fr) (entrypoint : DefaultAccountEntrypoint)

/-- `build_entrypoint_call_data`. -/
def buildEntrypointCallData (exec : ExecutionPayload) (chainInfo : ChainInfo)
    (options : DefaultAccountEntrypointOptions) (random : Fr) : Except Error EntrypointCallData := do
  let encodedCalls ← EncodedAppEntrypointCalls.create poseidon2 exec.calls options.txNonce random
  let encodedArgs ← encodeArguments entrypointAbi (entrypointArgs encodedCalls options)
  let payloadAuthWitness ← entrypoint.createAuthWit (encodedCalls.hash poseidon2) chainInfo
  return {
    encodedCalls := encodedCalls
    encodedArgs := encodedArgs
    functionSelector := Abi.FunctionArtifact.selectorFromNameAndParameters poseidon2
      entrypointAbi.name entrypointAbi.parameters
    payloadAuthWitness := payloadAuthWitness }

/-- `create_tx_execution_request`, with the nonce and the salt it draws. -/
def createTxExecutionRequest (exec : ExecutionPayload) (gasSettings : GasSettings)
    (chainInfo : ChainInfo) (options : DefaultAccountEntrypointOptions) (random salt : Fr) :
    Except Error TxExecutionRequest := do
  let callData ← entrypoint.buildEntrypointCallData poseidon2 exec chainInfo options random
  let entrypointHashedArgs := Hash.fromArgs poseidon2 callData.encodedArgs
  return {
    origin := entrypoint.address
    functionSelector := callData.functionSelector
    firstCallArgsHash := entrypointHashedArgs.hash
    txContext := ⟨chainInfo.chainId, chainInfo.version, gasSettings⟩
    argsOfCalls := callData.encodedCalls.hashedArgsList ++ [entrypointHashedArgs] ++
      exec.extraHashedArgs
    authWitnesses := exec.authWitnesses ++ [callData.payloadAuthWitness]
    capsules := exec.capsules
    salt := salt
    feePayer := exec.feePayer.filter (· ≠ entrypoint.address) }

/-- `wrap_execution_payload`, with the nonce it draws. -/
def wrapExecutionPayload (exec : ExecutionPayload) (chainInfo : ChainInfo)
    (options : DefaultAccountEntrypointOptions) (random : Fr) : Except Error ExecutionPayload := do
  let callData ← entrypoint.buildEntrypointCallData poseidon2 exec chainInfo options random
  return {
    calls := [{
      toAddress := entrypoint.address
      selector := callData.functionSelector
      args := entrypointArgs callData.encodedCalls options
      functionType := .privateFunction }]
    authWitnesses := callData.payloadAuthWitness :: exec.authWitnesses
    capsules := exec.capsules
    extraHashedArgs := callData.encodedCalls.hashedArgsList ++ exec.extraHashedArgs
    feePayer := exec.feePayer.or (some entrypoint.address) }

end DefaultAccountEntrypoint

/-! ## Decoding -/

/-- `embedded_pxe.rs::DecodedTxExecutionRequest`. -/
structure DecodedTxExecutionRequest where
  origin : AztecAddress
  firstCallArgsHash : Fr
  argsOfCalls : List HashedValues
  feePayer : Option AztecAddress

/-- What the PXE reads of the request's JSON. -/
def TxExecutionRequest.decoded (request : TxExecutionRequest) : DecodedTxExecutionRequest where
  origin := request.origin
  firstCallArgsHash := request.firstCallArgsHash
  argsOfCalls := request.argsOfCalls
  feePayer := request.feePayer

/-- `embedded_pxe.rs::ParsedEntrypointCall`. -/
structure ParsedEntrypointCall where
  argsHash : Fr
  selector : FunctionSelector
  toAddress : AztecAddress
  isPublic : Bool
  hideMsgSender : Bool
  isStatic : Bool
  deriving DecidableEq, Repr

/-- The call at this offset of the fields, which are known to reach so far. -/
def parseCall (fields : List Fr) (offset : Nat) : ParsedEntrypointCall where
  argsHash := fields.getD offset 0
  selector := .fromField (fields.getD (offset + 1) 0)
  toAddress := ⟨fields.getD (offset + 2) 0⟩
  isPublic := fields.getD (offset + 3) 0 ≠ 0
  hideMsgSender := fields.getD (offset + 4) 0 ≠ 0
  isStatic := fields.getD (offset + 5) 0 ≠ 0

/-- `parse_encoded_calls`. -/
def parseEncodedCalls (fields : List Fr) : Except Error (List ParsedEntrypointCall) :=
  let callFields := 6
  let required := callFields * appMaxCalls + 1
  if fields.length < required then
    .error (.invalidData ("entrypoint args too short: " ++ toString fields.length ++ " < " ++
      toString required))
  else .ok ((List.range appMaxCalls).map (fun idx => parseCall fields (idx * callFields)))

/-- The loop of `decode_entrypoint_calls`. -/
def decodeCalls (argsOfCalls : List HashedValues) :
    List ParsedEntrypointCall → Except Error (List DecodedEntrypointCall)
  | [] => .ok []
  | call :: rest =>
    if call.toAddress = .zero ∨ call.selector = .empty then decodeCalls argsOfCalls rest
    else match argsOfCalls.find? (·.hash = call.argsHash) with
      | none => .error (.invalidData ("call args hash " ++ hex32 call.argsHash.val ++
          " not found in argsOfCalls"))
      | some hashedArgs => do
        let encodedArgs := if call.isPublic then hashedArgs.values.drop 1 else hashedArgs.values
        let decoded ← decodeCalls argsOfCalls rest
        return ⟨call.toAddress, call.selector, encodedArgs, call.hideMsgSender, call.isStatic⟩ :: decoded

/-- `EmbeddedPxe::decode_entrypoint_calls`. -/
def decodeEntrypointCalls (request : DecodedTxExecutionRequest) :
    Except Error (List DecodedEntrypointCall) :=
  match request.argsOfCalls.find? (·.hash = request.firstCallArgsHash) with
  | none => .error (.invalidData "firstCallArgsHash not found in argsOfCalls")
  | some entrypointArgs => do
    let encodedCalls ← parseEncodedCalls entrypointArgs.values
    decodeCalls request.argsOfCalls encodedCalls

/-! ## What the ABI makes of a payload -/

section InsertMember
variable {α : Type} {name key : String} (value held : α) (rest : List (String × α))

theorem insertMember_nil : insertMember name value [] = [(name, value)] := rfl

theorem insertMember_before (before : name < key) :
    insertMember name value ((key, held) :: rest) = (name, value) :: (key, held) :: rest :=
  if_pos before

theorem insertMember_after (after : key < name) :
    insertMember name value ((key, held) :: rest) = (key, held) :: insertMember name value rest := by
  rw [insertMember, if_neg after.asymm, if_neg after.ne']

end InsertMember

theorem buildEncodedCallValue_eq (call : EncodedCall) :
    buildEncodedCallValue call = .struct [("args_hash", .field call.argsHash),
      ("function_selector", .field call.functionSelector),
      ("hide_msg_sender", .boolean call.hideMsgSender),
      ("is_public", .boolean call.isPublic),
      ("is_static", .boolean call.isStatic),
      ("target_address", .field call.targetAddress)] := by
  simp (disch := decide) only [buildEncodedCallValue, structOf, List.foldl_cons, List.foldl_nil,
    insertMember_nil, insertMember_before, insertMember_after]

theorem buildAppPayloadValue_eq (encoded : EncodedAppEntrypointCalls) :
    buildAppPayloadValue encoded = .struct
      [("function_calls", .array (encoded.encodedCalls.map buildEncodedCallValue)),
        ("tx_nonce", .field encoded.txNonce)] := by
  simp (disch := decide) only [buildAppPayloadValue, structOf, List.foldl_cons, List.foldl_nil,
    insertMember_nil, insertMember_after]

theorem encodeValue_call (call : EncodedCall) :
    encodeValue functionCallStruct (buildEncodedCallValue call) = .ok call.toFields := by
  rw [buildEncodedCallValue_eq]
  rfl

theorem encodeItems_calls (calls : List EncodedCall) :
    encodeItems (encodeValue functionCallStruct) (calls.map buildEncodedCallValue) =
      .ok (calls.flatMap (·.toFields)) := by
  induction calls with
  | nil => rfl
  | cons call rest ih =>
    rw [List.map_cons, encodeItems, encodeValue_call, ih]
    rfl

theorem encodeValue_items (element : AbiType) {length : Nat} {items : List AbiValue}
    (count : items.length = length) :
    encodeValue (.array element length) (.array items) = encodeItems (encodeValue element) items :=
  if_neg (not_not.mpr count)

theorem encodeValue_payload {encoded : EncodedAppEntrypointCalls}
    (five : encoded.encodedCalls.length = appMaxCalls) :
    encodeValue appPayloadStruct (buildAppPayloadValue encoded) = .ok encoded.toFields := by
  have calls : encodeValue (.array functionCallStruct 5)
      (.array (encoded.encodedCalls.map buildEncodedCallValue)) =
        .ok (encoded.encodedCalls.flatMap (·.toFields)) := by
    have count : (encoded.encodedCalls.map buildEncodedCallValue).length = 5 := by
      rw [List.length_map]
      exact five
    rw [encodeValue_items _ count, encodeItems_calls]
  have members : encodeValue appPayloadStruct (buildAppPayloadValue encoded) = (do
      let calls ← encodeValue (.array functionCallStruct 5)
        (.array (encoded.encodedCalls.map buildEncodedCallValue))
      return calls ++ [encoded.txNonce]) := by
    rw [buildAppPayloadValue_eq]
    rfl
  rw [members, calls]
  rfl

theorem encodeArguments_entrypoint {encoded : EncodedAppEntrypointCalls}
    (five : encoded.encodedCalls.length = appMaxCalls) (options : DefaultAccountEntrypointOptions) :
    encodeArguments entrypointAbi (entrypointArgs encoded options) = .ok (encoded.toFields ++
      [frOfU128 options.feePaymentMethodOptions.discriminant, Fr.ofBool options.cancellable]) := by
  have fields : encodeArguments entrypointAbi (entrypointArgs encoded options) = (do
      let payload ← encodeValue appPayloadStruct (buildAppPayloadValue encoded)
      return payload ++
        [frOfU128 options.feePaymentMethodOptions.discriminant, Fr.ofBool options.cancellable]) := rfl
  rw [fields, encodeValue_payload five]
  rfl

/-! ## Reading the payload back -/

/-- An encoded call as `parse_encoded_calls` reports it. -/
def EncodedCall.parsed (call : EncodedCall) : ParsedEntrypointCall where
  argsHash := call.argsHash
  selector := .fromField call.functionSelector
  toAddress := ⟨call.targetAddress⟩
  isPublic := call.isPublic
  hideMsgSender := call.hideMsgSender
  isStatic := call.isStatic

theorem ofBool_ne_zero (flag : Bool) : decide (Fr.ofBool flag ≠ 0) = flag := by
  cases flag <;> rfl

theorem parseCall_first (call : EncodedCall) (rest : List Fr) :
    parseCall (call.toFields ++ rest) 0 = call.parsed := by
  have flags : parseCall (call.toFields ++ rest) 0 =
      { call.parsed with
        isPublic := decide (Fr.ofBool call.isPublic ≠ 0)
        hideMsgSender := decide (Fr.ofBool call.hideMsgSender ≠ 0)
        isStatic := decide (Fr.ofBool call.isStatic ≠ 0) } := rfl
  rw [flags, ofBool_ne_zero, ofBool_ne_zero, ofBool_ne_zero]
  rfl

theorem parseCall_later (call : EncodedCall) (rest : List Fr) (offset : Nat) :
    parseCall (call.toFields ++ rest) (offset + 6) = parseCall rest offset := rfl

/-- Calls that are six fields each are found at the multiples of six. -/
theorem parseCalls_toFields (calls : List EncodedCall) (rest : List Fr) :
    (List.range calls.length).map (fun idx => parseCall (calls.flatMap (·.toFields) ++ rest) (idx * 6)) =
      calls.map (·.parsed) := by
  induction calls with
  | nil => rfl
  | cons call later ih =>
    rw [List.length_cons, List.range_succ_eq_map, List.map_cons, List.map_map, List.flatMap_cons,
      List.append_assoc, Nat.zero_mul, parseCall_first, List.map_cons]
    congr 1
    refine Eq.trans (List.map_congr_left fun idx _ => ?_) ih
    rw [Function.comp_apply, Nat.succ_mul, parseCall_later]

theorem length_toFields (calls : List EncodedCall) :
    (calls.flatMap (·.toFields)).length = calls.length * 6 := by
  induction calls with
  | nil => rfl
  | cons call later ih =>
    rw [List.flatMap_cons, List.length_append, ih, List.length_cons, Nat.succ_mul, Nat.add_comm]
    rfl

theorem parseEncodedCalls_toFields {encoded : EncodedAppEntrypointCalls}
    (five : encoded.encodedCalls.length = appMaxCalls) (rest : List Fr) :
    parseEncodedCalls (encoded.toFields ++ rest) = .ok (encoded.encodedCalls.map (·.parsed)) := by
  have long : ¬ (encoded.toFields ++ rest).length < 6 * appMaxCalls + 1 := by
    rw [EncodedAppEntrypointCalls.toFields, List.length_append, List.length_append, length_toFields,
      five, List.length_singleton]
    omega
  rw [parseEncodedCalls, if_neg long, ← five, EncodedAppEntrypointCalls.toFields, List.append_assoc,
    parseCalls_toFields]

theorem fromField_toField (selector : FunctionSelector) :
    FunctionSelector.fromField selector.toField = selector := by
  have small : selector.bytes.val < 2 ^ 32 := selector.bytes.isLt
  have value : selector.toField.val = selector.bytes.val := by
    have low : selector.bytes.val % 2 ^ 64 = selector.bytes.val := Nat.mod_eq_of_lt (by omega)
    rw [FunctionSelector.toField, Fr.ofU64, low]
    exact Nat.mod_eq_of_lt (lt_trans small (by decide))
  unfold FunctionSelector.fromField
  rw [value]
  congr 1
  exact Fin.ext (Nat.mod_eq_of_lt small)

/-! ## The hashed values of a request -/

section Codec
variable (poseidon2 : List Fr → Fr)

/-- The hashes `HashedValues` computes, of arguments and of calldata. -/
def valueHashes : List (List Fr → Fr) :=
  [Hash.computeVarArgsHash poseidon2, Hash.computeCalldataHash poseidon2]

/-- The hash beside the values is computed from them. -/
def Hashed (hashed : HashedValues) : Prop :=
  ∃ hash ∈ valueHashes poseidon2, hashed.hash = hash hashed.values

/-- No two of these lists share a hash, whether as arguments or as calldata. -/
def CollisionFree (lists : List (List Fr)) : Prop :=
  ∀ hash ∈ valueHashes poseidon2, ∀ other ∈ valueHashes poseidon2, ∀ xs ∈ lists, ∀ ys ∈ lists,
    hash xs = other ys → xs = ys

variable {poseidon2}

theorem hashed_fromArgs (args : List Fr) : Hashed poseidon2 (Hash.fromArgs poseidon2 args) :=
  ⟨_, List.mem_cons_self, rfl⟩

theorem hashed_hashedArgs (call : FunctionCall) : Hashed poseidon2 (hashedArgs poseidon2 call) := by
  unfold hashedArgs
  split
  next => exact ⟨_, List.mem_cons_of_mem _ List.mem_cons_self, rfl⟩
  next => exact hashed_fromArgs _

/-- A hash looked up among hashed values finds the values it was computed from. -/
theorem find_hashed {list : List HashedValues} (genuine : ∀ hv ∈ list, Hashed poseidon2 hv)
    (free : CollisionFree poseidon2 (list.map (·.values))) {hv : HashedValues} (inside : hv ∈ list) :
    ∃ found, list.find? (·.hash = hv.hash) = some found ∧ found.values = hv.values := by
  have some_found : (list.find? (·.hash = hv.hash)).isSome :=
    List.find?_isSome.mpr ⟨hv, inside, decide_eq_true rfl⟩
  obtain ⟨found, find⟩ := Option.isSome_iff_exists.mp some_found
  refine ⟨found, find, ?_⟩
  have found_inside := List.mem_of_find?_eq_some find
  have same : found.hash = hv.hash := by simpa using List.find?_some find
  obtain ⟨hash, hash_known, hash_eq⟩ := genuine found found_inside
  obtain ⟨other, other_known, other_eq⟩ := genuine hv inside
  exact free hash hash_known other other_known _ (List.mem_map_of_mem found_inside) _
    (List.mem_map_of_mem inside) (by rw [← hash_eq, ← other_eq, same])

/-- The call is neither to the zero address nor to the empty selector. -/
def Addressed (call : FunctionCall) : Prop := call.toAddress ≠ .zero ∧ call.selector ≠ .empty

instance : DecidablePred Addressed := fun _ => inferInstanceAs (Decidable (_ ∧ _))

/-- The call as the PXE is to decode it, with its arguments flattened. -/
def flatCall (call : FunctionCall) : DecodedEntrypointCall where
  toAddress := call.toAddress
  selector := call.selector
  encodedArgs := abiValuesToFields call.args
  hideMsgSender := call.hideMsgSender
  isStatic := call.isStatic

theorem values_hashedArgs (poseidon2 : List Fr → Fr) (call : FunctionCall) :
    (if (encodeCall poseidon2 call).isPublic then (hashedArgs poseidon2 call).values.drop 1
      else (hashedArgs poseidon2 call).values) = abiValuesToFields call.args := by
  unfold encodeCall hashedArgs
  by_cases isPublic : call.functionType = .publicFunction
  · simp [isPublic, Hash.fromCalldata]
  · simp [isPublic, Hash.fromArgs]

/-- The loop drops the calls that are not addressed and gives every other its own
arguments back. -/
theorem decodeCalls_encoded {argsOfCalls : List HashedValues}
    (genuine : ∀ hv ∈ argsOfCalls, Hashed poseidon2 hv)
    (free : CollisionFree poseidon2 (argsOfCalls.map (·.values))) {calls : List FunctionCall}
    (inside : ∀ call ∈ calls, hashedArgs poseidon2 call ∈ argsOfCalls) :
    decodeCalls argsOfCalls (calls.map (fun call => (encodeCall poseidon2 call).parsed)) =
      .ok ((calls.filter Addressed).map flatCall) := by
  induction calls with
  | nil => rfl
  | cons call rest ih =>
    have later := ih (fun call held => inside call (List.mem_cons_of_mem _ held))
    have selector : (encodeCall poseidon2 call).parsed.selector = call.selector :=
      fromField_toField call.selector
    rw [List.map_cons, decodeCalls]
    by_cases addressed : Addressed call
    · have kept : ¬ ((encodeCall poseidon2 call).parsed.toAddress = .zero ∨
          (encodeCall poseidon2 call).parsed.selector = .empty) := by
        rw [selector]
        exact not_or.mpr addressed
      obtain ⟨found, find, values⟩ := find_hashed genuine free (inside call List.mem_cons_self)
      have arguments : (if (encodeCall poseidon2 call).parsed.isPublic then found.values.drop 1
          else found.values) = abiValuesToFields call.args := by
        rw [values]
        exact values_hashedArgs poseidon2 call
      have lookup : argsOfCalls.find? (·.hash = (encodeCall poseidon2 call).parsed.argsHash) =
        some found := find
      have filtered : (call :: rest).filter (Addressed ·) = call :: rest.filter (Addressed ·) :=
        List.filter_cons_of_pos (by simpa using addressed)
      rw [if_neg kept, lookup, later, filtered, List.map_cons, selector]
      dsimp only
      rw [arguments]
      rfl
    · have dropped : (encodeCall poseidon2 call).parsed.toAddress = .zero ∨
          (encodeCall poseidon2 call).parsed.selector = .empty := by
        rw [selector]
        exact (not_and_or.mp addressed).imp not_not.mp not_not.mp
      rw [if_pos dropped, later, List.filter_cons_of_neg (by simpa using addressed)]

/-! ## The request -/

theorem length_paddedCalls {calls : List FunctionCall} (few : calls.length ≤ appMaxCalls) :
    (paddedCalls calls).length = appMaxCalls := by
  rw [paddedCalls, List.length_append, List.length_replicate, Nat.add_sub_cancel' few]

/-- The padding is not addressed. -/
theorem filter_paddedCalls (calls : List FunctionCall) :
    (paddedCalls calls).filter (Addressed ·) = calls.filter (Addressed ·) := by
  have empty : ¬ Addressed .empty := fun addressed => addressed.1 rfl
  have padding : (List.replicate (appMaxCalls - calls.length) FunctionCall.empty).filter (Addressed ·) =
      [] := by
    rw [List.filter_eq_nil_iff]
    intro call held
    rw [List.eq_of_mem_replicate held]
    simpa using empty
  rw [paddedCalls, List.filter_append, padding, List.append_nil]

variable (poseidon2) in
/-- The encoded calls of a payload that fits. -/
def encodedOf (calls : List FunctionCall) (txNonce : Fr) : EncodedAppEntrypointCalls where
  encodedCalls := (paddedCalls calls).map (encodeCall poseidon2)
  txNonce := txNonce
  hashedArgsList := (paddedCalls calls).map (hashedArgs poseidon2)

theorem length_encodedOf {calls : List FunctionCall} (few : calls.length ≤ appMaxCalls) (txNonce : Fr) :
    (encodedOf poseidon2 calls txNonce).encodedCalls.length = appMaxCalls :=
  (List.length_map _).trans (length_paddedCalls few)

/-- For so few calls nothing but the authorization provider can fail. -/
theorem buildEntrypointCallData_eq {entrypoint : DefaultAccountEntrypoint} {exec : ExecutionPayload}
    (few : exec.calls.length ≤ appMaxCalls) (chainInfo : ChainInfo)
    (options : DefaultAccountEntrypointOptions) (random : Fr) :
    entrypoint.buildEntrypointCallData poseidon2 exec chainInfo options random = (do
      let encoded := encodedOf poseidon2 exec.calls (options.txNonce.getD random)
      let payloadAuthWitness ← entrypoint.createAuthWit (encoded.hash poseidon2) chainInfo
      return {
        encodedCalls := encoded
        encodedArgs := encoded.toFields ++ [frOfU128 options.feePaymentMethodOptions.discriminant,
          Fr.ofBool options.cancellable]
        functionSelector := Abi.FunctionArtifact.selectorFromNameAndParameters poseidon2
          entrypointAbi.name entrypointAbi.parameters
        payloadAuthWitness := payloadAuthWitness }) := by
  have created : EncodedAppEntrypointCalls.create poseidon2 exec.calls options.txNonce random =
      .ok (encodedOf poseidon2 exec.calls (options.txNonce.getD random)) := if_neg (not_lt.mpr few)
  unfold DefaultAccountEntrypoint.buildEntrypointCallData
  rw [created, ok_bind, encodeArguments_entrypoint (length_encodedOf few _), ok_bind]

section Request
variable {entrypoint : DefaultAccountEntrypoint} {exec : ExecutionPayload} {gasSettings : GasSettings}
  {chainInfo : ChainInfo} {options : DefaultAccountEntrypointOptions} {random salt : Fr}

theorem error_of_create (few : exec.calls.length ≤ appMaxCalls) {e : Error}
    (failed : entrypoint.createTxExecutionRequest poseidon2 exec gasSettings chainInfo options random
      salt = .error e) : ∃ hash, entrypoint.createAuthWit hash chainInfo = .error e := by
  unfold DefaultAccountEntrypoint.createTxExecutionRequest at failed
  rw [buildEntrypointCallData_eq few] at failed
  dsimp only at failed
  cases signed : entrypoint.createAuthWit
      ((encodedOf poseidon2 exec.calls (options.txNonce.getD random)).hash poseidon2) chainInfo with
  | error e' =>
    rw [signed] at failed
    cases failed
    exact ⟨_, signed⟩
  | ok payloadAuthWitness =>
    rw [signed] at failed
    cases failed

/-- The hashed values of a request: those of its calls, of its own arguments, and the extra
ones. -/
theorem argsOfCalls_of_create (few : exec.calls.length ≤ appMaxCalls) {request : TxExecutionRequest}
    (built : entrypoint.createTxExecutionRequest poseidon2 exec gasSettings chainInfo options random
      salt = .ok request) :
    ∃ txNonce rest,
      request.argsOfCalls = (paddedCalls exec.calls).map (hashedArgs poseidon2) ++
        [Hash.fromArgs poseidon2 ((encodedOf poseidon2 exec.calls txNonce).toFields ++ rest)] ++
        exec.extraHashedArgs ∧
      request.firstCallArgsHash =
        (Hash.fromArgs poseidon2 ((encodedOf poseidon2 exec.calls txNonce).toFields ++ rest)).hash := by
  unfold DefaultAccountEntrypoint.createTxExecutionRequest at built
  rw [buildEntrypointCallData_eq few] at built
  obtain ⟨callData, built, done⟩ := bind_eq_ok.mp built
  obtain ⟨payloadAuthWitness, -, given⟩ := bind_eq_ok.mp built
  cases given
  cases done
  exact ⟨_, _, rfl, rfl⟩

end Request

/-- A request whose hashed values are those of its padded calls, of its payload and some
extra ones is decoded into the addressed calls. -/
theorem decode_of_hashed {calls : List FunctionCall} (few : calls.length ≤ appMaxCalls) {txNonce : Fr}
    {rest : List Fr} {extraHashedArgs : List HashedValues}
    (extras : ∀ hv ∈ extraHashedArgs, Hashed poseidon2 hv) (request : DecodedTxExecutionRequest)
    (list : request.argsOfCalls = (paddedCalls calls).map (hashedArgs poseidon2) ++
      [Hash.fromArgs poseidon2 ((encodedOf poseidon2 calls txNonce).toFields ++ rest)] ++
      extraHashedArgs)
    (first : request.firstCallArgsHash =
      (Hash.fromArgs poseidon2 ((encodedOf poseidon2 calls txNonce).toFields ++ rest)).hash)
    (free : CollisionFree poseidon2 (request.argsOfCalls.map (·.values))) :
    decodeEntrypointCalls request = .ok ((calls.filter (Addressed ·)).map flatCall) ∧
    ∃ found, request.argsOfCalls.find? (·.hash = request.firstCallArgsHash) = some found ∧
      parseEncodedCalls found.values =
        .ok ((encodedOf poseidon2 calls txNonce).encodedCalls.map (·.parsed)) := by
  have held : ∀ call ∈ paddedCalls calls, hashedArgs poseidon2 call ∈ request.argsOfCalls := by
    intro call inside
    rw [list]
    exact List.mem_append_left _ (List.mem_append_left _ (List.mem_map_of_mem inside))
  have payload : Hash.fromArgs poseidon2 ((encodedOf poseidon2 calls txNonce).toFields ++ rest) ∈
      request.argsOfCalls := by
    rw [list]
    exact List.mem_append_left _ (List.mem_append_right _ List.mem_cons_self)
  have genuine : ∀ hv ∈ request.argsOfCalls, Hashed poseidon2 hv := by
    intro hv inside
    rw [list, List.mem_append, List.mem_append, List.mem_singleton, List.mem_map] at inside
    obtain (⟨call, -, rfl⟩ | rfl) | extra := inside
    · exact hashed_hashedArgs call
    · exact hashed_fromArgs _
    · exact extras hv extra
  obtain ⟨found, find, same⟩ := find_hashed genuine free payload
  rw [← first] at find
  have parsed : parseEncodedCalls found.values =
      .ok ((encodedOf poseidon2 calls txNonce).encodedCalls.map (·.parsed)) := by
    rw [same, Hash.fromArgs, parseEncodedCalls_toFields (length_encodedOf few txNonce)]
  refine ⟨?_, found, find, parsed⟩
  unfold decodeEntrypointCalls
  rw [find]
  dsimp only
  rw [parsed, ok_bind, encodedOf, List.map_map, ← filter_paddedCalls]
  exact decodeCalls_encoded genuine free held

/-- The argument fields of a call whose arguments are fields. -/
def argumentFields (call : FunctionCall) : List Fr :=
  call.args.filterMap fun
    | .field f => some f
    | _ => none

/-- A call with its own target, selector, argument fields and flags. -/
def decodedCall (call : FunctionCall) : DecodedEntrypointCall where
  toAddress := call.toAddress
  selector := call.selector
  encodedArgs := argumentFields call
  hideMsgSender := call.hideMsgSender
  isStatic := call.isStatic

theorem flatCall_of_fields {call : FunctionCall}
    (fields : ∃ args : List Fr, call.args = args.map .field) : flatCall call = decodedCall call := by
  obtain ⟨args, same⟩ := fields
  have own : argumentFields call = args := by
    rw [argumentFields, same, List.filterMap_map]
    exact List.filterMap_some
  rw [flatCall, decodedCall, own, same, abiValuesToFields_fields]

/-- For at most five calls with fields for arguments, the request fails only where the
authorization provider does. Without collisions among the values it hashes, the PXE
decodes from it the calls with a target and a selector, in order and each as it was, and
the parsed calls are public where the padded ones are. -/
theorem decode_of_request (poseidon2 : List Fr → Fr) (entrypoint : DefaultAccountEntrypoint)
    (exec : ExecutionPayload) (gasSettings : GasSettings) (chainInfo : ChainInfo)
    (options : DefaultAccountEntrypointOptions) (random salt : Fr)
    (few : exec.calls.length ≤ 5)
    (fields : ∀ call ∈ exec.calls, ∃ args : List Fr, call.args = args.map .field)
    (extras : ∀ hv ∈ exec.extraHashedArgs, Hashed poseidon2 hv) :
    (∀ e, entrypoint.createTxExecutionRequest poseidon2 exec gasSettings chainInfo options random
        salt = .error e → ∃ hash, entrypoint.createAuthWit hash chainInfo = .error e) ∧
    ∀ request, entrypoint.createTxExecutionRequest poseidon2 exec gasSettings chainInfo options random
        salt = .ok request → CollisionFree poseidon2 (request.argsOfCalls.map (·.values)) →
      decodeEntrypointCalls request.decoded =
        .ok ((exec.calls.filter (Addressed ·)).map decodedCall) ∧
      ∃ entrypointArgs parsed,
        request.argsOfCalls.find? (·.hash = request.firstCallArgsHash) = some entrypointArgs ∧
        parseEncodedCalls entrypointArgs.values = .ok parsed ∧
        parsed.map (·.isPublic) =
          (paddedCalls exec.calls).map (fun call => decide (call.functionType = .publicFunction)) := by
  refine ⟨fun e failed => error_of_create few failed, fun request built free => ?_⟩
  obtain ⟨txNonce, rest, list, first⟩ := argsOfCalls_of_create few built
  obtain ⟨decoded, found, find, parsed⟩ :=
    decode_of_hashed few extras request.decoded list first free
  have own : (exec.calls.filter (Addressed ·)).map flatCall =
      (exec.calls.filter (Addressed ·)).map decodedCall :=
    List.map_congr_left fun call inside => flatCall_of_fields (fields call (List.mem_of_mem_filter inside))
  refine ⟨decoded.trans (congrArg Except.ok own), found, _, find, parsed, ?_⟩
  rw [encodedOf, List.map_map, List.map_map]
  rfl

end Codec

/-- A hash that keeps short lists of small fields apart. -/
def spread (fields : List Fr) : Fr := fields.foldl (fun acc f => acc * 1000003 + f + 1) 7

/-- An account whose provider signs everything. -/
def signingEntrypoint : DefaultAccountEntrypoint where
  address := ⟨42⟩
  createAuthWit hash _ := .ok ⟨hash, [hash, 1]⟩

/-- A private call, a call to nobody and a public call, with an extra hashed value. -/
def threeCalls : ExecutionPayload where
  calls := [
    { toAddress := ⟨1⟩, selector := ⟨0x11223344⟩, args := [.field 42], functionType := .privateFunction },
    { toAddress := .zero, selector := ⟨5⟩, args := [.field 6], functionType := .privateFunction },
    { toAddress := ⟨2⟩, selector := ⟨7⟩, args := [.field 99, .field 3], functionType := .publicFunction,
      isStatic := true, hideMsgSender := true }]
  extraHashedArgs := [Hash.fromArgs spread [8, 9]]

theorem three_calls_decoded : ∃ request,
    signingEntrypoint.createTxExecutionRequest spread threeCalls {} ⟨31337, 1⟩ {} 11 12 = .ok request ∧
      decodeEntrypointCalls request.decoded = .ok
        [⟨⟨1⟩, ⟨0x11223344⟩, [42], false, false⟩, ⟨⟨2⟩, ⟨7⟩, [99, 3], true, true⟩] := by
  have fields : ∀ call ∈ threeCalls.calls, ∃ args : List Fr, call.args = args.map .field := by
    intro call inside
    simp only [threeCalls, List.mem_cons, List.not_mem_nil, or_false] at inside
    obtain rfl | rfl | rfl := inside
    · exact ⟨[42], rfl⟩
    · exact ⟨[6], rfl⟩
    · exact ⟨[99, 3], rfl⟩
  have extras : ∀ hv ∈ threeCalls.extraHashedArgs, Hashed spread hv := by
    intro hv inside
    rw [List.mem_singleton.mp inside]
    exact hashed_fromArgs _
  have decoded := decode_of_request spread signingEntrypoint threeCalls {} ⟨31337, 1⟩ {} 11 12 (by decide)
    fields extras
  cases built : signingEntrypoint.createTxExecutionRequest spread threeCalls {} ⟨31337, 1⟩ {} 11 12 with
  | error e =>
    obtain ⟨hash, failed⟩ := decoded.1 e built
    cases failed
  | ok request =>
    have free : CollisionFree spread (request.argsOfCalls.map (·.values)) := by
      unfold DefaultAccountEntrypoint.createTxExecutionRequest at built
      rw [buildEntrypointCallData_eq (by decide)] at built
      cases built
      unfold CollisionFree
      decide +kernel
    exact ⟨request, rfl, (decoded.2 request built free).1⟩
end AztecPxe.AccountEntrypoint
