import AztecPxe.BigEndian
import AztecPxe.NodeWaits

/-! The L1 client of `l1_client.rs`: messages to the inbox and the bridging of fee juice. A
transaction's data are the call of a contract, its selector and a word for each argument, and
the arguments are read back from them. -/
namespace AztecPxe

/-- How a call ends without `Ok`; a slice too long for its place panics. -/
inductive L1Stop where
  | error (e : Error)
  | panic

/-- What comes back of a request: nothing, no JSON, or JSON. -/
inductive Posted where
  | unsent (text : String)
  | unread (text : String)
  | answered (json : Json)

/-- A request and what came back of it. -/
structure L1Exchange where
  request : Json
  reply : Posted

/-- `Keccak256`. -/
structure Keccak where
  hash : List UInt8 → List UInt8
  length_hash : ∀ data, (hash data).length = 32

/-- What the L1 client takes from its surroundings: the node behind its URL, the clock and
the source of random fields, with the rendering of JSON and the hashes. -/
structure L1World (τ : Type) where
  post : Json → τ → Posted × τ
  clock : Clock τ
  random : τ → Fr × τ
  render : Json → String
  keccak : Keccak
  poseidon2 : List Fr → Fr

/-- `L1ContractAddresses`. -/
structure L1ContractAddresses where
  inbox : String
  outbox : String
  rollup : String
  feeJuicePortal : String
  feeJuice : Option String := none
  feeAssetHandler : Option String := none

/-- `L1ContractAddresses::from_json`. -/
def L1ContractAddresses.fromJson (json : Json) : Option L1ContractAddresses := do
  let inbox ← (← json.get "inboxAddress").asStr
  let outbox ← (← json.get "outboxAddress").asStr
  let rollup ← (← json.get "rollupAddress").asStr
  let feeJuicePortal ← (← json.get "feeJuicePortalAddress").asStr
  return { inbox, outbox, rollup, feeJuicePortal
           feeJuice := (json.get "feeJuiceAddress").bind Json.asStr
           feeAssetHandler := (json.get "feeAssetHandlerAddress").bind Json.asStr }

/-- `L1ToL2MessageSentResult`. -/
structure L1ToL2MessageSentResult where
  msgHash : Fr
  globalLeafIndex : Fr
  txHash : String

/-- `FeeJuiceBridgeResult`. -/
structure FeeJuiceBridgeResult where
  claimAmount : Fin (2 ^ 128)
  claimSecret : Fr
  messageLeafIndex : Nat
  messageHash : Fr

namespace L1Client
open Polling Procedure ClassId BigEndian

/-! ## Bytes and words -/

section Bytes

/-- A hexadecimal digit, in lower case. -/
def hexDigit (k : Nat) : Char :=
  Char.ofNat (if k < 10 then '0'.toNat + k else 'a'.toNat + (k - 10))

/-- `0x` and `hex::encode`. -/
def hexText (bytes : List UInt8) : String :=
  String.ofList ('0' :: 'x' :: bytes.flatMap fun byte =>
    [hexDigit (byte.toNat / 16), hexDigit (byte.toNat % 16)])

/-- `hex::decode` behind an optional `0x`, with nothing for what it refuses. -/
def hexBytes (text : String) : List UInt8 :=
  let digits := match text.toList with
    | '0' :: 'x' :: rest => rest
    | all => all
  (hexDecode digits).getD []

/-- Bytes filled up from the left to a word of thirty-two. -/
def padded (bytes : List UInt8) : List UInt8 := List.replicate (32 - bytes.length) 0 ++ bytes

/-- `padded[start..].copy_from_slice(..)`, which panics for more bytes than a word has. -/
def word (bytes : List UInt8) : Except L1Stop (List UInt8) :=
  if bytes.length ≤ 32 then .ok (padded bytes) else .error .panic

/-- A number of sixteen bytes as a word. -/
def amountWord (amount : Fin (2 ^ 128)) : List UInt8 :=
  List.replicate 16 0 ++ beBytes 16 amount.val

variable (keccak : Keccak)

/-- The selector of a function: four bytes of its signature's hash. -/
def keccakSelector (signature : String) : List UInt8 :=
  (keccak.hash signature.toUTF8.toList).take 4

/-- `encode_send_l2_message`. -/
def encodeSendL2Message (recipient : AztecAddress) (rollupVersion : UInt64)
    (content secretHash : Fr) : String :=
  hexText (keccakSelector keccak "sendL2Message((bytes32,uint256),bytes32,bytes32)" ++
    toBeBytes recipient.inner ++ (List.replicate 24 0 ++ beBytes 8 rollupVersion.toNat) ++
    toBeBytes content ++ toBeBytes secretHash)

/-- `encode_mint`. -/
def encodeMint (recipient : String) : Except L1Stop String := do
  let address ← word (hexBytes recipient)
  return hexText (keccakSelector keccak "mint(address)" ++ address)

/-- `encode_approve`. -/
def encodeApprove (spender : String) (amount : Fin (2 ^ 128)) : Except L1Stop String := do
  let address ← word (hexBytes spender)
  return hexText (keccakSelector keccak "approve(address,uint256)" ++ address ++ amountWord amount)

/-- `encode_deposit_to_aztec_public`. -/
def encodeDepositToAztecPublic (recipient : AztecAddress) (amount : Fin (2 ^ 128))
    (secretHash : Fr) : String :=
  hexText (keccakSelector keccak "depositToAztecPublic(bytes32,uint256,bytes32)" ++
    toBeBytes recipient.inner ++ amountWord amount ++ toBeBytes secretHash)

/-- `encode_mint_amount`. -/
def encodeMintAmount : String := hexText (keccakSelector keccak "mintAmount()")

/-- The first topic of a `MessageSent` event. -/
def messageSentSig : String :=
  hexText (keccak.hash "MessageSent(uint256,uint256,bytes32,bytes16)".toUTF8.toList)

end Bytes

/-! ## Requests -/

section Requests
variable {τ : Type} (l1 : L1World τ)

/-- The body of a request. -/
def bodyOf (method : String) (params : Json) : Json :=
  .obj [("jsonrpc", .str "2.0"), ("method", .str method), ("params", params), ("id", .posInt 1)]

/-- What `rpc_call` makes of a reply. -/
def resultOf : Posted → Except L1Stop Json
  | .unsent text => .error (.error (.invalidData ("L1 RPC error: " ++ text)))
  | .unread text => .error (.error (.invalidData ("L1 RPC parse error: " ++ text)))
  | .answered json =>
    match json.get "error" with
    | some err => .error (.error (.invalidData ("L1 RPC error: " ++ l1.render err)))
    | none => .ok ((json.get "result").getD .null)

/-- `EthClient::rpc_call`. -/
def rpcCall (method : String) (params : Json) : Procedure L1Stop τ Json :=
  lift fun state =>
    let posted := l1.post (bodyOf method params) state
    (resultOf l1 posted.1, posted.2)

/-- The first account of the node, if it lists one. -/
def firstAccount (result : Json) : Option String := (result.asArray.bind List.head?).bind Json.asStr

/-- `EthClient::get_account`. -/
def getAccount : Procedure L1Stop τ String := do
  let result ← rpcCall l1 "eth_accounts" (.arr [])
  match firstAccount result with
  | some account => pure account
  | none => throw (.error (.invalidData "no L1 accounts available"))

/-- A transaction, as `eth_sendTransaction` takes it. -/
structure L1Tx where
  target : String
  data : String
  account : String

/-- The parameters of `eth_sendTransaction`. -/
def L1Tx.params (tx : L1Tx) : Json :=
  .arr [.obj [("from", .str tx.account), ("to", .str tx.target), ("data", .str tx.data),
    ("gas", .str "0xf4240")]]

/-- `EthClient::send_transaction`. -/
def sendTransaction (tx : L1Tx) : Procedure L1Stop τ String := do
  let result ← rpcCall l1 "eth_sendTransaction" tx.params
  match result.asStr with
  | some txHash => pure txHash
  | none => throw (.error (.invalidData "no tx hash in response"))

/-- The turns of `wait_for_receipt` that are left. -/
def receiptWithin (txHash : String) : Nat → Procedure L1Stop τ Json
  | 0 => throw (.error (.timeout "L1 tx receipt not available after 30s"))
  | turns + 1 => do
    let result ← rpcCall l1 "eth_getTransactionReceipt" (.arr [.str txHash])
    match result with
    | .null => do
      sleepFor l1.clock (Duration.fromMillis 500)
      receiptWithin txHash turns
    | receipt => pure receipt

/-- `EthClient::wait_for_receipt`. -/
def waitForReceipt (txHash : String) : Procedure L1Stop τ Json := receiptWithin l1 txHash 60

/-- The status of a receipt. -/
def statusOf (receipt : Json) : String := ((receipt.get "status").bind Json.asStr).getD "0x0"

/-- The receipt of a transaction that was taken, or the error for its status. -/
def successOf (txHash : String) (reverted : String → Error) : Procedure L1Stop τ Json := do
  let receipt ← waitForReceipt l1 txHash
  if statusOf receipt = "0x1" then pure receipt
  else throw (.error (reverted (statusOf receipt)))

end Requests

/-! ## Events -/

section Events
variable (keccak : Keccak)

/-- The topics of a log. -/
def topicsOf (log : Json) : List Json := ((log.get "topics").bind Json.asArray).getD []

/-- A `MessageSent` event of the inbox. -/
def isMessageSent (log : Json) : Bool :=
  match topicsOf log with
  | first :: _ :: _ :: _ => first.asStr.getD "" = messageSentSig keccak
  | _ => false

/-- The bytes of the third topic. -/
def hashBytes (log : Json) : List UInt8 :=
  hexBytes ((((topicsOf log)[2]?).bind Json.asStr).getD "0x0")

/-- The bytes of a log's data. -/
def dataBytes (log : Json) : List UInt8 :=
  hexBytes (((log.get "data").bind Json.asStr).getD "0x")

/-- The message hash of a `MessageSent` event. -/
def messageHashOf (log : Json) : Except L1Stop Fr := do
  return Fr.ofBeBytes (← word (hashBytes log))

/-- The leaf index of a `MessageSent` event, as a field. -/
def leafIndexField (log : Json) : Fr :=
  if 32 ≤ (dataBytes log).length then Fr.ofBeBytes ((dataBytes log).take 32) else 0

/-- The leaf index of a `MessageSent` event, as a number: its lowest eight bytes. -/
def leafIndexNumber (log : Json) : Nat :=
  if 32 ≤ (dataBytes log).length then fromBeBytes (((dataBytes log).drop 24).take 8) else 0

/-- The first `MessageSent` event of a receipt. -/
def messageSentOf (unlogged unfound : String) (receipt : Json) : Except L1Stop Json :=
  match (receipt.get "logs").bind Json.asArray with
  | none => .error (.error (.invalidData unlogged))
  | some logs =>
    match logs.find? (isMessageSent keccak) with
    | none => .error (.error (.invalidData unfound))
    | some log => .ok log

end Events

/-- A pure step of a procedure. -/
def ofExcept {ε τ α : Type} : Except ε α → Procedure ε τ α
  | .ok a => pure a
  | .error e => throw e

section Calls
variable {τ : Type} (l1 : L1World τ)

/-! ## Messages -/

/-- What `send_l1_to_l2_message` reads off the receipt. -/
def sentResult (txHash : String) (receipt : Json) : Except L1Stop L1ToL2MessageSentResult := do
  let log ← messageSentOf l1.keccak "no logs in L1 receipt"
    "no MessageSent event found in L1 receipt" receipt
  let msgHash ← messageHashOf log
  return { msgHash := msgHash, globalLeafIndex := leafIndexField log, txHash := txHash }

/-- `send_l1_to_l2_message`. -/
def sendL1ToL2Message (inboxAddress : String) (recipient : AztecAddress) (rollupVersion : UInt64)
    (content secretHash : Fr) : Procedure L1Stop τ L1ToL2MessageSentResult := do
  let account ← getAccount l1
  let calldata := encodeSendL2Message l1.keccak recipient rollupVersion content secretHash
  let txHash ← sendTransaction l1 ⟨inboxAddress, calldata, account⟩
  let receipt ← successOf l1 txHash fun status =>
    .invalidData ("L1 tx " ++ txHash ++ " failed with status " ++ status)
  ofExcept (sentResult l1 txHash receipt)

/-! ## Fee juice -/

/-- `map_err` of what a request fails with. -/
def labelled {α : Type} (label : String) (x : Procedure L1Stop τ α) : Procedure L1Stop τ α := do
  match ← attempt x with
  | .ok a => pure a
  | .error (.error e) => throw (.error (.invalidData (label ++ e.display)))
  | .error .panic => throw .panic

theorem sixteenBytes_lt (bytes : List UInt8) : fromBeBytes (bytes.take 16) < 2 ^ 128 :=
  (fromBeBytes_lt _).trans_le (Nat.pow_le_pow_right (by decide) (List.length_take_le _ _))

/-- The number `mintAmount()` returns: the low half of its word. -/
def mintAmountOf (result : Json) : Except L1Stop (Fin (2 ^ 128)) :=
  let bytes := hexBytes (result.asStr.getD "0x0")
  if 32 ≤ bytes.length then .ok ⟨fromBeBytes ((bytes.drop 16).take 16), sixteenBytes_lt _⟩
  else .error (.error (.invalidData ("mintAmount() returned invalid data (" ++
    toString bytes.length ++ " bytes)")))

/-- The query of the amount. -/
def queryMintAmount (handler : String) : Procedure L1Stop τ (Fin (2 ^ 128)) := do
  let result ← labelled "mintAmount() call failed: " (rpcCall l1 "eth_call"
    (.arr [.obj [("to", .str handler), ("data", .str (encodeMintAmount l1.keccak))],
      .str "latest"]))
  ofExcept (mintAmountOf result)

/-- One transaction of the bridging: sent, and seen to succeed. -/
def step (name : String) (tx : L1Tx) : Procedure L1Stop τ Json := do
  let txHash ← labelled (name ++ " tx send failed: ") (sendTransaction l1 tx)
  successOf l1 txHash fun status => .invalidData (name ++ " tx reverted: " ++ status)

/-- `generate_claim_secret`. -/
def generateClaimSecret : Procedure L1Stop τ (Fr × Fr) :=
  lift fun state =>
    let (secret, next) := l1.random state
    (.ok (secret, Hash.poseidon2HashWithSeparator l1.poseidon2 [secret] 4199652938), next)

/-- What `prepare_fee_juice_on_l1` reads off the receipt of the deposit. -/
def bridgeResult (amount : Fin (2 ^ 128)) (secret : Fr) (receipt : Json) :
    Except L1Stop FeeJuiceBridgeResult := do
  let log ← messageSentOf l1.keccak "no logs in depositToAztecPublic receipt"
    "no MessageSent event found in deposit receipt" receipt
  let messageHash ← messageHashOf log
  return { claimAmount := amount, claimSecret := secret, messageLeafIndex := leafIndexNumber log
           messageHash := messageHash }

/-- The deposit and its receipt. -/
def deposit (portal account : String) (recipient : AztecAddress) (amount : Fin (2 ^ 128)) :
    Procedure L1Stop τ FeeJuiceBridgeResult := do
  let (secret, secretHash) ← generateClaimSecret l1
  let data := encodeDepositToAztecPublic l1.keccak recipient amount secretHash
  let receipt ← step l1 "depositToAztecPublic" ⟨portal, data, account⟩
  ofExcept (bridgeResult l1 amount secret receipt)

/-- The bridging, from the addresses of its contracts on. -/
def bridge (portal feeJuice handler : String) (recipient : AztecAddress) :
    Procedure L1Stop τ FeeJuiceBridgeResult := do
  let account ← getAccount l1
  let amount ← queryMintAmount l1 handler
  let mintData ← ofExcept (encodeMint l1.keccak account)
  let _ ← step l1 "mint" ⟨handler, mintData, account⟩
  let approveData ← ofExcept (encodeApprove l1.keccak portal amount)
  let _ ← step l1 "approve" ⟨feeJuice, approveData, account⟩
  deposit l1 portal account recipient amount

/-- `prepare_fee_juice_on_l1`. -/
def prepareFeeJuiceOnL1 (addresses : L1ContractAddresses) (recipient : AztecAddress) :
    Procedure L1Stop τ FeeJuiceBridgeResult :=
  match addresses.feeJuice with
  | none => throw (.error (.invalidData "feeJuiceAddress not in node info"))
  | some feeJuice =>
    match addresses.feeAssetHandler with
    | none => throw (.error (.invalidData "feeAssetHandlerAddress not in node info"))
    | some handler => bridge l1 addresses.feeJuicePortal feeJuice handler recipient

end Calls

/-! ## Calls of contracts -/

/-- A call of an L1 contract, its arguments all of one word. -/
structure L1Call where
  target : String
  signature : String
  words : List Nat

namespace L1Call
variable (keccak : Keccak) (account : String) (call : L1Call)

/-- The transaction of a call: the selector, and a word for each argument. -/
def tx : L1Tx where
  target := call.target
  data := hexText (keccakSelector keccak call.signature ++ call.words.flatMap (beBytes 32))
  account := account

end L1Call

/-- The call of the inbox that sends a message. -/
def inboxCall (inboxAddress : String) (recipient : AztecAddress) (rollupVersion : UInt64)
    (content secretHash : Fr) : L1Call where
  target := inboxAddress
  signature := "sendL2Message((bytes32,uint256),bytes32,bytes32)"
  words := [recipient.inner.val, rollupVersion.toNat, content.val, secretHash.val]

/-- The call that mints for an account. -/
def mintCall (handler account : String) : L1Call where
  target := handler
  signature := "mint(address)"
  words := [fromBeBytes (hexBytes account)]

/-- The call that lets the portal take an amount. -/
def approveCall (feeJuice portal : String) (amount : Fin (2 ^ 128)) : L1Call where
  target := feeJuice
  signature := "approve(address,uint256)"
  words := [fromBeBytes (hexBytes portal), amount.val]

/-- The call that deposits an amount for a recipient who knows a secret. -/
def depositCall (portal : String) (recipient : AztecAddress) (amount : Fin (2 ^ 128))
    (secretHash : Fr) : L1Call where
  target := portal
  signature := "depositToAztecPublic(bytes32,uint256,bytes32)"
  words := [recipient.inner.val, amount.val, secretHash.val]

section Encoding
variable (keccak : Keccak)

theorem hexDigit_toDigit : ∀ k < 16, toDigit (hexDigit k) 16 = some k := by decide

theorem hexDecode_digits (bytes : List UInt8) :
    hexDecode (bytes.flatMap fun byte => [hexDigit (byte.toNat / 16), hexDigit (byte.toNat % 16)]) =
      some bytes := by
  induction bytes with
  | nil => rfl
  | cons byte rest ih =>
    have small : byte.toNat < 256 := byte.toNat_lt
    have whole : byte.toNat / 16 * 16 + byte.toNat % 16 = byte.toNat := Nat.div_add_mod' _ 16
    have high := hexDigit_toDigit (byte.toNat / 16) (by omega)
    have low := hexDigit_toDigit (byte.toNat % 16) (by omega)
    rw [List.flatMap_cons, List.cons_append, List.cons_append, List.nil_append]
    simp only [hexDecode, high, low, ih, whole, UInt8.ofNat_toNat, Option.bind_eq_bind,
      Option.bind_some, Option.pure_def]

/-- Bytes are read back from their text. -/
theorem hexBytes_hexText (bytes : List UInt8) : hexBytes (hexText bytes) = bytes := by
  unfold hexBytes hexText
  rw [String.toList_ofList]
  simp only [hexDecode_digits, Option.getD_some]

/-- Zeros before a number make it a wider one. -/
theorem zeros_append_beBytes {k len n : Nat} (small : n < 256 ^ len) :
    List.replicate k 0 ++ beBytes len n = beBytes (k + len) n := by
  have zeros : fromBeBytes (List.replicate k 0) = 0 := by
    induction k with
    | zero => rfl
    | succ k ih => rwa [List.replicate_succ]
  have value : fromBeBytes (List.replicate k 0 ++ beBytes len n) = n := by
    rw [fromBeBytes_append, zeros, fromBeBytes_beBytes, Nat.mod_eq_of_lt small, Nat.zero_mul,
      Nat.zero_add]
  have back := beBytes_fromBeBytes (List.replicate k 0 ++ beBytes len n)
  rwa [value, List.length_append, List.length_replicate, length_beBytes, eq_comm] at back

theorem padded_eq {bytes : List UInt8} (fits : bytes.length ≤ 32) :
    padded bytes = beBytes 32 (fromBeBytes bytes) := by
  have whole := @zeros_append_beBytes (32 - bytes.length) _ _ (fromBeBytes_lt bytes)
  rwa [beBytes_fromBeBytes, Nat.sub_add_cancel fits] at whole

theorem amountWord_eq (amount : Fin (2 ^ 128)) : amountWord amount = beBytes 32 amount.val :=
  zeros_append_beBytes amount.isLt

theorem word_ok {bytes filled : List UInt8} (fits : word bytes = .ok filled) :
    filled = beBytes 32 (fromBeBytes bytes) := by
  unfold word at fits
  split at fits
  · cases fits
    exact padded_eq ‹_›
  · cases fits

theorem encodeSendL2Message_eq (inboxAddress account : String) (recipient : AztecAddress)
    (rollupVersion : UInt64) (content secretHash : Fr) :
    (⟨inboxAddress, encodeSendL2Message keccak recipient rollupVersion content secretHash,
        account⟩ : L1Tx) =
      (inboxCall inboxAddress recipient rollupVersion content secretHash).tx keccak account := by
  have version : List.replicate 24 0 ++ beBytes 8 rollupVersion.toNat =
      beBytes 32 rollupVersion.toNat := zeros_append_beBytes rollupVersion.toNat_lt
  rw [encodeSendL2Message, version]
  simp [L1Call.tx, inboxCall, toBeBytes_eq]

theorem encodeMint_ok {account data : String} (encoded : encodeMint keccak account = .ok data)
    (handler : String) :
    (⟨handler, data, account⟩ : L1Tx) = (mintCall handler account).tx keccak account := by
  unfold encodeMint at encoded
  cases fits : word (hexBytes account) with
  | error e =>
    rw [fits] at encoded
    cases encoded
  | ok address =>
    rw [fits] at encoded
    cases encoded
    simp [L1Call.tx, mintCall, word_ok fits]

theorem encodeApprove_ok {portal data : String} {amount : Fin (2 ^ 128)}
    (encoded : encodeApprove keccak portal amount = .ok data) (feeJuice account : String) :
    (⟨feeJuice, data, account⟩ : L1Tx) =
      (approveCall feeJuice portal amount).tx keccak account := by
  unfold encodeApprove at encoded
  cases fits : word (hexBytes portal) with
  | error e =>
    rw [fits] at encoded
    cases encoded
  | ok address =>
    rw [fits] at encoded
    cases encoded
    simp [L1Call.tx, approveCall, word_ok fits, amountWord_eq]

theorem encodeDeposit_eq (portal account : String) (recipient : AztecAddress)
    (amount : Fin (2 ^ 128)) (secretHash : Fr) :
    (⟨portal, encodeDepositToAztecPublic keccak recipient amount secretHash, account⟩ : L1Tx) =
      (depositCall portal recipient amount secretHash).tx keccak account := by
  simp [encodeDepositToAztecPublic, L1Call.tx, depositCall, amountWord_eq, toBeBytes_eq]

/-- The arguments in a transaction's data. -/
def argumentsOf (count : Nat) (data : String) : List Nat :=
  (List.range count).map fun i => fromBeBytes (((hexBytes data).drop (4 + 32 * i)).take 32)

/-- The arguments of a call are read back from its transaction. -/
theorem argumentsOf_tx (call : L1Call) (small : ∀ w ∈ call.words, w < 256 ^ 32) (account : String) :
    argumentsOf call.words.length (call.tx keccak account).data = call.words := by
  have selector : (keccakSelector keccak call.signature).length = 4 := by
    rw [keccakSelector, List.length_take, keccak.length_hash]
    rfl
  have past (i : Nat) (bytes : List UInt8) :
      (keccakSelector keccak call.signature ++ bytes).drop (4 + 32 * i) = bytes.drop (32 * i) := by
    rw [← selector, List.drop_length_add_append]
  unfold argumentsOf L1Call.tx
  simp only [hexBytes_hexText, past]
  generalize call.words = words at small
  induction words with
  | nil => rfl
  | cons w rest ih =>
    have own : fromBeBytes (beBytes 32 w) = w := by
      rw [fromBeBytes_beBytes, Nat.mod_eq_of_lt (small w List.mem_cons_self)]
    have later (i : Nat) : (beBytes 32 w ++ rest.flatMap (beBytes 32)).drop (32 * (i + 1)) =
        (rest.flatMap (beBytes 32)).drop (32 * i) := by
      have past := @List.drop_length_add_append _ (beBytes 32 w) (rest.flatMap (beBytes 32))
        (32 * i)
      rwa [length_beBytes, Nat.add_comm, ← Nat.mul_succ] at past
    have tail := ih fun v inside => small v (List.mem_cons_of_mem _ inside)
    rw [List.length_cons, List.range_succ_eq_map, List.map_cons, List.map_map, List.flatMap_cons,
      Nat.mul_zero, List.drop_zero, List.take_left' (length_beBytes 32 w), own]
    simp only [Function.comp_def, later, tail]

end Encoding

end L1Client
end AztecPxe
