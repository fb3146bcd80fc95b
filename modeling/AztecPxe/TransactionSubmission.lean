import AztecPxe.NodeWaits
import AztecPxe.AcvmExecutor
import AztecPxe.ClassId
import AztecPxe.FeePayload
import AztecPxe.TxConstants

/-! A transaction on its way from the wallet to the node: `send_tx` of `base_wallet.rs`
from the proof on. A preflight of the public calls, a validation that is repeated while the
node lags, the sending, and the wait until the transaction is seen. What the node is asked
is read off a log of its answers. -/
namespace AztecPxe

/-- `node.rs::TxValidationResult`. -/
inductive TxValidationResult where
  | valid
  | invalid (reason : List String)
  | skipped (reason : List String)

/-- `pxe.rs::TxProvingResult`, as `send_tx` reads it: its hash, whether it has public calls,
and its transaction as JSON. -/
structure ProvenTx where
  txHash : Option TxHash
  publicFunctionCalldata : List (List Fr)
  txJson : Except Error Json

/-- `AztecNode`, as `send_tx` asks it. -/
structure SubmissionNode (ν τ : Type) extends PolledNode ν τ where
  simulatePublicCalls : Json → Procedure Error τ Json
  isValidTx : Json → Procedure Error τ TxValidationResult
  sendTx : Json → Procedure Error τ Unit
  getTxEffect : TxHash → Procedure Error τ (Option Json)
  getNullifierMembershipWitness : Nat → Fr → Procedure Error τ (Option Json)

/-- `Pxe`, as `send_tx` asks it. -/
structure SubmissionPxe (ρ τ : Type) where
  proveTx : ρ → List AztecAddress → Procedure Error τ ProvenTx
  getContractInstance : AztecAddress → Procedure Error τ (Option Fr)
  getContractArtifact : Fr → Procedure Error τ (Option CompiledContract)
  getContracts : Procedure Error τ (List AztecAddress)

namespace TransactionSubmission
open Polling Procedure ClassId

/-! ## The messages of failed assertions -/

section Messages

/-- `u128::from_str_radix(..).ok()`. -/
def u128FromStrRadix (text : List Char) (radix : Nat) : Option Nat :=
  let digits := match text with
    | '+' :: rest => rest
    | all => all
  if digits = [] then none
  else digits.foldlM (fun value c => do
    let digit ← toDigit c radix
    let value := value * radix + digit
    if value < 2 ^ 128 then some value else none) 0

/-- `error_selector_key_from_hex`. -/
def errorSelectorKeyFromHex (selectorHex : String) : Option String :=
  let raw := match selectorHex.toList with
    | '0' :: 'x' :: rest => rest
    | all => all
  (u128FromStrRadix raw 16).map toString

/-- `decode_assertion_message_from_error_types`. -/
def decodeAssertionMessageFromErrorTypes (errorTypes : Json) (selectorKey : String) :
    Option String :=
  (errorTypes.get selectorKey).bind AcvmExecutor.describedError

/-- `known_protocol_assertion_message`. -/
def knownProtocolAssertionMessage (contractAddress : AztecAddress) (selectorKey : String) :
    Option String :=
  if contractAddress = ⟨1⟩ ∧ selectorKey = "17089945683942782951" then some "unauthorized"
  else none

/-- `known_assertion_message_by_selector`. -/
def knownAssertionMessageBySelector (selectorKey : String) : Option String :=
  if selectorKey = "17089945683942782951" then some "unauthorized"
  else if selectorKey = "7136484461999155778" then some AcvmExecutor.invalidNonce
  else if selectorKey = "1998584279744703196" then some "attempt to subtract with overflow"
  else none

variable {ρ τ : Type} (pxe : SubmissionPxe ρ τ)

/-- The artifact of a contract that is registered. -/
def registeredArtifact (address : AztecAddress) : Procedure Error τ (Option CompiledContract) := do
  match ← pxe.getContractInstance address with
  | none => pure none
  | some classId => pxe.getContractArtifact classId

/-- `public_function_error_types`. -/
def publicFunctionErrorTypes (address : AztecAddress) (selector : FunctionSelector) :
    Procedure Error τ (Option Json) := do
  let artifact ← registeredArtifact pxe address
  let function := artifact.bind fun artifact =>
    artifact.functions.find? fun function => function.selector = some selector
  pure (function.bind CompiledFunction.errorTypes)

/-- The first message a contract's functions have for a selector. -/
def messageOf (artifact : CompiledContract) (selectorKey : String) : Option String :=
  artifact.functions.findSome? fun function =>
    function.errorTypes.bind (decodeAssertionMessageFromErrorTypes · selectorKey)

/-- `find_registered_error_message_by_selector`. -/
def findRegisteredErrorMessageBySelector (selectorKey : String) :
    List AztecAddress → Procedure Error τ (Option String)
  | [] => pure none
  | address :: rest => do
    match (← registeredArtifact pxe address).bind (messageOf · selectorKey) with
    | some message => pure (some message)
    | none => findRegisteredErrorMessageBySelector selectorKey rest

/-- The contract and the function of the last entry of the error stack. -/
def failingFunction (revertReason : Json) : Option (AztecAddress × FunctionSelector) := do
  let stack ← (← revertReason.get "functionErrorStack").asArray
  let failing ← stack.getLast?
  let address ← ((failing.get "contractAddress").bind Json.asStr).bind
    fun hex => (Fr.fromHex hex).toOption
  let selector ← ((failing.get "functionSelector").bind Json.asStr).bind
    fun hex => (FunctionSelector.fromHex hex).toOption
  some (⟨address⟩, selector)

/-- The key of the error that was reverted with. -/
def revertedSelector (revertReason : Json) : Option String := do
  let revertData ← (← revertReason.get "revertData").asArray
  let hex ← (← revertData.head?).asStr
  errorSelectorKeyFromHex hex

/-- `decode_public_assertion_message`. -/
def decodePublicAssertionMessage (revertReason : Json) : Procedure Error τ (Option String) :=
  match revertedSelector revertReason, failingFunction revertReason with
  | some selectorKey, some (address, selector) => do
    let own ← attempt (publicFunctionErrorTypes pxe address selector)
    match (own.toOption.join).bind (decodeAssertionMessageFromErrorTypes · selectorKey) with
    | some message => pure (some ("Assertion failed: " ++ message))
    | none => do
      let registered ← attempt (do
        findRegisteredErrorMessageBySelector pxe selectorKey (← pxe.getContracts))
      match registered.toOption.join with
      | some message => pure (some ("Assertion failed: " ++ message))
      | none => pure (((knownProtocolAssertionMessage address selectorKey).or
          (knownAssertionMessageBySelector selectorKey)).map ("Assertion failed: " ++ ·))
  | _, _ => pure none

end Messages

/-! ## The steps of `send_tx` -/

variable {ν ρ τ : Type} (clock : Clock τ) (node : SubmissionNode ν τ) (pxe : SubmissionPxe ρ τ)

/-- `build_scopes`. -/
def buildScopes (sender : AztecAddress) (additional : List AztecAddress) : List AztecAddress :=
  if sender ≠ .zero ∧ sender ∉ additional then additional ++ [sender] else additional

section Preflight

/-- The reason a simulation of public calls gives for a revert. -/
def revertReasonOf (simulation : Json) : Option Json :=
  match simulation.get "revertReason" with
  | none | some .null => none
  | some reason => some reason

/-- The error a reverted preflight is told with. -/
def preflightReverted (txHash : TxHash) (simulation reason : Json) (decoded : Option String) :
    Error :=
  .invalidData ("node public-call preflight for tx " ++ txHash.display ++ " reverted: " ++
    ((decoded.map (· ++ " ")).getD "") ++ "reason=" ++ canonicalJsonString reason ++
    " debugLogs=" ++ canonicalJsonString ((simulation.get "debugLogs").getD .null))

/-- What `simulate_public_calls` makes of a simulation. -/
def judgeSimulation (txHash : TxHash) (simulation : Json) : Procedure Error τ Json :=
  match revertReasonOf simulation with
  | none => pure simulation
  | some reason => do
    let decoded ← decodePublicAssertionMessage pxe reason
    throw (preflightReverted txHash simulation reason decoded)

/-- `BaseWallet::simulate_public_calls`. -/
def simulatePublicCalls (txHash : TxHash) (txJson : Json) : Procedure Error τ Json := do
  judgeSimulation pxe txHash (← node.simulatePublicCalls txJson)

/-- `should_ignore_public_preflight_error`. -/
def shouldIgnorePublicPreflightError : Error → Bool
  | .invalidData message => decide ("is not deployed".toList <:+: message.toList)
  | _ => false

/-- What is made of a preflight. -/
def judgePreflight : Except Error Json → Procedure Error τ Unit
  | .ok _ => pure ()
  | .error e => if shouldIgnorePublicPreflightError e then pure () else throw e

/-- The preflight, for a transaction with public calls. -/
def preflight (proven : ProvenTx) (txHash : TxHash) (txJson : Json) : Procedure Error τ Unit :=
  if proven.publicFunctionCalldata = [] then pure ()
  else do judgePreflight (← attempt (simulatePublicCalls node pxe txHash txJson))

end Preflight

section Validation

/-- `is_anchor_header_validation_lag`. -/
def isAnchorHeaderValidationLag : TxValidationResult → Bool
  | .invalid reason => reason.any fun message =>
      decide ("Block header not found".toList <:+: message.toList)
  | _ => false

/-- What is made of an answer to `is_valid_tx`. -/
def judgeValidation :
    Except Error TxValidationResult → Procedure Error τ (Polled Error TxValidationResult)
  | .ok result => pure
      (if isAnchorHeaderValidationLag result then .undecided (.ok result) else .decided result)
  | .error e => throw e

/-- `validate_tx_when_anchor_available`. -/
def validateTxWhenAnchorAvailable (txJson : Json) (turns : Nat) :
    Procedure Error τ TxValidationResult := do
  let start ← now clock
  poll clock (attempt (node.isValidTx txJson) >>= judgeValidation)
    (fun time => start + Duration.fromSecs 300 ≤ time) (Duration.fromMillis 500) turns

/-- The validation's result, as `send_tx` reads it. -/
def accept (txHash : TxHash) : TxValidationResult → Procedure Error τ Unit
  | .valid | .skipped _ => pure ()
  | .invalid reason => throw (.invalidData ("node rejected tx " ++ txHash.display ++
      " during preflight validation: " ++ ", ".intercalate reason))

end Validation

section Waiting
variable (txHash : TxHash)

/-- The question for the block after the one the wait began at: the receipt is looked at, and
not used. -/
def askBlock : Procedure Error τ Nat := do
  let _ ← attempt (node.getTxReceipt txHash)
  node.getBlockNumber

/-- What is made of the number of the latest block. -/
def judgeBlock (startBlock : Nat) : Except Error Nat → Procedure Error τ (Polled Error Unit)
  | .ok current => pure (if startBlock < current then .decided () else .undecided (.error
      (.timeout "transaction was submitted but did not become checkpoint-visible")))
  | .error e => throw e

/-- The wait for a further block, once the wait for the receipt has timed out. -/
def waitForBlock (startBlock turns : Nat) : Procedure Error τ Unit := do
  let start ← now clock
  poll clock (attempt (askBlock node txHash) >>= judgeBlock startBlock)
    (fun time => start + Duration.fromSecs 30 ≤ time) (Duration.fromMillis 500) turns

/-- The first nullifier of a transaction's effect. -/
def firstNullifier (effect : Json) : Option Fr := do
  let text ← match effect.pointer ["data", "nullifiers"] with
    | some (.arr items) => items.head?.bind Json.asStr
    | some other => (other.get "0").bind Json.asStr
    | none => none
  (Fr.fromHex text).toOption

/-- What is made of a membership witness. -/
def judgeWitness : Except Error (Option Json) → Procedure Error τ (Polled Error Unit)
  | .ok (some _) => pure (.decided ())
  | _ => pure (.undecided (.ok ()))

/-- `wait_for_world_state`. -/
def waitForWorldState (turns : Nat) : Procedure Error τ Unit := do
  let effect ← attempt (node.getTxEffect txHash)
  match (effect.toOption.join).bind firstNullifier with
  | none => sleepFor clock (Duration.fromSecs 1)
  | some nullifier => do
    let start ← now clock
    poll clock (attempt (node.getNullifierMembershipWitness 0 nullifier) >>= judgeWitness)
      (fun time => start + Duration.fromSecs 15 ≤ time) (Duration.fromMillis 200) turns

/-- The options `wait_for_submission_checkpoint` waits with. -/
def submissionOpts : WaitOpts := { timeout := Duration.fromSecs 15 }

/-- What follows the wait for the receipt. -/
def afterReceipt (startBlock turns : Nat) : Except Error TxReceipt → Procedure Error τ Unit
  | .ok _ => pure ()
  | .error (.timeout _) | .error (.invalidData _) => waitForBlock clock node txHash startBlock turns
  | .error e => throw e

/-- The wait for the receipt, and for a block after this one. -/
def waitUntilSeen (startBlock turns : Nat) : Procedure Error τ Unit := do
  let waited ← attempt
    (NodeWaits.waitForTx clock node.toPolledNode txHash submissionOpts turns)
  afterReceipt clock node txHash startBlock turns waited

/-- `wait_for_submission_checkpoint`. -/
def waitForSubmissionCheckpoint (turns : Nat) : Procedure Error τ Unit := do
  let startBlock ← attempt node.getBlockNumber
  waitUntilSeen clock node txHash (startBlock.toOption.getD 0) turns
  waitForWorldState clock node txHash turns

end Waiting

/-- The sending and the wait after it. -/
def sendAndWait (txHash : TxHash) (txJson : Json) (turns : Nat) : Procedure Error τ TxHash := do
  node.sendTx txJson
  waitForSubmissionCheckpoint clock node txHash turns
  pure txHash

/-- `send_tx`, from a proof on. -/
def submit (proven : ProvenTx) (turns : Nat) : Procedure Error τ TxHash :=
  match proven.txHash, proven.txJson with
  | none, _ => throw (.invalidData "PXE prove_tx result did not include a tx hash")
  | some _, .error e => throw e
  | some txHash, .ok txJson => do
    preflight node pxe proven txHash txJson
    let result ← validateTxWhenAnchorAvailable clock node txJson turns
    accept txHash result
    sendAndWait clock node txHash txJson turns

/-- `BaseWallet::send_tx`: the request is the account provider's. -/
def sendTx (wallet : BaseWallet) (createTxExecutionRequest : AccountRequest → Procedure Error τ ρ)
    (exec : ExecutionPayload) (opts : TxOptions) (additionalScopes : List AztecAddress)
    (turns : Nat) : Procedure Error τ TxHash :=
  match wallet.sendTx exec opts with
  | .error e => throw e
  | .ok request => do
    let txRequest ← createTxExecutionRequest request
    let proven ← pxe.proveTx txRequest (buildScopes opts.fromAddress additionalScopes)
    submit clock node pxe proven turns

/-! ## What the node is asked -/

/-- A proof of the PXE, or a call of the node with its answer. -/
inductive NodeEvent where
  | proved (answer : Except Error ProvenTx)
  | simulated (tx : Json) (answer : Except Error Json)
  | validated (tx : Json) (answer : Except Error TxValidationResult)
  | sent (tx : Json) (answer : Except Error Unit)
  | receipt (txHash : TxHash) (answer : Except Error TxReceipt)
  | blockNumber (answer : Except Error Nat)

/-- A log of these calls: each leaves its event, and nothing else leaves one. -/
structure Logs (clock : Clock τ) (node : SubmissionNode ν τ) (pxe : SubmissionPxe ρ τ)
    (log : τ → List NodeEvent) : Prop where
  clock : Quiet clock log
  simulatePublicCalls : ∀ tx, Adds log (fun events answer => events = [.simulated tx answer])
    (node.simulatePublicCalls tx)
  isValidTx : ∀ tx, Adds log (fun events answer => events = [.validated tx answer])
    (node.isValidTx tx)
  sendTx : ∀ tx, Adds log (fun events answer => events = [.sent tx answer]) (node.sendTx tx)
  getTxReceipt : ∀ txHash, Adds log (fun events answer => events = [.receipt txHash answer])
    (node.getTxReceipt txHash)
  getBlockNumber : Adds log (fun events answer => events = [.blockNumber answer])
    node.getBlockNumber
  getTxEffect : ∀ txHash, Silent log (node.getTxEffect txHash)
  getNullifierMembershipWitness : ∀ block nullifier,
    Silent log (node.getNullifierMembershipWitness block nullifier)
  getContractInstance : ∀ address, Silent log (pxe.getContractInstance address)
  getContractArtifact : ∀ classId, Silent log (pxe.getContractArtifact classId)
  getContracts : Silent log pxe.getContracts

/-- Nothing was sent. -/
def Unsent (events : List NodeEvent) : Prop := ∀ tx answer, NodeEvent.sent tx answer ∉ events

/-- A receipt that is checkpointed and did not revert. -/
def Checkpointed (txHash : TxHash) (events : List NodeEvent) : Prop :=
  ∃ receipt, NodeEvent.receipt txHash (.ok receipt) ∈ events ∧ receipt.isDropped = false ∧
    receipt.hasExecutionReverted = false ∧ statusReached receipt.status .checkpointed

/-- A latest block after this one. -/
def Passed (startBlock : Nat) (events : List NodeEvent) : Prop :=
  ∃ number, NodeEvent.blockNumber (.ok number) ∈ events ∧ startBlock < number

/-- The node's answers show the transaction: a receipt that is checkpointed and did not
revert, or a block after the one that was latest when it had been sent. -/
def Seen (txHash : TxHash) (events : List NodeEvent) : Prop :=
  ∃ start later, events = .blockNumber start :: later ∧
    (Checkpointed txHash later ∨ Passed (start.toOption.getD 0) later)

variable {clock node pxe} {log : τ → List NodeEvent} {txHash : TxHash} {txJson : Json}

theorem silent_registeredArtifact (logs : Logs clock node pxe log) (address : AztecAddress) :
    Silent log (registeredArtifact pxe address) := by
  refine silent_bind (logs.getContractInstance address) fun classId => ?_
  cases classId with
  | none => exact silent_pure none
  | some classId => exact logs.getContractArtifact classId

theorem silent_findRegistered (logs : Logs clock node pxe log) (selectorKey : String)
    (addresses : List AztecAddress) :
    Silent log (findRegisteredErrorMessageBySelector pxe selectorKey addresses) := by
  induction addresses with
  | nil => exact silent_pure none
  | cons address rest ih =>
    refine silent_bind (silent_registeredArtifact logs address) fun artifact => ?_
    split
    · exact silent_pure _
    · exact ih

/-- The decoding of a revert leaves no events and never fails. -/
theorem adds_decode (logs : Logs clock node pxe log) (revertReason : Json) :
    Adds log (fun events result => events = [] ∧ ∃ message, result = .ok message)
      (decodePublicAssertionMessage pxe revertReason) := by
  have attempted {α : Type} {x : Procedure Error τ α}
      {f : Except Error α → Procedure Error τ (Option String)} (silent : Silent log x)
      (later : ∀ answer, Adds log
        (fun events result => events = [] ∧ ∃ message, result = .ok message) (f answer)) :
      Adds log (fun events result => events = [] ∧ ∃ message, result = .ok message)
        (attempt x >>= f) := by
    refine adds_bind (adds_attempt silent) later ?_ ?_
    · rintro events e ⟨outcome, same, -⟩
      cases same
    · rintro before answer after result ⟨outcome, -, rfl⟩ ⟨rfl, said⟩
      exact ⟨rfl, said⟩
  have ends (message : Option String) : Adds log
      (fun events result => events = [] ∧ ∃ message, result = .ok message)
      (pure message : Procedure Error τ _) := adds_pure ⟨rfl, message, rfl⟩
  unfold decodePublicAssertionMessage
  split
  · refine attempted ?_ fun own => ?_
    · exact silent_bind (silent_registeredArtifact logs _) fun artifact => silent_pure _
    · split
      · exact ends _
      · refine attempted ?_ fun registered => ?_
        · exact silent_bind logs.getContracts fun contracts => silent_findRegistered logs _ _
        · split <;> exact ends _
  · exact ends none

/-- What `simulate_public_calls` makes of the node's answer. -/
inductive Told (txHash : TxHash) : Except Error Json → Except Error Json → Prop where
  | failed (e : Error) : Told txHash (.error e) (.error e)
  | passed {simulation : Json} (kept : revertReasonOf simulation = none) :
      Told txHash (.ok simulation) (.ok simulation)
  | reverted {simulation reason : Json} (decoded : Option String)
      (reverted : revertReasonOf simulation = some reason) :
      Told txHash (.ok simulation) (.error (preflightReverted txHash simulation reason decoded))

theorem adds_judgeSimulation (logs : Logs clock node pxe log) (simulation : Json) :
    Adds log (fun events result => events = [] ∧ Told txHash (.ok simulation) result)
      (judgeSimulation pxe txHash simulation) := by
  unfold judgeSimulation
  split
  · exact adds_pure ⟨rfl, .passed ‹_›⟩
  · rename_i reason reverted
    have reports (decoded : Option String) :
        Adds log (fun events result => events = [] ∧ Told txHash (.ok simulation) result)
          (throw (preflightReverted txHash simulation reason decoded) : Procedure Error τ Json) :=
      adds_throw ⟨rfl, .reverted decoded reverted⟩
    refine adds_bind (adds_decode logs reason) reports ?_ ?_
    · rintro events e ⟨-, message, same⟩
      cases same
    · rintro before decoded after result ⟨rfl, -⟩ said
      exact said

theorem adds_simulatePublicCalls (logs : Logs clock node pxe log) :
    Adds log (fun events result => ∃ answer, events = [.simulated txJson answer] ∧
      Told txHash answer result) (simulatePublicCalls node pxe txHash txJson) := by
  refine adds_bind (logs.simulatePublicCalls txJson) (adds_judgeSimulation logs) ?_ ?_
  · rintro events e rfl
    exact ⟨.error e, rfl, .failed e⟩
  · rintro before simulation after result rfl ⟨rfl, told⟩
    exact ⟨.ok simulation, rfl, told⟩

/-- The answer to a preflight lets the transaction on: nothing reverted, or the error is one
that is ignored. -/
def Cleared (txHash : TxHash) (answer : Except Error Json) : Prop :=
  ∃ told, Told txHash answer told ∧ ∀ e, told = .error e → shouldIgnorePublicPreflightError e

theorem adds_preflight (logs : Logs clock node pxe log) (proven : ProvenTx) :
    Adds log (fun events result =>
      if proven.publicFunctionCalldata = [] then events = []
      else ∃ answer, events = [.simulated txJson answer] ∧
        (result = .ok () → Cleared txHash answer)) (preflight node pxe proven txHash txJson) := by
  unfold preflight
  split
  · exact adds_pure rfl
  · have silent (answer : Except Error Json) :
        Silent log (judgePreflight answer : Procedure Error τ Unit) := by
      cases answer with
      | ok simulation => exact silent_pure ()
      | error e =>
        rw [judgePreflight]
        split
        · exact silent_pure ()
        · exact silent_throw e
    refine adds_mono (adds_judged (adds_simulatePublicCalls logs) silent) ?_
    rintro events result ⟨told, ⟨answer, rfl, said⟩, asked, last, judged⟩
    refine ⟨answer, rfl, ?_⟩
    rintro rfl
    refine ⟨told, said, ?_⟩
    rintro e rfl
    rw [judgePreflight] at judged
    split at judged
    · assumption
    · cases judged

/-- Validations of which each found the node to lag. -/
def Lagging (txJson : Json) (events : List NodeEvent) : Prop :=
  ∀ event ∈ events, ∃ lag, event = .validated txJson (.ok lag) ∧ isAnchorHeaderValidationLag lag

theorem silent_judgeValidation (answer : Except Error TxValidationResult) :
    Silent log (judgeValidation answer) := by
  cases answer with
  | ok result => exact silent_pure _
  | error e => exact silent_throw e

theorem judgeValidation_cases {answer : Except Error TxValidationResult} {asked last : τ}
    {result : Except Error (Polled Error TxValidationResult)}
    (judged : (judgeValidation answer).runFrom asked = some (result, last)) :
    (∃ e, answer = .error e ∧ result = .error e) ∨
      ∃ v, answer = .ok v ∧ (result = .ok (.decided v) ∨
        isAnchorHeaderValidationLag v ∧ result = .ok (.undecided (.ok v))) := by
  cases answer with
  | error e =>
    cases judged
    exact .inl ⟨e, rfl, rfl⟩
  | ok v =>
    cases judged
    cases lag : isAnchorHeaderValidationLag v with
    | true => exact .inr ⟨v, rfl, .inr ⟨lag, rfl⟩⟩
    | false => exact .inr ⟨v, rfl, .inl rfl⟩

theorem adds_validate (logs : Logs clock node pxe log) (turns : Nat) :
    Adds log (fun events result => ∃ lagging, Lagging txJson lagging ∧
      events = lagging ++ [.validated txJson result])
      (validateTxWhenAnchorAvailable clock node txJson turns) := by
  have asks := adds_judged (logs.isValidTx txJson) silent_judgeValidation
  refine adds_now_bind logs.clock fun start => ?_
  refine adds_poll (I := Lagging txJson) logs.clock asks ?_ ?_ ?_ ?_ nofun turns
  · rintro before events atDeadline lagging ⟨answer, rfl, asked, last, judged⟩ event member
    rcases judgeValidation_cases judged with ⟨e, -, same⟩ | ⟨v, rfl, same | ⟨lag, same⟩⟩
    · cases same
    · cases same
    · rcases List.mem_append.mp member with earlier | last
      · exact lagging event earlier
      · exact ⟨v, List.mem_singleton.mp last, lag⟩
  · rintro before events result lagging ⟨answer, rfl, asked, last, judged⟩
    rcases judgeValidation_cases judged with ⟨e, -, same⟩ | ⟨v, rfl, same | ⟨-, same⟩⟩ <;>
      cases same
    exact ⟨before, lagging, rfl⟩
  · rintro before events atDeadline lagging ⟨answer, rfl, asked, last, judged⟩
    rcases judgeValidation_cases judged with ⟨e, -, same⟩ | ⟨v, rfl, same | ⟨-, same⟩⟩ <;>
      cases same
    exact ⟨before, lagging, rfl⟩
  · rintro before events e lagging ⟨answer, rfl, asked, last, judged⟩
    rcases judgeValidation_cases judged with ⟨e', rfl, same⟩ | ⟨v, -, same | ⟨-, same⟩⟩ <;>
      cases same
    exact ⟨before, lagging, rfl⟩

/-! ### The waits after the sending -/

theorem unsent_append {events more : List NodeEvent} (first : Unsent events)
    (second : Unsent more) : Unsent (events ++ more) := by
  intro tx answer member
  rcases List.mem_append.mp member with member | member
  · exact first tx answer member
  · exact second tx answer member

theorem unsent_nil : Unsent [] := nofun

theorem unsent_receipt (txHash : TxHash) (answer : Except Error TxReceipt) :
    Unsent [.receipt txHash answer] := by
  intro tx other member
  cases List.mem_singleton.mp member

theorem silent_judgeAnswer (quiet : Quiet clock log) (txHash : TxHash) (opts : WaitOpts)
    (start : Nat) (answer : Except Error TxReceipt) :
    Silent log (NodeWaits.judgeAnswer clock txHash opts start answer) := by
  cases answer with
  | error e =>
    refine silent_bind (silent_now quiet) fun time => ?_
    split
    · exact silent_throw _
    · exact silent_pure _
  | ok receipt =>
    rw [NodeWaits.judgeAnswer]
    unfold NodeWaits.judgeReceipt
    split
    · refine silent_bind (silent_now quiet) fun time => ?_
      split
      · exact silent_throw _
      · exact silent_pure _
    · split
      · exact silent_throw _
      · split <;> exact silent_pure _

theorem adds_waitForTx (logs : Logs clock node pxe log) (turns : Nat) :
    Adds log (fun events result => Unsent events ∧
      ∀ receipt, result = .ok receipt → Checkpointed txHash events)
      (NodeWaits.waitForTx clock node.toPolledNode txHash submissionOpts turns) := by
  refine adds_now_bind logs.clock fun start => ?_
  have asks := adds_judged (logs.getTxReceipt txHash)
    (silent_judgeAnswer logs.clock txHash submissionOpts start)
  refine adds_poll (I := Unsent) logs.clock asks ?_ ?_ ?_ ?_ unsent_nil turns
  · rintro before events atDeadline unsent ⟨answer, rfl, -⟩
    exact unsent_append unsent (unsent_receipt txHash answer)
  · rintro before events receipt unsent ⟨answer, rfl, asked, last, judged⟩
    refine ⟨unsent_append unsent (unsent_receipt txHash answer), fun _ _ => ?_⟩
    cases NodeWaits.judgeAnswer_judged judged with
    | decided ends =>
      cases ends with
      | reached present passed reached =>
        have kept : receipt.hasExecutionReverted = false :=
          Bool.eq_false_iff.mpr fun reverted => nomatch passed reverted
        exact ⟨receipt, List.mem_append_right _ List.mem_cons_self, present, kept, reached⟩
  · rintro before events atDeadline unsent ⟨answer, rfl, asked, last, judged⟩
    refine ⟨unsent_append unsent (unsent_receipt txHash answer), ?_⟩
    cases NodeWaits.judgeAnswer_judged judged with
    | undecided still => exact nofun
  · rintro before events e unsent ⟨answer, rfl, -⟩
    exact ⟨unsent_append unsent (unsent_receipt txHash answer), nofun⟩

theorem adds_askBlock (logs : Logs clock node pxe log) (txHash : TxHash) :
    Adds log (fun events answer => ∃ receipt,
      events = [.receipt txHash receipt, .blockNumber answer]) (askBlock node txHash) := by
  refine adds_bind (adds_attempt (logs.getTxReceipt txHash)) (fun _ => logs.getBlockNumber) ?_ ?_
  · rintro events e ⟨outcome, same, -⟩
    cases same
  · rintro before answer after result ⟨outcome, -, rfl⟩ rfl
    exact ⟨outcome, rfl⟩

theorem silent_judgeBlock (startBlock : Nat) (answer : Except Error Nat) :
    Silent log (judgeBlock startBlock answer) := by
  cases answer with
  | ok current => exact silent_pure _
  | error e => exact silent_throw e

theorem adds_waitForBlock (logs : Logs clock node pxe log) (startBlock turns : Nat) :
    Adds log (fun events result => Unsent events ∧ (result = .ok () → Passed startBlock events))
      (waitForBlock clock node txHash startBlock turns) := by
  have unsent {before : List NodeEvent} (first : Unsent before) (receipt : Except Error TxReceipt)
      (answer : Except Error Nat) :
      Unsent (before ++ [.receipt txHash receipt, .blockNumber answer]) := by
    refine unsent_append first ?_
    intro tx other member
    rcases List.mem_cons.mp member with same | member
    · cases same
    · cases List.mem_singleton.mp member
  have asks := adds_judged (adds_askBlock logs txHash) (silent_judgeBlock startBlock)
  refine adds_now_bind logs.clock fun start => ?_
  refine adds_poll (I := Unsent) logs.clock asks ?_ ?_ ?_ ?_ unsent_nil turns
  · rintro before events atDeadline first ⟨answer, ⟨receipt, rfl⟩, -⟩
    exact unsent first receipt answer
  · rintro before events _ first ⟨answer, ⟨receipt, rfl⟩, asked, last, judged⟩
    refine ⟨unsent first receipt answer, fun _ => ?_⟩
    cases answer with
    | error e => cases judged
    | ok current =>
      rw [judgeBlock] at judged
      split at judged
      · exact ⟨current, List.mem_append_right _ (by simp), ‹_›⟩
      · cases judged
  · rintro before events atDeadline first ⟨answer, ⟨receipt, rfl⟩, asked, last, judged⟩
    refine ⟨unsent first receipt answer, ?_⟩
    cases answer with
    | error e => cases judged
    | ok current =>
      rw [judgeBlock] at judged
      split at judged
      · cases judged
      · cases judged
        exact nofun
  · rintro before events e first ⟨answer, ⟨receipt, rfl⟩, -⟩
    exact ⟨unsent first receipt answer, nofun⟩

theorem silent_waitForWorldState (logs : Logs clock node pxe log) (turns : Nat) :
    Silent log (waitForWorldState clock node txHash turns) := by
  refine silent_bind (silent_attempt (logs.getTxEffect txHash)) fun effect => ?_
  split
  · exact silent_sleepFor logs.clock _
  · refine silent_bind (silent_now logs.clock) fun start => ?_
    have judges (answer : Except Error (Option Json)) :
        Silent log (judgeWitness answer : Procedure Error τ _) := by
      unfold judgeWitness
      split <;> exact silent_pure _
    have asks := silent_bind
      (silent_attempt (logs.getNullifierMembershipWitness 0 ‹Fr›)) judges
    refine adds_poll (I := fun before => before = []) logs.clock asks ?_ ?_ ?_ ?_ rfl turns
    · rintro before events atDeadline rfl rfl
      rfl
    · rintro before events r rfl rfl
      rfl
    · rintro before events atDeadline rfl rfl
      rfl
    · rintro before events e rfl rfl
      rfl

theorem adds_afterReceipt (logs : Logs clock node pxe log) (startBlock turns : Nat)
    (waited : Except Error TxReceipt) :
    Adds log (fun events result => Unsent events ∧
      (result = .ok () → waited.isOk ∨ Passed startBlock events))
      (afterReceipt clock node txHash startBlock turns waited) := by
  have waits : Adds log (fun events result => Unsent events ∧
      (result = .ok () → waited.isOk ∨ Passed startBlock events))
      (waitForBlock clock node txHash startBlock turns) :=
    adds_mono (adds_waitForBlock logs startBlock turns) fun said =>
      ⟨said.1, fun ended => .inr (said.2 ended)⟩
  unfold afterReceipt
  split
  · exact adds_pure ⟨unsent_nil, fun _ => .inl rfl⟩
  · exact waits
  · exact waits
  · exact adds_throw ⟨unsent_nil, nofun⟩

theorem adds_waitUntilSeen (logs : Logs clock node pxe log) (startBlock turns : Nat) :
    Adds log (fun events result => Unsent events ∧
      (result = .ok () → Checkpointed txHash events ∨ Passed startBlock events))
      (waitUntilSeen clock node txHash startBlock turns) := by
  refine adds_bind (adds_attempt (adds_waitForTx logs turns))
    (adds_afterReceipt logs startBlock turns) ?_ ?_
  · rintro events e ⟨outcome, same, -⟩
    cases same
  · rintro before waited after result ⟨outcome, same, unsent, checkpointed⟩ ⟨unsent', said⟩
    cases same
    refine ⟨unsent_append unsent unsent', fun ended => ?_⟩
    rcases said ended with isOk | ⟨number, member, later⟩
    · cases waited with
      | error e => cases isOk
      | ok receipt =>
        obtain ⟨receipt, member, kept⟩ := checkpointed receipt rfl
        exact .inl ⟨receipt, List.mem_append_left _ member, kept⟩
    · exact .inr ⟨number, List.mem_append_right _ member, later⟩

theorem adds_waitForSubmissionCheckpoint (logs : Logs clock node pxe log) (turns : Nat) :
    Adds log (fun events result => Unsent events ∧ (result = .ok () → Seen txHash events))
      (waitForSubmissionCheckpoint clock node txHash turns) := by
  have follows (startBlock : Except Error Nat) : Adds log (fun events result => Unsent events ∧
      (result = .ok () → Checkpointed txHash events ∨
        Passed (startBlock.toOption.getD 0) events))
      (waitUntilSeen clock node txHash (startBlock.toOption.getD 0) turns >>= fun _ =>
        waitForWorldState clock node txHash turns) := by
    refine adds_bind (adds_waitUntilSeen logs _ turns)
      (fun _ => silent_waitForWorldState logs turns) ?_ ?_
    · rintro events e ⟨unsent, -⟩
      exact ⟨unsent, nofun⟩
    · rintro before _ after result ⟨unsent, said⟩ rfl
      rw [List.append_nil]
      exact ⟨unsent, fun _ => said rfl⟩
  refine adds_bind (adds_attempt logs.getBlockNumber) follows ?_ ?_
  · rintro events e ⟨outcome, same, -⟩
    cases same
  · rintro before startBlock after result ⟨outcome, same, rfl⟩ ⟨unsent, said⟩
    cases same
    refine ⟨?_, fun ended => ⟨startBlock, after, rfl, said ended⟩⟩
    intro tx answer member
    rcases List.mem_cons.mp member with same | member
    · cases same
    · exact unsent tx answer member

/-! ### The whole -/

/-- What precedes the sending: the preflight where there are public calls, and validations
that found the node to lag. -/
def Preceding (proven : ProvenTx) (txHash : TxHash) (txJson : Json) (events : List NodeEvent) :
    Prop :=
  ∃ lagging, Lagging txJson lagging ∧
    if proven.publicFunctionCalldata = [] then events = lagging
    else ∃ answer, Cleared txHash answer ∧ events = .simulated txJson answer :: lagging

/-- The validation is not that the transaction is invalid. -/
def Accepted : TxValidationResult → Prop
  | .invalid _ => False
  | _ => True

/-- What the log of a submission shows: nothing sent, and a failure; or one transaction sent,
the proven one, right after a validation that accepted it, and seen if it succeeded. -/
inductive Submitted (proven : ProvenTx) (events : List NodeEvent) :
    Except Error TxHash → Prop where
  | unsent {e : Error} (unsent : Unsent events) : Submitted proven events (.error e)
  | sent {txHash : TxHash} {txJson : Json} {before after : List NodeEvent}
      {validation : TxValidationResult} {answer : Except Error Unit} {result : Except Error TxHash}
      (isHash : proven.txHash = some txHash) (isTx : proven.txJson = .ok txJson)
      (split : events =
        before ++ [.validated txJson (.ok validation), .sent txJson answer] ++ after)
      (preceding : Preceding proven txHash txJson before) (accepted : Accepted validation)
      (once : Unsent after)
      (succeeds : ∀ hash, result = .ok hash → hash = txHash ∧ answer = .ok () ∧ Seen txHash after) :
      Submitted proven events result

theorem adds_sendAndWait (logs : Logs clock node pxe log) (turns : Nat) :
    Adds log (fun events result => ∃ answer after, events = .sent txJson answer :: after ∧
      Unsent after ∧
      ∀ hash, result = .ok hash → hash = txHash ∧ answer = .ok () ∧ Seen txHash after)
      (sendAndWait clock node txHash txJson turns) := by
  have waits : Adds log (fun events result => Unsent events ∧
      ∀ hash, result = .ok hash → hash = txHash ∧ Seen txHash events)
      (waitForSubmissionCheckpoint clock node txHash turns >>= fun _ => pure txHash) := by
    refine adds_bind (adds_waitForSubmissionCheckpoint logs turns)
      (fun _ => adds_pure (P := fun events result => events = [] ∧ result = .ok txHash)
        ⟨rfl, rfl⟩) ?_ ?_
    · rintro events e ⟨unsent, -⟩
      exact ⟨unsent, nofun⟩
    · rintro before _ after result ⟨unsent, seen⟩ ⟨rfl, rfl⟩
      rw [List.append_nil]
      refine ⟨unsent, fun hash same => ?_⟩
      cases same
      exact ⟨rfl, seen rfl⟩
  refine adds_bind (logs.sendTx txJson) (fun _ => waits) ?_ ?_
  · rintro events e rfl
    exact ⟨.error e, [], rfl, unsent_nil, nofun⟩
  · rintro before _ after result rfl ⟨unsent, said⟩
    exact ⟨.ok (), after, rfl, unsent, fun hash same => ⟨(said hash same).1, rfl, (said hash same).2⟩⟩

theorem unsent_lagging {events : List NodeEvent} (lagging : Lagging txJson events) :
    Unsent events := by
  intro tx answer member
  obtain ⟨v, same, -⟩ := lagging _ member
  cases same

theorem unsent_validated (answer : Except Error TxValidationResult) :
    Unsent [.validated txJson answer] := by
  intro tx other member
  cases List.mem_singleton.mp member

theorem adds_accept (validation : TxValidationResult) :
    Adds log (fun events result => events = [] ∧ (result = .ok () → Accepted validation))
      (accept txHash validation) := by
  cases validation with
  | valid => exact adds_pure ⟨rfl, fun _ => trivial⟩
  | skipped reason => exact adds_pure ⟨rfl, fun _ => trivial⟩
  | invalid reason => exact adds_throw ⟨rfl, nofun⟩

theorem unsent_simulated (answer : Except Error Json) : Unsent [.simulated txJson answer] := by
  intro tx other member
  cases List.mem_singleton.mp member

theorem adds_submit (logs : Logs clock node pxe log) (proven : ProvenTx) (turns : Nat) :
    Adds log (Submitted proven) (submit clock node pxe proven turns) := by
  unfold submit
  split
  · exact adds_throw (.unsent unsent_nil)
  · exact adds_throw (.unsent unsent_nil)
  rename_i txHash txJson isHash isTx
  have accepts (validation : TxValidationResult) : Adds log (fun events result =>
      (events = [] ∧ ∃ e, result = .error e) ∨ Accepted validation ∧
        ∃ answer after, events = .sent txJson answer :: after ∧ Unsent after ∧
        ∀ hash, result = .ok hash → hash = txHash ∧ answer = .ok () ∧ Seen txHash after)
      (accept txHash validation >>= fun _ => sendAndWait clock node txHash txJson turns) := by
    refine adds_bind (adds_accept validation) (fun _ => adds_sendAndWait logs turns) ?_ ?_
    · rintro events e ⟨rfl, -⟩
      exact .inl ⟨rfl, e, rfl⟩
    · rintro before _ after result ⟨rfl, accepted⟩ said
      exact .inr ⟨accepted rfl, said⟩
  have validates : Adds log (fun events result =>
      (Unsent events ∧ ∃ e, result = .error e) ∨ ∃ lagging validation answer after,
        Lagging txJson lagging ∧ Accepted validation ∧ events = lagging ++
          [.validated txJson (.ok validation), .sent txJson answer] ++ after ∧ Unsent after ∧
        ∀ hash, result = .ok hash → hash = txHash ∧ answer = .ok () ∧ Seen txHash after)
      (validateTxWhenAnchorAvailable clock node txJson turns >>= fun validation =>
        accept txHash validation >>= fun _ => sendAndWait clock node txHash txJson turns) := by
    refine adds_bind (adds_validate logs turns) accepts ?_ ?_
    · rintro events e ⟨lagging, isLagging, rfl⟩
      exact .inl ⟨unsent_append (unsent_lagging isLagging) (unsent_validated _), e, rfl⟩
    · rintro before validation after result ⟨lagging, isLagging, rfl⟩ said
      rcases said with ⟨rfl, failed⟩ | ⟨accepted, answer, rest, rfl, unsent, said⟩
      · rw [List.append_nil]
        exact .inl ⟨unsent_append (unsent_lagging isLagging) (unsent_validated _), failed⟩
      · refine .inr ⟨lagging, validation, answer, rest, isLagging, accepted, ?_, unsent, said⟩
        simp
  refine adds_bind (adds_preflight logs proven) (fun _ => validates) ?_ ?_
  · intro events e said
    split at said
    · obtain rfl := said
      exact .unsent unsent_nil
    · obtain ⟨answer, rfl, -⟩ := said
      exact .unsent (unsent_simulated answer)
  · intro before _ events result said said'
    have unsentBefore : Unsent before := by
      split at said
      · obtain rfl := said
        exact unsent_nil
      · obtain ⟨answer, rfl, -⟩ := said
        exact unsent_simulated answer
    rcases said' with ⟨unsent, e, rfl⟩ | ⟨lagging, validation, answer, after, isLagging, accepted,
      rfl, unsent, succeeds⟩
    · exact .unsent (unsent_append unsentBefore unsent)
    · have preceding : Preceding proven txHash txJson (before ++ lagging) := by
        refine ⟨lagging, isLagging, ?_⟩
        split at said
        · rename_i none
          obtain rfl := said
          rw [if_pos none]
          rfl
        · rename_i some
          obtain ⟨simulated, rfl, cleared⟩ := said
          rw [if_neg some]
          exact ⟨simulated, cleared rfl, rfl⟩
      refine .sent isHash isTx ?_ preceding accepted unsent succeeds
      simp

/-- Whatever the wallet and its account make of a payload, and however the PXE and the node
answer: a transaction reaches the node at most once, the proven one, after a preflight that
lets it on and right after a validation that accepts it; and `send_tx` succeeds only once the
node shows it. -/
theorem send_tx_submits (logs : Logs clock node pxe log)
    {createTxExecutionRequest : AccountRequest → Procedure Error τ ρ}
    (creates : ∀ request, Silent log (createTxExecutionRequest request))
    (proves : ∀ request scopes, Adds log (fun events answer => events = [.proved answer])
      (pxe.proveTx request scopes)) (wallet : BaseWallet) (exec : ExecutionPayload)
    (opts : TxOptions) (additionalScopes : List AztecAddress) (turns : Nat) :
    Adds log (fun events result => (Unsent events ∧ ∃ e, result = .error e) ∨
      ∃ proven rest, events = .proved (.ok proven) :: rest ∧ Submitted proven rest result)
      (sendTx clock node pxe wallet createTxExecutionRequest exec opts additionalScopes turns) := by
  unfold sendTx
  split
  · exact adds_throw (.inl ⟨unsent_nil, _, rfl⟩)
  rename_i request _
  have proving (txRequest : ρ) : Adds log (fun events result =>
      (Unsent events ∧ ∃ e, result = .error e) ∨
        ∃ proven rest, events = .proved (.ok proven) :: rest ∧ Submitted proven rest result)
      (pxe.proveTx txRequest (buildScopes opts.fromAddress additionalScopes) >>= fun proven =>
        submit clock node pxe proven turns) := by
    refine adds_bind (proves _ _) (fun proven => adds_submit logs proven turns) ?_ ?_
    · rintro events e rfl
      refine .inl ⟨?_, e, rfl⟩
      intro tx answer member
      cases List.mem_singleton.mp member
    · rintro before proven after result rfl submitted
      exact .inr ⟨proven, after, rfl, submitted⟩
  refine adds_bind (creates request) proving ?_ ?_
  · rintro events e rfl
    exact .inl ⟨unsent_nil, e, rfl⟩
  · rintro before txRequest after result rfl said
    exact said

section Sample

/-- A call that is logged with this answer. -/
def answering {α : Type} (event : Except Error α → NodeEvent) (answer : Except Error α) :
    Procedure Error (List NodeEvent) α := lift fun log => (answer, log ++ [event answer])

theorem adds_answering {α : Type} (event : Except Error α → NodeEvent)
    (answer : Except Error α) :
    Adds id (fun events result => events = [event result]) (answering event answer) := by
  intro log result last ended
  cases ended
  exact ⟨[event answer], rfl, rfl⟩

/-- A clock that stands still. -/
def stillClock : Clock (List NodeEvent) := ⟨fun _ => 0, id, fun _ log => log⟩

/-- A node that takes every transaction, in block 4. -/
def takingNode : SubmissionNode Unit (List NodeEvent) where
  getNodeInfo := pure ()
  getTxReceipt := fun txHash => answering (.receipt txHash)
    (.ok ⟨txHash, .checkpointed, some .success, none, none, none, some 4, none⟩)
  getProvenBlockNumber := pure 0
  getBlockNumber := answering .blockNumber (.ok 3)
  getBlock := fun _ => pure none
  getL1ToL2MessageCheckpoint := fun _ => pure none
  simulatePublicCalls := fun tx => answering (.simulated tx) (.ok (.obj []))
  isValidTx := fun tx => answering (.validated tx) (.ok .valid)
  sendTx := fun tx => answering (.sent tx) (.ok ())
  getTxEffect := fun _ => pure none
  getNullifierMembershipWitness := fun _ _ => pure none

/-- A PXE whose proofs have public calls. -/
def provingPxe : SubmissionPxe AccountRequest (List NodeEvent) where
  proveTx := fun _ _ => answering .proved (.ok ⟨some ⟨1⟩, [[7]], .ok (.str "tx")⟩)
  getContractInstance := fun _ => pure none
  getContractArtifact := fun _ => pure none
  getContracts := pure []

theorem logs_takingNode : Logs stillClock takingNode provingPxe id where
  clock := ⟨fun _ => rfl, fun _ _ => rfl⟩
  simulatePublicCalls := fun tx => adds_answering (.simulated tx) _
  isValidTx := fun tx => adds_answering (.validated tx) _
  sendTx := fun tx => adds_answering (.sent tx) _
  getTxReceipt := fun txHash => adds_answering (.receipt txHash) _
  getBlockNumber := adds_answering .blockNumber _
  getTxEffect := fun _ => silent_pure none
  getNullifierMembershipWitness := fun _ _ => silent_pure none
  getContractInstance := fun _ => silent_pure none
  getContractArtifact := fun _ => silent_pure none
  getContracts := silent_pure []

theorem taken_transaction_submitted : ∃ proven events last,
    (sendTx stillClock takingNode provingPxe FeePayload.answeringWallet pure {} ⟨⟨2⟩, [], [], none,
      none⟩ [] 2).runFrom [] = some (.ok ⟨1⟩, last) ∧
      last = .proved (.ok proven) :: events ∧ Submitted proven events (.ok ⟨1⟩) := by
  obtain ⟨last, ended⟩ : ∃ last, (sendTx stillClock takingNode provingPxe
    FeePayload.answeringWallet pure {} ⟨⟨2⟩, [], [], none, none⟩ [] 2).runFrom [] =
      some (.ok ⟨1⟩, last) := ⟨_, rfl⟩
  obtain ⟨events, added, said⟩ := send_tx_submits logs_takingNode (fun _ => silent_pure _)
    (fun _ _ => adds_answering .proved _) _ _ _ _ _ ended
  rcases said with ⟨-, e, same⟩ | ⟨proven, rest, rfl, submitted⟩
  · cases same
  · exact ⟨proven, rest, last, ended, added, submitted⟩

end Sample

/-! ## Coming to an end -/

/-- Every call of the node and of the PXE comes to an answer. -/
structure AnswersAll (clock : Clock τ) (node : SubmissionNode ν τ) (pxe : SubmissionPxe ρ τ) :
    Prop where
  simulatePublicCalls : ∀ tx, Answered clock (node.simulatePublicCalls tx)
  isValidTx : ∀ tx, Answered clock (node.isValidTx tx)
  sendTx : ∀ tx, Answered clock (node.sendTx tx)
  getTxReceipt : ∀ txHash, Answered clock (node.getTxReceipt txHash)
  getBlockNumber : Answered clock node.getBlockNumber
  getTxEffect : ∀ txHash, Answered clock (node.getTxEffect txHash)
  getNullifierMembershipWitness : ∀ block nullifier,
    Answered clock (node.getNullifierMembershipWitness block nullifier)
  proveTx : ∀ request scopes, Answered clock (pxe.proveTx request scopes)
  getContractInstance : ∀ address, Answered clock (pxe.getContractInstance address)
  getContractArtifact : ∀ classId, Answered clock (pxe.getContractArtifact classId)
  getContracts : Answered clock pxe.getContracts

section Ends
variable (runs : clock.Runs) (answers : AnswersAll clock node pxe)
include runs answers

omit runs in
theorem answered_registeredArtifact (address : AztecAddress) :
    Answered clock (registeredArtifact pxe address) := by
  refine answered_bind (answers.getContractInstance address) fun classId => ?_
  cases classId with
  | none => exact answered_pure none
  | some classId => exact answers.getContractArtifact classId

omit runs in
theorem answered_findRegistered (selectorKey : String) (addresses : List AztecAddress) :
    Answered clock (findRegisteredErrorMessageBySelector pxe selectorKey addresses) := by
  induction addresses with
  | nil => exact answered_pure none
  | cons address rest ih =>
    refine answered_bind (answered_registeredArtifact answers address) fun artifact => ?_
    split
    · exact answered_pure _
    · exact ih

omit runs in
theorem answered_decode (revertReason : Json) :
    Answered clock (decodePublicAssertionMessage pxe revertReason) := by
  unfold decodePublicAssertionMessage
  split
  · refine answered_bind (answered_attempt ?_) fun own => ?_
    · exact answered_bind (answered_registeredArtifact answers _) fun artifact => answered_pure _
    · split
      · exact answered_pure _
      · refine answered_bind (answered_attempt ?_) fun registered => ?_
        · exact answered_bind answers.getContracts fun contracts =>
            answered_findRegistered answers _ _
        · split <;> exact answered_pure _
  · exact answered_pure none

omit runs in
theorem answered_preflight (proven : ProvenTx) :
    Answered clock (preflight node pxe proven txHash txJson) := by
  unfold preflight
  split
  · exact answered_pure ()
  · refine answered_bind (answered_attempt ?_) fun answer => ?_
    · refine answered_bind (answers.simulatePublicCalls txJson) fun simulation => ?_
      unfold judgeSimulation
      split
      · exact answered_pure _
      · exact answered_bind (answered_decode answers _) fun decoded => answered_throw _
    · cases answer with
      | ok simulation => exact answered_pure ()
      | error e =>
        rw [judgePreflight]
        split
        · exact answered_pure ()
        · exact answered_throw e

theorem answered_validate {turns : Nat} (enough : 600 ≤ turns) :
    Answered clock (validateTxWhenAnchorAvailable clock node txJson (turns + 1)) := by
  have asks (start : Nat) :
      Answered clock (attempt (node.isValidTx txJson) >>= judgeValidation) := by
    refine answered_bind (answered_attempt (answers.isValidTx txJson)) fun answer => ?_
    cases answer with
    | ok result => exact answered_pure _
    | error e => exact answered_throw e
  refine answered_wait runs asks (fun start time early => ?_) (by decide)
    (Nat.mul_le_mul_left (Duration.fromMillis 500) enough)
  exact Nat.lt_of_not_le (of_decide_eq_false early)

theorem answered_waitUntilSeen {turns : Nat} (enough : 600 ≤ turns) (startBlock : Nat) :
    Answered clock (waitUntilSeen clock node txHash startBlock (turns + 1)) := by
  have intervals {duration interval : Nat} (few : duration ≤ interval * 600) :
      duration ≤ interval * turns := Nat.le_trans few (Nat.mul_le_mul_left interval enough)
  have receipt : Answered clock
      (NodeWaits.waitForTx clock node.toPolledNode txHash submissionOpts (turns + 1)) :=
    answered_wait runs
      (fun _ => answered_bind (answered_attempt (answers.getTxReceipt txHash))
        (NodeWaits.answered_judgeAnswer runs))
      (fun _ => NodeWaits.early_of_not_late) (by decide) (intervals (by decide))
  have block : Answered clock (waitForBlock clock node txHash startBlock (turns + 1)) := by
    refine answered_wait runs (fun _ => answered_bind (answered_attempt ?_) fun answer => ?_)
      (fun start time early => Nat.lt_of_not_le (of_decide_eq_false early)) (by decide)
      (intervals (by decide))
    · exact answered_bind (answered_attempt (answers.getTxReceipt txHash))
        fun _ => answers.getBlockNumber
    · cases answer with
      | ok current => exact answered_pure _
      | error e => exact answered_throw e
  refine answered_bind (answered_attempt receipt) fun waited => ?_
  unfold afterReceipt
  split
  · exact answered_pure ()
  · exact block
  · exact block
  · exact answered_throw _

theorem answered_waitForWorldState {turns : Nat} (enough : 600 ≤ turns) :
    Answered clock (waitForWorldState clock node txHash (turns + 1)) := by
  refine answered_bind (answered_attempt (answers.getTxEffect txHash)) fun effect => ?_
  split
  · exact answered_sleepFor runs _
  · refine answered_wait runs (fun _ => answered_bind
      (answered_attempt (answers.getNullifierMembershipWitness 0 _)) fun answer => ?_)
      (fun start time early => Nat.lt_of_not_le (of_decide_eq_false early)) (by decide)
      (Nat.le_trans (by decide) (Nat.mul_le_mul_left (Duration.fromMillis 200) enough))
    unfold judgeWitness
    split <;> exact answered_pure _

theorem answered_submit {turns : Nat} (enough : 600 ≤ turns) (proven : ProvenTx) :
    Answered clock (submit clock node pxe proven (turns + 1)) := by
  unfold submit
  split
  · exact answered_throw _
  · exact answered_throw _
  refine answered_bind (answered_preflight answers proven) fun _ => ?_
  refine answered_bind (answered_validate runs answers enough) fun validation => ?_
  refine answered_bind ?_ fun _ => ?_
  · cases validation with
    | valid => exact answered_pure ()
    | skipped reason => exact answered_pure ()
    | invalid reason => exact answered_throw _
  · refine answered_bind (answers.sendTx _) fun _ => ?_
    refine answered_bind ?_ fun _ => answered_pure _
    refine answered_bind (answered_attempt answers.getBlockNumber) fun startBlock => ?_
    exact answered_bind (answered_waitUntilSeen runs answers enough _) fun _ =>
      answered_waitForWorldState runs answers enough

/-- If every call comes to an answer, so does `send_tx`, each of its waits within six hundred
further questions. -/
theorem send_tx_ends {createTxExecutionRequest : AccountRequest → Procedure Error τ ρ}
    (creates : ∀ request, Answered clock (createTxExecutionRequest request)) {turns : Nat}
    (enough : 600 ≤ turns) (wallet : BaseWallet) (exec : ExecutionPayload) (opts : TxOptions)
    (additionalScopes : List AztecAddress) (state : τ) :
    ∃ result last, (sendTx clock node pxe wallet createTxExecutionRequest exec opts
        additionalScopes (turns + 1)).runFrom state = some (result, last) ∧
      clock.time state ≤ clock.time last := by
  have answered : Answered clock (sendTx clock node pxe wallet createTxExecutionRequest exec opts
      additionalScopes (turns + 1)) := by
    unfold sendTx
    split
    · exact answered_throw _
    · refine answered_bind (creates _) fun txRequest => ?_
      exact answered_bind (answers.proveTx _ _) fun proven =>
        answered_submit runs answers enough proven
  obtain ⟨result, last, ended⟩ := answered.ends state
  exact ⟨result, last, ended, answered.onward ended⟩

end Ends

/-- A node that takes its time with receipts, and takes every transaction. -/
def slowTaking : SubmissionNode Unit Nat :=
  { NodeWaits.slowNode with
    simulatePublicCalls := fun _ => pure (.obj [])
    isValidTx := fun _ => pure .valid
    sendTx := fun _ => pure ()
    getTxEffect := fun _ => pure none
    getNullifierMembershipWitness := fun _ _ => pure none }

/-- A PXE whose proofs have no public calls. -/
def privatePxe : SubmissionPxe AccountRequest Nat where
  proveTx := fun _ _ => pure ⟨some ⟨1⟩, [], .ok (.str "tx")⟩
  getContractInstance := fun _ => pure none
  getContractArtifact := fun _ => pure none
  getContracts := pure []

theorem slowTaking_answers : AnswersAll NodeWaits.sleepClock slowTaking privatePxe where
  simulatePublicCalls := fun _ => answered_pure _
  isValidTx := fun _ => answered_pure _
  sendTx := fun _ => answered_pure _
  getTxReceipt := NodeWaits.answered_receipt
  getBlockNumber := answered_pure _
  getTxEffect := fun _ => answered_pure _
  getNullifierMembershipWitness := fun _ _ => answered_pure _
  proveTx := fun _ _ => answered_pure _
  getContractInstance := fun _ => answered_pure _
  getContractArtifact := fun _ => answered_pure _
  getContracts := answered_pure _

theorem slow_submission_ends : ∃ result last,
    (sendTx NodeWaits.sleepClock slowTaking privatePxe FeePayload.answeringWallet pure {}
      ⟨⟨2⟩, [], [], none, none⟩ [] 601).runFrom 0 = some (result, last) ∧ 0 ≤ last :=
  send_tx_ends NodeWaits.sleepClock_runs slowTaking_answers (fun _ => answered_pure _)
    (Nat.le_refl 600) _ _ _ _ 0

end TransactionSubmission
end AztecPxe
