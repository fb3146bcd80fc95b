import AztecPxe.Json
import AztecPxe.Polling

/-! The waits of `node.rs` and of `cross_chain.rs`: for a node, for a transaction's
receipt, for a block's proof and for a message from L1. Each asks on an interval and
ends at a deadline; what each may say, and on which answer of the node. -/
namespace AztecPxe

/-- `tx.rs::TxStatus`. -/
inductive TxStatus where
  | dropped
  | pending
  | proposed
  | checkpointed
  | proven
  | finalized
  deriving DecidableEq, Repr

/-- `tx.rs::TxExecutionResult`. -/
inductive TxExecutionResult where
  | success
  | appLogicReverted
  | teardownReverted
  | bothReverted
  deriving DecidableEq, Repr

/-- `tx.rs::TxReceipt`. -/
structure TxReceipt where
  txHash : TxHash
  status : TxStatus
  executionResult : Option TxExecutionResult := none
  error : Option String := none
  transactionFee : Option Nat := none
  blockHash : Option (Fin (2 ^ 256)) := none
  blockNumber : Option Nat := none
  epochNumber : Option Nat := none

namespace TxReceipt
variable (receipt : TxReceipt)

/-- `is_dropped`. -/
def isDropped : Bool := receipt.status == .dropped

/-- `has_execution_succeeded`. -/
def hasExecutionSucceeded : Bool := receipt.executionResult == some .success

/-- `has_execution_reverted`. -/
def hasExecutionReverted : Bool :=
  receipt.executionResult.isSome && !receipt.hasExecutionSucceeded

end TxReceipt

/-- The `Debug` text of a status. -/
def TxStatus.debug : TxStatus → String
  | .dropped => "Dropped"
  | .pending => "Pending"
  | .proposed => "Proposed"
  | .checkpointed => "Checkpointed"
  | .proven => "Proven"
  | .finalized => "Finalized"

/-- `status_ordinal`. -/
def statusOrdinal : TxStatus → Nat
  | .dropped => 0
  | .pending => 1
  | .proposed => 2
  | .checkpointed => 3
  | .proven => 4
  | .finalized => 5

/-- `status_reached`. -/
def statusReached (status target : TxStatus) : Bool := statusOrdinal status ≥ statusOrdinal target

/-- The `Display` text of an error. -/
def Error.display : Error → String
  | .transport message => "transport error: " ++ message
  | .json message => "json error: " ++ message
  | .abi message => "abi error: " ++ message
  | .invalidData message => "invalid data: " ++ message
  | .rpc code message => "rpc error " ++ toString code ++ ": " ++ message
  | .reverted message => "reverted: " ++ message
  | .timeout message => "timeout: " ++ message

/-- The `Display` text of a transaction's hash. -/
def TxHash.display (txHash : TxHash) : String := hex32 txHash.bytes

namespace Duration

/-- A number of seconds in nanoseconds. -/
def fromSecs (secs : Nat) : Nat := secs * 10 ^ 9

/-- A number of milliseconds in nanoseconds. -/
def fromMillis (millis : Nat) : Nat := millis * 10 ^ 6

/-- A whole number, so many decimals less the zeros they end in, and a unit. -/
def decimal (whole fraction digits : Nat) (unit : String) : String :=
  let decimals := (Nat.toDigits 10 fraction).leftpad digits '0'
  let shown := (decimals.reverse.dropWhile (· = '0')).reverse
  toString whole ++ (if shown = [] then "" else "." ++ String.ofList shown) ++ unit

/-- The `Debug` text of a duration of so many nanoseconds. -/
def debug (nanos : Nat) : String :=
  if nanos ≥ 10 ^ 9 then decimal (nanos / 10 ^ 9) (nanos % 10 ^ 9) 9 "s"
  else if nanos ≥ 10 ^ 6 then decimal (nanos / 10 ^ 6) (nanos % 10 ^ 6) 6 "ms"
  else if nanos ≥ 10 ^ 3 then decimal (nanos / 10 ^ 3) (nanos % 10 ^ 3) 3 "µs"
  else toString nanos ++ "ns"

example : debug (fromMillis 1500) = "1.5s" := by decide

end Duration

/-- `WaitOpts`, its durations in nanoseconds. -/
structure WaitOpts where
  timeout : Nat := Duration.fromSecs 300
  interval : Nat := Duration.fromSecs 1
  waitForStatus : TxStatus := .checkpointed
  dontThrowOnRevert : Bool := false
  ignoreDroppedReceiptsFor : Nat := Duration.fromSecs 5

/-- `AztecNode`, as the waits ask it. -/
structure PolledNode (ν τ : Type) where
  getNodeInfo : Procedure Error τ ν
  getTxReceipt : TxHash → Procedure Error τ TxReceipt
  getProvenBlockNumber : Procedure Error τ Nat
  getBlockNumber : Procedure Error τ Nat
  getBlock : Nat → Procedure Error τ (Option Json)
  getL1ToL2MessageCheckpoint : Fr → Procedure Error τ (Option Nat)

namespace NodeWaits
open Polling Procedure

variable {ν τ : Type} (clock : Clock τ) (node : PolledNode ν τ)

/-- What `wait_for_node` says at its deadline. -/
def notReady (timeout : Nat) : Except Error ν → Except Error ν
  | .ok info => .ok info
  | .error e =>
    .error (.timeout ("node not ready after " ++ Duration.debug timeout ++ ": " ++ e.display))

/-- What `wait_for_node` makes of an answer. -/
def judgeInfo (timeout : Nat) : Except Error ν → Procedure Error τ (Polled Error ν)
  | .ok info => pure (.decided info)
  | .error e => pure (.undecided (notReady timeout (.error e)))

/-- `wait_for_node_opts`. -/
def waitForNodeOpts (timeout interval turns : Nat) : Procedure Error τ ν := do
  let start ← now clock
  poll clock (attempt node.getNodeInfo >>= judgeInfo timeout)
    (fun time => start + timeout ≤ time + interval) interval turns

/-- `wait_for_node`. -/
def waitForNode (turns : Nat) : Procedure Error τ ν :=
  waitForNodeOpts clock node (Duration.fromSecs 120) (Duration.fromSecs 1) turns

/-- A question of `wait_for_tx` or of `wait_for_proven` that was not answered: the wait is
over with this error, unless there is an interval left. -/
def unanswered {ρ : Type} (interval deadline : Nat) (failed notYet : Error) :
    Procedure Error τ (Polled Error ρ) := do
  let time ← now clock
  if deadline ≤ time + interval then throw failed else pure (.undecided (.error notYet))

section WaitForTx
variable (txHash : TxHash) (opts : WaitOpts) (start : Nat)

/-- What `wait_for_tx` says at its deadline. -/
def notReached : Error :=
  .timeout ("tx " ++ txHash.display ++ " did not reach " ++ opts.waitForStatus.debug ++
    " within " ++ Duration.debug opts.timeout)

/-- What `wait_for_tx` makes of a receipt. -/
def judgeReceipt (receipt : TxReceipt) : Procedure Error τ (Polled Error TxReceipt) :=
  if receipt.isDropped then do
    let time ← now clock
    if opts.ignoreDroppedReceiptsFor ≤ time - start then
      throw (.reverted ("tx " ++ txHash.display ++ " was dropped: " ++
        receipt.error.getD "unknown reason"))
    else pure (.undecided (.error (notReached txHash opts)))
  else if receipt.hasExecutionReverted && !opts.dontThrowOnRevert then
    throw (.reverted ("tx " ++ txHash.display ++ " execution reverted: " ++
      receipt.error.getD "unknown reason"))
  else if statusReached receipt.status opts.waitForStatus then pure (.decided receipt)
  else pure (.undecided (.error (notReached txHash opts)))

/-- What `wait_for_tx` makes of an answer. -/
def judgeAnswer : Except Error TxReceipt → Procedure Error τ (Polled Error TxReceipt)
  | .ok receipt => judgeReceipt clock txHash opts start receipt
  | .error e =>
    unanswered clock opts.interval (start + opts.timeout)
      (.timeout ("timed out waiting for tx " ++ txHash.display ++ ": " ++ e.display))
      (notReached txHash opts)

/-- `wait_for_tx`. -/
def waitForTx (turns : Nat) : Procedure Error τ TxReceipt := do
  let start ← now clock
  poll clock (attempt (node.getTxReceipt txHash) >>= judgeAnswer clock txHash opts start)
    (fun time => start + opts.timeout ≤ time + opts.interval) opts.interval turns

end WaitForTx

section WaitForProven

/-- `WaitForProvenOpts`. -/
structure WaitForProvenOpts where
  provenTimeout : Nat := Duration.fromSecs 600
  interval : Nat := Duration.fromSecs 1

variable (receiptBlock : Nat) (opts : WaitForProvenOpts) (start : Nat)

/-- What `wait_for_proven` says at its deadline. -/
def notProven : Error :=
  .timeout ("block " ++ toString receiptBlock ++ " was not proven within " ++
    Duration.debug opts.provenTimeout)

/-- What `wait_for_proven` makes of an answer. -/
def judgeProven : Except Error Nat → Procedure Error τ (Polled Error Nat)
  | .ok provenBlock =>
    if receiptBlock ≤ provenBlock then pure (.decided provenBlock)
    else pure (.undecided (.error (notProven receiptBlock opts)))
  | .error e =>
    unanswered clock opts.interval (start + opts.provenTimeout)
      (.timeout ("timed out waiting for block " ++ toString receiptBlock ++ " to be proven: " ++
        e.display))
      (notProven receiptBlock opts)

/-- `wait_for_proven`. -/
def waitForProven (receipt : TxReceipt) (turns : Nat) : Procedure Error τ Nat :=
  match receipt.blockNumber with
  | none => throw (.invalidData "receipt has no block_number — cannot wait for proven")
  | some receiptBlock => do
    let start ← now clock
    poll clock (attempt node.getProvenBlockNumber >>= judgeProven clock receiptBlock opts start)
      (fun time => start + opts.provenTimeout ≤ time + opts.interval) opts.interval turns

end WaitForProven

section CrossChain
variable (messageHash : Fr)

/-- `is_l1_to_l2_message_ready`. -/
def isL1ToL2MessageReady : Procedure Error τ Bool := do
  match ← node.getL1ToL2MessageCheckpoint messageHash with
  | none => pure false
  | some msgCheckpoint => do
    let blockNumber ← node.getBlockNumber
    if blockNumber = 0 then pure false
    else match ← node.getBlock blockNumber with
      | none => pure false
      | some block =>
        let blockCheckpoint :=
          ((block.pointer ["header", "globalVariables", "blockNumber"]).bind Json.asU64).getD 0
        pure (decide (msgCheckpoint ≤ blockCheckpoint))

/-- What `wait_for_l1_to_l2_message_ready` says at its deadline. -/
def messageNotReady (timeout : Nat) : Error :=
  .timeout ("L1-to-L2 message " ++ hex32 messageHash.val ++ " not ready within " ++
    Duration.debug timeout)

/-- What `wait_for_l1_to_l2_message_ready` makes of an answer. -/
def judgeReady (timeout : Nat) : Except Error Bool → Procedure Error τ (Polled Error Unit)
  | .ok true => pure (.decided ())
  | .ok false => pure (.undecided (.error (messageNotReady messageHash timeout)))
  | .error e => throw e

/-- `wait_for_l1_to_l2_message_ready`. -/
def waitForL1ToL2MessageReady (timeout turns : Nat) : Procedure Error τ Unit := do
  let start ← now clock
  poll clock (attempt (isL1ToL2MessageReady node messageHash) >>= judgeReady messageHash timeout)
    (fun time => timeout ≤ time - start) (Duration.fromSecs 1) turns

end CrossChain

/-! ## What the waits say -/

section Verdicts
variable {clock node} {txHash : TxHash}

theorem early_of_not_late {start timeout interval : Nat} (time : Nat)
    (early : decide (start + timeout ≤ time + interval) = false) : time < start + timeout := by
  have := of_decide_eq_false early
  omega

theorem answered_unanswered {ρ : Type} (runs : clock.Runs) (interval deadline : Nat)
    (failed notYet : Error) : Answered clock
      (unanswered clock interval deadline failed notYet : Procedure Error τ (Polled Error ρ)) := by
  refine answered_bind (answered_now runs) fun time => ?_
  split
  · exact answered_throw failed
  · exact answered_pure _

theorem unanswered_outcome {ρ : Type} {interval deadline : Nat} {failed notYet : Error}
    {asked last : τ} {result : Except Error (Polled Error ρ)}
    (ended : (unanswered clock interval deadline failed notYet).runFrom asked =
      some (result, last)) :
    (deadline ≤ clock.time asked + interval ∧ result = .error failed) ∨
      result = .ok (.undecided (.error notYet)) := by
  rcases runFrom_bind_some ended with ⟨e, fails, -⟩ | ⟨time, next, read, going⟩
  · cases fails
  cases read
  split at going
  · cases going
    exact .inl ⟨‹_›, rfl⟩
  · cases going
    exact .inr rfl

section WaitForTx
variable {opts : WaitOpts} {start : Nat}

/-- The answer leaves the wait open, so long after its start: no receipt, a dropped one
within the grace period, or one on its way. -/
def LeavesOpen (opts : WaitOpts) (elapsed : Nat) : Except Error TxReceipt → Prop
  | .error _ => True
  | .ok receipt =>
    if receipt.isDropped then elapsed < opts.ignoreDroppedReceiptsFor
    else (receipt.hasExecutionReverted → opts.dontThrowOnRevert) ∧
      statusReached receipt.status opts.waitForStatus = false

/-- How the answer at this time ends the wait. -/
inductive EndsWait (txHash : TxHash) (opts : WaitOpts) (start time : Nat) :
    Except Error TxReceipt → Except Error TxReceipt → Prop where
  | reached {receipt : TxReceipt} (present : receipt.isDropped = false)
      (passed : receipt.hasExecutionReverted → opts.dontThrowOnRevert)
      (reached : statusReached receipt.status opts.waitForStatus) :
      EndsWait txHash opts start time (.ok receipt) (.ok receipt)
  | dropped {receipt : TxReceipt} (dropped : receipt.isDropped)
      (grace : opts.ignoreDroppedReceiptsFor ≤ time - start) :
      EndsWait txHash opts start time (.ok receipt) (.error (.reverted ("tx " ++
        txHash.display ++ " was dropped: " ++ receipt.error.getD "unknown reason")))
  | reverted {receipt : TxReceipt} (present : receipt.isDropped = false)
      (reverted : receipt.hasExecutionReverted) (throwing : opts.dontThrowOnRevert = false) :
      EndsWait txHash opts start time (.ok receipt) (.error (.reverted ("tx " ++
        txHash.display ++ " execution reverted: " ++ receipt.error.getD "unknown reason")))
  | silent {e : Error} (late : start + opts.timeout ≤ time + opts.interval) :
      EndsWait txHash opts start time (.error e) (.error (.timeout ("timed out waiting for tx " ++
        txHash.display ++ ": " ++ e.display)))

theorem judgeReceipt_judged {receipt : TxReceipt} {asked last : τ}
    {result : Except Error (Polled Error TxReceipt)}
    (ended : (judgeReceipt clock txHash opts start receipt).runFrom asked = some (result, last)) :
    Judged (LeavesOpen opts (clock.time asked - start) (.ok receipt))
      (EndsWait txHash opts start (clock.time asked) (.ok receipt))
      (.error (notReached txHash opts)) result := by
  unfold judgeReceipt at ended
  split at ended
  · rename_i dropped
    rcases runFrom_bind_some ended with ⟨e, failed, -⟩ | ⟨time, next, read, going⟩
    · cases failed
    cases read
    split at going
    · cases going
      exact .failed (.dropped dropped ‹_›)
    · cases going
      exact .undecided ((if_pos dropped).mpr (Nat.lt_of_not_le ‹_›))
  · rename_i dropped
    have present := Bool.eq_false_iff.mpr dropped
    split at ended
    · rename_i reverted
      obtain ⟨reverted, throwing⟩ := Bool.and_eq_true_iff.mp reverted
      cases ended
      exact .failed (.reverted present reverted (Bool.not_eq_true' _ ▸ throwing))
    · rename_i passed
      have passed : receipt.hasExecutionReverted → opts.dontThrowOnRevert := by
        intro reverted
        simpa [reverted] using passed
      split at ended
      · cases ended
        exact .decided (.reached present passed ‹_›)
      · cases ended
        exact .undecided ((if_neg dropped).mpr ⟨passed, Bool.eq_false_iff.mpr ‹_›⟩)

theorem judgeAnswer_judged {answer : Except Error TxReceipt} {asked last : τ}
    {result : Except Error (Polled Error TxReceipt)}
    (ended : (judgeAnswer clock txHash opts start answer).runFrom asked = some (result, last)) :
    Judged (LeavesOpen opts (clock.time asked - start) answer)
      (EndsWait txHash opts start (clock.time asked) answer)
      (.error (notReached txHash opts)) result := by
  cases answer with
  | ok receipt => exact judgeReceipt_judged ended
  | error e =>
    rcases unanswered_outcome ended with ⟨late, rfl⟩ | rfl
    · exact .failed (.silent late)
    · exact .undecided trivial

theorem answered_judgeReceipt (runs : clock.Runs) (receipt : TxReceipt) :
    Answered clock (judgeReceipt clock txHash opts start receipt) := by
  unfold judgeReceipt
  split
  · refine answered_bind (answered_now runs) fun time => ?_
    split
    · exact answered_throw _
    · exact answered_pure _
  · split
    · exact answered_throw _
    · split <;> exact answered_pure _

theorem answered_judgeAnswer (runs : clock.Runs) (answer : Except Error TxReceipt) :
    Answered clock (judgeAnswer clock txHash opts start answer) := by
  cases answer with
  | error e => exact answered_unanswered runs _ _ _ _
  | ok receipt => exact answered_judgeReceipt runs receipt

/-- A wait for a transaction ends within the intervals of its timeout, with what the last
receipt says: one that is not dropped and has the status waited for, a drop after the grace
period, a revert that is to be told, or the timeout after answers that all left it open. -/
theorem wait_for_tx_verdict (runs : clock.Runs)
    (answered : Answered clock (node.getTxReceipt txHash)) (positive : 0 < opts.interval)
    {turns : Nat} (enough : opts.timeout ≤ opts.interval * turns) (state : τ) :
    ∃ result last, (waitForTx clock node txHash opts (turns + 1)).runFrom state =
        some (result, last) ∧
      Verdict clock (node.getTxReceipt txHash)
        (fun time => LeavesOpen opts (time - clock.time state))
        (EndsWait txHash opts (clock.time state)) (fun _ => .error (notReached txHash opts))
        (fun time => clock.time state + opts.timeout ≤ time + opts.interval) opts.interval
        (clock.pass state) result := by
  unfold waitForTx
  rw [runFrom_now_bind]
  exact poll_verdict runs answered (answered_judgeAnswer runs) judgeAnswer_judged
    early_of_not_late positive (Nat.add_le_add (runs.passed state) enough)

/-- A clock that only sleeps move. -/
def sleepClock : Clock Nat := ⟨id, id, fun duration time => time + duration⟩

theorem sleepClock_runs : sleepClock.Runs where
  passed := fun _ => Nat.le_refl _
  slept := fun _ _ => Nat.le_refl _

/-- A node that has the transaction pending for two seconds, and block 7 proven. -/
def slowNode : PolledNode Unit Nat where
  getNodeInfo := throw (.transport "connection refused")
  getTxReceipt := fun txHash => lift fun time =>
    (.ok ⟨txHash, if time < Duration.fromSecs 2 then .pending else .checkpointed, none, none, none,
      none, none, none⟩, time)
  getProvenBlockNumber := pure 7
  getBlockNumber := pure 9
  getBlock := fun number => pure (some (.obj [("header", .obj [("globalVariables",
    .obj [("blockNumber", .posInt (UInt64.ofNat number))])])]))
  getL1ToL2MessageCheckpoint := fun _ => pure (some 5)

theorem answered_receipt (txHash : TxHash) :
    Answered sleepClock (slowNode.getTxReceipt txHash) :=
  ⟨ends_lift _, keeps_lift fun _ => Nat.le_refl _⟩

theorem pending_then_checkpointed : ∃ result last,
    (waitForTx sleepClock slowNode ⟨1⟩ {} 301).runFrom 0 = some (result, last) ∧
      Verdict sleepClock (slowNode.getTxReceipt ⟨1⟩) (fun time => LeavesOpen {} (time - 0))
        (EndsWait ⟨1⟩ {} 0) (fun _ => .error (notReached ⟨1⟩ {}))
        (fun time => 0 + Duration.fromSecs 300 ≤ time + Duration.fromSecs 1) (Duration.fromSecs 1)
        0 result :=
  wait_for_tx_verdict sleepClock_runs (answered_receipt ⟨1⟩) (by decide) (by decide) 0

end WaitForTx

section WaitForProven
variable {receiptBlock : Nat} {opts : WaitForProvenOpts} {start : Nat}

/-- A block of this number leaves the wait for a proof open. -/
def NotYetProven (receiptBlock : Nat) : Except Error Nat → Prop
  | .ok provenBlock => provenBlock < receiptBlock
  | .error _ => True

/-- How the answer at this time ends the wait for a proof. -/
inductive EndsProven (receiptBlock : Nat) (opts : WaitForProvenOpts) (start time : Nat) :
    Except Error Nat → Except Error Nat → Prop where
  | proven {provenBlock : Nat} (reached : receiptBlock ≤ provenBlock) :
      EndsProven receiptBlock opts start time (.ok provenBlock) (.ok provenBlock)
  | silent {e : Error} (late : start + opts.provenTimeout ≤ time + opts.interval) :
      EndsProven receiptBlock opts start time (.error e) (.error (.timeout
        ("timed out waiting for block " ++ toString receiptBlock ++ " to be proven: " ++
          e.display)))

theorem judgeProven_judged {answer : Except Error Nat} {asked last : τ}
    {result : Except Error (Polled Error Nat)}
    (ended : (judgeProven clock receiptBlock opts start answer).runFrom asked =
      some (result, last)) :
    Judged (NotYetProven receiptBlock answer)
      (EndsProven receiptBlock opts start (clock.time asked) answer)
      (.error (notProven receiptBlock opts)) result := by
  cases answer with
  | ok provenBlock =>
    rw [judgeProven] at ended
    split at ended
    · cases ended
      exact .decided (.proven ‹_›)
    · cases ended
      exact .undecided (Nat.lt_of_not_le ‹_›)
  | error e =>
    rcases unanswered_outcome ended with ⟨late, rfl⟩ | rfl
    · exact .failed (.silent late)
    · exact .undecided trivial

theorem answered_judgeProven (runs : clock.Runs) (answer : Except Error Nat) :
    Answered clock (judgeProven clock receiptBlock opts start answer) := by
  cases answer with
  | error e => exact answered_unanswered runs _ _ _ _
  | ok provenBlock =>
    rw [judgeProven]
    split <;> exact answered_pure _

/-- A wait for a proof ends within the intervals of its timeout: with a proven block that is
not below the receipt's, or after answers that all were below it. -/
theorem wait_for_proven_verdict (runs : clock.Runs)
    (answered : Answered clock node.getProvenBlockNumber) (positive : 0 < opts.interval)
    {turns : Nat} (enough : opts.provenTimeout ≤ opts.interval * turns) {receipt : TxReceipt}
    (included : receipt.blockNumber = some receiptBlock) (state : τ) :
    ∃ result last, (waitForProven clock node opts receipt (turns + 1)).runFrom state =
        some (result, last) ∧
      Verdict clock node.getProvenBlockNumber (fun _ => NotYetProven receiptBlock)
        (EndsProven receiptBlock opts (clock.time state))
        (fun _ => .error (notProven receiptBlock opts))
        (fun time => clock.time state + opts.provenTimeout ≤ time + opts.interval) opts.interval
        (clock.pass state) result := by
  unfold waitForProven
  rw [included, runFrom_now_bind]
  exact poll_verdict runs answered (answered_judgeProven runs) judgeProven_judged
    early_of_not_late positive (Nat.add_le_add (runs.passed state) enough)

theorem proven_at_once : ∃ result last,
    (waitForProven sleepClock slowNode {} ⟨⟨1⟩, .checkpointed, none, none, none, none, some 7,
      none⟩ 601).runFrom 0 = some (result, last) ∧
      Verdict sleepClock slowNode.getProvenBlockNumber (fun _ => NotYetProven 7)
        (EndsProven 7 {} 0) (fun _ => .error (notProven 7 {}))
        (fun time => 0 + Duration.fromSecs 600 ≤ time + Duration.fromSecs 1) (Duration.fromSecs 1)
        0 result :=
  wait_for_proven_verdict sleepClock_runs (answered_pure 7) (by decide) (by decide) rfl 0

end WaitForProven

section WaitForNode
variable {timeout interval : Nat}

/-- A wait for a node ends within the intervals of its timeout: with the first answer that
is no failure, or with the failure at the deadline. -/
theorem wait_for_node_verdict (runs : clock.Runs) (answered : Answered clock node.getNodeInfo)
    (positive : 0 < interval) {turns : Nat} (enough : timeout ≤ interval * turns) (state : τ) :
    ∃ result last, (waitForNodeOpts clock node timeout interval (turns + 1)).runFrom state =
        some (result, last) ∧
      Verdict clock node.getNodeInfo (fun _ answer => answer.isOk = false)
        (fun _ answer result => answer.isOk ∧ result = answer) (notReady timeout)
        (fun time => clock.time state + timeout ≤ time + interval) interval (clock.pass state)
        result := by
  have judging (answer : Except Error ν) :
      Answered clock (judgeInfo timeout answer : Procedure Error τ _) := by
    cases answer <;> exact answered_pure _
  have judged {answer : Except Error ν} {asked last : τ} {result : Except Error (Polled Error ν)}
      (ended : (judgeInfo timeout answer).runFrom asked = some (result, last)) :
      Judged (answer.isOk = false) (fun result => answer.isOk ∧ result = answer)
        (notReady timeout answer) result := by
    cases answer with
    | ok info =>
      cases ended
      exact .decided ⟨rfl, rfl⟩
    | error e =>
      cases ended
      exact .undecided rfl
  unfold waitForNodeOpts
  rw [runFrom_now_bind]
  exact poll_verdict runs answered judging judged early_of_not_late positive
    (Nat.add_le_add (runs.passed state) enough)

theorem never_ready : ∃ result last,
    (waitForNodeOpts sleepClock slowNode (Duration.fromSecs 3) (Duration.fromSecs 1) 4).runFrom 0 =
      some (result, last) ∧
      Verdict sleepClock slowNode.getNodeInfo (fun _ answer => answer.isOk = false)
        (fun _ answer result => answer.isOk ∧ result = answer) (notReady (Duration.fromSecs 3))
        (fun time => 0 + Duration.fromSecs 3 ≤ time + Duration.fromSecs 1) (Duration.fromSecs 1) 0
        result :=
  wait_for_node_verdict sleepClock_runs (answered_throw _) (by decide) (by decide) 0

end WaitForNode

section CrossChain
variable {messageHash : Fr} {timeout : Nat}

/-- The node's answers show the message ready: its checkpoint is not above the number in the
header of the latest block. -/
def ShownReady (node : PolledNode ν τ) (messageHash : Fr) (p q : τ) : Prop :=
  ∃ msgCheckpoint number block mid mid',
    (node.getL1ToL2MessageCheckpoint messageHash).runFrom p =
      some (.ok (some msgCheckpoint), mid) ∧
    node.getBlockNumber.runFrom mid = some (.ok number, mid') ∧ number ≠ 0 ∧
    (node.getBlock number).runFrom mid' = some (.ok (some block), q) ∧
    msgCheckpoint ≤
      ((block.pointer ["header", "globalVariables", "blockNumber"]).bind Json.asU64).getD 0

theorem shown_of_ready {p q : τ}
    (ready : (isL1ToL2MessageReady node messageHash).runFrom p = some (.ok true, q)) :
    ShownReady node messageHash p q := by
  unfold isL1ToL2MessageReady at ready
  rcases runFrom_bind_some ready with ⟨e, -, failed⟩ | ⟨checkpoint, mid, asked, going⟩
  · cases failed
  cases checkpoint with
  | none => cases going
  | some msgCheckpoint =>
    rcases runFrom_bind_some going with ⟨e, -, failed⟩ | ⟨number, mid', asked', going'⟩
    · cases failed
    split at going'
    · cases going'
    · rename_i positive
      rcases runFrom_bind_some going' with ⟨e, -, failed⟩ | ⟨block, last, asked'', rest⟩
      · cases failed
      cases block with
      | none => cases rest
      | some block =>
        simp only [runFrom_pure, Option.some.injEq, Prod.mk.injEq, Except.ok.injEq,
          decide_eq_true_eq] at rest
        obtain ⟨small, rfl⟩ := rest
        exact ⟨msgCheckpoint, number, block, mid, mid', asked, asked', positive, asked'', small⟩

/-- The calls that show a message ready come to answers. -/
structure AnsweredReady (clock : Clock τ) (node : PolledNode ν τ) (messageHash : Fr) : Prop where
  checkpoint : Answered clock (node.getL1ToL2MessageCheckpoint messageHash)
  blockNumber : Answered clock node.getBlockNumber
  block : ∀ number, Answered clock (node.getBlock number)

theorem answered_ready (answered : AnsweredReady clock node messageHash) :
    Answered clock (isL1ToL2MessageReady node messageHash) := by
  refine answered_bind answered.checkpoint fun checkpoint => ?_
  cases checkpoint with
  | none => exact answered_pure false
  | some msgCheckpoint =>
    refine answered_bind answered.blockNumber fun number => ?_
    split
    · exact answered_pure false
    · refine answered_bind (answered.block number) fun block => ?_
      cases block <;> exact answered_pure _

/-- How an answer ends the wait for a message. -/
def EndsReady (answer : Except Error Bool) (result : Except Error Unit) : Prop :=
  answer ≠ .ok false ∧ result = answer.map fun _ => ()

theorem message_verdict (runs : clock.Runs) (answered : AnsweredReady clock node messageHash)
    {turns : Nat} (enough : timeout ≤ Duration.fromSecs 1 * turns) (state : τ) :
    ∃ result last, (waitForL1ToL2MessageReady clock node messageHash timeout
        (turns + 1)).runFrom state = some (result, last) ∧
      Verdict clock (isL1ToL2MessageReady node messageHash) (fun _ answer => answer = .ok false)
        (fun _ => EndsReady) (fun _ => .error (messageNotReady messageHash timeout))
        (fun time => timeout ≤ time - clock.time state) (Duration.fromSecs 1) (clock.pass state)
        result := by
  have judging (answer : Except Error Bool) :
      Answered clock (judgeReady messageHash timeout answer : Procedure Error τ _) := by
    rcases answer with e | ready
    · exact answered_throw e
    · cases ready <;> exact answered_pure _
  have judged {answer : Except Error Bool} {asked last : τ}
      {result : Except Error (Polled Error Unit)}
      (ended : (judgeReady messageHash timeout answer).runFrom asked = some (result, last)) :
      Judged (answer = .ok false) (EndsReady answer) (.error (messageNotReady messageHash timeout))
        result := by
    rcases answer with e | ready
    · cases ended
      exact .failed ⟨nofun, rfl⟩
    · cases ready
      · cases ended
        exact .undecided rfl
      · cases ended
        exact .decided ⟨nofun, rfl⟩
  have inTime (time : Nat) (early : decide (timeout ≤ time - clock.time state) = false) :
      time < clock.time state + timeout := by
    have := of_decide_eq_false early
    omega
  unfold waitForL1ToL2MessageReady
  rw [runFrom_now_bind]
  exact poll_verdict runs (answered_ready answered) judging judged inTime (by decide)
    (Nat.add_le_add (runs.passed state) enough)

/-- A wait for a message from L1 ends within the seconds of its timeout: when the node's
answers show it ready, with the node's own failure, or after answers that did not. -/
theorem wait_for_l1_to_l2_message_verdict (runs : clock.Runs)
    (answered : AnsweredReady clock node messageHash) {turns : Nat}
    (enough : timeout ≤ Duration.fromSecs 1 * turns) (state : τ) :
    ∃ result last, (waitForL1ToL2MessageReady clock node messageHash timeout
        (turns + 1)).runFrom state = some (result, last) ∧
      (result = .ok () → ∃ p q, Relation.ReflTransGen
        (StillOpen clock (isL1ToL2MessageReady node messageHash)
          (fun _ answer => answer = .ok false) (Duration.fromSecs 1)) (clock.pass state) p ∧
        ShownReady node messageHash p q) ∧
      Verdict clock (isL1ToL2MessageReady node messageHash) (fun _ answer => answer = .ok false)
        (fun _ => EndsReady) (fun _ => .error (messageNotReady messageHash timeout))
        (fun time => timeout ≤ time - clock.time state) (Duration.fromSecs 1) (clock.pass state)
        result := by
  obtain ⟨result, last, ended, verdict⟩ := message_verdict runs answered enough state
  refine ⟨result, last, ended, ?_, verdict⟩
  rintro rfl
  obtain ⟨p, answer, q, path, asked, ⟨other, same⟩ | ⟨-, same, -⟩⟩ := verdict
  · rcases answer with e | ready
    · cases same
    · cases ready with
      | false => exact absurd rfl other
      | true => exact ⟨p, q, path, shown_of_ready asked⟩
  · cases same

theorem answered_slowNode : AnsweredReady sleepClock slowNode 5 where
  checkpoint := answered_pure _
  blockNumber := answered_pure _
  block := fun _ => answered_pure _

theorem message_shown_ready : ∃ result last,
    (waitForL1ToL2MessageReady sleepClock slowNode 5 (Duration.fromSecs 4) 5).runFrom 0 =
      some (result, last) ∧
      (result = .ok () → ∃ p q, Relation.ReflTransGen
        (StillOpen sleepClock (isL1ToL2MessageReady slowNode 5) (fun _ answer => answer = .ok false)
          (Duration.fromSecs 1)) 0 p ∧ ShownReady slowNode 5 p q) ∧
      Verdict sleepClock (isL1ToL2MessageReady slowNode 5) (fun _ answer => answer = .ok false)
        (fun _ => EndsReady) (fun _ => .error (messageNotReady 5 (Duration.fromSecs 4)))
        (fun time => Duration.fromSecs 4 ≤ time - 0) (Duration.fromSecs 1) 0 result :=
  wait_for_l1_to_l2_message_verdict sleepClock_runs answered_slowNode (by decide) 0

end CrossChain

end Verdicts

end NodeWaits
end AztecPxe
