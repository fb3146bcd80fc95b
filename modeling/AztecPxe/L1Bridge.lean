import AztecPxe.L1Client

/-! What the L1 client sends. The transactions go out one after the other, each when the one
before has a receipt of success; what was sent is read off a log of what the L1 node was
asked and answered. -/
namespace AztecPxe
namespace L1Client
open Polling Procedure ClassId BigEndian

/-! ## What is asked and sent -/

section Logged
variable {τ α β : Type} (l1 : L1World τ) (log : τ → List L1Exchange)

/-- A log of the L1 node: each request leaves its exchange, and nothing else leaves one. -/
structure Logs : Prop where
  posted : ∀ body state, log (l1.post body state).2 = log state ++ [⟨body, (l1.post body state).1⟩]
  clock : Quiet l1.clock log
  random : ∀ state, log (l1.random state).2 = log state

/-- What is said of the exchanges of a call that succeeds, and of one that does not. -/
inductive Told (good : α → List L1Exchange → Prop) (bad : List L1Exchange → Prop) :
    List L1Exchange → Except L1Stop α → Prop where
  | ok {a : α} {events : List L1Exchange} (said : good a events) : Told good bad events (.ok a)
  | error {e : L1Stop} {events : List L1Exchange} (said : bad events) :
      Told good bad events (.error e)

/-- The request for a transaction. -/
def L1Tx.request (tx : L1Tx) : Json := bodyOf "eth_sendTransaction" tx.params

/-- The request for a receipt. -/
def receiptRequest (txHash : String) : Json :=
  bodyOf "eth_getTransactionReceipt" (.arr [.str txHash])

/-- A receipt that was there within so many turns: each question before found none. -/
def Received (turns : Nat) (txHash : String) (receipt : Json) (events : List L1Exchange) : Prop :=
  ∃ pending reply, events = pending ++ [⟨receiptRequest txHash, reply⟩] ∧
    pending.length < turns ∧
    (∀ exchange ∈ pending, exchange.request = receiptRequest txHash ∧
      resultOf l1 exchange.reply = .ok .null) ∧
    resultOf l1 reply = .ok receipt ∧ receipt ≠ .null

/-- A transaction was sent, and then its receipt was waited for, which is one of success. -/
def Confirmed (tx : L1Tx) (txHash : String) (receipt : Json) (events : List L1Exchange) : Prop :=
  ∃ reply result later, events = ⟨tx.request, reply⟩ :: later ∧ resultOf l1 reply = .ok result ∧
    result.asStr = some txHash ∧ Received l1 60 txHash receipt later ∧ statusOf receipt = "0x1"

/-- A transaction was sent, and what was asked from then on are receipts. -/
def Attempted (tx : L1Tx) (events : List L1Exchange) : Prop :=
  ∃ reply later, events = ⟨tx.request, reply⟩ :: later ∧
    ∀ exchange ∈ later, ∃ txHash, exchange.request = receiptRequest txHash

/-- How far the sending of a list of transactions came: each was sent when the one before had
been confirmed, and all but the last are. -/
inductive Progress : List L1Tx → List L1Exchange → Prop where
  | stopped {plan : List L1Tx} : Progress plan []
  | attempted {tx : L1Tx} {rest : List L1Tx} {events : List L1Exchange}
      (sent : Attempted tx events) : Progress (tx :: rest) events
  | confirmed {tx : L1Tx} {txHash : String} {receipt : Json} {rest : List L1Tx}
      {events more : List L1Exchange} (sent : Confirmed l1 tx txHash receipt events)
      (later : Progress rest more) : Progress (tx :: rest) (events ++ more)

variable {l1 log}

/-- A sequence goes on after a success. -/
theorem told_bind {P : α → List L1Exchange → Prop} {F : List L1Exchange → Prop}
    {Q : α → β → List L1Exchange → Prop} {G : α → List L1Exchange → Prop}
    {R : β → List L1Exchange → Prop} {H : List L1Exchange → Prop}
    {x : Procedure L1Stop τ α} {f : α → Procedure L1Stop τ β}
    (first : Adds log (Told P F) x) (later : ∀ a, Adds log (Told (Q a) (G a)) (f a))
    (failed : ∀ {events}, F events → H events)
    (both : ∀ {a b before after}, P a before → Q a b after → R b (before ++ after))
    (stopped : ∀ {a before after}, P a before → G a after → H (before ++ after)) :
    Adds log (Told R H) (x >>= f) := by
  refine adds_bind first later ?_ ?_
  · rintro events e (_ | said)
    exact .error (failed said)
  · rintro before a after result (said | _) told
    cases told with
    | ok said' => exact .ok (both said said')
    | error said' => exact .error (stopped said said')

theorem told_ofExcept (result : Except L1Stop α) :
    Adds log (Told (fun a events => events = [] ∧ result = .ok a) (· = [])) (ofExcept result) := by
  cases result with
  | ok a => exact adds_pure (.ok ⟨rfl, rfl⟩)
  | error e => exact adds_throw (.error rfl)

theorem told_rpcCall (logs : Logs l1 log) (method : String) (params : Json) :
    Adds log (Told (fun result events => ∃ reply,
      events = [⟨bodyOf method params, reply⟩] ∧ resultOf l1 reply = .ok result)
      (fun events => ∃ reply, events = [⟨bodyOf method params, reply⟩]))
      (rpcCall l1 method params) := by
  intro state result last ended
  have said : (resultOf l1 (l1.post (bodyOf method params) state).1,
      (l1.post (bodyOf method params) state).2) = (result, last) := Option.some.inj ended
  cases said
  refine ⟨_, logs.posted (bodyOf method params) state, ?_⟩
  cases outcome : resultOf l1 (l1.post (bodyOf method params) state).1 with
  | ok json => exact .ok ⟨_, rfl, outcome⟩
  | error e => exact .error ⟨_, rfl⟩

theorem told_labelled {good : α → List L1Exchange → Prop} {bad : List L1Exchange → Prop}
    {x : Procedure L1Stop τ α} (adds : Adds log (Told good bad) x) (label : String) :
    Adds log (Told good bad) (labelled label x) := by
  intro state result last ended
  obtain ⟨answer, asked, ran, going⟩ := runFrom_bind_attempt ended
  obtain ⟨events, added, told⟩ := adds ran
  cases told with
  | ok said =>
    cases going
    exact ⟨events, added, .ok said⟩
  | @error e _ said =>
    cases e <;> (cases going; exact ⟨events, added, .error said⟩)

variable (l1) in
/-- The account was asked for and is the first the node lists. -/
def AccountRead (account : String) (events : List L1Exchange) : Prop :=
  ∃ reply result, events = [⟨bodyOf "eth_accounts" (.arr []), reply⟩] ∧
    resultOf l1 reply = .ok result ∧ firstAccount result = some account

theorem told_getAccount (logs : Logs l1 log) :
    Adds log (Told (AccountRead l1)
      (fun events => ∃ reply, events = [⟨bodyOf "eth_accounts" (.arr []), reply⟩]))
      (getAccount l1) := by
  refine told_bind (told_rpcCall logs "eth_accounts" (.arr []))
    (Q := fun result account events => events = [] ∧ firstAccount result = some account)
    (G := fun _ events => events = []) ?_ (fun asked => asked) ?_ ?_
  · intro result
    cases found : firstAccount result with
    | some account => exact adds_pure (.ok ⟨rfl, rfl⟩)
    | none => exact adds_throw (.error rfl)
  · rintro result account before after ⟨reply, rfl, replied⟩ ⟨rfl, first⟩
    exact ⟨reply, result, rfl, replied, first⟩
  · rintro result before after ⟨reply, rfl, -⟩ rfl
    exact ⟨reply, rfl⟩

theorem told_sendTransaction (logs : Logs l1 log) (tx : L1Tx) :
    Adds log (Told (fun txHash events => ∃ reply result, events = [⟨tx.request, reply⟩] ∧
        resultOf l1 reply = .ok result ∧ result.asStr = some txHash)
      (fun events => ∃ reply, events = [⟨tx.request, reply⟩])) (sendTransaction l1 tx) := by
  refine told_bind (told_rpcCall logs "eth_sendTransaction" tx.params)
    (Q := fun result txHash events => events = [] ∧ result.asStr = some txHash)
    (G := fun _ events => events = []) ?_ (fun asked => asked) ?_ ?_
  · intro result
    cases found : result.asStr with
    | some txHash => exact adds_pure (.ok ⟨rfl, rfl⟩)
    | none => exact adds_throw (.error rfl)
  · rintro result txHash before after ⟨reply, rfl, replied⟩ ⟨rfl, text⟩
    exact ⟨reply, result, rfl, replied, text⟩
  · rintro result before after ⟨reply, rfl, -⟩ rfl
    exact ⟨reply, rfl⟩

/-- Questions for receipts only. -/
def Inquiries (txHash : String) (events : List L1Exchange) : Prop :=
  ∀ exchange ∈ events, exchange.request = receiptRequest txHash

theorem received_more {turns : Nat} {txHash : String} {receipt : Json} {reply : Posted}
    {events : List L1Exchange} (absent : resultOf l1 reply = .ok .null)
    (received : Received l1 turns txHash receipt events) :
    Received l1 (turns + 1) txHash receipt (⟨receiptRequest txHash, reply⟩ :: events) := by
  obtain ⟨pending, last, rfl, few, empty, replied, present⟩ := received
  refine ⟨⟨receiptRequest txHash, reply⟩ :: pending, last, rfl, Nat.succ_lt_succ few, ?_, replied,
    present⟩
  intro exchange inside
  rcases List.mem_cons.mp inside with rfl | later
  · exact ⟨rfl, absent⟩
  · exact empty exchange later

/-- What one more turn adds to the waiting for a receipt. -/
theorem told_receiptWithin (logs : Logs l1 log) (txHash : String) (turns : Nat) :
    Adds log (Told (Received l1 turns txHash) (Inquiries txHash))
      (receiptWithin l1 txHash turns) := by
  induction turns with
  | zero => exact adds_throw (.error nofun)
  | succ turns ih =>
    have waits : Adds log (Told (Received l1 turns txHash) (Inquiries txHash))
        (do sleepFor l1.clock (Duration.fromMillis 500); receiptWithin l1 txHash turns) := by
      refine adds_bind (silent_sleepFor logs.clock _) (fun _ => ih) ?_ ?_
      · rintro events e rfl
        exact .error nofun
      · rintro before a after result rfl told
        exact told
    refine told_bind (told_rpcCall logs "eth_getTransactionReceipt" (.arr [.str txHash]))
      (Q := fun found receipt events => (found = .null ∧ Received l1 turns txHash receipt events)
        ∨ (found ≠ .null ∧ receipt = found ∧ events = []))
      (G := fun _ => Inquiries txHash) ?_ ?_ ?_ ?_
    · intro found
      cases found with
      | null =>
        refine adds_mono waits ?_
        rintro events result (said | said)
        · exact .ok (.inl ⟨rfl, said⟩)
        · exact .error said
      | _ => exact adds_pure (.ok (.inr ⟨nofun, rfl, rfl⟩))
    · rintro events ⟨reply, rfl⟩ exchange inside
      rw [List.mem_singleton.mp inside]
      rfl
    · rintro found receipt before after ⟨reply, rfl, replied⟩
        (⟨rfl, received⟩ | ⟨present, rfl, rfl⟩)
      · exact received_more replied received
      · exact ⟨[], reply, rfl, Nat.succ_pos turns, nofun, replied, present⟩
    · rintro found before after ⟨reply, rfl, -⟩ asked exchange inside
      rcases List.mem_append.mp inside with now | later
      · rw [List.mem_singleton.mp now]
        rfl
      · exact asked exchange later

theorem inquiries_of_received {turns : Nat} {txHash : String} {receipt : Json}
    {events : List L1Exchange} (received : Received l1 turns txHash receipt events) :
    Inquiries txHash events := by
  obtain ⟨pending, last, rfl, -, empty, -, -⟩ := received
  intro exchange inside
  rcases List.mem_append.mp inside with early | final
  · exact (empty exchange early).1
  · rw [List.mem_singleton.mp final]

theorem attempted_of_confirmed {tx : L1Tx} {txHash : String} {receipt : Json}
    {events : List L1Exchange} (sent : Confirmed l1 tx txHash receipt events) :
    Attempted tx events := by
  obtain ⟨reply, result, later, rfl, -, -, received, -⟩ := sent
  exact ⟨reply, later, rfl, fun exchange inside =>
    ⟨txHash, inquiries_of_received received exchange inside⟩⟩

theorem told_successOf (logs : Logs l1 log) (txHash : String) (reverted : String → Error) :
    Adds log (Told
      (fun receipt events => Received l1 60 txHash receipt events ∧ statusOf receipt = "0x1")
      (Inquiries txHash)) (successOf l1 txHash reverted) := by
  refine told_bind (told_receiptWithin logs txHash 60)
    (Q := fun found receipt events => events = [] ∧ receipt = found ∧ statusOf found = "0x1")
    (G := fun _ events => events = []) ?_ (fun asked => asked) ?_ ?_
  · intro found
    by_cases taken : statusOf found = "0x1"
    · rw [if_pos taken]
      exact adds_pure (.ok ⟨rfl, rfl, taken⟩)
    · rw [if_neg taken]
      exact adds_throw (.error rfl)
  · rintro found receipt before after received ⟨rfl, rfl, taken⟩
    rw [List.append_nil]
    exact ⟨received, taken⟩
  · rintro found before after received rfl
    rw [List.append_nil]
    exact inquiries_of_received received

variable (l1) in
/-- What `send_transaction` leaves: the sending, and the hash in its answer. -/
def SentAs (tx : L1Tx) (txHash : String) (events : List L1Exchange) : Prop :=
  ∃ reply result, events = [⟨tx.request, reply⟩] ∧ resultOf l1 reply = .ok result ∧
    result.asStr = some txHash

/-- A transaction that is sent and then seen to succeed, or not. -/
theorem told_confirmed {x : Procedure L1Stop τ String} {f : String → Procedure L1Stop τ α}
    {P : String → Json → α → Prop} {tx : L1Tx}
    (sends : Adds log (Told (SentAs l1 tx)
      (fun events => ∃ reply, events = [⟨tx.request, reply⟩])) x)
    (waits : ∀ txHash, Adds log (Told (fun a events => ∃ receipt,
      Received l1 60 txHash receipt events ∧ statusOf receipt = "0x1" ∧ P txHash receipt a)
      (Inquiries txHash)) (f txHash)) :
    Adds log (Told (fun a events => ∃ txHash receipt, Confirmed l1 tx txHash receipt events ∧
      P txHash receipt a) (Attempted tx)) (x >>= f) := by
  refine told_bind sends waits ?_ ?_ ?_
  · rintro events ⟨reply, rfl⟩
    exact ⟨reply, [], rfl, nofun⟩
  · rintro txHash a before after ⟨reply, result, rfl, replied, text⟩
      ⟨receipt, received, taken, said⟩
    exact ⟨txHash, receipt, ⟨reply, result, after, rfl, replied, text, received, taken⟩, said⟩
  · rintro txHash before after ⟨reply, result, rfl, replied, text⟩ asked
    exact ⟨reply, after, rfl, fun exchange inside => ⟨txHash, asked exchange inside⟩⟩

theorem told_step (logs : Logs l1 log) (name : String) (tx : L1Tx) :
    Adds log (Told (fun receipt events => ∃ txHash, Confirmed l1 tx txHash receipt events)
      (Attempted tx)) (step l1 name tx) := by
  refine adds_mono (told_confirmed (P := fun _ receipt found => found = receipt)
    (told_labelled (told_sendTransaction logs tx) (name ++ " tx send failed: "))
    fun txHash => ?_) ?_
  · refine adds_mono (told_successOf logs txHash _) ?_
    rintro events result (⟨received, taken⟩ | asked)
    · exact .ok ⟨_, received, taken, rfl⟩
    · exact .error asked
  · rintro events result (⟨txHash, receipt, confirmed, rfl⟩ | attempted)
    · exact .ok ⟨txHash, confirmed⟩
    · exact .error attempted

theorem told_read (logs : Logs l1 log) (txHash : String) (reverted : String → Error)
    (read : Json → Except L1Stop α) :
    Adds log (Told (fun a events => ∃ receipt, Received l1 60 txHash receipt events ∧
        statusOf receipt = "0x1" ∧ read receipt = .ok a) (Inquiries txHash)) (do
      let receipt ← successOf l1 txHash reverted
      ofExcept (read receipt)) := by
  refine told_bind (told_successOf logs txHash reverted)
    (fun receipt => told_ofExcept (read receipt)) (fun asked => asked) ?_ ?_
  · rintro receipt a before after ⟨received, taken⟩ ⟨rfl, said⟩
    rw [List.append_nil]
    exact ⟨receipt, received, taken, said⟩
  · rintro receipt before after ⟨received, -⟩ rfl
    rw [List.append_nil]
    exact inquiries_of_received received

variable (l1) in
/-- The first `MessageSent` event of a receipt. -/
def FirstMessage (receipt event : Json) : Prop :=
  ∃ events, (receipt.get "logs").bind Json.asArray = some events ∧
    events.find? (isMessageSent l1.keccak) = some event

theorem messageSentOf_ok {unlogged unfound : String} {receipt event : Json}
    (found : messageSentOf l1.keccak unlogged unfound receipt = .ok event) :
    FirstMessage l1 receipt event := by
  unfold messageSentOf at found
  cases listed : (receipt.get "logs").bind Json.asArray with
  | none => simp [listed] at found
  | some events =>
    refine ⟨events, listed, ?_⟩
    cases first : events.find? (isMessageSent l1.keccak) with
    | none => simp [listed, first] at found
    | some event' => simpa [listed, first] using found

theorem sentResult_ok {txHash : String} {receipt : Json} {sent : L1ToL2MessageSentResult}
    (read : sentResult l1 txHash receipt = .ok sent) :
    sent.txHash = txHash ∧ ∃ event, FirstMessage l1 receipt event ∧
      messageHashOf event = .ok sent.msgHash ∧ sent.globalLeafIndex = leafIndexField event := by
  unfold sentResult at read
  cases found : messageSentOf l1.keccak "no logs in L1 receipt"
      "no MessageSent event found in L1 receipt" receipt with
  | error e =>
    rw [found] at read
    cases read
  | ok event =>
    rw [found] at read
    cases hashed : messageHashOf event with
    | error e =>
      have failed : (messageHashOf event >>= fun msgHash => _) = .ok sent := read
      rw [hashed] at failed
      cases failed
    | ok msgHash =>
      have said : (messageHashOf event >>= fun msgHash => _) = .ok sent := read
      rw [hashed] at said
      cases said
      exact ⟨rfl, event, messageSentOf_ok found, hashed, rfl⟩

/-! ## The messages sent -/

variable (l1) in
/-- A message on its way: the call of the inbox was sent and succeeded, its data hold what is
sent, and the answer names the event of that transaction. -/
structure Delivered (inboxAddress : String) (recipient : AztecAddress) (rollupVersion : UInt64)
    (content secretHash : Fr) (sent : L1ToL2MessageSentResult) (events : List L1Exchange) :
    Prop where
  exchanges : ∃ account asked later receipt event, events = asked ++ later ∧
    AccountRead l1 account asked ∧
    Confirmed l1 ((inboxCall inboxAddress recipient rollupVersion content secretHash).tx l1.keccak
      account) sent.txHash receipt later ∧
    FirstMessage l1 receipt event ∧ messageHashOf event = .ok sent.msgHash ∧
    sent.globalLeafIndex = leafIndexField event
  arguments : ∀ account, argumentsOf 4 ((inboxCall inboxAddress recipient rollupVersion content
    secretHash).tx l1.keccak account).data =
    [recipient.inner.val, rollupVersion.toNat, content.val, secretHash.val]

variable (l1) in
/-- A message that did not get through: at most its one transaction was sent. -/
def Undelivered (inboxAddress : String) (recipient : AztecAddress) (rollupVersion : UInt64)
    (content secretHash : Fr) (events : List L1Exchange) : Prop :=
  (∃ reply, events = [⟨bodyOf "eth_accounts" (.arr []), reply⟩]) ∨
    ∃ account asked later, events = asked ++ later ∧ AccountRead l1 account asked ∧
      Attempted ((inboxCall inboxAddress recipient rollupVersion content secretHash).tx l1.keccak
        account) later

theorem val_lt_word (field : Fr) : field.val < 256 ^ 32 :=
  field.isLt.trans (by decide)

theorem inboxCall_arguments (inboxAddress : String) (recipient : AztecAddress)
    (rollupVersion : UInt64) (content secretHash : Fr) (account : String) :
    argumentsOf 4 ((inboxCall inboxAddress recipient rollupVersion content
      secretHash).tx l1.keccak account).data =
      [recipient.inner.val, rollupVersion.toNat, content.val, secretHash.val] := by
  refine argumentsOf_tx l1.keccak (inboxCall inboxAddress recipient rollupVersion content
    secretHash) ?_ account
  have version : rollupVersion.toNat < 256 ^ 32 := rollupVersion.toNat_lt.trans (by decide)
  intro w inside
  simp only [inboxCall, List.mem_cons, List.not_mem_nil, or_false] at inside
  rcases inside with rfl | rfl | rfl | rfl
  · exact val_lt_word _
  · exact version
  · exact val_lt_word _
  · exact val_lt_word _

/-- `send_l1_to_l2_message` sends one transaction, and what it answers is read off the event
of that transaction's receipt. -/
theorem send_l1_to_l2_message_sends (logs : Logs l1 log) {inboxAddress : String}
    {recipient : AztecAddress} {rollupVersion : UInt64} {content secretHash : Fr} {state last : τ}
    {result : Except L1Stop L1ToL2MessageSentResult}
    (ended : (sendL1ToL2Message l1 inboxAddress recipient rollupVersion content secretHash).runFrom
      state = some (result, last)) :
    ∃ events, log last = log state ++ events ∧
      Told (Delivered l1 inboxAddress recipient rollupVersion content secretHash)
        (Undelivered l1 inboxAddress recipient rollupVersion content secretHash) events
        result := by
  refine told_bind (told_getAccount logs)
    (Q := fun account sent events => ∃ receipt, Confirmed l1 ((inboxCall inboxAddress recipient
      rollupVersion content secretHash).tx l1.keccak account) sent.txHash receipt events ∧
      sentResult l1 sent.txHash receipt = .ok sent)
    (G := fun account => Attempted ((inboxCall inboxAddress recipient rollupVersion content
      secretHash).tx l1.keccak account)) ?_ .inl ?_ ?_ ended
  · intro account
    dsimp only
    rw [encodeSendL2Message_eq l1.keccak inboxAddress account]
    refine adds_mono (told_confirmed (told_sendTransaction logs _) fun txHash =>
      told_read logs txHash _ (sentResult l1 txHash)) ?_
    rintro events result (⟨txHash, receipt, confirmed, read⟩ | attempted)
    · cases (sentResult_ok read).1
      exact .ok ⟨receipt, confirmed, read⟩
    · exact .error attempted
  · rintro account sent before after asked ⟨receipt, confirmed, read⟩
    obtain ⟨-, event, first, hashed, index⟩ := sentResult_ok read
    exact ⟨⟨account, before, after, receipt, event, rfl, asked, confirmed, first, hashed, index⟩,
      inboxCall_arguments inboxAddress recipient rollupVersion content secretHash⟩
  · rintro account before after asked attempted
    exact .inr ⟨account, before, after, rfl, asked, attempted⟩

section Sample

/-- A node that answers from a list. -/
def listedWorld (replies : List Json) : L1World (List L1Exchange) where
  post := fun body log =>
    let reply := match replies[log.length]? with
      | some result => .answered (.obj [("result", result)])
      | none => .unsent "down"
    (reply, log ++ [⟨body, reply⟩])
  clock := ⟨fun _ => 0, id, fun _ log => log⟩
  random := fun log => (3, log)
  render := fun _ => ""
  keccak := ⟨fun _ => List.replicate 32 0, fun _ => List.length_replicate⟩
  poseidon2 := List.sum

theorem logs_listedWorld (replies : List Json) : Logs (listedWorld replies) id where
  posted := fun _ _ => rfl
  clock := ⟨fun _ => rfl, fun _ _ => rfl⟩
  random := fun _ => rfl

/-- A receipt of success, with a message's event. -/
def sampleReceipt : Json :=
  .obj [("status", .str "0x1"), ("logs", .arr [.obj [("topics",
    .arr [.str (hexText (List.replicate 32 0)), .str "0x01", .str "0x05"])]])]

/-- A message, whose receipt is there at the second question. -/
def messageReplies : List Json :=
  [.arr [.str "0xaa"], .str "0xbeef", .null, sampleReceipt]

theorem message_delivered : ∃ sent last,
    (sendL1ToL2Message (listedWorld messageReplies) "0x10" ⟨7⟩ 1 2 3).runFrom [] =
      some (.ok sent, last) ∧
      Delivered (listedWorld messageReplies) "0x10" ⟨7⟩ 1 2 3 sent last := by
  obtain ⟨sent, last, ended⟩ : ∃ sent last,
      (sendL1ToL2Message (listedWorld messageReplies) "0x10" ⟨7⟩ 1 2 3).runFrom [] =
        some (.ok sent, last) := ⟨_, _, rfl⟩
  obtain ⟨events, added, told⟩ := send_l1_to_l2_message_sends (logs_listedWorld messageReplies)
    ended
  have whole : last = events := added
  cases told with
  | ok delivered => exact ⟨sent, last, ended, whole ▸ delivered⟩

end Sample

/-! ## The bridging of fee juice -/

variable (l1) in
/-- A list of transactions was sent, each confirmed before the next; the receipt is the last. -/
inductive Completed : List L1Tx → Json → List L1Exchange → Prop where
  | last {tx : L1Tx} {txHash : String} {receipt : Json} {events : List L1Exchange}
      (sent : Confirmed l1 tx txHash receipt events) : Completed [tx] receipt events
  | next {tx : L1Tx} {txHash : String} {receipt final : Json} {rest : List L1Tx}
      {events more : List L1Exchange} (sent : Confirmed l1 tx txHash receipt events)
      (later : Completed rest final more) : Completed (tx :: rest) final (events ++ more)

/-- The transactions of one bridging. -/
structure Bridging where
  portal : String
  feeJuice : String
  handler : String
  account : String
  recipient : AztecAddress
  amount : Fin (2 ^ 128)

/-- The hash of a claim secret. -/
def claimSecretHash (l1 : L1World τ) (secret : Fr) : Fr :=
  Hash.poseidon2HashWithSeparator l1.poseidon2 [secret] 4199652938

namespace Bridging
variable (b : Bridging) (l1 : L1World τ) (secret : Fr)

/-- The deposit of a bridging. -/
def depositTx : L1Tx :=
  (depositCall b.portal b.recipient b.amount (claimSecretHash l1 secret)).tx l1.keccak b.account

/-- The approval of a bridging. -/
def approveTx : L1Tx := (approveCall b.feeJuice b.portal b.amount).tx l1.keccak b.account

/-- The minting of a bridging. -/
def mintTx : L1Tx := (mintCall b.handler b.account).tx l1.keccak b.account

/-- The transactions of a bridging, in their order. -/
def plan : List L1Tx := [b.mintTx l1, b.approveTx l1, b.depositTx l1 secret]

end Bridging

variable (l1) in
/-- A list of transactions that depends on the secret was begun. -/
def Begun (plan : Fr → List L1Tx) (events : List L1Exchange) : Prop :=
  ∃ secret, Progress l1 (plan secret) events

variable (l1) in
/-- What the receipt of the deposit says of the claim. -/
def Claimed (amount : Fin (2 ^ 128)) (receipt : Json) (r : FeeJuiceBridgeResult) : Prop :=
  r.claimAmount = amount ∧ ∃ event, FirstMessage l1 receipt event ∧
    messageHashOf event = .ok r.messageHash ∧ r.messageLeafIndex = leafIndexNumber event

variable (l1) in
/-- A bridging that came to its end, from the given transaction on. -/
def Ended (plan : Fr → List L1Tx) (amount : Fin (2 ^ 128)) (r : FeeJuiceBridgeResult)
    (events : List L1Exchange) : Prop :=
  ∃ receipt, Completed l1 (plan r.claimSecret) receipt events ∧
    Claimed l1 amount receipt r

/-- A transaction before the others of a plan. -/
theorem told_before {x : Procedure L1Stop τ Json}
    {f : Json → Procedure L1Stop τ FeeJuiceBridgeResult}
    {tx : L1Tx} {R : Fr → List L1Tx} {amount : Fin (2 ^ 128)}
    (first : Adds log (Told (fun receipt events => ∃ txHash, Confirmed l1 tx txHash receipt events)
      (Attempted tx)) x)
    (later : ∀ receipt, Adds log (Told (Ended l1 R amount) (Begun l1 R))
      (f receipt)) :
    Adds log (Told (Ended l1 (fun secret => tx :: R secret) amount)
      (Begun l1 fun secret => tx :: R secret)) (x >>= f) := by
  refine told_bind first later ?_ ?_ ?_
  · intro events attempted
    exact ⟨0, .attempted attempted⟩
  · rintro receipt r before after ⟨txHash, confirmed⟩ ⟨final, completed, claimed⟩
    exact ⟨final, .next confirmed completed, claimed⟩
  · rintro receipt before after ⟨txHash, confirmed⟩ ⟨secret, progress⟩
    exact ⟨secret, .confirmed confirmed progress⟩

/-- Data that may not be encoded, before a transaction. -/
theorem told_encoded {encoded : Except L1Stop String}
    {f : String → Procedure L1Stop τ FeeJuiceBridgeResult} {plan : Fr → List L1Tx}
    {amount : Fin (2 ^ 128)}
    (later : ∀ data, encoded = .ok data →
      Adds log (Told (Ended l1 plan amount) (Begun l1 plan)) (f data)) :
    Adds log (Told (Ended l1 plan amount) (Begun l1 plan))
      (ofExcept encoded >>= f) := by
  cases encoded with
  | ok data => exact later data rfl
  | error e => exact adds_throw (.error ⟨0, .stopped⟩)

theorem bridgeResult_ok {amount : Fin (2 ^ 128)} {secret : Fr} {receipt : Json}
    {r : FeeJuiceBridgeResult}
    (read : bridgeResult l1 amount secret receipt = .ok r) :
    r.claimSecret = secret ∧ Claimed l1 amount receipt r := by
  unfold bridgeResult at read
  cases found : messageSentOf l1.keccak "no logs in depositToAztecPublic receipt"
      "no MessageSent event found in deposit receipt" receipt with
  | error e =>
    rw [found] at read
    cases read
  | ok event =>
    rw [found] at read
    have said : (messageHashOf event >>= fun messageHash => _) = .ok r := read
    cases hashed : messageHashOf event with
    | error e =>
      rw [hashed] at said
      cases said
    | ok messageHash =>
      rw [hashed] at said
      cases said
      exact ⟨rfl, rfl, event, messageSentOf_ok found, hashed, rfl⟩

/-- The deposit for one secret. -/
theorem told_depositFor (logs : Logs l1 log) (b : Bridging) (secret secretHash : Fr) :
    Adds log (Told (fun r events => ∃ txHash receipt,
        Confirmed l1 ((depositCall b.portal b.recipient b.amount secretHash).tx l1.keccak b.account)
          txHash receipt events ∧ r.claimSecret = secret ∧
        Claimed l1 b.amount receipt r)
      (Attempted ((depositCall b.portal b.recipient b.amount secretHash).tx l1.keccak
        b.account))) (do
        let receipt ← step l1 "depositToAztecPublic" ⟨b.portal,
          encodeDepositToAztecPublic l1.keccak b.recipient b.amount secretHash, b.account⟩
        ofExcept (bridgeResult l1 b.amount secret receipt)) := by
  rw [encodeDeposit_eq l1.keccak b.portal b.account]
  refine told_bind (told_step logs "depositToAztecPublic" _)
    (fun receipt => told_ofExcept (bridgeResult l1 b.amount secret receipt))
    (fun attempted => attempted) ?_ ?_
  · rintro receipt r before after ⟨txHash, confirmed⟩ ⟨rfl, read⟩
    rw [List.append_nil]
    exact ⟨txHash, receipt, confirmed, bridgeResult_ok read⟩
  · rintro receipt before after ⟨txHash, confirmed⟩ rfl
    rw [List.append_nil]
    exact attempted_of_confirmed confirmed

theorem told_deposit (logs : Logs l1 log) (b : Bridging) :
    Adds log (Told (Ended l1 (fun secret => [b.depositTx l1 secret]) b.amount)
      (Begun l1 fun secret => [b.depositTx l1 secret]))
      (deposit l1 b.portal b.account b.recipient b.amount) := by
  have generated : Adds log (fun events result => events = [] ∧
      ∃ secret, result = .ok (secret, claimSecretHash l1 secret)) (generateClaimSecret l1) := by
    intro state result last ended
    cases ended
    exact ⟨[], by rw [List.append_nil]; exact logs.random state, rfl, _, rfl⟩
  refine adds_bind generated (fun secrets => told_depositFor logs b secrets.1 secrets.2) ?_ ?_
  · rintro events e ⟨-, secret, same⟩
    cases same
  · rintro before secrets after result ⟨rfl, secret, same⟩ told
    cases same
    rw [List.nil_append]
    rcases told with ⟨txHash, receipt, confirmed, rfl, claimed⟩ | attempted
    · exact .ok ⟨receipt, .last confirmed, claimed⟩
    · exact .error ⟨secret, .attempted attempted⟩

/-- The request for the amount to mint. -/
def amountRequest (l1 : L1World τ) (handler : String) : Json :=
  bodyOf "eth_call" (.arr [.obj [("to", .str handler),
    ("data", .str (encodeMintAmount l1.keccak))], .str "latest"])

variable (l1) in
/-- The amount was asked for and is the one the handler returns. -/
def AmountRead (handler : String) (amount : Fin (2 ^ 128)) (events : List L1Exchange) : Prop :=
  ∃ reply result, events = [⟨amountRequest l1 handler, reply⟩] ∧
    resultOf l1 reply = .ok result ∧ mintAmountOf result = .ok amount

theorem told_queryMintAmount (logs : Logs l1 log) (handler : String) :
    Adds log (Told (AmountRead l1 handler)
      (fun events => ∃ reply, events = [⟨amountRequest l1 handler, reply⟩]))
      (queryMintAmount l1 handler) := by
  refine told_bind (told_labelled (told_rpcCall logs _ _) "mintAmount() call failed: ")
    (fun result => told_ofExcept (mintAmountOf result)) (fun asked => asked) ?_ ?_
  · rintro result amount before after ⟨reply, rfl, replied⟩ ⟨rfl, read⟩
    exact ⟨reply, result, rfl, replied, read⟩
  · rintro result before after ⟨reply, rfl, -⟩ rfl
    exact ⟨reply, rfl⟩

/-- The transactions, once the account and the amount are known. -/
theorem told_transactions (logs : Logs l1 log) (b : Bridging) :
    Adds log (Told (Ended l1 (b.plan l1) b.amount) (Begun l1 (b.plan l1))) (do
      let mintData ← ofExcept (encodeMint l1.keccak b.account)
      let _ ← step l1 "mint" ⟨b.handler, mintData, b.account⟩
      let approveData ← ofExcept (encodeApprove l1.keccak b.portal b.amount)
      let _ ← step l1 "approve" ⟨b.feeJuice, approveData, b.account⟩
      deposit l1 b.portal b.account b.recipient b.amount) := by
  refine told_encoded fun mintData minted => ?_
  rw [encodeMint_ok l1.keccak minted b.handler]
  refine told_before (R := fun secret => [b.approveTx l1, b.depositTx l1 secret])
    (told_step logs "mint" _) fun _ => ?_
  refine told_encoded fun approveData approved => ?_
  rw [encodeApprove_ok l1.keccak approved b.feeJuice b.account]
  exact told_before (told_step logs "approve" _) fun _ => told_deposit logs b

/-- Requests that send transactions. -/
def isSending (request : Json) : Bool :=
  (request.get "method").bind Json.asStr = some "eth_sendTransaction"

/-- The transactions sent, as requests. -/
def sendings (events : List L1Exchange) : List Json := (events.map (·.request)).filter isSending

theorem sendings_append (events more : List L1Exchange) :
    sendings (events ++ more) = sendings events ++ sendings more := by
  rw [sendings, List.map_append, List.filter_append]
  rfl

theorem isSending_bodyOf (method : String) (params : Json) :
    isSending (bodyOf method params) = decide (method = "eth_sendTransaction") := by
  simp [isSending, bodyOf, Json.get, List.lookup, Json.asStr]

theorem sendings_attempted {tx : L1Tx} {events : List L1Exchange} (sent : Attempted tx events) :
    sendings events = [tx.request] := by
  obtain ⟨reply, later, rfl, receipts⟩ := sent
  have none_ : sendings later = [] := by
    rw [sendings, List.filter_eq_nil_iff]
    intro request inside
    obtain ⟨exchange, found, rfl⟩ := List.mem_map.mp inside
    obtain ⟨txHash, same⟩ := receipts exchange found
    simp [same, receiptRequest, isSending_bodyOf]
  have own : sendings [⟨tx.request, reply⟩] = [tx.request] := by
    simp [sendings, L1Tx.request, isSending_bodyOf]
  rw [← List.singleton_append, sendings_append, own, none_]
  rfl

/-- What was begun of a plan is sent in its order, each transaction once. -/
theorem sendings_progress {plan : List L1Tx} {events : List L1Exchange}
    (progress : Progress l1 plan events) : sendings events <+: plan.map (·.request) := by
  induction progress with
  | stopped => exact List.nil_prefix
  | attempted sent =>
    rw [sendings_attempted sent]
    exact ⟨_, rfl⟩
  | confirmed sent later ih =>
    rw [sendings_append, sendings_attempted (attempted_of_confirmed sent)]
    exact List.cons_prefix_cons.mpr ⟨rfl, ih⟩

theorem sendings_completed {plan : List L1Tx} {receipt : Json} {events : List L1Exchange}
    (completed : Completed l1 plan receipt events) :
    sendings events = plan.map (·.request) := by
  induction completed with
  | last sent => exact sendings_attempted (attempted_of_confirmed sent)
  | next sent later ih =>
    rw [sendings_append, sendings_attempted (attempted_of_confirmed sent), ih]
    rfl

theorem sendings_account {account : String} {events : List L1Exchange}
    (asked : AccountRead l1 account events) : sendings events = [] := by
  obtain ⟨reply, result, rfl, -⟩ := asked
  simp [sendings, isSending_bodyOf]

theorem sendings_amount {handler : String} {amount : Fin (2 ^ 128)} {events : List L1Exchange}
    (read : AmountRead l1 handler amount events) : sendings events = [] := by
  obtain ⟨reply, result, rfl, -⟩ := read
  simp [sendings, amountRequest, isSending_bodyOf]

/-- The bridging is between these contracts and for this recipient, with the account the node
lists and the amount the handler mints. -/
structure Bridging.Made (b : Bridging) (l1 : L1World τ) (addresses : L1ContractAddresses)
    (recipient : AztecAddress) (asked : List L1Exchange) : Prop where
  portal : b.portal = addresses.feeJuicePortal
  feeJuice : addresses.feeJuice = some b.feeJuice
  handler : addresses.feeAssetHandler = some b.handler
  recipient : b.recipient = recipient
  read : ∃ before after, asked = before ++ after ∧ AccountRead l1 b.account before ∧
    AmountRead l1 b.handler b.amount after

variable (l1) in
/-- The fee juice was minted, approved and deposited, one confirmed after the other, and the
claim is for the amount and the secret of the deposit. -/
def Bridged (addresses : L1ContractAddresses) (recipient : AztecAddress)
    (r : FeeJuiceBridgeResult) (events : List L1Exchange) : Prop :=
  ∃ b : Bridging, ∃ asked later, events = asked ++ later ∧ b.Made l1 addresses recipient asked ∧
    Ended l1 (b.plan l1) b.amount r later ∧
    sendings events = (b.plan l1 r.claimSecret).map (·.request)

variable (l1) in
/-- Nothing was sent, or the transactions were begun in their order. -/
def Unbridged (addresses : L1ContractAddresses) (recipient : AztecAddress)
    (events : List L1Exchange) : Prop :=
  sendings events = [] ∨ ∃ b : Bridging, ∃ asked later secret, events = asked ++ later ∧
    b.Made l1 addresses recipient asked ∧ Progress l1 (b.plan l1 secret) later ∧
    sendings events <+: (b.plan l1 secret).map (·.request)

theorem sendings_made {b : Bridging} {addresses : L1ContractAddresses} {recipient : AztecAddress}
    {asked : List L1Exchange} (made : b.Made l1 addresses recipient asked) :
    sendings asked = [] := by
  obtain ⟨before, after, rfl, account, amount⟩ := made.read
  rw [sendings_append, sendings_account account, sendings_amount amount]
  rfl

theorem bridged_of_ended {b : Bridging} {addresses : L1ContractAddresses}
    {recipient : AztecAddress} {r : FeeJuiceBridgeResult} {asked later : List L1Exchange}
    (made : b.Made l1 addresses recipient asked) (ended : Ended l1 (b.plan l1) b.amount r later) :
    Bridged l1 addresses recipient r (asked ++ later) := by
  refine ⟨b, asked, later, rfl, made, ended, ?_⟩
  obtain ⟨receipt, completed, -⟩ := ended
  rw [sendings_append, sendings_made made, sendings_completed completed]
  rfl

theorem unbridged_of_begun {b : Bridging} {addresses : L1ContractAddresses}
    {recipient : AztecAddress} {asked later : List L1Exchange}
    (made : b.Made l1 addresses recipient asked) (begun : Begun l1 (b.plan l1) later) :
    Unbridged l1 addresses recipient (asked ++ later) := by
  obtain ⟨secret, progress⟩ := begun
  refine .inr ⟨b, asked, later, secret, rfl, made, progress, ?_⟩
  rw [sendings_append, sendings_made made]
  exact sendings_progress progress

/-- The bridging once the account is known. -/
theorem told_afterAccount (logs : Logs l1 log) {addresses : L1ContractAddresses}
    {feeJuice handler : String} (hasJuice : addresses.feeJuice = some feeJuice)
    (hasHandler : addresses.feeAssetHandler = some handler) (recipient : AztecAddress)
    (account : String) :
    Adds log (Told
      (fun r events => ∀ {before}, AccountRead l1 account before →
        Bridged l1 addresses recipient r (before ++ events))
      (fun events => ∀ {before}, AccountRead l1 account before →
        Unbridged l1 addresses recipient (before ++ events))) (do
        let amount ← queryMintAmount l1 handler
        let mintData ← ofExcept (encodeMint l1.keccak account)
        let _ ← step l1 "mint" ⟨handler, mintData, account⟩
        let approveData ← ofExcept (encodeApprove l1.keccak addresses.feeJuicePortal amount)
        let _ ← step l1 "approve" ⟨feeJuice, approveData, account⟩
        deposit l1 addresses.feeJuicePortal account recipient amount) := by
  have made {amount : Fin (2 ^ 128)} {before read : List L1Exchange}
      (asked : AccountRead l1 account before) (found : AmountRead l1 handler amount read) :
      Bridging.Made ⟨addresses.feeJuicePortal, feeJuice, handler, account, recipient, amount⟩ l1
        addresses recipient (before ++ read) :=
    ⟨rfl, hasJuice, hasHandler, rfl, before, read, rfl, asked, found⟩
  refine told_bind (told_queryMintAmount logs handler) (fun amount => told_transactions logs
    ⟨addresses.feeJuicePortal, feeJuice, handler, account, recipient, amount⟩) ?_ ?_ ?_
  · rintro events ⟨reply, rfl⟩ before asked
    left
    rw [sendings_append, sendings_account asked]
    simp [sendings, amountRequest, isSending_bodyOf]
  · intro amount r read later found ended before asked
    rw [← List.append_assoc]
    exact bridged_of_ended (made asked found) ended
  · intro amount read later found begun before asked
    rw [← List.append_assoc]
    exact unbridged_of_begun (made asked found) begun

/-- `prepare_fee_juice_on_l1` sends the minting, the approval and the deposit in this order,
each when the one before has a receipt of success, and never one of them twice. -/
theorem prepare_fee_juice_on_l1_orderly (logs : Logs l1 log) {addresses : L1ContractAddresses}
    {recipient : AztecAddress} {state last : τ} {result : Except L1Stop FeeJuiceBridgeResult}
    (ended : (prepareFeeJuiceOnL1 l1 addresses recipient).runFrom state = some (result, last)) :
    ∃ events, log last = log state ++ events ∧
      Told (Bridged l1 addresses recipient) (Unbridged l1 addresses recipient) events result := by
  revert ended
  suffices all : Adds log (Told (Bridged l1 addresses recipient) (Unbridged l1 addresses recipient))
      (prepareFeeJuiceOnL1 l1 addresses recipient) from fun ended => all ended
  unfold prepareFeeJuiceOnL1
  cases feeJuice : addresses.feeJuice with
  | none => exact adds_throw (.error (.inl rfl))
  | some feeJuice' =>
    cases handler : addresses.feeAssetHandler with
    | none => exact adds_throw (.error (.inl rfl))
    | some handler' =>
      refine told_bind (told_getAccount logs) (told_afterAccount logs feeJuice handler recipient)
        ?_ (fun asked said => said asked) (fun asked said => said asked)
      rintro events ⟨reply, rfl⟩
      left
      simp [sendings, isSending_bodyOf]

/-- Three transactions that are taken. -/
def bridgeReplies : List Json :=
  [.arr [.str "0xaa"], .str (hexText (beBytes 32 9)), .str "0x01", sampleReceipt, .str "0x02",
    .null, sampleReceipt, .str "0x03", sampleReceipt]

theorem three_transactions_orderly : ∃ r last,
    (prepareFeeJuiceOnL1 (listedWorld bridgeReplies)
      ⟨"0x10", "0x11", "0x12", "0x13", some "0x14", some "0x15"⟩ ⟨7⟩).runFrom [] =
      some (.ok r, last) ∧ Bridged (listedWorld bridgeReplies)
      ⟨"0x10", "0x11", "0x12", "0x13", some "0x14", some "0x15"⟩ ⟨7⟩ r last := by
  obtain ⟨r, last, ended⟩ : ∃ r last, (prepareFeeJuiceOnL1 (listedWorld bridgeReplies)
      ⟨"0x10", "0x11", "0x12", "0x13", some "0x14", some "0x15"⟩ ⟨7⟩).runFrom [] =
      some (.ok r, last) := ⟨_, _, rfl⟩
  obtain ⟨events, added, told⟩ := prepare_fee_juice_on_l1_orderly (logs_listedWorld bridgeReplies)
    ended
  have whole : last = events := added
  cases told with
  | ok bridged => exact ⟨r, last, ended, whole ▸ bridged⟩

end Logged

end L1Client
end AztecPxe
