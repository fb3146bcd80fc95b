import AztecPxe.AccountEntrypoint

/-! The requests a wallet makes of one payload. `simulate_tx`, `profile_tx` and `send_tx`
build their request each on its own; `SingleAccountProvider` and `SchnorrAccount` turn what
they pass on into the arguments of the entrypoint. -/
namespace AztecPxe.WalletRequests
open AztecPxe AbiCodec AccountEntrypoint

/-- `account.rs::EntrypointOptions`. -/
structure EntrypointOptions where
  feePayer : Option AztecAddress
  gasSettings : Option GasSettings
  feePaymentMethod : Option Nat

/-- `schnorr.rs::SchnorrAccount`: its address, and what it signs a message hash with. -/
structure SchnorrAccount where
  address : AztecAddress
  sign : Fr → List Fr

namespace SchnorrAccount
variable (account : SchnorrAccount)

/-- The entrypoint of the account, with `SchnorrAuthorizationProvider::create_auth_wit`. -/
def entrypoint : DefaultAccountEntrypoint where
  address := account.address
  createAuthWit messageHash _ := .ok ⟨messageHash, account.sign messageHash⟩

/-- The fee payment methods by number. -/
def feePaymentMethodOptions (method : Nat) : AccountFeePaymentMethodOptions :=
  match method with
  | 1 => .preexistingFeeJuice
  | 2 => .feeJuiceWithClaim
  | _ => .external

/-- `SchnorrAccount::create_tx_execution_request`, with the nonce and the salt drawn. -/
def createTxExecutionRequest (poseidon2 : List Fr → Fr) (exec : ExecutionPayload)
    (gasSettings : GasSettings) (chainInfo : ChainInfo) (options : EntrypointOptions)
    (random salt : Fr) : Except Error TxExecutionRequest :=
  let epOpts : DefaultAccountEntrypointOptions := match options.feePaymentMethod with
    | some method => { feePaymentMethodOptions := feePaymentMethodOptions method }
    | none => {}
  account.entrypoint.createTxExecutionRequest poseidon2 exec gasSettings chainInfo epOpts random salt

/-- `SingleAccountProvider::create_tx_execution_request` with a Schnorr account. -/
def provide (poseidon2 : List Fr → Fr) (request : AccountRequest) (random salt : Fr) :
    Except Error TxExecutionRequest :=
  if request.fromAddress ≠ account.address then
    .error (.invalidData ("account not found: " ++ hex32 request.fromAddress.inner.val))
  else
    let options : EntrypointOptions :=
      ⟨request.feePayer, some request.gasSettings, request.feePaymentMethod⟩
    account.createTxExecutionRequest poseidon2 request.exec request.gasSettings request.chainInfo
      options random salt

end SchnorrAccount

section Requests
variable (poseidon2 : List Fr → Fr) (wallet : BaseWallet) (account : SchnorrAccount)
variable (exec : ExecutionPayload) (opts : TxOptions)

/-- The request an operation hands the PXE, if it comes so far. -/
def handed (operation : Operation) (random salt : Fr) : Option TxExecutionRequest :=
  (do
    let request ← FeePayload.operate wallet operation exec opts
    account.provide poseidon2 request random salt).toOption

/-- Whatever nonce and salt are drawn, all three operations hand over one request. -/
def Alike : Prop :=
  ∀ random salt : Fr,
    handed poseidon2 wallet account exec opts .profile random salt =
      handed poseidon2 wallet account exec opts .simulate random salt ∧
    handed poseidon2 wallet account exec opts .send random salt =
      handed poseidon2 wallet account exec opts .simulate random salt

end Requests

variable {poseidon2 : List Fr → Fr} {wallet : BaseWallet} {account : SchnorrAccount}
variable {exec : ExecutionPayload} {opts : TxOptions} {random salt : Fr}

/-- The payload an operation hands on. -/
def handedExec (operation : Operation) (exec : ExecutionPayload) (opts : TxOptions) :
    ExecutionPayload :=
  mergeFeePayload (BaseWallet.mergeExecutionPayload exec opts.authWitnesses opts.capsules)
    (FeePayload.walletFee operation opts)

/-- The payment method an operation asks for. -/
def handedMethod (operation : Operation) (opts : TxOptions) : AccountFeePaymentMethodOptions :=
  if operation = .send ∧ opts.feeExecutionPayload.isSome then .feeJuiceWithClaim else .external

theorem handed_eq {info : ChainInfo} (reached : wallet.chainInfo = .ok info)
    (own : opts.fromAddress = account.address) (operation : Operation) :
    handed poseidon2 wallet account exec opts operation random salt =
      (account.entrypoint.createTxExecutionRequest poseidon2 (handedExec operation exec opts)
        (opts.gasSettings.getD {}) info
        { feePaymentMethodOptions := handedMethod operation opts } random salt).toOption := by
  cases operation with
  | simulate =>
    simp only [handed, FeePayload.operate, BaseWallet.simulateTx, reached, ok_bind,
      SchnorrAccount.provide, own, ne_eq, not_true_eq_false, if_false]
    rfl
  | profile =>
    simp only [handed, FeePayload.operate, BaseWallet.profileTx, reached, ok_bind,
      SchnorrAccount.provide, own, ne_eq, not_true_eq_false, if_false]
    rfl
  | send =>
    simp only [handed, FeePayload.operate, BaseWallet.sendTx, reached, ok_bind,
      SchnorrAccount.provide, own, ne_eq, not_true_eq_false, if_false]
    cases paid : opts.feeExecutionPayload <;>
      simp [handedExec, handedMethod, paid, FeePayload.walletFee,
        SchnorrAccount.createTxExecutionRequest, SchnorrAccount.feePaymentMethodOptions]

theorem unreached {e : Error} (failed : wallet.chainInfo = .error e) (operation : Operation) :
    handed poseidon2 wallet account exec opts operation random salt = none := by
  cases operation <;>
    simp only [handed, FeePayload.operate, BaseWallet.simulateTx, BaseWallet.profileTx,
      BaseWallet.sendTx, failed] <;> rfl

theorem foreign {info : ChainInfo} (reached : wallet.chainInfo = .ok info)
    (other : opts.fromAddress ≠ account.address) (operation : Operation) :
    handed poseidon2 wallet account exec opts operation random salt = none := by
  cases operation <;>
    simp only [handed, FeePayload.operate, BaseWallet.simulateTx, BaseWallet.profileTx,
      BaseWallet.sendTx, reached, ok_bind, SchnorrAccount.provide, other, ne_eq, not_false_eq_true,
      if_true] <;> rfl

section Create
variable {gasSettings : GasSettings} {chainInfo : ChainInfo}
variable {options : DefaultAccountEntrypointOptions}

theorem create_of_many (many : appMaxCalls < exec.calls.length) :
    (account.entrypoint.createTxExecutionRequest poseidon2 exec gasSettings chainInfo options random
      salt).toOption = none := by
  have refused : EncodedAppEntrypointCalls.create poseidon2 exec.calls options.txNonce random =
      .error _ := if_pos many
  simp only [DefaultAccountEntrypoint.createTxExecutionRequest,
    DefaultAccountEntrypoint.buildEntrypointCallData, refused]
  rfl

/-- At most five calls always make a request; after their hashed arguments come those of the
entrypoint. -/
theorem create_of_few (few : exec.calls.length ≤ appMaxCalls) :
    ∃ request, account.entrypoint.createTxExecutionRequest poseidon2 exec gasSettings chainInfo
        options random salt = .ok request ∧
      request.argsOfCalls = (paddedCalls exec.calls).map (hashedArgs poseidon2) ++
        [Hash.fromArgs poseidon2 ((encodedOf poseidon2 exec.calls (options.txNonce.getD random)).toFields ++
          [frOfU128 options.feePaymentMethodOptions.discriminant, Fr.ofBool options.cancellable])] ++
        exec.extraHashedArgs := by
  unfold DefaultAccountEntrypoint.createTxExecutionRequest
  rw [buildEntrypointCallData_eq few]
  exact ⟨_, rfl, rfl⟩

end Create

/-- A request tells the payment method it was made with. -/
theorem method_of_request {gasSettings : GasSettings} {chainInfo : ChainInfo}
    (few : exec.calls.length ≤ appMaxCalls) {method method' : AccountFeePaymentMethodOptions}
    (same : (account.entrypoint.createTxExecutionRequest poseidon2 exec gasSettings chainInfo
        { feePaymentMethodOptions := method } random salt).toOption =
      (account.entrypoint.createTxExecutionRequest poseidon2 exec gasSettings chainInfo
        { feePaymentMethodOptions := method' } random salt).toOption) : method = method' := by
  obtain ⟨request, made, args⟩ := create_of_few few
  obtain ⟨request', made', args'⟩ := create_of_few few
  rw [made, made'] at same
  have requests : request = request' := Option.some.inj same
  rw [requests, args', List.append_cancel_right_eq, List.append_cancel_left_eq] at args
  have values := congrArg HashedValues.values (List.singleton_inj.mp args)
  have fields := List.append_cancel_left values
  cases method <;> cases method' <;> first | rfl | exact absurd fields (by decide)

theorem calls_handedExec (operation : Operation) : (handedExec operation exec opts).calls =
    exec.calls ++ (FeePayload.walletFee operation opts).toList.flatMap (·.calls) :=
  list_mergeFeePayload ExecutionPayload.calls_appended _ _

/-- Where no fee payload is given, the operations ask for the same. -/
theorem handed_of_unpaid (unpaid : opts.feeExecutionPayload = none) (operation : Operation) :
    handed poseidon2 wallet account exec opts operation random salt =
      handed poseidon2 wallet account exec opts .simulate random salt := by
  cases reached : wallet.chainInfo with
  | error e => rw [unreached reached, unreached reached]
  | ok info =>
    by_cases own : opts.fromAddress = account.address
    · have same : handedExec operation exec opts = handedExec .simulate exec opts := by
        simp [handedExec, FeePayload.walletFee, unpaid]
      have methods : handedMethod operation opts = handedMethod .simulate opts := by
        simp [handedMethod, unpaid]
      rw [handed_eq reached own, handed_eq reached own, same, methods]
    · rw [foreign reached own, foreign reached own]

/-- Nothing is handed over of too many calls, or for another account. -/
theorem nothing_handed (cause : (∃ e, wallet.chainInfo = .error e) ∨
      opts.fromAddress ≠ account.address ∨ 5 < exec.calls.length) (operation : Operation) :
    handed poseidon2 wallet account exec opts operation random salt = none := by
  cases reached : wallet.chainInfo with
  | error e => exact unreached reached operation
  | ok info =>
    by_cases own : opts.fromAddress = account.address
    · have many : 5 < exec.calls.length := by
        rcases cause with ⟨e, failed⟩ | other | many
        · cases failed.symm.trans reached
        · exact absurd own other
        · exact many
      rw [handed_eq reached own, create_of_many]
      rw [calls_handedExec, List.length_append]
      exact many.trans_le (Nat.le_add_right _ _)
    · exact foreign reached own operation

/-- The three operations hand over one request exactly where there is no fee payload, or
where nothing is handed over: the chain cannot be asked, another account is named or the
payload has more than five calls. -/
theorem requests_alike_iff (poseidon2 : List Fr → Fr) (wallet : BaseWallet)
    (account : SchnorrAccount) (exec : ExecutionPayload) (opts : TxOptions) :
    Alike poseidon2 wallet account exec opts ↔
      opts.feeExecutionPayload = none ∨ (∃ e, wallet.chainInfo = .error e) ∨
        opts.fromAddress ≠ account.address ∨ 5 < exec.calls.length := by
  constructor
  · intro alike
    by_contra apart
    simp only [not_or, not_exists, not_not, not_lt] at apart
    obtain ⟨paid, reachable, own, few⟩ := apart
    obtain ⟨fee, paid⟩ := Option.ne_none_iff_exists'.mp paid
    cases reached : wallet.chainInfo with
    | error e => exact reachable e reached
    | ok info =>
      obtain ⟨profiled, sent⟩ := alike 0 0
      rw [handed_eq reached own, handed_eq reached own] at profiled sent
      by_cases room : (handedExec .simulate exec opts).calls.length ≤ appMaxCalls
      · have methods := method_of_request room sent
        simp [handedMethod, paid] at methods
      · have alone : (handedExec .profile exec opts).calls.length ≤ appMaxCalls := by
          rw [calls_handedExec]
          simpa [FeePayload.walletFee, appMaxCalls] using few
        obtain ⟨request, made, -⟩ := create_of_few alone
        rw [create_of_many (not_le.mp room), made] at profiled
        cases profiled
  · rintro (unpaid | cause) random salt
    · exact ⟨handed_of_unpaid unpaid .profile, handed_of_unpaid unpaid .send⟩
    · rw [nothing_handed cause, nothing_handed cause, nothing_handed cause]
      exact ⟨rfl, rfl⟩

/-- A fee payload that only names the sender as payer makes the sent request another. -/
theorem payer_changes_request :
    ¬ Alike Crypto.summed.poseidon2 FeePayload.answeringWallet ⟨⟨7⟩, fun _ => []⟩
      { calls := [FeePayload.transferCall] } (FeePayload.payingOptions { feePayer := some ⟨7⟩ }) := by
  intro alike
  have sent := (alike 0 0).2
  rw [handed_eq rfl rfl, handed_eq rfl rfl] at sent
  have methods := method_of_request (by decide) sent
  exact absurd methods (by decide)

end AztecPxe.WalletRequests
