import AztecPxe.AccountEntrypoint

/-! The fee payment of an account through its own entrypoint, `meta_payment.rs`. The options the
wrapper chooses pass through `EntrypointOptions`, whose conversion drops them, and
`SchnorrAccount::wrap_execution_payload` reads none: it wraps with the defaults. The calls of the
inner payload are wrapped as they are. -/
namespace AztecPxe
open AccountEntrypoint

/-- `account.rs::EntrypointOptions`. -/
structure EntrypointOptions where
  feePayer : Option AztecAddress := none
  gasSettings : Option GasSettings := none
  feePaymentMethod : Option Nat := none
  deriving DecidableEq, Repr

/-- `From<DefaultAccountEntrypointOptions> for EntrypointOptions`. -/
def AccountEntrypoint.DefaultAccountEntrypointOptions.toEntrypointOptions
    (_opts : DefaultAccountEntrypointOptions) : EntrypointOptions where
  feePayer := none
  gasSettings := none
  feePaymentMethod := none

/-- `schnorr.rs::SchnorrAccount`, as its contract makes it: the entrypoint has the account's
address and signs with the account's key. -/
structure SchnorrAccount where
  address : AztecAddress
  schnorrSign : Fr → List Fr

/-- The `entrypoint` of the account. -/
def SchnorrAccount.entrypoint (account : SchnorrAccount) : DefaultAccountEntrypoint where
  address := account.address
  createAuthWit hash _ := .ok ⟨hash, account.schnorrSign hash⟩

/-- `SchnorrAccount::wrap_execution_payload`, with the nonce that is drawn. -/
def SchnorrAccount.wrapExecutionPayload (poseidon2 : List Fr → Fr) (account : SchnorrAccount)
    (exec : ExecutionPayload) (_options : EntrypointOptions) (random : Fr) :
    Except Error ExecutionPayload :=
  account.entrypoint.wrapExecutionPayload poseidon2 exec ⟨0, 0⟩ {} random

/-- A `FeePaymentMethod`, by its answers. -/
structure FeePaymentMethod where
  getAsset : Except Error AztecAddress
  getFeePayer : Except Error AztecAddress
  getFeeExecutionPayload : Except Error ExecutionPayload

/-- `AccountEntrypointMetaPaymentMethod`, over a Schnorr account. -/
structure AccountEntrypointMetaPaymentMethod where
  account : SchnorrAccount
  inner : Option FeePaymentMethod := none
  feeEntrypointOptions : Option DefaultAccountEntrypointOptions := none

namespace AccountEntrypointMetaPaymentMethod
variable (poseidon2 : List Fr → Fr) (method : AccountEntrypointMetaPaymentMethod)

/-- `get_fee_payer`. -/
def getFeePayer : Except Error AztecAddress :=
  match method.inner with
  | some inner => inner.getFeePayer
  | none => .ok method.account.address

/-- The first step of `get_fee_execution_payload`. -/
def innerPayload : Except Error ExecutionPayload :=
  match method.inner with
  | some inner => inner.getFeeExecutionPayload
  | none => .ok {}

/-- The second step of `get_fee_execution_payload`. -/
def options (innerPayload : ExecutionPayload) : Except Error DefaultAccountEntrypointOptions :=
  match method.feeEntrypointOptions with
  | some opts => .ok opts
  | none => do
    let feePayer ← method.getFeePayer
    let isPayer := feePayer = method.account.address
    return {
      cancellable := false
      txNonce := none
      feePaymentMethodOptions :=
        if isPayer ∧ innerPayload.calls ≠ [] then .feeJuiceWithClaim
        else if isPayer then .preexistingFeeJuice
        else .external }

/-- `get_fee_execution_payload`, with the nonce the entrypoint draws. -/
def getFeeExecutionPayload (random : Fr) : Except Error ExecutionPayload := do
  let innerPayload ← method.innerPayload
  let options ← method.options innerPayload
  method.account.wrapExecutionPayload poseidon2 innerPayload options.toEntrypointOptions random

end AccountEntrypointMetaPaymentMethod

namespace FeeWrapping

/-- The one call of a payload is the account's entrypoint, with these options as its arguments and
these calls in its payload, each once and in their order, before the padding. -/
def Carries (poseidon2 : List Fr → Fr) (account : SchnorrAccount)
    (options : DefaultAccountEntrypointOptions) (calls : List FunctionCall)
    (payload : ExecutionPayload) : Prop :=
  ∃ call encoded, payload.calls = [call] ∧ call.toAddress = account.address ∧
    call.args = entrypointArgs encoded options ∧
    (∀ nonce ∈ options.txNonce, encoded.txNonce = nonce) ∧
    encoded.encodedCalls = (paddedCalls calls).map (encodeCall poseidon2)

section Wrapping
variable {poseidon2 : List Fr → Fr} {account : SchnorrAccount} {exec payload : ExecutionPayload}
  {random : Fr}

/-- What is wrapped fits the entrypoint, and becomes the arguments of the default options. -/
theorem wrapped_of_ok {options : EntrypointOptions}
    (wrapped : account.wrapExecutionPayload poseidon2 exec options random = .ok payload) :
    ∃ call, payload.calls = [call] ∧ call.toAddress = account.address ∧
      call.args = entrypointArgs (encodedOf poseidon2 exec.calls random) {} := by
  unfold SchnorrAccount.wrapExecutionPayload DefaultAccountEntrypoint.wrapExecutionPayload at wrapped
  obtain ⟨callData, built, done⟩ := bind_eq_ok.mp wrapped
  cases done
  have few : exec.calls.length ≤ appMaxCalls := by
    by_contra many
    unfold DefaultAccountEntrypoint.buildEntrypointCallData at built
    rw [EncodedAppEntrypointCalls.create, if_pos (Nat.lt_of_not_le many)] at built
    cases built
  rw [buildEntrypointCallData_eq few] at built
  cases built
  exact ⟨_, rfl, rfl, rfl⟩

/-- The arguments determine the options, but for a nonce that was drawn. -/
theorem entrypointArgs_injective {encoded encoded' : EncodedAppEntrypointCalls}
    {options options' : DefaultAccountEntrypointOptions}
    (same : entrypointArgs encoded options = entrypointArgs encoded' options') :
    encoded.txNonce = encoded'.txNonce ∧
      options.feePaymentMethodOptions = options'.feePaymentMethodOptions ∧
      options.cancellable = options'.cancellable := by
  rw [entrypointArgs, entrypointArgs, buildAppPayloadValue_eq, buildAppPayloadValue_eq] at same
  simp only [List.cons.injEq, AbiValue.struct.injEq, Prod.mk.injEq, AbiValue.field.injEq,
    AbiValue.integer.injEq, AbiValue.boolean.injEq, true_and, and_true] at same
  obtain ⟨⟨-, nonce⟩, discriminant, cancellable⟩ := same
  refine ⟨nonce, ?_, cancellable⟩
  revert discriminant
  cases options.feePaymentMethodOptions <;> cases options'.feePaymentMethodOptions <;>
    simp [AccountFeePaymentMethodOptions.discriminant]

/-- A wrapped payload carries options exactly when they are the defaults, up to a nonce that
happens to be drawn. -/
theorem carries_iff {given : EntrypointOptions} {options : DefaultAccountEntrypointOptions}
    (wrapped : account.wrapExecutionPayload poseidon2 exec given random = .ok payload) :
    Carries poseidon2 account options exec.calls payload ↔
      options.feePaymentMethodOptions = .external ∧ options.cancellable = false ∧
        (options.txNonce = none ∨ options.txNonce = some random) := by
  obtain ⟨call, only, address, args⟩ := wrapped_of_ok wrapped
  constructor
  · rintro ⟨other, encoded, alone, -, others, nonce, -⟩
    rw [only, List.cons.injEq] at alone
    obtain ⟨rfl, -⟩ := alone
    obtain ⟨drawn, external, cancellable⟩ := entrypointArgs_injective (others.symm.trans args)
    refine ⟨external, cancellable, ?_⟩
    cases chosen : options.txNonce with
    | none => exact .inl rfl
    | some txNonce =>
      have carried := nonce txNonce chosen
      exact .inr (congrArg some (carried.symm.trans drawn))
  · rintro ⟨external, cancellable, nonce⟩
    refine ⟨call, encodedOf poseidon2 exec.calls random, only, address, ?_, ?_, rfl⟩
    · rw [args, entrypointArgs, entrypointArgs, external, cancellable]
    · intro txNonce chosen
      rcases nonce with none | drawn
      · rw [none] at chosen
        cases chosen
      · rw [drawn] at chosen
        exact Option.some.inj chosen

end Wrapping

/-- The chosen options are those an account wraps with anyway: none of its own fee payment, no
cancelling, and no nonce but the one that is drawn. When they are derived, somebody else pays. -/
def ChosenAsDefault (method : AccountEntrypointMetaPaymentMethod) (random : Fr) : Prop :=
  match method.feeEntrypointOptions with
  | some options => options.feePaymentMethodOptions = .external ∧ options.cancellable = false ∧
    (options.txNonce = none ∨ options.txNonce = some random)
  | none => method.getFeePayer ≠ .ok method.account.address

section MetaPayment
variable {poseidon2 : List Fr → Fr} {method : AccountEntrypointMetaPaymentMethod}
  {inner payload : ExecutionPayload} {options : DefaultAccountEntrypointOptions} {random : Fr}

theorem options_default_iff (chosen : method.options inner = .ok options) :
    options.feePaymentMethodOptions = .external ∧ options.cancellable = false ∧
        (options.txNonce = none ∨ options.txNonce = some random) ↔
      ChosenAsDefault method random := by
  unfold AccountEntrypointMetaPaymentMethod.options at chosen
  unfold ChosenAsDefault
  cases given : method.feeEntrypointOptions with
  | some opts =>
    rw [given] at chosen
    cases chosen
    exact Iff.rfl
  | none =>
    rw [given] at chosen
    obtain ⟨feePayer, payer, derived⟩ := bind_eq_ok.mp chosen
    cases derived
    rw [payer]
    by_cases own : feePayer = method.account.address
    · -- The account pays: one of its two methods is chosen, and neither is the default.
      by_cases calls : inner.calls = [] <;> simp [own, calls]
    · simp [own]

/-- The payload holds the inner calls and the default options. It carries the chosen options
exactly when they are no different. -/
theorem fee_options_carried_iff (read : method.innerPayload = .ok inner)
    (chosen : method.options inner = .ok options)
    (built : method.getFeeExecutionPayload poseidon2 random = .ok payload) :
    Carries poseidon2 method.account {} inner.calls payload ∧
      (Carries poseidon2 method.account options inner.calls payload ↔
        ChosenAsDefault method random) := by
  unfold AccountEntrypointMetaPaymentMethod.getFeeExecutionPayload at built
  rw [read, ok_bind, chosen, ok_bind] at built
  refine ⟨(carries_iff built).mpr ⟨rfl, rfl, .inl rfl⟩, ?_⟩
  rw [carries_iff built, options_default_iff chosen]

end MetaPayment

/-- An account that pays from its own balance. -/
private def payingAccount (options : Option DefaultAccountEntrypointOptions) :
    AccountEntrypointMetaPaymentMethod where
  account := ⟨⟨42⟩, fun hash => [hash, 1]⟩
  feeEntrypointOptions := options

private theorem payingAccount_wraps (options : Option DefaultAccountEntrypointOptions) :
    ∃ payload, (payingAccount options).getFeeExecutionPayload spread 5 = .ok payload ∧
      (payingAccount options).account.wrapExecutionPayload spread {} {} 5 = .ok payload := by
  have wraps : ∃ payload, (payingAccount options).account.wrapExecutionPayload spread {} {} 5 =
      .ok payload := by
    unfold SchnorrAccount.wrapExecutionPayload DefaultAccountEntrypoint.wrapExecutionPayload
    rw [buildEntrypointCallData_eq (Nat.zero_le _)]
    exact ⟨_, rfl⟩
  obtain ⟨payload, wrapped⟩ := wraps
  cases options <;> exact ⟨payload, wrapped, wrapped⟩

theorem fee_options_carried_sample : ∃ payload,
    (payingAccount (some {})).getFeeExecutionPayload spread 5 = .ok payload ∧
      Carries spread (payingAccount (some {})).account {} [] payload ∧
      (Carries spread (payingAccount (some {})).account {} [] payload ↔
        ChosenAsDefault (payingAccount (some {})) 5) := by
  obtain ⟨payload, built, -⟩ := payingAccount_wraps (some {})
  have carried := fee_options_carried_iff (show _ = Except.ok {} from rfl) rfl built
  exact ⟨payload, built, carried⟩

/-- An account that pays its fee from its balance is wrapped as if somebody else paid, and loses
the nonce and the flag that were asked for. -/
theorem fee_options_dropped :
    (∃ payload, (payingAccount none).getFeeExecutionPayload spread 5 = .ok payload ∧
      (payingAccount none).options {} = .ok ⟨false, none, .preexistingFeeJuice⟩ ∧
      ¬ Carries spread (payingAccount none).account ⟨false, none, .preexistingFeeJuice⟩ []
        payload) ∧
    ∃ payload, (payingAccount (some ⟨true, some 7, .external⟩)).getFeeExecutionPayload spread 5 =
        .ok payload ∧
      ¬ Carries spread (payingAccount none).account ⟨true, some 7, .external⟩ [] payload := by
  obtain ⟨derived, built, wrapped⟩ := payingAccount_wraps none
  obtain ⟨asked, built', wrapped'⟩ := payingAccount_wraps (some ⟨true, some 7, .external⟩)
  refine ⟨⟨derived, built, rfl, ?_⟩, asked, built', ?_⟩
  · intro carried
    cases ((carries_iff wrapped).mp carried).1
  · intro carried
    cases ((carries_iff wrapped').mp carried).2.1

end FeeWrapping
end AztecPxe
