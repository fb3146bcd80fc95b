import AztecPxe.Deployment
import AztecPxe.SimulatedKernel

/-! The fee payload on its way from an interaction to the account provider.
The interactions of `contract.rs` and `deployment.rs` merge it into their
payload and pass the payload and the options on; `base_wallet.rs` reads the same
options and merges it again when it simulates or sends. -/
namespace AztecPxe

/-- `fee.rs::GasFees`. -/
structure GasFees where
  feePerDaGas : Nat
  feePerL2Gas : Nat
  deriving DecidableEq, Repr

/-- `fee.rs::GasSettings`, with its defaults. -/
structure GasSettings where
  gasLimits : Option Gas := some ⟨786432, 6540000⟩
  teardownGasLimits : Option Gas := some ⟨393216, 1000000⟩
  maxFeePerGas : Option GasFees := some ⟨1, 1⟩
  maxPriorityFeePerGas : Option GasFees := some ⟨0, 0⟩
  deriving DecidableEq, Repr

/-- `hash.rs::ChainInfo`. -/
structure ChainInfo where
  chainId : Fr
  version : Fr
  deriving DecidableEq, Repr

/-- What `SimulateOptions`, `ProfileOptions` and `SendOptions` have in common
and a wallet reads before it asks the account provider. -/
structure TxOptions where
  fromAddress : AztecAddress
  authWitnesses : List AuthWitness := []
  capsules : List Capsule := []
  gasSettings : Option GasSettings := none
  feeExecutionPayload : Option ExecutionPayload := none

/-- The arguments of `AccountProvider::create_tx_execution_request`. -/
structure AccountRequest where
  fromAddress : AztecAddress
  exec : ExecutionPayload
  gasSettings : GasSettings
  chainInfo : ChainInfo
  feePayer : Option AztecAddress
  feePaymentMethod : Option Nat

/-- A `BaseWallet`: what its node answers to `get_chain_info`, and what its
answers make of deployments. -/
structure BaseWallet where
  chainInfo : Except Error ChainInfo
  deployments : DeployEnvironment

namespace BaseWallet

/-- `BaseWallet::merge_execution_payload`. -/
def mergeExecutionPayload (exec : ExecutionPayload) (authWitnesses : List AuthWitness)
    (capsules : List Capsule) : ExecutionPayload :=
  { exec with
    authWitnesses := exec.authWitnesses ++ authWitnesses
    capsules := exec.capsules ++ capsules }

variable (wallet : BaseWallet) (exec : ExecutionPayload) (opts : TxOptions)

/-- `BaseWallet::simulate_tx`, up to the request it asks for. -/
def simulateTx : Except Error AccountRequest := do
  let merged := mergeFeePayload (mergeExecutionPayload exec opts.authWitnesses opts.capsules)
    opts.feeExecutionPayload
  let chainInfo ← wallet.chainInfo
  .ok
    { fromAddress := opts.fromAddress
      exec := merged
      gasSettings := opts.gasSettings.getD {}
      chainInfo := chainInfo
      feePayer := none
      feePaymentMethod := none }

/-- `BaseWallet::profile_tx`, up to the request it asks for: only the options'
own witnesses and capsules are merged here. -/
def profileTx : Except Error AccountRequest := do
  let merged := mergeExecutionPayload exec opts.authWitnesses opts.capsules
  let chainInfo ← wallet.chainInfo
  .ok
    { fromAddress := opts.fromAddress
      exec := merged
      gasSettings := opts.gasSettings.getD {}
      chainInfo := chainInfo
      feePayer := none
      feePaymentMethod := none }

/-- `BaseWallet::send_tx`, up to the request it asks for. -/
def sendTx : Except Error AccountRequest := do
  let merged := mergeFeePayload (mergeExecutionPayload exec opts.authWitnesses opts.capsules)
    opts.feeExecutionPayload
  let chainInfo ← wallet.chainInfo
  .ok
    { fromAddress := opts.fromAddress
      exec := merged
      gasSettings := opts.gasSettings.getD {}
      chainInfo := chainInfo
      feePayer := merged.feePayer
      feePaymentMethod := opts.feeExecutionPayload.map (fun _ => 2) }

end BaseWallet

/-- The body of the operations of `contract.rs`: the fee payload goes into the
request, and the options to the wallet with it. -/
def withFeePayload (operate : ExecutionPayload → TxOptions → Except Error AccountRequest)
    (payload : ExecutionPayload) (opts : TxOptions) : Except Error AccountRequest :=
  operate (mergeFeePayload payload opts.feeExecutionPayload) opts

namespace ContractFunctionInteraction
variable (interaction : ContractFunctionInteraction) (wallet : BaseWallet)

/-- `ContractFunctionInteraction::simulate`. -/
def simulate : TxOptions → Except Error AccountRequest :=
  withFeePayload wallet.simulateTx interaction.request

/-- `ContractFunctionInteraction::profile`. -/
def profile : TxOptions → Except Error AccountRequest :=
  withFeePayload wallet.profileTx interaction.request

/-- `ContractFunctionInteraction::send`. -/
def send : TxOptions → Except Error AccountRequest :=
  withFeePayload wallet.sendTx interaction.request

end ContractFunctionInteraction

namespace BatchCall
variable (batch : BatchCall) (wallet : BaseWallet)

/-- `BatchCall::simulate`. -/
def simulate : TxOptions → Except Error AccountRequest :=
  withFeePayload wallet.simulateTx batch.request

/-- `BatchCall::profile`. -/
def profile : TxOptions → Except Error AccountRequest :=
  withFeePayload wallet.profileTx batch.request

/-- `BatchCall::send`. -/
def send : TxOptions → Except Error AccountRequest :=
  withFeePayload wallet.sendTx batch.request

end BatchCall

namespace DeployMethod
variable (method : DeployMethod) (deployOpts : DeployOptions) (wallet : BaseWallet)
  (opts : TxOptions)

/-- `DeployMethod::simulate`. -/
def simulate : Except Error AccountRequest := do
  let effective := withEffectiveFrom deployOpts opts.fromAddress
  withFeePayload wallet.simulateTx (← method.request wallet.deployments effective) opts

/-- `DeployMethod::profile`. -/
def profile : Except Error AccountRequest := do
  let effective := withEffectiveFrom deployOpts opts.fromAddress
  withFeePayload wallet.profileTx (← method.request wallet.deployments effective) opts

/-- `DeployMethod::send`, up to the request: the instance it computes is the
one it waits for afterwards. -/
def send : Except Error AccountRequest := do
  let effective := withEffectiveFrom deployOpts opts.fromAddress
  let _ ← method.getInstance wallet.deployments effective
  withFeePayload wallet.sendTx (← method.request wallet.deployments effective) opts

end DeployMethod

/-- The three operations. -/
inductive Operation where
  | simulate
  | profile
  | send
  deriving DecidableEq, Repr

/-- What an operation is asked of. -/
inductive Interaction where
  | contractFunction (interaction : ContractFunctionInteraction)
  | batchCall (batch : BatchCall)
  | deployMethod (method : DeployMethod) (opts : DeployOptions)

namespace Interaction

/-- The payloads an interaction is made of, before any merge. -/
def parts (wallet : BaseWallet) (opts : TxOptions) :
    Interaction → Except Error (List ExecutionPayload)
  | .contractFunction interaction => .ok [interaction.request]
  | .batchCall batch => .ok batch.payloads
  | .deployMethod method deployOpts =>
    method.payloads wallet.deployments (DeployMethod.withEffectiveFrom deployOpts opts.fromAddress)

/-- What an interaction hands to the account provider. -/
def perform (wallet : BaseWallet) (opts : TxOptions) :
    Operation → Interaction → Except Error AccountRequest
  | .simulate, .contractFunction interaction => interaction.simulate wallet opts
  | .simulate, .batchCall batch => batch.simulate wallet opts
  | .simulate, .deployMethod method deployOpts => method.simulate deployOpts wallet opts
  | .profile, .contractFunction interaction => interaction.profile wallet opts
  | .profile, .batchCall batch => batch.profile wallet opts
  | .profile, .deployMethod method deployOpts => method.profile deployOpts wallet opts
  | .send, .contractFunction interaction => interaction.send wallet opts
  | .send, .batchCall batch => batch.send wallet opts
  | .send, .deployMethod method deployOpts => method.send deployOpts wallet opts

end Interaction

namespace FeePayload
open ExecutionPayload

/-- One list of the handed payload has the entries of the interaction's parts,
those the options add and those of the fee payload, each as often as it stands
there. -/
def Once {α : Type} (list : ExecutionPayload → List α) (own : List α)
    (parts : List ExecutionPayload) (opts : TxOptions) (exec : ExecutionPayload) : Prop :=
  (list exec).Perm (parts.flatMap list ++ own ++ opts.feeExecutionPayload.toList.flatMap list)

/-- Nothing of the parts, the options or the fee payload is lost or doubled. -/
structure ExactlyOnce (parts : List ExecutionPayload) (opts : TxOptions) (exec : ExecutionPayload) :
    Prop where
  calls : Once (·.calls) [] parts opts exec
  authWitnesses : Once (·.authWitnesses) opts.authWitnesses parts opts exec
  capsules : Once (·.capsules) opts.capsules parts opts exec
  extraHashedArgs : Once (·.extraHashedArgs) [] parts opts exec

/-- A fee payload that only names a payer. -/
structure OnlyPayer (fee : ExecutionPayload) : Prop where
  calls : fee.calls = []
  authWitnesses : fee.authWitnesses = []
  capsules : fee.capsules = []
  extraHashedArgs : fee.extraHashedArgs = []

/-- The wallet's side of an operation. -/
def operate (wallet : BaseWallet) :
    Operation → ExecutionPayload → TxOptions → Except Error AccountRequest
  | .simulate => wallet.simulateTx
  | .profile => wallet.profileTx
  | .send => wallet.sendTx

/-- The fee payload the wallet merges by itself. -/
def walletFee (operation : Operation) (opts : TxOptions) : Option ExecutionPayload :=
  if operation = .profile then none else opts.feeExecutionPayload

/-- Every operation hands over what it was given, the options' own witnesses and
capsules, and the fee payload it merges itself. -/
theorem exec_of_operate {wallet : BaseWallet} {info : ChainInfo}
    (reached : wallet.chainInfo = .ok info) (operation : Operation) (exec : ExecutionPayload)
    (opts : TxOptions) :
    ∃ handed, operate wallet operation exec opts = .ok handed ∧
      handed.exec = mergeFeePayload
        (BaseWallet.mergeExecutionPayload exec opts.authWitnesses opts.capsules)
        (walletFee operation opts) := by
  cases operation with
  | simulate =>
    simp only [operate, BaseWallet.simulateTx, reached, ok_bind]
    exact ⟨_, rfl, rfl⟩
  | profile =>
    simp only [operate, BaseWallet.profileTx, reached, ok_bind]
    exact ⟨_, rfl, rfl⟩
  | send =>
    simp only [operate, BaseWallet.sendTx, reached, ok_bind]
    exact ⟨_, rfl, rfl⟩

/-- An interaction whose parts are known merges them, merges the fee payload and
turns to the wallet. -/
theorem perform_of_parts {wallet : BaseWallet} {opts : TxOptions} {interaction : Interaction}
    {parts : List ExecutionPayload} (known : interaction.parts wallet opts = .ok parts)
    (operation : Operation) :
    interaction.perform wallet opts operation = operate wallet operation
      (mergeFeePayload (parts.foldl extend {}) opts.feeExecutionPayload) opts := by
  cases interaction with
  | contractFunction interaction =>
    cases known
    cases operation <;> rfl
  | batchCall batch =>
    cases known
    cases operation <;> rfl
  | deployMethod method deployOpts =>
    have requested := DeployMethod.request_of_payloads known
    obtain ⟨contract, found, -⟩ := bind_eq_ok.mp known
    cases operation with
    | simulate =>
      simp only [Interaction.perform, DeployMethod.simulate, requested, ok_bind]
      rfl
    | profile =>
      simp only [Interaction.perform, DeployMethod.profile, requested, ok_bind]
      rfl
    | send =>
      simp only [Interaction.perform, DeployMethod.send, found, requested, ok_bind]
      rfl

/-- The payload an operation hands over. -/
def handedPayload (operation : Operation) (parts : List ExecutionPayload) (opts : TxOptions) :
    ExecutionPayload :=
  mergeFeePayload (BaseWallet.mergeExecutionPayload
    (mergeFeePayload (parts.foldl extend {}) opts.feeExecutionPayload)
    opts.authWitnesses opts.capsules) (walletFee operation opts)

section Lists
variable {α : Type} {list : ExecutionPayload → List α} {own : List α} (opts : TxOptions)

/-- An empty payload has nothing in a list that is appended to. -/
theorem list_empty (appended : Appended list) : list {} = [] := by
  have twice : list {} = list {} ++ list {} := appended {} {}
  exact List.self_eq_append_right.mp twice

/-- The entries of a list in the order they are handed over. -/
theorem list_handedPayload (appended : Appended list)
    (added : ∀ exec, list (BaseWallet.mergeExecutionPayload exec opts.authWitnesses opts.capsules) =
      list exec ++ own)
    (operation : Operation) (parts : List ExecutionPayload) :
    list (handedPayload operation parts opts) =
      parts.flatMap list ++ opts.feeExecutionPayload.toList.flatMap list ++ own ++
        (walletFee operation opts).toList.flatMap list := by
  rw [handedPayload, list_mergeFeePayload appended, added, list_mergeFeePayload appended,
    list_foldl_extend appended, list_empty appended, List.nil_append]

/-- A list has every entry once when the wallet does not merge the fee payload
again, or finds nothing to merge. -/
theorem once_iff (appended : Appended list)
    (added : ∀ exec, list (BaseWallet.mergeExecutionPayload exec opts.authWitnesses opts.capsules) =
      list exec ++ own)
    (operation : Operation) (parts : List ExecutionPayload) :
    Once list own parts opts (handedPayload operation parts opts) ↔
      operation = .profile ∨ ∀ fee ∈ opts.feeExecutionPayload, list fee = [] := by
  have listed := list_handedPayload opts appended added operation parts
  have swap (main fee : List α) : (main ++ fee ++ own).Perm (main ++ own ++ fee) := by
    rw [List.append_assoc, List.append_assoc]
    exact List.Perm.append_left main List.perm_append_comm
  rw [Once, listed]
  by_cases profiled : operation = .profile
  · simp only [walletFee, profiled, if_true, Option.toList_none, List.flatMap_nil, List.append_nil,
      true_or, iff_true]
    exact swap _ _
  · simp only [walletFee, profiled, if_false, false_or]
    cases opts.feeExecutionPayload with
    | none => simp
    | some fee =>
      simp only [Option.toList_some, List.flatMap_singleton, Option.mem_some_iff, forall_eq']
      constructor
      · intro permuted
        have lengths := permuted.length_eq
        simp only [List.length_append] at lengths
        exact List.length_eq_zero_iff.mp (by omega)
      · intro nothing
        simp [nothing]

end Lists

/-- The account provider is handed everything exactly once when the operation is
a profile, or when the fee payload has nothing to merge. -/
theorem exactly_once_iff (wallet : BaseWallet) (interaction : Interaction) (operation : Operation)
    (opts : TxOptions) (parts : List ExecutionPayload) (info : ChainInfo)
    (known : interaction.parts wallet opts = .ok parts) (reached : wallet.chainInfo = .ok info) :
    ∃ handed, interaction.perform wallet opts operation = .ok handed ∧
      (ExactlyOnce parts opts handed.exec ↔
        operation = .profile ∨ ∀ fee ∈ opts.feeExecutionPayload, OnlyPayer fee) := by
  obtain ⟨handed, performed, exec⟩ := exec_of_operate reached operation
    (mergeFeePayload (parts.foldl extend {}) opts.feeExecutionPayload) opts
  refine ⟨handed, (perform_of_parts known operation).trans performed, ?_⟩
  change handed.exec = handedPayload operation parts opts at exec
  rw [exec]
  have calls := once_iff opts calls_appended
    (fun exec => (List.append_nil exec.calls).symm) operation parts
  have authWitnesses := once_iff opts authWitnesses_appended (fun _ => rfl) operation parts
  have capsules := once_iff opts capsules_appended (fun _ => rfl) operation parts
  have extraHashedArgs := once_iff opts extraHashedArgs_appended
    (fun exec => (List.append_nil exec.extraHashedArgs).symm) operation parts
  constructor
  · intro once
    rcases calls.mp once.calls with profiled | noCalls
    · exact .inl profiled
    · by_cases profiled : operation = .profile
      · exact .inl profiled
      · refine .inr (fun fee held => ⟨noCalls fee held, ?_, ?_, ?_⟩)
        · exact (authWitnesses.mp once.authWitnesses).resolve_left profiled fee held
        · exact (capsules.mp once.capsules).resolve_left profiled fee held
        · exact (extraHashedArgs.mp once.extraHashedArgs).resolve_left profiled fee held
  · rintro (profiled | nothing)
    · exact ⟨calls.mpr (.inl profiled), authWitnesses.mpr (.inl profiled),
        capsules.mpr (.inl profiled), extraHashedArgs.mpr (.inl profiled)⟩
    · exact ⟨calls.mpr (.inr fun fee held => (nothing fee held).calls),
        authWitnesses.mpr (.inr fun fee held => (nothing fee held).authWitnesses),
        capsules.mpr (.inr fun fee held => (nothing fee held).capsules),
        extraHashedArgs.mpr (.inr fun fee held => (nothing fee held).extraHashedArgs)⟩

/-- A wallet whose node answers. -/
def answeringWallet : BaseWallet where
  chainInfo := .ok ⟨31337, 1⟩
  deployments :=
    { crypto := .zero
      canonicalizeInstance := fun contract _ _ _ => .ok contract
      registerContract := fun _ => .ok ()
      isClassPubliclyRegistered := fun _ => .ok true }

/-- A transfer of a token. -/
def transferCall : FunctionCall where
  toAddress := ⟨20⟩
  selector := ⟨0x18d9b4d0⟩
  args := [.field 7, .field 8, .field 100]
  functionType := .privateFunction

/-- The `claim_and_end_setup` call of a fee payment by claim. -/
def claimCall : FunctionCall where
  toAddress := ⟨5⟩
  selector := ⟨0x12e5a4d6⟩
  args := [.field 7, .integer 1000, .field 99, .field 7]
  functionType := .privateFunction

/-- Options that pay the fee with what `payload` claims. -/
def payingOptions (payload : ExecutionPayload) : TxOptions where
  fromAddress := ⟨7⟩
  feeExecutionPayload := some payload

/-- A fee that is paid from the balance of the sender has nothing to merge. -/
theorem native_fee_once :
    ∃ handed, (Interaction.contractFunction { call := transferCall }).perform answeringWallet
      (payingOptions { feePayer := some ⟨7⟩ }) .send = .ok handed ∧
        ExactlyOnce [{ calls := [transferCall] }] (payingOptions { feePayer := some ⟨7⟩ })
          handed.exec := by
  obtain ⟨handed, performed, once⟩ := exactly_once_iff answeringWallet
    (.contractFunction { call := transferCall }) .send (payingOptions { feePayer := some ⟨7⟩ })
    [{ calls := [transferCall] }] ⟨31337, 1⟩ rfl rfl
  refine ⟨handed, performed, once.mpr (.inr ?_)⟩
  intro fee held
  cases held
  exact ⟨rfl, rfl, rfl, rfl⟩

/-- Sent with a claim, a transfer is handed over with the claim made twice. -/
theorem claim_sent_twice :
    ∃ handed, (Interaction.contractFunction { call := transferCall }).perform answeringWallet
      (payingOptions { calls := [claimCall], feePayer := some ⟨7⟩ }) .send = .ok handed ∧
        handed.exec.calls = [transferCall, claimCall, claimCall] ∧
        ¬ ExactlyOnce [{ calls := [transferCall] }]
          (payingOptions { calls := [claimCall], feePayer := some ⟨7⟩ }) handed.exec := by
  refine ⟨_, rfl, rfl, ?_⟩
  intro once
  have lengths := once.calls.length_eq
  cases lengths

end FeePayload

end AztecPxe
