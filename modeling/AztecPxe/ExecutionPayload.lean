import AztecPxe.Hash
import AztecPxe.Json

/-! The execution payloads of `core/src/tx.rs`, the ways `contract.rs` merges
them, and the payloads a single interaction and a batch ask for. Every merge is
one step, `extend`, that appends the four lists of one payload to those of
another; what a merge is careful about is only who pays the fee. -/
namespace AztecPxe

/-- `abi/types.rs::AbiValue`; the members of a struct are in the order of their
names. -/
inductive AbiValue where
  | field (value : Fr)
  | boolean (value : Bool)
  | integer (value : Int)
  | array (elements : List AbiValue)
  | string (value : String)
  | struct (members : List (String × AbiValue))
  | tuple (elements : List AbiValue)

/-- `abi/types.rs::FunctionType`. -/
inductive FunctionType where
  | privateFunction
  | publicFunction
  | utility
  deriving DecidableEq, Repr

/-- `tx.rs::FunctionCall`. -/
structure FunctionCall where
  toAddress : AztecAddress
  selector : FunctionSelector
  args : List AbiValue
  functionType : FunctionType
  isStatic : Bool := false
  hideMsgSender : Bool := false

/-- `FunctionCall::empty`. -/
def FunctionCall.empty : FunctionCall where
  toAddress := .zero
  selector := .empty
  args := []
  functionType := .privateFunction

/-- `tx.rs::AuthWitness`. -/
structure AuthWitness where
  requestHash : Fr
  fields : List Fr
  deriving DecidableEq, Repr

/-- `tx.rs::ExecutionPayload`. -/
structure ExecutionPayload where
  calls : List FunctionCall := []
  authWitnesses : List AuthWitness := []
  capsules : List Capsule := []
  extraHashedArgs : List HashedValues := []
  feePayer : Option AztecAddress := none

namespace ExecutionPayload

/-- The step of every merge: the lists of `extra` after those of `payload`, and
the fee payer of `extra` where it names one. -/
def extend (payload extra : ExecutionPayload) : ExecutionPayload where
  calls := payload.calls ++ extra.calls
  authWitnesses := payload.authWitnesses ++ extra.authWitnesses
  capsules := payload.capsules ++ extra.capsules
  extraHashedArgs := payload.extraHashedArgs ++ extra.extraHashedArgs
  feePayer := extra.feePayer.or payload.feePayer

/-- One step of `ExecutionPayload::merge`: payers that are both named must agree. -/
def mergeStep (merged payload : ExecutionPayload) : Except Error ExecutionPayload :=
  match payload.feePayer, merged.feePayer with
  | some payer, some existing =>
    if existing ≠ payer then
      .error (.invalidData ("conflicting fee payers: " ++ hex32 existing.inner.val ++ " vs " ++
        hex32 payer.inner.val))
    else .ok (merged.extend payload)
  | _, _ => .ok (merged.extend payload)

/-- `ExecutionPayload::merge`. -/
def merge (payloads : List ExecutionPayload) : Except Error ExecutionPayload :=
  payloads.foldlM mergeStep {}

/-- A list of the payload that every merge appends to. -/
def Appended {α : Type} (list : ExecutionPayload → List α) : Prop :=
  ∀ payload extra, list (payload.extend extra) = list payload ++ list extra

theorem calls_appended : Appended (·.calls) := fun _ _ => rfl

theorem authWitnesses_appended : Appended (·.authWitnesses) := fun _ _ => rfl

theorem capsules_appended : Appended (·.capsules) := fun _ _ => rfl

theorem extraHashedArgs_appended : Appended (·.extraHashedArgs) := fun _ _ => rfl

/-- A payload that names no payer is never refused. -/
theorem mergeStep_of_no_payer {payload : ExecutionPayload} (unpaid : payload.feePayer = none)
    (merged : ExecutionPayload) : mergeStep merged payload = .ok (merged.extend payload) := by
  simp [mergeStep, unpaid]

/-- Extending payload after payload appends list after list. -/
theorem list_foldl_extend {α : Type} {list : ExecutionPayload → List α} (appended : Appended list)
    (payloads : List ExecutionPayload) (start : ExecutionPayload) :
    list (payloads.foldl extend start) = list start ++ payloads.flatMap list := by
  induction payloads generalizing start with
  | nil => simp
  | cons payload rest ih =>
    rw [List.foldl_cons, ih, appended, List.flatMap_cons, List.append_assoc]

/-- Payloads that name no payer merge by extending. -/
theorem merge_of_no_payer {payloads : List ExecutionPayload}
    (unpaid : ∀ payload ∈ payloads, payload.feePayer = none) :
    merge payloads = .ok (payloads.foldl extend {}) := by
  suffices general : ∀ start, payloads.foldlM mergeStep start = .ok (payloads.foldl extend start) from
    general {}
  induction payloads with
  | nil => exact fun _ => rfl
  | cons payload rest ih =>
    intro start
    have first := mergeStep_of_no_payer (unpaid payload List.mem_cons_self) start
    rw [List.foldlM_cons, first, ok_bind, List.foldl_cons]
    exact ih (fun later held => unpaid later (List.mem_cons_of_mem _ held)) _

end ExecutionPayload

/-- `merge_fee_payload`. -/
def mergeFeePayload (payload : ExecutionPayload) (fee : Option ExecutionPayload) :
    ExecutionPayload :=
  match fee with
  | some feePayload => payload.extend feePayload
  | none => payload

/-- The fee payload goes once after what the payload has. -/
theorem list_mergeFeePayload {α : Type} {list : ExecutionPayload → List α}
    (appended : ExecutionPayload.Appended list) (payload : ExecutionPayload)
    (fee : Option ExecutionPayload) :
    list (mergeFeePayload payload fee) = list payload ++ fee.toList.flatMap list := by
  cases fee with
  | none => simp [mergeFeePayload]
  | some feePayload => simp [mergeFeePayload, appended payload feePayload]

/-- `contract.rs::ContractFunctionInteraction`, the wallet apart. -/
structure ContractFunctionInteraction where
  call : FunctionCall
  capsules : List Capsule := []
  authWitnesses : List AuthWitness := []
  extraHashedArgs : List HashedValues := []

/-- `ContractFunctionInteraction::request`. -/
def ContractFunctionInteraction.request (interaction : ContractFunctionInteraction) :
    ExecutionPayload where
  calls := [interaction.call]
  capsules := interaction.capsules
  authWitnesses := interaction.authWitnesses
  extraHashedArgs := interaction.extraHashedArgs

/-- `contract.rs::BatchCall`, the wallet apart. -/
structure BatchCall where
  payloads : List ExecutionPayload

/-- `BatchCall::request`: the last payer named wins. -/
def BatchCall.request (batch : BatchCall) : ExecutionPayload :=
  batch.payloads.foldl ExecutionPayload.extend {}

end AztecPxe
