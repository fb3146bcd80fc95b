import AztecPxe.HexText
import AztecPxe.PrivateExecution
import AztecPxe.Procedure

/-! The executor of `execution/acvm_executor.rs`: the loop that solves a circuit and
has an oracle answer its foreign calls, with one level of circuits below. The ACVM
itself is third-party code and a parameter: a machine that runs until it is solved,
fails, or waits for an answer. -/
namespace AztecPxe

/-- `brillig::ForeignCallParam`. -/
inductive ForeignCallParam where
  | single (field : Fr)
  | array (fields : List Fr)
  deriving DecidableEq, Repr

/-- A witness map: a value for some of the witnesses. -/
abbrev WitnessMap := Nat → Option Fr

/-- `ForeignCallWaitInfo`. -/
structure ForeignCall where
  function : String
  inputs : List ForeignCallParam

/-- `AcirCallWaitInfo`: a call of another circuit of the program. -/
structure AcirCall where
  id : Nat
  initialWitness : WitnessMap

/-- `ResolvedAssertionPayload`; a raw payload is read by its selector. -/
inductive AssertionPayload where
  | string (message : String)
  | raw (selector : Nat)

/-- `OpcodeResolutionError`, with the payload of the kinds that carry one and its own
text. -/
inductive OpcodeResolutionError where
  | brilligFunctionFailed (payload : Option AssertionPayload) (text : String)
  | unsatisfiedConstrain (payload : Option AssertionPayload) (text : String)
  | other (text : String)

/-- `ACVMStatus`. -/
inductive AcvmStatus where
  | solved
  | inProgress
  | failure (error : OpcodeResolutionError)
  | requiresForeignCall (call : ForeignCall)
  | requiresAcirCall (call : AcirCall)

/-- A circuit of a program; its return witnesses are in ascending order. -/
structure AcirCircuit (Opcodes : Type) where
  opcodes : Opcodes
  returnValues : List Nat

/-- `acir::circuit::Program`. -/
structure AcirProgram (Opcodes Brillig : Type) where
  functions : List (AcirCircuit Opcodes)
  unconstrainedFunctions : Brillig

/-- The third-party code the executor uses: the ACVM, and what reads a program from
its text. -/
structure Acvm (Opcodes Brillig Machine : Type) where
  new : Opcodes → WitnessMap → Brillig → Machine
  solve : Machine → AcvmStatus × Machine
  resolvePendingForeignCall : Machine → List ForeignCallParam → Machine
  resolvePendingAcirCall : Machine → List Fr → Machine
  finalize : Machine → WitnessMap
  decodeBase64 : String → Except String (List UInt8)
  gzip : List UInt8 → Except String (List UInt8)
  deserializeProgram : List UInt8 → Except String (AcirProgram Opcodes Brillig)

/-- `abi/types.rs::FunctionArtifact`, as the executor reads it. -/
structure CompiledFunction extends FunctionArtifact where
  name : String
  bytecode : Option String := none
  verificationKey : Option String := none
  errorTypes : Option Json := none

/-- `abi/types.rs::ContractArtifact`, as the executor reads it. -/
structure CompiledContract where
  name : String
  functions : List CompiledFunction
  contextInputsSizes : List (String × Nat) := []

namespace CompiledContract
variable (artifact : CompiledContract)

/-- `find_function`. -/
def findFunction (name : String) : Except Error CompiledFunction :=
  match artifact.functions.find? (fun f => f.name = name) with
  | some function => .ok function
  | none => .error (.abi ("function '" ++ name ++ "' not found in artifact '" ++ artifact.name ++
      "'"))

/-- `private_context_inputs_size`. -/
def privateContextInputsSize (functionName : String) : Nat :=
  (artifact.contextInputsSizes.lookup functionName).getD 0

end CompiledContract

namespace AcvmExecutor

/-! ## Values on their way to the machine and back -/

/-- `fr_to_fe`: an element of the same field, of the same bytes. -/
def frToFe (fr : Fr) : Fr := Fin.ofNat frModulus fr.val

/-- `fe_to_fr`: the element its hexadecimal text reads as. -/
def feToFr (fe : Fr) : Fr := ((Fr.fromHex (hex32 fe.val)).toOption).getD 0

@[simp] theorem frToFe_eq (fr : Fr) : frToFe fr = fr := Fin.ofNat_val_eq_self fr

@[simp] theorem feToFr_eq (fe : Fr) : feToFr fe = fe := by
  rw [feToFr, HexText.fromHex_hex32]
  rfl

/-- `witness_map_to_frs`. -/
def witnessMapToFrs (witness : WitnessMap) (returnWitnesses : List Nat) : List Fr :=
  returnWitnesses.filterMap (fun w => (witness w).map feToFr)

/-- `build_initial_witness`. -/
def buildInitialWitness (args : List Fr) : WitnessMap :=
  args.zipIdx.foldl (fun map entry =>
    Function.update map (entry.2 % 2 ^ 32) (some (frToFe entry.1))) (fun _ => none)

/-- What `convert_fc_inputs` reads of a parameter. -/
def paramFields : ForeignCallParam → List Fr
  | .single fe => [feToFr fe]
  | .array fes => fes.map feToFr

/-- `convert_fc_inputs`. -/
def convertFcInputs (inputs : List ForeignCallParam) : Args := inputs.map paramFields

/-- `force_array_indexes`: the parts of an answer that stay arrays even when they
have one field. -/
def forceArrayIndexes (function : String) : List Nat :=
  if function ∈ ["utilityLoadCapsule", "loadCapsule", "getCapsule"] then [1]
  else if function ∈ ["utilityAes128Decrypt", "aes128Decrypt"] then [0]
  else if function ∈ ["utilityTryGetPublicKeysAndPartialAddress",
      "tryGetPublicKeysAndPartialAddress"] then [1]
  else if function ∈ ["privateLoadFromExecutionCache", "loadFromExecutionCache"] then [0]
  else []

/-- A part of an answer, as the machine gets it. -/
def answerParam (forced : List Nat) (index : Nat) (frs : List Fr) : ForeignCallParam :=
  match frs with
  | [fr] => if index ∈ forced then .array [frToFe fr] else .single (frToFe fr)
  | frs => .array (frs.map frToFe)

/-- `convert_fc_result`. -/
def convertFcResult (function : String) (result : Answer) : List ForeignCallParam :=
  result.mapIdx (answerParam (forceArrayIndexes function))

/-- Every part of an answer reaches the machine with its fields, whichever shape it
has there. -/
theorem convertFcInputs_convertFcResult (function : String) (result : Answer) :
    convertFcInputs (convertFcResult function result) = result := by
  have back : feToFr ∘ frToFe = id := by
    funext fr
    simp
  have part (index : Nat) (frs : List Fr) :
      paramFields (answerParam (forceArrayIndexes function) index frs) = frs := by
    unfold answerParam
    split
    · split <;> simp [paramFields]
    · simp [paramFields, back]
  refine List.ext_getElem (by simp [convertFcInputs, convertFcResult]) fun i h h' => ?_
  simp [convertFcInputs, convertFcResult, part]

/-! ## Errors -/

/-- `error_types_contains_message`. -/
def errorTypesContainsMessage (errorTypes : Option Json) (expected : String) : Bool :=
  match errorTypes with
  | some (.obj entries) => entries.any (fun entry =>
      decide (((entry.2.get "string").bind Json.asStr) = some expected))
  | _ => false

/-- The message of a call of `transfer` with a nonce of its own. -/
def invalidNonce : String :=
  "Invalid authwit nonce. When 'from' and 'msg_sender' are the same, 'authwit_nonce' must be zero"

/-- `fallback_private_error_message`. -/
def fallbackPrivateErrorMessage (lastOracle resolved : String) (errorTypes : Option Json) :
    Option String :=
  if resolved ≠ "Cannot satisfy constraint" then none
  else if lastOracle = "privateIsNullifierPending" ∧
      errorTypesContainsMessage errorTypes invalidNonce then some invalidNonce
  else if (lastOracle = "privateNotifyNullifiedNote" ∨ lastOracle = "utilityGetNotes") ∧
      errorTypesContainsMessage errorTypes "Balance too low" then some "Balance too low"
  else none

/-- The payload of an error and its own text. -/
def payloadOf : OpcodeResolutionError → Option AssertionPayload × String
  | .brilligFunctionFailed payload text => (payload, text)
  | .unsatisfiedConstrain payload text => (payload, text)
  | .other text => (none, text)

/-- The text an entry of the error types has for its selector. -/
def describedError (entry : Json) : Option String :=
  let kind := (entry.get "error_kind").bind Json.asStr
  if kind = some "string" ∨ kind = some "fmtstring" then (entry.get "string").bind Json.asStr
  else none

/-- `resolve_error`. -/
def resolveError (error : OpcodeResolutionError) (errorTypes : Option Json) : String :=
  match (payloadOf error).1 with
  | some (.string message) => message
  | some (.raw selector) =>
    (((errorTypes.bind (·.get (toString selector))).bind describedError)).getD (payloadOf error).2
  | none => (payloadOf error).2

/-! ## The loops -/

variable {Opcodes Brillig Machine τ : Type} (acvm : Acvm Opcodes Brillig Machine)

/-- `OracleCallback::handle_foreign_call`. -/
abbrev OracleCallback (τ : Type) := String → Args → Procedure Error τ Answer

/-- `decode_program`. -/
def decodeProgram (bytecode : String) : Except Error (AcirProgram Opcodes Brillig) :=
  match acvm.decodeBase64 bytecode with
  | .error e => .error (.invalidData ("base64 decode error: " ++ e))
  | .ok bytes =>
    let compressed := if [0x1f, 0x8b] <+: bytes then .ok bytes else acvm.gzip bytes
    match compressed with
    | .error e => .error (.invalidData ("gzip compress error: " ++ e))
    | .ok bytes =>
      (acvm.deserializeProgram bytes).mapError fun e =>
        .invalidData ("ACIR deserialize error: " ++ e)

variable (oracle : OracleCallback τ)

/-- One turn of the loop over a circuit called by another. -/
def subTurn (errorTypes : Option Json) (machine : Machine) :
    Procedure Error τ (Turn Machine Machine) :=
  let next := (acvm.solve machine).2
  match (acvm.solve machine).1 with
  | .solved => pure (.done next)
  | .inProgress => pure (.again next)
  | .requiresForeignCall call => do
    let result ← oracle call.function (convertFcInputs call.inputs)
    pure (.again (acvm.resolvePendingForeignCall next (convertFcResult call.function result)))
  | .requiresAcirCall _ =>
    throw (.invalidData "nested ACIR calls deeper than 2 levels not supported")
  | .failure error =>
    throw (.invalidData ("sub-circuit execution failed: " ++ resolveError error errorTypes))

/-- The variables of the loop of `execute_private`. -/
structure Solving (Machine : Type) where
  acvm : Machine
  lastPrivateFc : String := ""
  firstAcirCallReturnValues : List Fr := []

/-- `RequiresAcirCall` in `execute_private`: the called circuit is solved, and its
return values go back. -/
def acirCall (turns : Nat) (program : AcirProgram Opcodes Brillig) (errorTypes : Option Json)
    (call : AcirCall) : Procedure Error τ (List Fr) :=
  match program.functions[call.id]? with
  | none => throw (.invalidData ("ACIR call references circuit " ++ toString call.id ++
      " but program only has " ++ toString program.functions.length))
  | some called => do
    let solved ← Procedure.loop (subTurn acvm oracle errorTypes) turns
      (acvm.new called.opcodes call.initialWitness program.unconstrainedFunctions)
    pure (called.returnValues.filterMap (acvm.finalize solved))

/-- The message `execute_private` fails with. -/
def privateFailure (function : CompiledFunction) (functionName lastPrivateFc : String)
    (error : OpcodeResolutionError) : String :=
  let resolved := resolveError error function.errorTypes
  "private function '" ++ functionName ++ "' execution failed (last oracle: " ++ lastPrivateFc ++
    "): " ++ (fallbackPrivateErrorMessage lastPrivateFc resolved function.errorTypes).getD resolved

/-- One turn of the loop of `execute_private`. -/
def privateTurn (turns : Nat) (program : AcirProgram Opcodes Brillig) (function : CompiledFunction)
    (functionName : String) (solving : Solving Machine) :
    Procedure Error τ (Turn (Solving Machine) (Solving Machine)) :=
  let next := (acvm.solve solving.acvm).2
  match (acvm.solve solving.acvm).1 with
  | .solved => pure (.done { solving with acvm := next })
  | .inProgress => pure (.again { solving with acvm := next })
  | .requiresForeignCall call => do
    let result ← oracle call.function (convertFcInputs call.inputs)
    pure (.again { solving with
      acvm := acvm.resolvePendingForeignCall next (convertFcResult call.function result)
      lastPrivateFc := call.function })
  | .requiresAcirCall call => do
    let returnValues ← acirCall acvm oracle turns program function.errorTypes call
    pure (.again { solving with
      acvm := acvm.resolvePendingAcirCall next returnValues
      firstAcirCallReturnValues := if solving.firstAcirCallReturnValues.isEmpty
        then returnValues.map feToFr else solving.firstAcirCallReturnValues })
  | .failure error =>
    throw (.invalidData (privateFailure function functionName solving.lastPrivateFc error))

/-- `AcvmExecutionOutput`. -/
structure ExecutionOutput where
  returnValues : List Fr
  witness : WitnessMap
  acirBytecode : List UInt8
  verificationKey : List UInt8
  firstAcirCallReturnValues : List Fr

/-- What both executors read before they solve: the function, its program and the
program's first circuit. -/
def mainCircuit (artifact : CompiledContract) (functionName : String) :
    Except Error (CompiledFunction × AcirProgram Opcodes Brillig × AcirCircuit Opcodes) := do
  let function ← artifact.findFunction functionName
  match function.bytecode with
  | none => .error (.invalidData ("function '" ++ functionName ++ "' in '" ++ artifact.name ++
      "' has no bytecode"))
  | some bytecode =>
    let program ← decodeProgram acvm bytecode
    match program.functions.head? with
    | none => .error (.invalidData "program has no circuits")
    | some circuit => .ok (function, program, circuit)

/-- `execute_private`, for at most so many turns of each of its loops. -/
def executePrivate (turns : Nat) (artifact : CompiledContract) (functionName : String)
    (initialWitnessFields : List Fr) : Procedure Error τ ExecutionOutput :=
  match mainCircuit acvm artifact functionName with
  | .error e => throw e
  | .ok (function, program, circuit) => do
    let solved ← Procedure.loop (privateTurn acvm oracle turns program function functionName) turns
      { acvm := acvm.new circuit.opcodes (buildInitialWitness initialWitnessFields)
          program.unconstrainedFunctions }
    let witness := acvm.finalize solved.acvm
    pure
      { returnValues := witnessMapToFrs witness circuit.returnValues
        witness := witness
        acirBytecode := ((acvm.decodeBase64 (function.bytecode.getD "")).toOption).getD []
        verificationKey := (function.verificationKey.bind fun key =>
          (acvm.decodeBase64 key).toOption).getD []
        firstAcirCallReturnValues := solved.firstAcirCallReturnValues }

/-- One turn of the loop of `execute_utility`, with the last foreign call made. -/
def utilityTurn (function : CompiledFunction) (functionName : String)
    (solving : Machine × String) : Procedure Error τ (Turn (Machine × String) Machine) :=
  let next := (acvm.solve solving.1).2
  match (acvm.solve solving.1).1 with
  | .solved => pure (.done next)
  | .inProgress => pure (.again (next, solving.2))
  | .requiresForeignCall call => do
    let result ← oracle call.function (convertFcInputs call.inputs)
    pure (.again (acvm.resolvePendingForeignCall next (convertFcResult call.function result),
      call.function))
  | .requiresAcirCall _ =>
    throw (.invalidData "utility functions should not make ACIR calls")
  | .failure error =>
    throw (.invalidData ("utility function '" ++ functionName ++
      "' execution failed (last oracle: " ++ solving.2 ++ "): " ++
      resolveError error function.errorTypes))

/-- `execute_utility`, for at most so many turns of its loop. -/
def executeUtility (turns : Nat) (artifact : CompiledContract) (functionName : String)
    (args : List Fr) : Procedure Error τ (List Fr) :=
  match mainCircuit acvm artifact functionName with
  | .error e => throw e
  | .ok (function, program, circuit) => do
    let solved ← Procedure.loop (utilityTurn acvm oracle function functionName) turns
      (acvm.new circuit.opcodes (buildInitialWitness args) program.unconstrainedFunctions, "")
    pure (witnessMapToFrs (acvm.finalize solved) circuit.returnValues)

/-! ## What the oracle's answers may do, an execution may do -/

section Keeps
open Procedure
variable {acvm oracle} {R : τ → Except Error Unit → τ → Prop} (allows : Allows R)
variable (answers : ∀ function args, Keeps R (oracle function args))
include allows answers

theorem keeps_subTurn (errorTypes : Option Json) (machine : Machine) :
    Keeps R (subTurn acvm oracle errorTypes machine) := by
  unfold subTurn
  split
  · exact keeps_pure allows _
  · exact keeps_pure allows _
  · exact keeps_bind allows (answers _ _) (fun _ => keeps_pure allows _)
  · exact keeps_throw allows _
  · exact keeps_throw allows _

theorem keeps_acirCall (turns : Nat) (program : AcirProgram Opcodes Brillig)
    (errorTypes : Option Json) (call : AcirCall) :
    Keeps R (acirCall acvm oracle turns program errorTypes call) := by
  unfold acirCall
  split
  · exact keeps_throw allows _
  · exact keeps_bind allows (keeps_loop allows (keeps_subTurn allows answers errorTypes) turns _)
      (fun _ => keeps_pure allows _)

theorem keeps_privateTurn (turns : Nat) (program : AcirProgram Opcodes Brillig)
    (function : CompiledFunction) (functionName : String) (solving : Solving Machine) :
    Keeps R (privateTurn acvm oracle turns program function functionName solving) := by
  unfold privateTurn
  split
  · exact keeps_pure allows _
  · exact keeps_pure allows _
  · exact keeps_bind allows (answers _ _) (fun _ => keeps_pure allows _)
  · exact keeps_bind allows (keeps_acirCall allows answers turns program _ _)
      (fun _ => keeps_pure allows _)
  · exact keeps_throw allows _

theorem keeps_executePrivate (turns : Nat) (artifact : CompiledContract) (functionName : String)
    (fields : List Fr) :
    Keeps R (executePrivate acvm oracle turns artifact functionName fields) := by
  unfold executePrivate
  split
  · exact keeps_throw allows _
  · exact keeps_bind allows
      (keeps_loop allows (keeps_privateTurn allows answers turns _ _ functionName) turns _)
      (fun _ => keeps_pure allows _)

theorem keeps_utilityTurn (function : CompiledFunction) (functionName : String)
    (solving : Machine × String) :
    Keeps R (utilityTurn acvm oracle function functionName solving) := by
  unfold utilityTurn
  split
  · exact keeps_pure allows _
  · exact keeps_pure allows _
  · exact keeps_bind allows (answers _ _) (fun _ => keeps_pure allows _)
  · exact keeps_throw allows _
  · exact keeps_throw allows _

theorem keeps_executeUtility (turns : Nat) (artifact : CompiledContract) (functionName : String)
    (args : List Fr) :
    Keeps R (executeUtility acvm oracle turns artifact functionName args) := by
  unfold executeUtility
  split
  · exact keeps_throw allows _
  · exact keeps_bind allows
      (keeps_loop allows (keeps_utilityTurn allows answers _ functionName) turns _)
      (fun _ => keeps_pure allows _)

end Keeps

section Agrees
open Procedure
variable {acvm} {oracle other : OracleCallback τ} {S : τ → τ → Prop}
variable (answers : ∀ function args, Agrees S (oracle function args) (other function args))
include answers

theorem agrees_utilityTurn (function : CompiledFunction) (functionName : String)
    (solving : Machine × String) :
    Agrees S (utilityTurn acvm oracle function functionName solving)
      (utilityTurn acvm other function functionName solving) := by
  unfold utilityTurn
  split
  · exact agrees_pure _
  · exact agrees_pure _
  · exact agrees_bind (answers _ _) (fun _ => agrees_pure _)
  · exact agrees_throw _
  · exact agrees_throw _

/-- Executions whose oracles answer alike end alike. -/
theorem agrees_executeUtility (turns : Nat) (artifact : CompiledContract) (functionName : String)
    (args : List Fr) :
    Agrees S (executeUtility acvm oracle turns artifact functionName args)
      (executeUtility acvm other turns artifact functionName args) := by
  unfold executeUtility
  split
  · exact agrees_throw _
  · exact agrees_bind (agrees_loop (agrees_utilityTurn answers _ functionName) turns _)
      (fun _ => agrees_pure _)

end Agrees

/-- A machine that makes its foreign calls one after the other, and is solved. -/
def callingMachine (calls : List UInt8 → List ForeignCall) :
    Acvm (List ForeignCall) Unit (List ForeignCall) where
  new := fun calls _ _ => calls
  solve := fun calls => (match calls with
    | [] => .solved
    | call :: _ => .requiresForeignCall call, calls)
  resolvePendingForeignCall := fun calls _ => calls.tail
  resolvePendingAcirCall := fun calls _ => calls
  finalize := fun _ _ => none
  decodeBase64 := fun text => .ok [if text = "caller" then 0 else 1]
  gzip := .ok
  deserializeProgram := fun bytes => .ok ⟨[⟨calls bytes, []⟩], ()⟩

end AcvmExecutor
end AztecPxe
