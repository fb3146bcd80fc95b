import AztecPxe.AcvmExecutor

/-! Private execution as the client runs it: the ACVM loop with the oracle of
`execution/oracle.rs` behind it, whose `callPrivateFunction` runs the loop again for
the circuit it calls. A script is what such an execution comes down to: every oracle
it leaves is one that a script reaches, so what is known of scripts is known of it. -/
namespace AztecPxe
open PrivateExecutionOracle

/-- `contract_store.rs::ContractStore`, with the code of its contracts. -/
structure CompiledStore where
  getInstance : AztecAddress → Except Error (Option Fr)
  getArtifact : Fr → Except Error (Option CompiledContract)

namespace CompiledStore
variable (contracts : CompiledStore)

/-- The store without the code. -/
def functions : ContractStore where
  getInstance := contracts.getInstance
  getArtifact := fun classId => (contracts.getArtifact classId).map
    (Option.map fun artifact => artifact.functions.map (·.toFunctionArtifact))

/-- The artifact and the function of a nested call. -/
def resolve (call : NestedCall) : Except Error (CompiledContract × CompiledFunction) := do
  let target := hex32 call.target.inner.val
  let selector := FunctionSelector.fromField call.selectorField
  match ← contracts.getInstance call.target with
  | none => .error (.invalidData ("nested call: contract not found: " ++ target))
  | some classId =>
    match ← contracts.getArtifact classId with
    | none => .error (.invalidData ("nested call: artifact not found for contract " ++ target))
    | some artifact =>
      match artifact.functions.find? (fun function => function.selector = some selector) with
      | none => .error (.invalidData ("nested call: function with selector " ++
          hexDigits 8 selector.bytes.val ++ " not found in " ++ target))
      | some function =>
        if function.isStatic ∧ call.isStatic = false then
          .error (.invalidData "can only be called statically")
        else .ok (artifact, function)

private theorem find_functions (functions : List CompiledFunction) (selector : FunctionSelector) :
    (functions.map (·.toFunctionArtifact)).find? (fun f => f.selector = some selector) =
      (functions.find? (fun f => f.selector = some selector)).map (·.toFunctionArtifact) :=
  List.find?_map

/-- Without the code, a nested call is refused for the same reasons. -/
theorem resolveFunction_functions (call : NestedCall) :
    resolveFunction contracts.functions call = (contracts.resolve call).map fun _ => () := by
  simp only [resolveFunction, resolve, functions]
  cases contracts.getInstance call.target with
  | error e => rfl
  | ok found =>
    cases found with
    | none => rfl
    | some classId =>
      cases known : contracts.getArtifact classId with
      | error e =>
        simp only [ok_bind, known]
        rfl
      | ok artifact =>
        cases artifact with
        | none =>
          simp only [ok_bind, known]
          rfl
        | some artifact =>
          have forgotten : ((Except.ok (some artifact) : Except Error _).map
              (Option.map fun artifact : CompiledContract =>
                artifact.functions.map (·.toFunctionArtifact))) =
                .ok (some (artifact.functions.map (·.toFunctionArtifact))) := rfl
          simp only [ok_bind, known, forgotten, find_functions]
          cases artifact.functions.find? (fun f =>
              f.selector = some (FunctionSelector.fromField call.selectorField)) with
          | none => rfl
          | some function =>
            simp only [Option.map_some]
            split <;> rfl

end CompiledStore

/-- Where the oracle takes a foreign call: to what it has collected, into another
circuit, to the stores and the node, or nowhere. -/
inductive Route where
  | collected (handler : Handler)
  | callPrivateFunction
  | asked
  | unsupported

namespace Route

/-- `str::strip_prefix`. -/
def stripPrefix (name start : String) : Option String :=
  if start.toList <+: name.toList then some (String.ofList (name.toList.drop start.length))
  else none

/-- The handler's name: the name without the prefix of the compiled bytecode, its first
letter in lower case. -/
def handlerName (name : String) : String :=
  let stripped := ((stripPrefix name "private").or (stripPrefix name "utility")).getD name
  match stripped.toList with
  | [] => name
  | first :: rest => String.ofList (first.toLower :: rest)

/-- The handlers that read or change what the oracle collects. -/
def collecting : List (String × Handler) :=
  [("notifyCreatedNote", .notifyCreatedNote), ("emitNote", .notifyCreatedNote),
   ("notifyNullifiedNote", .notifyNullifiedNote),
   ("notifyCreatedNullifier", .notifyCreatedNullifier), ("emitNullifier", .notifyCreatedNullifier),
   ("isNullifierPending", .isNullifierPending),
   ("emitPrivateLog", .emitPrivateLog), ("emitEncryptedLog", .emitPrivateLog),
   ("notifyCreatedContractClassLog", .notifyCreatedContractClassLog),
   ("storeInExecutionCache", .storeInExecutionCache),
   ("loadFromExecutionCache", .loadFromExecutionCache),
   ("notifyEnqueuedPublicFunctionCall", .notifyEnqueuedPublicFunctionCall),
   ("enqueuePublicFunctionCall", .notifyEnqueuedPublicFunctionCall),
   ("notifySetPublicTeardownFunctionCall", .notifySetPublicTeardownFunctionCall),
   ("notifySetMinRevertibleSideEffectCounter", .notifySetMinRevertibleSideEffectCounter),
   ("isSideEffectCounterRevertible", .isSideEffectCounterRevertible),
   ("getSenderForTags", .getSenderForTags), ("setSenderForTags", .setSenderForTags)]

/-- The handlers with one answer for every call. -/
def fixed : List (String × Except Error Answer) :=
  [("storeCapsule", .ok []), ("getBlockHeader", .ok []),
   ("assertCompatibleOracleVersion", .ok []), ("log", .ok []), ("getUtilityContext", .ok []),
   ("aes128Decrypt", .error (.invalidData "aes128Decrypt not implemented")),
   ("getSharedSecret", .error (.invalidData "getSharedSecret not implemented")),
   ("emitOffchainEffect", .ok []), ("fetchTaggedLogs", .ok []), ("bulkRetrieveLogs", .ok []),
   ("validateAndStoreEnqueuedNotesAndEvents", .ok [])]

/-- The handlers that read the stores, the node or a source of random fields. -/
def asking : List String :=
  ["getSecretKey", "getKeyValidationRequest", "getPublicKeysAndPartialAddress",
   "tryGetPublicKeysAndPartialAddress", "getNotes", "checkNoteHashExists", "getPublicStorageAt",
   "storageRead", "getContractInstance", "getCapsule", "loadCapsule", "getAuthWitness",
   "getNextAppTagAsSender", "getRandomField", "getNoteHashMembershipWitness",
   "getNullifierMembershipWitness", "getPublicDataWitness", "getBlockHashMembershipWitness",
   "getL1ToL2MembershipWitness", "utilityGetL1ToL2MembershipWitness", "checkNullifierExists"]

/-- The `match` of `handle_foreign_call`. -/
def of (handler : String) : Route :=
  match collecting.lookup handler with
  | some found => .collected found
  | none =>
    match fixed.lookup handler with
    | some outcome => .collected (.query outcome)
    | none =>
      if handler = "callPrivateFunction" then .callPrivateFunction
      else if handler ∈ asking then .asked
      else .unsupported

end Route

/-- What an execution takes from the client around it: the ACVM, the contracts, the
header and transaction fields every call starts with, and the answers of the stores
and the node, which may change from one question to the next. -/
structure ExecutionServices (Opcodes Brillig Machine ω : Type) where
  acvm : Acvm Opcodes Brillig Machine
  crypto : Crypto
  contracts : CompiledStore
  contextWitnessPrefix : List Fr := []
  query : String → Args → PrivateExecutionOracle → ω → Except Error Answer × ω

namespace ExecutionServices
variable {Opcodes Brillig Machine ω : Type} (services : ExecutionServices Opcodes Brillig Machine ω)
variable (turns : Nat)

/-- `Vec::resize` with zeros. -/
def resized (size : Nat) (fields : List Fr) : List Fr :=
  fields.take size ++ List.replicate (size - fields.length) 0

/-- The context of a nested call's witness. -/
def contextWitness (oracle : PrivateExecutionOracle) (call : NestedCall) (size : Nat) : List Fr :=
  let header := [oracle.contractAddress.inner, call.target.inner, call.selectorField,
    Fr.ofBool call.isStatic]
  if services.contextWitnessPrefix ≠ [] ∧ services.contextWitnessPrefix.length + 4 ≤ size then
    resized size (header ++ services.contextWitnessPrefix ++ [Fr.ofU64 call.counter])
  else if 4 ≤ size then header ++ List.replicate (size - 4) 0
  else List.replicate size 0

/-- The output of a nested call, its witness read from the public inputs on. -/
def publicInputsOf (start : Nat) (output : AcvmExecutor.ExecutionOutput) : AcvmExecutionOutput where
  witness := fun i => output.witness ((start + i) % 2 ^ 32)
  returnValues := output.returnValues
  firstAcirCallReturnValues := output.firstAcirCallReturnValues

/-- `call_private_function`, over the execution of circuits. -/
def callPrivateFunction
    (execute : CompiledContract → String → List Fr →
      Procedure Error (PrivateExecutionOracle × ω) AcvmExecutor.ExecutionOutput)
    (args : Args) : Procedure Error (PrivateExecutionOracle × ω) Answer := fun (oracle, world) =>
  match oracle.enter services.crypto services.contracts.functions args with
  | .error e => some (.error e, (oracle, world))
  | .ok (.handled answer next) => some (.ok answer, (next, world))
  | .ok (.entered call) =>
    match services.contracts.resolve call with
    | .error e => some (.error e, (oracle, world))
    | .ok (artifact, function) =>
      let size := artifact.privateContextInputsSize function.name
      let cachedArgs := oracle.executionCache[call.argsHash]?.getD []
      match (execute artifact function.name
          (services.contextWitness oracle call size ++ cachedArgs)).runFrom
            (oracle.nested call, world) with
      | none => none
      | some (.error e, (_, world)) => some (.error e, (oracle, world))
      | some (.ok output, (inner, world)) =>
        let merged := oracle.merge services.crypto call
          (publicInputsOf (size + cachedArgs.length) output) inner
        some (.ok merged.1, (merged.2, world))

/-- A foreign call to what the oracle collects. -/
def collect (handler : Handler) (args : Args) (state : PrivateExecutionOracle × ω) :
    Except Error Answer × (PrivateExecutionOracle × ω) :=
  match state.1.handleForeignCall services.crypto args handler with
  | .error e => (.error e, state)
  | .ok (answer, next) => (.ok answer, (next, state.2))

/-- A foreign call to the stores or the node. -/
def ask (handler : String) (args : Args) (state : PrivateExecutionOracle × ω) :
    Except Error Answer × (PrivateExecutionOracle × ω) :=
  let answered := services.query handler args state.1 state.2
  (answered.1, (state.1, answered.2))

/-- `handle_foreign_call`, over the nested calls. -/
def respond (callPrivate : Args → Procedure Error (PrivateExecutionOracle × ω) Answer) :
    AcvmExecutor.OracleCallback (PrivateExecutionOracle × ω) := fun name args =>
  match Route.of (Route.handlerName name) with
  | .collected handler => Procedure.lift (services.collect handler args)
  | .asked => Procedure.lift (services.ask (Route.handlerName name) args)
  | .callPrivateFunction => callPrivate args
  | .unsupported => throw (.invalidData ("unsupported oracle call: '" ++ name ++ "' (handler: '" ++
      Route.handlerName name ++ "'). All production oracle calls must be implemented."))

/-- The oracle of an execution, for nested calls at most so deep. -/
def handleForeignCall : Nat → AcvmExecutor.OracleCallback (PrivateExecutionOracle × ω)
  | 0 => services.respond fun _ => Procedure.exhausted
  | depth + 1 => services.respond (services.callPrivateFunction
      (AcvmExecutor.executePrivate services.acvm (handleForeignCall depth) turns))

/-- The execution of a private function with its oracle. -/
def executePrivate (depth : Nat) (artifact : CompiledContract) (functionName : String)
    (fields : List Fr) : Procedure Error (PrivateExecutionOracle × ω) AcvmExecutor.ExecutionOutput :=
  AcvmExecutor.executePrivate services.acvm (services.handleForeignCall turns depth) turns artifact
    functionName fields

/-! ## Executions are scripts -/

/-- What an execution did to its oracle is the start of a script: it comes wherever the
rest of that script comes from the oracle it leaves, and to its end if the execution
did not fail. -/
def Scripted (before : PrivateExecutionOracle × ω) (result : Except Error Unit)
    (after : PrivateExecutionOracle × ω) : Prop :=
  ∃ (calls : Script → Script) (passed : List Step),
    (∀ {rest more state},
      Script.Reaches services.crypto services.contracts.functions rest after.1 more state →
      Script.Reaches services.crypto services.contracts.functions (calls rest) before.1
        (passed ++ more) state) ∧
    (result = .ok () → ∀ {rest more final},
      Script.Runs services.crypto services.contracts.functions rest after.1 more final →
      Script.Runs services.crypto services.contracts.functions (calls rest) before.1
        (passed ++ more) final)

variable {services turns}

theorem scripted_of_eq {before after : PrivateExecutionOracle × ω} (result : Except Error Unit)
    (same : after.1 = before.1) : services.Scripted before result after :=
  ⟨id, [], fun reaches => same ▸ reaches, fun _ _ _ _ runs => same ▸ runs⟩

theorem allows_scripted : Procedure.Allows services.Scripted where
  stay _ := scripted_of_eq _ rfl
  fail _ _ := scripted_of_eq _ rfl
  both := by
    rintro state next last result ⟨first, passed, reaches, runs⟩ ⟨later, more, reaches', runs'⟩
    refine ⟨fun rest => first (later rest), passed ++ more, fun reached => ?_, fun done _ _ _ ran => ?_⟩
    · rw [List.append_assoc]
      exact reaches (reaches' reached)
    · rw [List.append_assoc]
      exact runs rfl (runs' done ran)

private theorem scripted_collect (handler : Handler) (args : Args)
    (state : PrivateExecutionOracle × ω) :
    services.Scripted state ((services.collect handler args state).1.map fun _ => ())
      (services.collect handler args state).2 := by
  unfold collect
  cases handled : state.1.handleForeignCall services.crypto args handler with
  | error e => exact scripted_of_eq _ rfl
  | ok reply =>
    exact ⟨.foreign handler args, [.foreign state.1 handler args],
      fun reaches => .foreign handled reaches, fun _ _ _ _ runs => .foreign handled runs⟩

/-- A nested call that its oracle brought to its end. -/
private theorem scripted_entered {oracle inner : PrivateExecutionOracle} {args : Args}
    {call : NestedCall} (output : AcvmExecutionOutput) (world world' : ω)
    (enters : oracle.enter services.crypto services.contracts.functions args = .ok (.entered call))
    (below : services.Scripted (oracle.nested call, world) (.ok ()) (inner, world')) :
    services.Scripted (oracle, world) (.ok ())
      ((oracle.merge services.crypto call output inner).2, world') := by
  obtain ⟨calls, passed, -, runs⟩ := below
  have ran := runs rfl Script.Runs.done
  rw [List.append_nil] at ran
  refine ⟨.callPrivate args (calls .done) output,
    .called oracle args :: passed ++ [.returned oracle call output inner], fun reached => ?_,
    fun _ _ _ _ later => ?_⟩
  · have after := Script.Reaches.after enters ran reached
    simpa using after
  · have after := Script.Runs.entered enters ran later
    simpa using after

theorem keeps_callPrivateFunction
    {execute : CompiledContract → String → List Fr →
      Procedure Error (PrivateExecutionOracle × ω) AcvmExecutor.ExecutionOutput}
    (below : ∀ artifact name fields, Procedure.Keeps services.Scripted (execute artifact name fields))
    (args : Args) : Procedure.Keeps services.Scripted (services.callPrivateFunction execute args) := by
  rintro ⟨oracle, world⟩ result last ended
  change services.callPrivateFunction execute args (oracle, world) = some (result, last) at ended
  unfold callPrivateFunction at ended
  cases entry : oracle.enter services.crypto services.contracts.functions args with
  | error e =>
    simp only [entry] at ended
    cases ended
    exact scripted_of_eq _ rfl
  | ok entry' =>
    cases entry' with
    | handled answer next =>
      simp only [entry] at ended
      cases ended
      exact ⟨fun rest => .callPrivate args .done {} rest, [.called oracle args],
        fun reaches => .handled entry reaches, fun _ _ _ _ runs => .handled entry runs⟩
    | entered call =>
      simp only [entry] at ended
      split at ended
      · cases ended
        exact scripted_of_eq _ rfl
      · split at ended
        · cases ended
        · cases ended
          exact scripted_of_eq _ rfl
        next ran =>
          cases ended
          exact scripted_entered _ _ _ entry (below _ _ _ ran)

theorem keeps_respond {callPrivate : Args → Procedure Error (PrivateExecutionOracle × ω) Answer}
    (nested : ∀ args, Procedure.Keeps services.Scripted (callPrivate args)) (name : String)
    (args : Args) : Procedure.Keeps services.Scripted (services.respond callPrivate name args) := by
  unfold respond
  split
  · exact Procedure.keeps_lift (scripted_collect _ args)
  · exact Procedure.keeps_lift (fun state => scripted_of_eq _ rfl)
  · exact nested args
  · exact Procedure.keeps_throw allows_scripted _

theorem keeps_handleForeignCall (depth : Nat) (name : String) (args : Args) :
    Procedure.Keeps services.Scripted (services.handleForeignCall turns depth name args) := by
  induction depth generalizing name args with
  | zero => exact keeps_respond (fun _ => Procedure.keeps_exhausted) name args
  | succ depth ih =>
    refine keeps_respond (fun args => ?_) name args
    refine keeps_callPrivateFunction (fun artifact function fields => ?_) args
    exact AcvmExecutor.keeps_executePrivate allows_scripted ih turns artifact function fields

/-- Every private execution is a script: the oracle it leaves is one the script comes
to, and the one it ends with if the execution did not fail. -/
theorem executePrivate_scripted {depth : Nat} {artifact : CompiledContract} {functionName : String}
    {fields : List Fr} {oracle final : PrivateExecutionOracle} {world world' : ω}
    {result : Except Error AcvmExecutor.ExecutionOutput}
    (ended : (services.executePrivate turns depth artifact functionName fields).runFrom
      (oracle, world) = some (result, (final, world'))) :
    ∃ (script : Script) (passed : List Step),
      Script.Reaches services.crypto services.contracts.functions script oracle passed final ∧
      (result.isOk → Script.Runs services.crypto services.contracts.functions script oracle passed
        final) := by
  obtain ⟨calls, passed, reaches, runs⟩ := AcvmExecutor.keeps_executePrivate allows_scripted
    (keeps_handleForeignCall depth) turns artifact functionName fields ended
  refine ⟨calls .done, passed, ?_, fun done => ?_⟩
  · have reached := @reaches .done [] final .here
    rwa [List.append_nil] at reached
  · have ran := runs (by cases result with | error e => cases done | ok output => rfl)
      Script.Runs.done
    rwa [List.append_nil] at ran

/-- A contract with one private function. -/
def calledContract (bytecode : String) : CompiledContract where
  name := "Called"
  functions := [{ name := "nullify", selector := some (FunctionSelector.fromField 9),
                  isStatic := false, bytecode := some bytecode }]

/-- Services with that contract at every address. -/
def callingServices : ExecutionServices (List ForeignCall) Unit (List ForeignCall) Unit where
  acvm := AcvmExecutor.callingMachine fun bytes => if bytes = [0]
    then [⟨"privateCallPrivateFunction", [.single 5, .single 9, .single 0, .single 4]⟩]
    else [⟨"privateNotifyCreatedNullifier", [.single 7]⟩]
  crypto := .zero
  contracts := ⟨fun _ => .ok (some 1), fun _ => .ok (some (calledContract "called"))⟩
  query := fun _ _ _ world => (.ok [], world)

/-- A run with a nested call, whose nullifier the caller's oracle ends up with. -/
theorem calling_scripted : ∃ (result : Except Error AcvmExecutor.ExecutionOutput)
    (final : PrivateExecutionOracle) (script : Script) (passed : List Step),
    (callingServices.executePrivate 3 2 (calledContract "caller") "nullify" []).runFrom
      ({ contractAddress := ⟨3⟩ }, ()) = some (result, (final, ())) ∧
    final.nullifiers = [⟨⟨7, 0, 5⟩, ⟨5⟩⟩] ∧
    Script.Runs callingServices.crypto callingServices.contracts.functions script
      { contractAddress := ⟨3⟩ } passed final := by
  have ran : ((callingServices.executePrivate 3 2 (calledContract "caller") "nullify" []).runFrom
      ({ contractAddress := ⟨3⟩ }, ())).map (fun r => (r.1.isOk, r.2.1.nullifiers)) =
        some (true, [⟨⟨7, 0, 5⟩, ⟨5⟩⟩]) := by decide +kernel
  obtain ⟨⟨result, final, world⟩, ended, seen⟩ := Option.map_eq_some_iff.mp ran
  obtain ⟨done, nullified⟩ := Prod.mk.inj seen
  obtain ⟨script, passed, -, runs⟩ := executePrivate_scripted ended
  exact ⟨result, final, script, passed, ended, nullified, runs done⟩

end ExecutionServices
end AztecPxe
