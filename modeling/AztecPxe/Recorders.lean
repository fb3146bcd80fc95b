import AztecPxe.PrivateExecution

/-! The lists an oracle collects. Some a nested call starts with and hands back
less what it started with, others it starts without; either way its caller ends
with exactly what the steps of the call recorded, in their order. -/
namespace AztecPxe
open PrivateExecutionOracle

/-- A list an oracle collects, with what each step of an execution adds to it. -/
structure Recorder (crypto : Crypto) (contracts : ContractStore) (ε : Type) where
  held : PrivateExecutionOracle → List ε
  recorded : Step → List ε
  handled : ∀ {oracle next args handler}, oracle.Handled crypto args handler next →
    held next = held oracle ++ recorded (.foreign oracle handler args)
  called : ∀ {oracle next args answer},
    oracle.enter crypto contracts args = .ok (.handled answer next) →
      held next = held oracle ++ recorded (.called oracle args)
  entered : ∀ {oracle args call}, oracle.enter crypto contracts args = .ok (.entered call) →
    recorded (.called oracle args) = []
  merged : ∀ {oracle inner : PrivateExecutionOracle} {call output} {items : List ε},
    held inner = held (oracle.nested call) ++ items →
      held (oracle.merge crypto call output inner).2 =
        held oracle ++ (items ++ recorded (.returned oracle call output inner))

namespace Recorder
variable {crypto : Crypto} {contracts : ContractStore} {ε : Type}

/-- An oracle ends with what it started with and what every step below it
recorded. -/
theorem of_runs (recorder : Recorder crypto contracts ε) {script : Script}
    {oracle final : PrivateExecutionOracle} {trace : List Step}
    (runs : Script.Runs crypto contracts script oracle trace final) :
    recorder.held final = recorder.held oracle ++ trace.flatMap recorder.recorded := by
  induction runs with
  | done => exact (List.append_nil _).symm
  | foreign handled later ih =>
    rw [ih, recorder.handled (handled_of_ok handled), List.append_assoc]
    rfl
  | handled protocol later ih =>
    rw [ih, recorder.called protocol, List.append_assoc]
    rfl
  | entered enters below later inIh ih =>
    rw [ih, recorder.merged inIh, List.cons_append, List.flatMap_cons, recorder.entered enters,
      List.nil_append, List.flatMap_append, List.flatMap_cons]
    simp only [List.append_assoc]

/-- A caller takes over what the steps of a nested call recorded, and what its
return did. -/
theorem merged_of_runs (recorder : Recorder crypto contracts ε) {body : Script}
    {caller inner : PrivateExecutionOracle} {call : NestedCall} {inside : List Step}
    (runs : Script.Runs crypto contracts body (caller.nested call) inside inner)
    (output : AcvmExecutionOutput) :
    recorder.held (caller.merge crypto call output inner).2 = recorder.held caller ++
      (inside.flatMap recorder.recorded ++
        recorder.recorded (.returned caller call output inner)) :=
  recorder.merged (recorder.of_runs runs)

/-- A list that nested calls start with holds, in every state, what the points
passed recorded. -/
theorem reached (recorder : Recorder crypto contracts ε)
    (inherits : ∀ oracle call, recorder.held (nested oracle call) = recorder.held oracle)
    (start : List ε) :
    Script.Invariant crypto contracts (fun passed oracle =>
      recorder.held oracle = start ++ passed.flatMap recorder.recorded) where
  foreign {passed oracle next args handler} held done := by
    rw [recorder.handled done, held, List.flatMap_append, List.flatMap_singleton, List.append_assoc]
  handled {passed oracle next args answer} held protocol := by
    rw [recorder.called protocol, held, List.flatMap_append, List.flatMap_singleton,
      List.append_assoc]
  entered {passed oracle args call} held enters := by
    rw [inherits, held, List.flatMap_append, List.flatMap_singleton, recorder.entered enters,
      List.append_nil]
  returned {passed oracle args call body inside inner} output held enters below ended := by
    rw [recorder.merged_of_runs below output, held]
    simp [recorder.entered enters]

/-- What no registry changes is as it was after a call to one. -/
theorem called_frame {β : Type} (held : PrivateExecutionOracle → List β)
    (frame : ∀ {oracle next call}, oracle.Published crypto call next → held next = held oracle)
    {oracle next : PrivateExecutionOracle} {args : Args} {answer : Answer}
    (done : oracle.enter crypto contracts args = .ok (.handled answer next)) :
    held next = held oracle := by
  obtain ⟨call, -, -, published⟩ := enter_handled done
  exact frame published

end Recorder

namespace PrivateExecutionOracle
variable {crypto : Crypto} {oracle next : PrivateExecutionOracle}

/-- Only nested calls add results. -/
theorem nestedResults_handled {args : Args} {handler : Handler}
    (done : oracle.Handled crypto args handler next) :
    next.nestedResults = oracle.nestedResults := by
  cases done <;> rfl

/-- The flag of a call stays what it is. -/
theorem callIsStatic_handled {args : Args} {handler : Handler}
    (done : oracle.Handled crypto args handler next) :
    next.callIsStatic = oracle.callIsStatic := by
  cases done <;> rfl

/-- The note `notify_created_note` records. -/
def createdNote (oracle : PrivateExecutionOracle) (args : Args) : NoteAndSlot where
  contractAddress := oracle.contractAddress
  owner := ⟨(args.first 0).getD 0⟩
  storageSlot := (args.first 1).getD 0
  randomness := (args.first 2).getD 0
  noteTypeId := (args.first 3).getD 0
  noteItems := (args[4]?).getD []
  noteHash := (args.first 5).getD 0
  counter := oracle.numbered (args.counter 6)

end PrivateExecutionOracle

namespace Step
variable (crypto : Crypto) (contracts : ContractStore)

/-- The note a step announces. -/
def notes : Step → List NoteAndSlot
  | .foreign oracle .notifyCreatedNote args => [oracle.createdNote args]
  | _ => []

/-- The contract class logs a step records. -/
def classLogs : Step → List CountedContractClassLog
  | .foreign oracle .notifyCreatedContractClassLog args => [oracle.emittedClassLog args]
  | .foreign .. => []
  | .called oracle args =>
    match oracle.enter crypto contracts args with
    | .ok (.handled _ next) => next.contractClassLogs.drop oracle.contractClassLogs.length
    | _ => []
  | .returned .. => []

/-- The public call a step enqueues. -/
def requests : Step → List PublicCallRequestData
  | .foreign oracle .notifyEnqueuedPublicFunctionCall args => [oracle.enqueuedRequest args]
  | _ => []

/-- The calldata a step finds in the cache for the public call it enqueues. -/
def calldata : Step → List HashedValues
  | .foreign oracle handler args =>
    match handler with
    | .notifyEnqueuedPublicFunctionCall | .notifySetPublicTeardownFunctionCall =>
      (oracle.executionCache[(oracle.enqueuedRequest args).calldataHash]?.map
        (Hash.fromCalldata crypto.poseidon2)).toList
    | _ => []
  | _ => []

end Step

namespace Recorder
variable (crypto : Crypto) (contracts : ContractStore)

/-- The notes announced. -/
def notes : Recorder crypto contracts NoteAndSlot where
  held := (·.newNotes)
  recorded := Step.notes
  handled done := by
    cases done with
    | createdNote => rfl
    | _ => exact (List.append_nil _).symm
  called done := by
    rw [called_frame (·.newNotes) (fun published => by cases published <;> rfl) done]
    exact (List.append_nil _).symm
  entered _ := rfl
  merged {oracle inner call output items} started := by
    have fresh : inner.newNotes.drop oracle.newNotes.length = items := by
      rw [started]
      exact List.drop_left
    change oracle.newNotes ++ inner.newNotes.drop oracle.newNotes.length = _
    rw [fresh]
    exact congrArg _ (List.append_nil _).symm

/-- The contract class logs. -/
def classLogs : Recorder crypto contracts CountedContractClassLog where
  held := (·.contractClassLogs)
  recorded := Step.classLogs crypto contracts
  handled done := by
    cases done with
    | classLog => rfl
    | _ => exact (List.append_nil _).symm
  called {oracle next args answer} done := by
    obtain ⟨call, -, -, published⟩ := enter_handled done
    have added : ∃ more, next.contractClassLogs = oracle.contractClassLogs ++ more := by
      cases published with
      | classLog => exact ⟨_, rfl⟩
      | privateLog => exact ⟨[], (List.append_nil _).symm⟩
    obtain ⟨more, added⟩ := added
    simp only [Step.classLogs, done]
    rw [added, List.drop_left]
  entered enters := by simp only [Step.classLogs, enters]
  merged {oracle inner call output items} started := by
    have fresh : inner.contractClassLogs = items := started
    change oracle.contractClassLogs ++ inner.contractClassLogs = _
    rw [fresh]
    exact congrArg _ (List.append_nil _).symm

/-- The public calls enqueued, less the teardown. -/
def requests : Recorder crypto contracts PublicCallRequestData where
  held := (·.publicCallRequests)
  recorded := Step.requests
  handled done := by
    cases done with
    | enqueued => rfl
    | _ => exact (List.append_nil _).symm
  called done := by
    rw [called_frame (·.publicCallRequests) (fun published => by cases published <;> rfl) done]
    exact (List.append_nil _).symm
  entered _ := rfl
  merged {oracle inner call output items} started := by
    have fresh : inner.publicCallRequests = items := started
    change oracle.publicCallRequests ++ inner.publicCallRequests = _
    rw [fresh]
    exact congrArg _ (List.append_nil _).symm

/-- The calldata of the public calls, the teardown included. -/
def calldata : Recorder crypto contracts HashedValues where
  held := (·.publicFunctionCalldata)
  recorded := Step.calldata crypto
  handled done := by
    cases done with
    | enqueued => rfl
    | teardown => rfl
    | _ => exact (List.append_nil _).symm
  called done := by
    rw [called_frame (·.publicFunctionCalldata) (fun published => by cases published <;> rfl) done]
    exact (List.append_nil _).symm
  entered _ := rfl
  merged {oracle inner call output items} started := by
    have fresh : inner.publicFunctionCalldata = items := started
    change oracle.publicFunctionCalldata ++ inner.publicFunctionCalldata = _
    rw [fresh]
    exact congrArg _ (List.append_nil _).symm

end Recorder

end AztecPxe
