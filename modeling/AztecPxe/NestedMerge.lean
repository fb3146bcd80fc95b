import AztecPxe.CircuitOutputs
import AztecPxe.NullifierCollection

/-! What a nested call hands back to its caller, and what the collectors make of
a finished tree. A nested call starts with its caller's notes and nullifiers;
its caller takes over what came after these. Every effect is then held by the
call that recorded it and by all calls above it, and the collectors, which read
the root first, keep one of the copies. -/
namespace AztecPxe
open PrivateExecutionOracle Script

namespace Step
variable (crypto : Crypto) (contracts : ContractStore)

/-- The siloed nullifier of the note a step nullifies. -/
def consumed : Step → List Fr
  | .foreign oracle .notifyNullifiedNote args =>
    [Hash.siloNullifier crypto.poseidon2 oracle.contractAddress ((args.first 0).getD 0)]
  | _ => []

/-- The private logs a step records: those of the oracle, of a registry, and of
the public inputs of a circuit that returns. -/
def logs : Step → List PrivateLogData
  | .foreign oracle .emitPrivateLog args => [oracle.emittedLog args]
  | .foreign .. => []
  | .called oracle args =>
    match oracle.enter crypto contracts args with
    | .ok (.handled _ next) => next.privateLogs.drop oracle.privateLogs.length
    | _ => []
  | .returned _ call output _ => output.privateLogs call.target

/-- The note hashes of the circuit that returns were announced in its call. -/
def Covered : Step → Prop
  | .returned oracle call output inner =>
      ∀ noteHash ∈ output.noteHashes call.target, noteHash ∈ oracle.newNoteHashes inner
  | _ => True

instance (step : Step) : Decidable step.Covered :=
  match step with
  | .returned oracle call output inner =>
    inferInstanceAs (Decidable (
      ∀ noteHash ∈ output.noteHashes call.target, noteHash ∈ oracle.newNoteHashes inner))
  | .foreign .. => .isTrue trivial
  | .called .. => .isTrue trivial

/-- Announced note hashes that cover those of the circuits leave nothing to be
taken from the public inputs. -/
theorem addedNoteHashes_of_covered {step : Step} (covered : step.Covered) :
    step.addedNoteHashes = step.announced := by
  cases step with
  | returned oracle call output inner =>
    simp only [addedNoteHashes, announced]
    split
    next none =>
      apply List.eq_nil_iff_forall_not_mem.mpr
      intro noteHash held
      have told := covered noteHash held
      rw [List.isEmpty_iff.mp none] at told
      cases told
    · rfl
  | foreign oracle handler args => rfl
  | called oracle args => rfl

end Step

/-- A result that shows no effect of its call. -/
structure PrivateCallExecutionResult.Bare (result : PrivateCallExecutionResult) : Prop where
  newNotes : result.newNotes = []
  pairs : result.noteHashNullifierCounterMap = ∅
  noteHashes : result.noteHashes = []
  nullifiers : result.nullifiers = []
  privateLogs : result.privateLogs = []
  publicCallRequests : result.publicCallRequests = []
  contractClassLogs : result.contractClassLogs = []
  teardown : result.publicTeardownCallRequest = none

/-- Within the execution of a script, at some depth, the oracle `caller` makes a
nested call whose circuit executes `body` and ends with the oracle `inner`. -/
inductive Script.Makes (crypto : Crypto) (contracts : ContractStore)
    (caller : PrivateExecutionOracle) (call : NestedCall) (body : Script)
    (output : AcvmExecutionOutput) (inner : PrivateExecutionOracle) :
    Script → PrivateExecutionOracle → Prop where
  | here {args : Args} {rest : Script}
      (enters : caller.enter crypto contracts args = .ok (.entered call))
      (ran : body.execute crypto contracts (caller.nested call) = .ok inner) :
      Makes crypto contracts caller call body output inner (.callPrivate args body output rest)
        caller
  | foreign {oracle next : PrivateExecutionOracle} {handler : Handler} {args : Args}
      {answer : Answer} {rest : Script}
      (handled : oracle.handleForeignCall crypto args handler = .ok (answer, next))
      (later : Makes crypto contracts caller call body output inner rest next) :
      Makes crypto contracts caller call body output inner (.foreign handler args rest) oracle
  | handled {oracle next : PrivateExecutionOracle} {args : Args} {answer : Answer}
      {unused rest : Script} {unread : AcvmExecutionOutput}
      (protocol : oracle.enter crypto contracts args = .ok (.handled answer next))
      (later : Makes crypto contracts caller call body output inner rest next) :
      Makes crypto contracts caller call body output inner (.callPrivate args unused unread rest)
        oracle
  | inside {oracle : PrivateExecutionOracle} {args : Args} {outer : NestedCall}
      {around rest : Script} {produced : AcvmExecutionOutput}
      (enters : oracle.enter crypto contracts args = .ok (.entered outer))
      (below : Makes crypto contracts caller call body output inner around (oracle.nested outer)) :
      Makes crypto contracts caller call body output inner (.callPrivate args around produced rest)
        oracle
  | after {oracle ended : PrivateExecutionOracle} {args : Args} {outer : NestedCall}
      {around rest : Script} {produced : AcvmExecutionOutput}
      (enters : oracle.enter crypto contracts args = .ok (.entered outer))
      (ran : around.execute crypto contracts (oracle.nested outer) = .ok ended)
      (later : Makes crypto contracts caller call body output inner rest
        (oracle.merge crypto outer produced ended).2) :
      Makes crypto contracts caller call body output inner (.callPrivate args around produced rest)
        oracle

namespace NestedMerge
variable {crypto : Crypto} {contracts : ContractStore}
variable {oracle next final caller inner : PrivateExecutionOracle} {args : Args}
variable {script body : Script} {trace : List Step} {call : NestedCall}
variable {output : AcvmExecutionOutput}

/-- The steps of a nested call and its return are steps of the whole. -/
theorem steps_of_makes (makes : Makes crypto contracts caller call body output inner script oracle) :
    (∀ step ∈ body.steps crypto contracts (caller.nested call),
        step ∈ script.steps crypto contracts oracle) ∧
      .returned caller call output inner ∈ script.steps crypto contracts oracle := by
  induction makes with
  | here enters ran =>
    simp only [steps, enters, ran]
    exact ⟨fun step held => by simp [held], by simp⟩
  | foreign handled later ih =>
    simp only [steps, handled]
    exact ⟨fun step held => .tail _ (ih.1 step held), .tail _ ih.2⟩
  | handled protocol later ih =>
    simp only [steps, protocol]
    exact ⟨fun step held => .tail _ (ih.1 step held), .tail _ ih.2⟩
  | inside enters below ih =>
    simp only [steps, enters]
    exact ⟨fun step held => .tail _ (List.mem_append_left _ (ih.1 step held)),
      .tail _ (List.mem_append_left _ ih.2)⟩
  | after enters ran later ih =>
    simp only [steps, enters, ran]
    exact ⟨fun step held => by simp [ih.1 step held], by simp [ih.2]⟩

theorem ran_of_makes (makes : Makes crypto contracts caller call body output inner script oracle) :
    body.execute crypto contracts (caller.nested call) = .ok inner := by
  induction makes with
  | here enters ran => exact ran
  | foreign handled later ih => exact ih
  | handled protocol later ih => exact ih
  | inside enters below ih => exact ih
  | after enters ran later ih => exact ih

section Consumed

private theorem consumed_handled {handler : Handler} (done : oracle.Handled crypto args handler next)
    (nullifier : Fr) :
    nullifier ∈ next.consumedDbNullifiers ↔ nullifier ∈ oracle.consumedDbNullifiers ∨
      nullifier ∈ (Step.foreign oracle handler args).consumed crypto := by
  cases done with
  | nullifiedNote =>
    simp only [withNullifiedNote, Step.consumed, Std.ExtTreeSet.mem_insert,
      Std.LawfulEqCmp.compare_eq_iff_eq, List.mem_singleton]
    constructor
    · rintro (same | held)
      · exact .inr same.symm
      · exact .inl held
    · rintro (held | same)
      · exact .inr held
      · exact .inl same.symm
  | _ => simp [Step.consumed, advanced, withCreatedNote, withCreatedNullifier, withPrivateLog,
      withContractClassLog, withCachedValues, withPublicCall, entering]

private theorem consumed_published (done : oracle.Published crypto call next) :
    next.consumedDbNullifiers = oracle.consumedDbNullifiers := by
  cases done <;> rfl

private theorem mem_consumed_merge (nullifier : Fr) :
    nullifier ∈ (oracle.merge crypto call output inner).2.consumedDbNullifiers ↔
      nullifier ∈ oracle.consumedDbNullifiers ∨ nullifier ∈ inner.consumedDbNullifiers := by
  change nullifier ∈ oracle.consumedDbNullifiers.insertMany inner.consumedDbNullifiers.toList ↔ _
  rw [Std.ExtTreeSet.mem_insertMany_list]
  simp

/-- In every state of an execution the nullifiers seen consumed are those of the
start and those of the points passed. -/
theorem consumed_reached (crypto : Crypto) (contracts : ContractStore)
    (start : PrivateExecutionOracle) :
    Invariant crypto contracts (fun passed oracle => ∀ nullifier,
      nullifier ∈ oracle.consumedDbNullifiers ↔ nullifier ∈ start.consumedDbNullifiers ∨
        nullifier ∈ passed.flatMap (Step.consumed crypto)) where
  foreign {passed oracle next args handler} held done nullifier := by
    rw [consumed_handled done, held, List.flatMap_append, List.flatMap_singleton, List.mem_append,
      or_assoc]
  handled {passed oracle next args answer} held protocol nullifier := by
    obtain ⟨call, -, -, published⟩ := enter_handled protocol
    rw [consumed_published published, held, List.flatMap_append, List.flatMap_singleton]
    simp [Step.consumed]
  entered {passed oracle args call} held enters nullifier := by
    have inherited : (oracle.nested call).consumedDbNullifiers = oracle.consumedDbNullifiers := rfl
    rw [inherited, held, List.flatMap_append, List.flatMap_singleton]
    simp [Step.consumed]
  returned {passed oracle args call body inside inner} output held enters below ended nullifier := by
    rw [mem_consumed_merge, held, ended]
    simp only [List.flatMap_append, List.flatMap_cons, List.flatMap_nil, List.mem_append,
      Step.consumed, List.not_mem_nil]
    tauto

/-- The nullifiers an oracle has seen consumed are those it started with and
those of the notes nullified below it. -/
theorem consumed_of_runs (runs : Runs crypto contracts script oracle trace final) (nullifier : Fr) :
    nullifier ∈ final.consumedDbNullifiers ↔ nullifier ∈ oracle.consumedDbNullifiers ∨
      nullifier ∈ trace.flatMap (Step.consumed crypto) :=
  (consumed_reached crypto contracts oracle).at_end runs (fun _ => by simp) nullifier

end Consumed

section Logs

private theorem replaceOrPush_fresh {logs : List PrivateLogData} {log : PrivateLogData}
    (fresh : log.counter ∉ logs.map (·.counter)) : replaceOrPush logs log = logs ++ [log] := by
  induction logs with
  | nil => rfl
  | cons existing rest ih =>
    rw [List.map_cons, List.mem_cons, not_or] at fresh
    unfold replaceOrPush
    rw [if_neg (Ne.symm fresh.1), ih fresh.2, List.cons_append]

/-- Logs of distinct counters are merged by appending them. -/
private theorem merge_apart {nested circuit : List PrivateLogData}
    (distinct : ((nested ++ circuit).map (·.counter)).Nodup) :
    mergeNestedPrivateLogs nested circuit = nested ++ circuit := by
  unfold mergeNestedPrivateLogs
  induction circuit generalizing nested with
  | nil => simp
  | cons log rest ih =>
    have moved : nested ++ log :: rest = (nested ++ [log]) ++ rest := by simp
    have fresh : log.counter ∉ nested.map (·.counter) := by
      rw [List.map_append, List.nodup_append] at distinct
      intro held
      exact distinct.2.2 _ held _ (List.mem_map_of_mem List.mem_cons_self) rfl
    rw [moved] at distinct ⊢
    rw [List.foldl_cons, replaceOrPush_fresh fresh]
    exact ih distinct

private theorem mem_replaceOrPush {logs : List PrivateLogData} {log found : PrivateLogData}
    (held : found ∈ replaceOrPush logs log) : found ∈ logs ∨ found = log := by
  induction logs with
  | nil => exact .inr (List.mem_singleton.mp held)
  | cons existing rest ih =>
    unfold replaceOrPush at held
    split at held
    · rcases List.mem_cons.mp held with same | later
      · exact .inr same
      · exact .inl (.tail _ later)
    · rcases List.mem_cons.mp held with same | later
      · exact .inl (by rw [same]; exact List.mem_cons_self)
      · rcases ih later with inside | same
        · exact .inl (.tail _ inside)
        · exact .inr same

/-- Merging logs invents none. -/
private theorem mem_merge {nested circuit : List PrivateLogData} {found : PrivateLogData}
    (held : found ∈ mergeNestedPrivateLogs nested circuit) : found ∈ nested ∨ found ∈ circuit := by
  unfold mergeNestedPrivateLogs at held
  induction circuit generalizing nested with
  | nil => exact .inl held
  | cons log rest ih =>
    rcases ih held with before | later
    · rcases mem_replaceOrPush before with inside | same
      · exact .inl inside
      · exact .inr (by rw [same]; exact List.mem_cons_self)
    · exact .inr (.tail _ later)

private theorem logs_handled (contracts : ContractStore) {handler : Handler}
    (done : oracle.Handled crypto args handler next) :
    next.privateLogs = oracle.privateLogs ++
      (Step.foreign oracle handler args).logs crypto contracts := by
  cases done with
  | privateLog => rfl
  | _ => exact (List.append_nil _).symm

private theorem logs_called {answer : Answer}
    (done : oracle.enter crypto contracts args = .ok (.handled answer next)) :
    next.privateLogs = oracle.privateLogs ++ (Step.called oracle args).logs crypto contracts := by
  obtain ⟨call, -, -, published⟩ := enter_handled done
  have added : ∃ more, next.privateLogs = oracle.privateLogs ++ more := by
    cases published with
    | classLog => exact ⟨[], (List.append_nil _).symm⟩
    | privateLog => exact ⟨_, rfl⟩
  obtain ⟨more, added⟩ := added
  simp only [Step.logs, done]
  rw [added, List.drop_left]

/-- Where the logs of a tree have distinct counters, the oracle ends with all of
them, in the order they were recorded. -/
theorem logs_of_runs (runs : Runs crypto contracts script oracle trace final)
    (distinct : ((trace.flatMap (Step.logs crypto contracts)).map (·.counter)).Nodup) :
    final.privateLogs = oracle.privateLogs ++ trace.flatMap (Step.logs crypto contracts) := by
  induction runs with
  | done => exact (List.append_nil _).symm
  | foreign handled later ih =>
    rw [List.flatMap_cons, List.map_append, List.nodup_append] at distinct
    rw [ih distinct.2.1, logs_handled contracts (handled_of_ok handled), List.append_assoc]
    rfl
  | handled protocol later ih =>
    rw [List.flatMap_cons, List.map_append, List.nodup_append] at distinct
    rw [ih distinct.2.1, logs_called protocol, List.append_assoc]
    rfl
  | @entered oracle inner final args call body rest output inside after enters below later inIh ih =>
    have nothing : (Step.called oracle args).logs crypto contracts = [] := by
      simp only [Step.logs, enters]
    rw [List.cons_append, List.flatMap_cons, nothing, List.nil_append, List.flatMap_append,
      List.flatMap_cons] at distinct ⊢
    rw [← List.append_assoc, List.map_append, List.nodup_append] at distinct
    obtain ⟨within, afterwards, -⟩ := distinct
    have ended := inIh (by rw [List.map_append, List.nodup_append] at within; exact within.1)
    have fresh : inner.privateLogs = inside.flatMap (Step.logs crypto contracts) := ended
    have merged : (oracle.merge crypto call output inner).2.privateLogs = oracle.privateLogs ++
        (inside.flatMap (Step.logs crypto contracts) ++ output.privateLogs call.target) := by
      change oracle.privateLogs ++ mergeNestedPrivateLogs inner.privateLogs _ = _
      rw [fresh]
      exact congrArg _ (merge_apart within)
    rw [ih afterwards, merged]
    simp only [Step.logs, List.append_assoc]

/-- An oracle ends with no other logs than it started with and its steps
recorded. -/
private theorem mem_logs_of_runs (runs : Runs crypto contracts script oracle trace final)
    {log : PrivateLogData} (held : log ∈ final.privateLogs) :
    log ∈ oracle.privateLogs ∨ log ∈ trace.flatMap (Step.logs crypto contracts) := by
  induction runs with
  | done => exact .inl held
  | foreign handled later ih =>
    rw [List.flatMap_cons, List.mem_append, ← or_assoc, ← List.mem_append,
      ← logs_handled contracts (handled_of_ok handled)]
    exact ih held
  | handled protocol later ih =>
    rw [List.flatMap_cons, List.mem_append, ← or_assoc, ← List.mem_append, ← logs_called protocol]
    exact ih held
  | @entered oracle inner final args call body rest output inside after enters below later inIh ih =>
    simp only [List.cons_append, List.flatMap_cons, List.flatMap_append, List.mem_append]
    rcases ih held with early | late
    · rcases List.mem_append.mp early with own | merged
      · exact .inl own
      · rcases mem_merge merged with nested | circuit
        · rcases inIh nested with none | within
          · cases none
          · exact .inr (.inr (.inl within))
        · exact .inr (.inr (.inr (.inl circuit)))
    · exact .inr (.inr (.inr (.inr late)))

end Logs

section Results
variable {ε : Type}

/-- The effects of one kind in the results an oracle holds. -/
def shown (own : PrivateCallExecutionResult → List ε) (oracle : PrivateExecutionOracle) : List ε :=
  (PrivateCallExecutionResult.collectNested oracle.nestedResults).flatMap own

private theorem shown_append (own : PrivateCallExecutionResult → List ε)
    {before after : PrivateExecutionOracle} {result : PrivateCallExecutionResult}
    (added : after.nestedResults = before.nestedResults ++ [result]) :
    shown own after = shown own before ++ (own result ++
      (PrivateCallExecutionResult.collectNested result.nestedExecutionResults).flatMap own) := by
  unfold shown
  rw [added]
  simp [PrivateCallExecutionResult.collectNested_eq, PrivateCallExecutionResult.collectCalls_eq]

/-- A call to a registry leaves a result without effects. -/
theorem bare_published (done : oracle.Published crypto call next) :
    ∃ bare : PrivateCallExecutionResult, next.nestedResults = oracle.nestedResults ++ [bare] ∧
      bare.nestedExecutionResults = [] ∧ bare.Bare := by
  cases done <;> exact ⟨_, rfl, rfl, rfl, rfl, rfl, rfl, rfl, rfl, rfl, rfl⟩

/-- It adds nothing to what the results show. -/
theorem shown_published {own : PrivateCallExecutionResult → List ε}
    (empty : ∀ {bare : PrivateCallExecutionResult}, bare.Bare → own bare = [])
    (done : oracle.Published crypto call next) : shown own next = shown own oracle := by
  obtain ⟨bare, added, below, nothing⟩ := bare_published done
  rw [shown_append own added, below, empty nothing]
  exact List.append_nil _

/-- What the results of a run show, the run recorded. The results of registries
show nothing, and the result of a nested call shows what its steps and its
return recorded. -/
theorem recorded_of_shown (own : PrivateCallExecutionResult → List ε) (recorded : Step → List ε)
    (bare : ∀ {oracle next : PrivateExecutionOracle} {call : NestedCall},
      oracle.Published crypto call next → shown own next = shown own oracle)
    (nested : ∀ {oracle inner : PrivateExecutionOracle} {call : NestedCall} {body : Script}
      {output : AcvmExecutionOutput} {inside : List Step},
      Runs crypto contracts body (oracle.nested call) inside inner →
        ∀ effect ∈ own (oracle.nestedResult call output inner),
          effect ∈ inside.flatMap recorded ∨ effect ∈ recorded (.returned oracle call output inner))
    (runs : Runs crypto contracts script oracle trace final) :
    ∀ effect ∈ shown own final, effect ∈ shown own oracle ∨ effect ∈ trace.flatMap recorded := by
  induction runs with
  | done => exact fun effect held => .inl held
  | foreign handled later ih =>
    intro effect held
    have frame := nestedResults_handled (handled_of_ok handled)
    rcases ih effect held with early | late
    · unfold shown at early ⊢
      rw [frame] at early
      exact .inl early
    · exact .inr (List.mem_append_right _ late)
  | handled protocol later ih =>
    intro effect held
    obtain ⟨call, -, -, published⟩ := enter_handled protocol
    rcases ih effect held with early | late
    · rw [bare published] at early
      exact .inl early
    · exact .inr (List.mem_append_right _ late)
  | @entered oracle inner final args call body rest output inside after enters below later inIh ih =>
    intro effect held
    simp only [List.cons_append, List.flatMap_cons, List.flatMap_append, List.mem_append]
    rcases ih effect held with early | late
    · have added : (oracle.merge crypto call output inner).2.nestedResults =
          oracle.nestedResults ++ [oracle.nestedResult call output inner] := rfl
      rw [shown_append own added, List.mem_append, List.mem_append] at early
      rcases early with before | here | within
      · exact .inl before
      · rcases nested below effect here with inside | returned
        · exact .inr (.inr (.inl inside))
        · exact .inr (.inr (.inr (.inl returned)))
      · rcases inIh effect within with none | inside
        · cases none
        · exact .inr (.inr (.inl inside))
    · exact .inr (.inr (.inr (.inr late)))

end Results

/-- After a nested call its caller holds what it held before, followed by exactly
what the steps of the call recorded. -/
structure MergeExact (crypto : Crypto) (contracts : ContractStore)
    (caller : PrivateExecutionOracle) (call : NestedCall) (body : Script)
    (output : AcvmExecutionOutput) (inner : PrivateExecutionOracle) : Prop where
  newNotes : (caller.merge crypto call output inner).2.newNotes = caller.newNotes ++
    (body.steps crypto contracts (caller.nested call)).flatMap Step.notes
  noteHashes : (caller.merge crypto call output inner).2.noteHashes = caller.noteHashes ++
    (body.steps crypto contracts (caller.nested call)).flatMap Step.announced
  nullifiers : (caller.merge crypto call output inner).2.nullifiers = caller.nullifiers ++
    (body.steps crypto contracts (caller.nested call)).flatMap (Step.nullifiers crypto contracts)
  consumed : ∀ nullifier,
    nullifier ∈ (caller.merge crypto call output inner).2.consumedDbNullifiers ↔
      nullifier ∈ caller.consumedDbNullifiers ∨
        nullifier ∈ (body.steps crypto contracts (caller.nested call)).flatMap
          (Step.consumed crypto)

private theorem announced_of_covered (covered : ∀ step ∈ trace, step.Covered) :
    trace.flatMap Step.addedNoteHashes = trace.flatMap Step.announced :=
  List.flatMap_congr fun step inside => Step.addedNoteHashes_of_covered (covered step inside)

/-- A covered nested call is merged exactly. -/
private theorem merge_exact (ran : body.execute crypto contracts (caller.nested call) = .ok inner)
    (covered : ∀ step ∈ body.steps crypto contracts (caller.nested call), step.Covered)
    (returns : (Step.returned caller call output inner).Covered) :
    MergeExact crypto contracts caller call body output inner := by
  have runs := runs_of_execute ran
  have notes := (Recorder.notes crypto contracts).merged_of_runs runs output
  have noteHashes := (CircuitOutputs.noteHashRecorder crypto contracts).merged_of_runs runs output
  have nullifiers := (NullifierCollection.recorder crypto contracts).merged_of_runs runs output
  have noNote : (Recorder.notes crypto contracts).recorded
      (.returned caller call output inner) = [] := rfl
  have noNoteHash : (CircuitOutputs.noteHashRecorder crypto contracts).recorded
      (.returned caller call output inner) = [] := Step.addedNoteHashes_of_covered returns
  have noNullifier : (NullifierCollection.recorder crypto contracts).recorded
      (.returned caller call output inner) = [] := rfl
  rw [noNote, List.append_nil] at notes
  rw [noNoteHash, List.append_nil] at noteHashes
  rw [noNullifier, List.append_nil] at nullifiers
  refine ⟨notes, ?_, nullifiers, ?_⟩
  · rw [← announced_of_covered covered]
    exact noteHashes
  · intro nullifier
    rw [mem_consumed_merge, consumed_of_runs runs]
    have inherited : (caller.nested call).consumedDbNullifiers = caller.consumedDbNullifiers := rfl
    rw [inherited, ← or_assoc, or_self]

/-- The effects of a tree, kind by kind. -/
structure TreeEffects where
  noteHashes : List ScopedNoteHash
  nullifiers : List ScopedNullifier
  privateLogs : List PrivateLogData
  publicCallRequests : List PublicCallRequestData
  contractClassLogs : List CountedContractClassLog

namespace TreeEffects

/-- In each kind, no two effects have one counter. -/
structure Distinct (effects : TreeEffects) : Prop where
  noteHashes : (effects.noteHashes.map (·.noteHash.counter)).Nodup
  nullifiers : (effects.nullifiers.map (·.nullifier.counter)).Nodup
  privateLogs : (effects.privateLogs.map (·.counter)).Nodup
  publicCallRequests : (effects.publicCallRequests.map (·.counter)).Nodup
  contractClassLogs : (effects.contractClassLogs.map (·.counter)).Nodup

/-- The collectors of a result yield each effect exactly once. -/
structure CollectedOnce (effects : TreeEffects) (result : PrivateExecutionResult) : Prop where
  noteHashes : result.allNoteHashes.Perm effects.noteHashes
  nullifiers : result.allNullifiers.Perm effects.nullifiers
  privateLogs : result.allPrivateLogs.Perm effects.privateLogs
  publicCallRequests : result.allPublicCallRequests.Perm effects.publicCallRequests
  contractClassLogs : result.allContractClassLogsSorted.Perm effects.contractClassLogs

end TreeEffects

/-- What the steps of a tree recorded, with the logs in the public inputs of a
top-level call. -/
def recordedEffects (crypto : Crypto) (contracts : ContractStore) (root : EmbeddedPxe.Root)
    (output : AcvmExecutionOutput) (trace : List Step) : TreeEffects where
  noteHashes := trace.flatMap Step.announced
  nullifiers := trace.flatMap (Step.nullifiers crypto contracts)
  privateLogs := trace.flatMap (Step.logs crypto contracts) ++
    match root with
    | .entrypoint .. => []
    | .topLevel call _ _ => output.privateLogs call.toAddress
  publicCallRequests := trace.flatMap Step.requests
  contractClassLogs := trace.flatMap (Step.classLogs crypto contracts)

/-- The note hashes of the root's circuit, where they are read, were announced. -/
def RootCovered (root : EmbeddedPxe.Root) (output : AcvmExecutionOutput) (trace : List Step) :
    Prop :=
  match root with
  | .entrypoint .. => True
  | .topLevel call _ _ =>
    ∀ noteHash ∈ output.noteHashes call.toAddress, noteHash ∈ trace.flatMap Step.announced

section Tree
variable {root : EmbeddedPxe.Root} {function : PrivateFunction}

theorem nestedResults_bundle :
    (root.bundle function output final).executionResult.entrypoint.nestedExecutionResults =
      final.nestedResults := by
  cases root <;> rfl

theorem shown_root {ε : Type} (own : PrivateCallExecutionResult → List ε) :
    shown own root.oracle = [] := by
  cases root <;> rfl

/-- What the results below a root show, the steps of its tree recorded. -/
theorem recorded_of_root {ε : Type} (own : PrivateCallExecutionResult → List ε)
    (recorded : Step → List ε)
    (empty : ∀ {bare : PrivateCallExecutionResult}, bare.Bare → own bare = [])
    (nested : ∀ {oracle inner : PrivateExecutionOracle} {call : NestedCall} {body : Script}
      {output : AcvmExecutionOutput} {inside : List Step},
      Runs crypto contracts body (oracle.nested call) inside inner →
        ∀ effect ∈ own (oracle.nestedResult call output inner),
          effect ∈ inside.flatMap recorded ∨ effect ∈ recorded (.returned oracle call output inner))
    (runs : Runs crypto contracts script root.oracle trace final) :
    ∀ effect ∈ (PrivateCallExecutionResult.collectNested (root.bundle function output
      final).executionResult.entrypoint.nestedExecutionResults).flatMap own,
        effect ∈ trace.flatMap recorded := by
  intro effect held
  rw [nestedResults_bundle] at held
  rcases recorded_of_shown own recorded (shown_published empty) nested runs effect held with
    none | known
  · rw [shown_root] at none
    cases none
  · exact known

/-- Where the root holds the effects of a kind under distinct counters and the
results below it show no others, its collector yields each of them once. -/
private theorem collected_once {ε : Type} (own : PrivateCallExecutionResult → List ε)
    (counter : ε → Nat) {effects : List ε}
    (held : own (root.bundle function output final).executionResult.entrypoint = effects)
    (distinct : (effects.map counter).Nodup)
    (copies : ∀ effect ∈ shown own final, effect ∈ effects) :
    (FirstWins.collect counter
      ((root.bundle function output final).executionResult.iterAllCalls.flatMap own)).Perm
        effects := by
  rw [PrivateExecutionResult.flatMap_iterAllCalls, held, nestedResults_bundle]
  exact FirstWins.collect_perm distinct copies

/-- The same for a list that an oracle collects, from the run. -/
private theorem recorder_collected_once {ε : Type} (recorder : Recorder crypto contracts ε)
    (own : PrivateCallExecutionResult → List ε) (counter : ε → Nat)
    (runs : Runs crypto contracts script root.oracle trace final)
    (empty : recorder.held root.oracle = [])
    (held : own (root.bundle function output final).executionResult.entrypoint =
      recorder.held final)
    (distinct : ((trace.flatMap recorder.recorded).map counter).Nodup)
    (bare : ∀ {oracle next : PrivateExecutionOracle} {call : NestedCall},
      oracle.Published crypto call next → shown own next = shown own oracle)
    (fresh : ∀ {oracle inner : PrivateExecutionOracle} {call : NestedCall} {items : List ε}
      {output : AcvmExecutionOutput},
      recorder.held inner = recorder.held (oracle.nested call) ++ items →
        own (oracle.nestedResult call output inner) = items) :
    (FirstWins.collect counter
      ((root.bundle function output final).executionResult.iterAllCalls.flatMap own)).Perm
        (trace.flatMap recorder.recorded) := by
  have ended := recorder.of_runs runs
  rw [empty, List.nil_append] at ended
  apply collected_once own counter (held.trans ended) distinct
  intro effect copy
  have known := recorded_of_shown own recorder.recorded bare (fun below effect inside => by
    rw [fresh (recorder.of_runs below)] at inside
    exact .inl inside) runs effect copy
  rcases known with none | recorded
  · rw [shown_root] at none
    cases none
  · exact recorded

/-- The root's own note hashes are the announced ones. -/
private theorem noteHashes_bundle (covered : RootCovered root output trace)
    (ended : final.noteHashes = trace.flatMap Step.announced) :
    (root.bundle function output final).executionResult.entrypoint.noteHashes =
      final.noteHashes := by
  cases root with
  | entrypoint origin protocolNullifier argsOfCalls capsules => rfl
  | topLevel call origin protocolNullifier =>
    change (if final.noteHashes.isEmpty then output.noteHashes call.toAddress
      else final.noteHashes) = final.noteHashes
    split
    next none =>
      rw [List.isEmpty_iff.mp none] at ended ⊢
      apply List.eq_nil_iff_forall_not_mem.mpr
      intro noteHash held
      have told := covered noteHash held
      rw [← ended] at told
      cases told
    · rfl

private theorem noteHashes_once (runs : Runs crypto contracts script root.oracle trace final)
    (covered : ∀ step ∈ trace, step.Covered) (rootCovered : RootCovered root output trace)
    (distinct : ((trace.flatMap Step.announced).map (·.noteHash.counter)).Nodup) :
    (root.bundle function output final).executionResult.allNoteHashes.Perm
      (trace.flatMap Step.announced) := by
  have told := announced_of_covered covered
  have started : root.oracle.noteHashes = [] := by cases root <;> rfl
  have ended := CircuitOutputs.noteHashes_of_runs runs
  rw [started, List.nil_append, told] at ended
  rw [← told] at distinct ⊢
  apply recorder_collected_once (CircuitOutputs.noteHashRecorder crypto contracts) (·.noteHashes)
    (·.noteHash.counter) runs started (noteHashes_bundle rootCovered ended) distinct
    (shown_published fun bare => bare.noteHashes)
  intro oracle inner call items output began
  have moved : inner.noteHashes = oracle.noteHashes ++ items := began
  change inner.noteHashes.drop oracle.noteHashes.length = items
  rw [moved, List.drop_left]

private theorem nullifiers_once (runs : Runs crypto contracts script root.oracle trace final)
    (distinct : ((trace.flatMap (Step.nullifiers crypto contracts)).map
      (·.nullifier.counter)).Nodup) :
    (root.bundle function output final).executionResult.allNullifiers.Perm
      (trace.flatMap (Step.nullifiers crypto contracts)) := by
  apply recorder_collected_once (NullifierCollection.recorder crypto contracts) (·.nullifiers)
    (·.nullifier.counter) runs (by cases root <;> rfl) (by cases root <;> rfl) distinct
    (shown_published fun bare => bare.nullifiers)
  intro oracle inner call items output began
  have moved : inner.nullifiers = oracle.nullifiers ++ items := began
  change inner.nullifiers.drop oracle.nullifiers.length = items
  rw [moved, List.drop_left]

/-- The collector yields each public call once. -/
theorem requests_once (runs : Runs crypto contracts script root.oracle trace final)
    (distinct : ((trace.flatMap Step.requests).map (·.counter)).Nodup) :
    (root.bundle function output final).executionResult.allPublicCallRequests.Perm
      (trace.flatMap Step.requests) :=
  recorder_collected_once (Recorder.requests crypto contracts) (·.publicCallRequests) (·.counter)
    runs (by cases root <;> rfl) (by cases root <;> rfl) distinct
    (shown_published fun bare => bare.publicCallRequests) (fun began => began)

private theorem classLogs_once (runs : Runs crypto contracts script root.oracle trace final)
    (distinct : ((trace.flatMap (Step.classLogs crypto contracts)).map (·.counter)).Nodup) :
    (root.bundle function output final).executionResult.allContractClassLogsSorted.Perm
      (trace.flatMap (Step.classLogs crypto contracts)) :=
  recorder_collected_once (Recorder.classLogs crypto contracts) (·.contractClassLogs) (·.counter)
    runs (by cases root <;> rfl) (by cases root <;> rfl) distinct
    (shown_published fun bare => bare.contractClassLogs) (fun began => began)

/-- The result of a nested call shows the logs its steps recorded and those of
its circuit. -/
private theorem logs_nestedResult {inside : List Step}
    (runs : Runs crypto contracts body (oracle.nested call) inside inner) :
    ∀ log ∈ (oracle.nestedResult call output inner).privateLogs,
      log ∈ inside.flatMap (Step.logs crypto contracts) ∨
        log ∈ (Step.returned oracle call output inner).logs crypto contracts := by
  intro log held
  rcases mem_merge held with nested | circuit
  · rcases mem_logs_of_runs runs nested with none | within
    · cases none
    · exact .inl within
  · exact .inr circuit

private theorem logs_once (runs : Runs crypto contracts script root.oracle trace final)
    (distinct : ((recordedEffects crypto contracts root output trace).privateLogs.map
      (·.counter)).Nodup) :
    (root.bundle function output final).executionResult.allPrivateLogs.Perm
      (recordedEffects crypto contracts root output trace).privateLogs := by
  have apart : ((trace.flatMap (Step.logs crypto contracts)).map (·.counter)).Nodup := by
    simp only [recordedEffects, List.map_append, List.nodup_append] at distinct
    exact distinct.1
  have ended := logs_of_runs runs apart
  have held : (root.bundle function output final).executionResult.entrypoint.privateLogs =
      (recordedEffects crypto contracts root output trace).privateLogs := by
    cases root with
    | entrypoint origin protocolNullifier argsOfCalls capsules =>
      exact ended.trans (List.append_nil _).symm
    | topLevel call origin protocolNullifier =>
      change final.privateLogs ++ output.privateLogs call.toAddress = _
      rw [ended]
      rfl
  apply collected_once (·.privateLogs) (·.counter) held distinct
  intro log copy
  have known := recorded_of_shown (·.privateLogs) (Step.logs crypto contracts)
    (shown_published fun bare => bare.privateLogs) logs_nestedResult runs log copy
  rcases known with none | recorded
  · rw [shown_root] at none
    cases none
  · exact List.mem_append_left _ recorded

end Tree

/-- In a tree whose announced note hashes cover those of its circuits and whose
effects of each kind have distinct counters, every nested call is merged
exactly, and the collectors yield each recorded effect exactly once. -/
theorem nested_merge_exact (crypto : Crypto) (contracts : ContractStore) (root : EmbeddedPxe.Root)
    (function : PrivateFunction) (script : Script) (output : AcvmExecutionOutput)
    (final : PrivateExecutionOracle)
    (ran : script.execute crypto contracts root.oracle = .ok final)
    (distinct : (recordedEffects crypto contracts root output
      (script.steps crypto contracts root.oracle)).Distinct)
    (covered : ∀ step ∈ script.steps crypto contracts root.oracle, step.Covered)
    (rootCovered : RootCovered root output (script.steps crypto contracts root.oracle)) :
    (∀ caller call body circuit inner,
      Makes crypto contracts caller call body circuit inner script root.oracle →
        MergeExact crypto contracts caller call body circuit inner) ∧
    (recordedEffects crypto contracts root output
      (script.steps crypto contracts root.oracle)).CollectedOnce
        (root.bundle function output final).executionResult := by
  have runs := runs_of_execute ran
  refine ⟨?_, noteHashes_once runs covered rootCovered distinct.noteHashes,
    nullifiers_once runs distinct.nullifiers, logs_once runs distinct.privateLogs,
    requests_once runs distinct.publicCallRequests, classLogs_once runs distinct.contractClassLogs⟩
  intro caller call body circuit inner makes
  obtain ⟨within, returned⟩ := steps_of_makes makes
  exact merge_exact (ran_of_makes makes) (fun step inside => covered step (within step inside))
    (covered _ returned)

/-- A note, then a call that makes a second note, nullifies the first and logs,
through a call of its own that enqueues a public call. -/
def twoLevels : Script :=
  .foreign .notifyCreatedNote [[1], [2], [3], [4], [], [9], [3]]
    (.callPrivate [[20], [5], [0], [4], [0]]
      (.foreign .notifyCreatedNote [[1], [2], [3], [4], [], [10], [5]]
        (.callPrivate [[21], [5], [0], [6], [0]]
          (.foreign .notifyEnqueuedPublicFunctionCall [[30], [0], [7], [0]] .done) {}
          (.foreign .notifyNullifiedNote [[11], [9], [8]]
            (.foreign .emitPrivateLog [[12]] .done)))) {} .done)

/-- Both levels of that tree are merged exactly and collected once. -/
theorem twoLevels_merged :
    ∃ final, twoLevels.execute .zero (.one (.fromField 5))
        NullifierCollection.bareEntrypoint.oracle = .ok final ∧
      (recordedEffects .zero (.one (.fromField 5)) NullifierCollection.bareEntrypoint {}
        (twoLevels.steps .zero (.one (.fromField 5))
          NullifierCollection.bareEntrypoint.oracle)).CollectedOnce
        (NullifierCollection.bareEntrypoint.bundle ⟨none, false, 0⟩ {} final).executionResult :=
  ⟨_, rfl, (nested_merge_exact .zero (.one (.fromField 5)) NullifierCollection.bareEntrypoint
    ⟨none, false, 0⟩ twoLevels {} _ rfl
    ⟨by decide, by decide, by decide, by decide, by decide⟩ (by decide) trivial).2⟩

end NestedMerge

end AztecPxe
