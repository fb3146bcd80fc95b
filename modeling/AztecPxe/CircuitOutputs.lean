import AztecPxe.Entrypoints
import AztecPxe.Recorders

/-! Which outputs of the circuits reach the result of a call tree. A note hash
in a circuit's public inputs counts only if it was announced to the oracle, or
if the whole call below recorded none. A log in them replaces or follows what
the oracle recorded, except that the account entrypoint's own public inputs
are never read for effects. -/
namespace AztecPxe
open PrivateExecutionOracle Script FirstWins

namespace Step

/-- The note hash a step announces. -/
def announced : Step → List ScopedNoteHash
  | .foreign oracle .notifyCreatedNote args => [oracle.createdNoteHash args]
  | _ => []

/-- The note hashes in the public inputs of a call that returns. -/
def circuitNoteHashes : Step → List ScopedNoteHash
  | .returned _ call output _ => output.noteHashes call.target
  | _ => []

/-- The private logs in the public inputs of a call that returns. -/
def circuitLogs : Step → List PrivateLogData
  | .returned _ call output _ => output.privateLogs call.target
  | _ => []

/-- The note hashes a step adds: an announced one, or those of the public inputs
of a call that recorded none. -/
def addedNoteHashes : Step → List ScopedNoteHash
  | .returned oracle call output inner =>
    if (oracle.newNoteHashes inner).isEmpty then output.noteHashes call.target else []
  | step => step.announced

/-- The call that returns recorded no note hash, or each of its circuit's note
hashes is among those announced. -/
def NotesKept (told : List ScopedNoteHash) : Step → Prop
  | .returned oracle call output inner => oracle.newNoteHashes inner = [] ∨
      ∀ noteHash ∈ output.noteHashes call.target, noteHash ∈ told
  | _ => True

/-- The caller holds no log with the counter of a circuit's log that is merged
into its logs. -/
def LogsKept (circuit : List PrivateLogData) : Step → Prop
  | .returned oracle call output inner =>
      ∀ log ∈ mergeNestedPrivateLogs inner.privateLogs (output.privateLogs call.target),
        log ∈ circuit → log.counter ∉ oracle.privateLogs.map (·.counter)
  | _ => True

instance (told : List ScopedNoteHash) (step : Step) : Decidable (step.NotesKept told) :=
  match step with
  | .returned oracle call output inner =>
    inferInstanceAs (Decidable (oracle.newNoteHashes inner = [] ∨
      ∀ noteHash ∈ output.noteHashes call.target, noteHash ∈ told))
  | .foreign .. => .isTrue trivial
  | .called .. => .isTrue trivial

instance (circuit : List PrivateLogData) (step : Step) : Decidable (step.LogsKept circuit) :=
  match step with
  | .returned oracle call output inner =>
    inferInstanceAs (Decidable (
      ∀ log ∈ mergeNestedPrivateLogs inner.privateLogs (output.privateLogs call.target),
        log ∈ circuit → log.counter ∉ oracle.privateLogs.map (·.counter)))
  | .foreign .. => .isTrue trivial
  | .called .. => .isTrue trivial

end Step

namespace CircuitOutputs
variable {crypto : Crypto} {contracts : ContractStore}
variable {oracle next final : PrivateExecutionOracle} {args : Args} {script : Script}
variable {trace : List Step}

private theorem noteHashes_handled {handler : Handler}
    (done : oracle.Handled crypto args handler next) :
    next.noteHashes = oracle.noteHashes ++ (Step.foreign oracle handler args).addedNoteHashes := by
  cases done with
  | createdNote => rfl
  | _ => exact (List.append_nil _).symm

private theorem noteHashes_published {call : NestedCall}
    (done : oracle.Published crypto call next) : next.noteHashes = oracle.noteHashes := by
  cases done <;> rfl

/-- The note hashes as one of the lists an oracle collects. -/
def noteHashRecorder (crypto : Crypto) (contracts : ContractStore) :
    Recorder crypto contracts ScopedNoteHash where
  held := (·.noteHashes)
  recorded := Step.addedNoteHashes
  handled := noteHashes_handled
  called done := by
    rw [Recorder.called_frame (·.noteHashes) noteHashes_published done]
    exact (List.append_nil _).symm
  entered _ := rfl
  merged {oracle inner call output items} started := by
    have fresh : oracle.newNoteHashes inner = items := by
      unfold newNoteHashes
      rw [started]
      exact List.drop_left
    simp only [merge, Step.addedNoteHashes, fresh]
    cases items <;> simp

/-- The oracle at the root ends with what every step of the tree added. -/
theorem noteHashes_of_runs (runs : Runs crypto contracts script oracle trace final) :
    final.noteHashes = oracle.noteHashes ++ trace.flatMap Step.addedNoteHashes :=
  (noteHashRecorder crypto contracts).of_runs runs

/-- Whatever is added is announced, or a circuit's output. -/
private theorem mem_addedNoteHashes {noteHash : ScopedNoteHash}
    (added : noteHash ∈ trace.flatMap Step.addedNoteHashes) :
    noteHash ∈ trace.flatMap Step.announced ∨ noteHash ∈ trace.flatMap Step.circuitNoteHashes := by
  obtain ⟨step, inside, added⟩ := List.mem_flatMap.mp added
  cases step with
  | returned oracle call output inner =>
    simp only [Step.addedNoteHashes] at added
    split at added
    · exact .inr (List.mem_flatMap.mpr ⟨_, inside, added⟩)
    · cases added
  | foreign oracle handler args => exact .inl (List.mem_flatMap.mpr ⟨_, inside, added⟩)
  | called oracle args => exact .inl (List.mem_flatMap.mpr ⟨_, inside, added⟩)

/-- Whatever is announced is added. -/
theorem announced_added {noteHash : ScopedNoteHash}
    (told : noteHash ∈ trace.flatMap Step.announced) :
    noteHash ∈ trace.flatMap Step.addedNoteHashes := by
  obtain ⟨step, inside, told⟩ := List.mem_flatMap.mp told
  cases step with
  | returned oracle call output inner => cases told
  | foreign oracle handler args => exact List.mem_flatMap.mpr ⟨_, inside, told⟩
  | called oracle args => cases told

/-- Under the condition, the circuits' note hashes below the root are added. -/
private theorem circuitNoteHashes_added
    (kept : ∀ step ∈ trace, step.NotesKept (trace.flatMap Step.announced))
    {noteHash : ScopedNoteHash} (output : noteHash ∈ trace.flatMap Step.circuitNoteHashes) :
    noteHash ∈ trace.flatMap Step.addedNoteHashes := by
  obtain ⟨step, inside, output⟩ := List.mem_flatMap.mp output
  cases step with
  | foreign oracle handler args => cases output
  | called oracle args => cases output
  | returned oracle call output' inner =>
    rcases kept _ inside with none | told
    · refine List.mem_flatMap.mpr ⟨_, inside, ?_⟩
      simp only [Step.addedNoteHashes, none]
      exact output
    · exact announced_added (told noteHash output)

section Logs
variable {log : PrivateLogData}

private theorem first_replaceOrPush_self (logs : List PrivateLogData) (log : PrivateLogData) :
    FirstIn (·.counter) log (replaceOrPush logs log) := by
  unfold FirstIn
  induction logs with
  | nil => simp [replaceOrPush]
  | cons existing rest ih =>
    unfold replaceOrPush
    split
    · simp
    next other =>
      rw [List.find?_cons_of_neg (by simpa using other)]
      exact ih

private theorem first_replaceOrPush {logs : List PrivateLogData} {circuitLog : PrivateLogData}
    (first : FirstIn (·.counter) log logs) (other : circuitLog.counter ≠ log.counter) :
    FirstIn (·.counter) log (replaceOrPush logs circuitLog) := by
  unfold FirstIn at first ⊢
  induction logs with
  | nil => cases first
  | cons existing rest ih =>
    unfold replaceOrPush
    split
    next same =>
      have passed : existing.counter ≠ log.counter := by rw [same]; exact other
      rw [List.find?_cons_of_neg (by simpa using passed)] at first
      rw [List.find?_cons_of_neg (by simpa using other), first]
    · rw [List.find?_cons] at first ⊢
      split
      next found =>
        rw [found] at first
        exact first
      next passed =>
        rw [passed] at first
        exact ih first

/-- A log of another counter survives the correction by a circuit's logs. -/
private theorem first_merge_nested {logs circuit : List PrivateLogData}
    (first : FirstIn (·.counter) log logs) (others : log.counter ∉ circuit.map (·.counter)) :
    FirstIn (·.counter) log (mergeNestedPrivateLogs logs circuit) := by
  unfold mergeNestedPrivateLogs
  induction circuit generalizing logs with
  | nil => exact first
  | cons circuitLog rest ih =>
    rw [List.map_cons, List.mem_cons, not_or] at others
    rw [List.foldl_cons]
    exact ih (first_replaceOrPush first (Ne.symm others.1)) others.2

/-- Every log of the circuit comes out of the correction. -/
private theorem first_merge_circuit {logs circuit : List PrivateLogData}
    (distinct : (circuit.map (·.counter)).Nodup) (output : log ∈ circuit) :
    FirstIn (·.counter) log (mergeNestedPrivateLogs logs circuit) := by
  induction circuit generalizing logs with
  | nil => cases output
  | cons circuitLog rest ih =>
    rw [List.map_cons, List.nodup_cons] at distinct
    change FirstIn (·.counter) log (mergeNestedPrivateLogs (replaceOrPush logs circuitLog) rest)
    rcases List.mem_cons.mp output with rfl | later
    · exact first_merge_nested (first_replaceOrPush_self logs log) distinct.1
    · exact ih distinct.2 later

private theorem privateLogs_handled {handler : Handler}
    (done : oracle.Handled crypto args handler next) :
    ∃ more, next.privateLogs = oracle.privateLogs ++ more := by
  cases done with
  | privateLog => exact ⟨_, rfl⟩
  | _ => exact ⟨[], (List.append_nil _).symm⟩

private theorem privateLogs_published {call : NestedCall}
    (done : oracle.Published crypto call next) :
    ∃ more, next.privateLogs = oracle.privateLogs ++ more := by
  cases done with
  | classLog => exact ⟨[], (List.append_nil _).symm⟩
  | privateLog => exact ⟨_, rfl⟩

/-- An oracle's logs are never touched once recorded. -/
private theorem privateLogs_of_runs (runs : Runs crypto contracts script oracle trace final) :
    ∃ more, final.privateLogs = oracle.privateLogs ++ more := by
  induction runs with
  | done => exact ⟨[], (List.append_nil _).symm⟩
  | foreign handled later ih =>
    obtain ⟨first, added⟩ := privateLogs_handled (handled_of_ok handled)
    obtain ⟨more, ended⟩ := ih
    exact ⟨first ++ more, by rw [ended, added, List.append_assoc]⟩
  | handled protocol later ih =>
    obtain ⟨call, -, -, published⟩ := enter_handled protocol
    obtain ⟨first, added⟩ := privateLogs_published published
    obtain ⟨more, ended⟩ := ih
    exact ⟨first ++ more, by rw [ended, added, List.append_assoc]⟩
  | entered enters below later inIh ih =>
    obtain ⟨more, ended⟩ := ih
    exact ⟨_ ++ more, by rw [ended]; exact List.append_assoc _ _ _⟩

/-- Under the condition, every log of a circuit below the root is the first of
its counter among the root's logs. -/
private theorem first_of_runs {circuit : List PrivateLogData}
    (runs : Runs crypto contracts script oracle trace final)
    (distinct : ((trace.flatMap Step.circuitLogs).map (·.counter)).Nodup)
    (included : trace.flatMap Step.circuitLogs ⊆ circuit)
    (kept : ∀ step ∈ trace, step.LogsKept circuit) (output : log ∈ trace.flatMap Step.circuitLogs) :
    FirstIn (·.counter) log final.privateLogs := by
  induction runs with
  | done => cases output
  | foreign handled later ih =>
    exact ih distinct included (fun step inside => kept step (.tail _ inside)) output
  | handled protocol later ih =>
    exact ih distinct included (fun step inside => kept step (.tail _ inside)) output
  | @entered oracle inner final args call body rest outs inside after enters below later inIh ih =>
    have split : (Step.called oracle args :: inside ++
          .returned oracle call outs inner :: after).flatMap Step.circuitLogs =
        inside.flatMap Step.circuitLogs ++
          (outs.privateLogs call.target ++ after.flatMap Step.circuitLogs) := by
      simp [Step.circuitLogs]
    rw [split] at distinct included output
    rw [List.map_append, List.map_append, List.nodup_append, List.nodup_append] at distinct
    obtain ⟨insideApart, ⟨ownApart, afterApart, -⟩, acrossApart⟩ := distinct
    have clear := kept (.returned oracle call outs inner) (by simp)
    -- What the callee's logs lead with, the caller's logs lead with after the
    -- merge, since the caller holds no log of that counter.
    have raised : ∀ {found : PrivateLogData},
        FirstIn (·.counter) found
          (mergeNestedPrivateLogs inner.privateLogs (outs.privateLogs call.target)) →
        found ∈ circuit → FirstIn (·.counter) found final.privateLogs := by
      intro found first known
      obtain ⟨more, ended⟩ := privateLogs_of_runs later
      rw [ended]
      exact (first.prepend (clear found first.mem known)).append more
    rw [List.mem_append, List.mem_append] at output
    rcases output with below | own | after
    · apply raised _ (included (List.mem_append_left _ below))
      apply first_merge_nested
      · exact inIh insideApart (fun _ held => included (List.mem_append_left _ held))
          (fun step held => kept step (by simp [held])) below
      · intro clash
        exact acrossApart _ (List.mem_map_of_mem below) _ (List.mem_append_left _ clash) rfl
    · apply raised (first_merge_circuit ownApart own)
      exact included (List.mem_append_right _ (List.mem_append_left _ own))
    · exact ih afterApart
        (fun _ held => included (List.mem_append_right _ (List.mem_append_right _ held)))
        (fun step held => kept step (by simp [held])) after

end Logs

variable {root : EmbeddedPxe.Root} {function : PrivateFunction} {output : AcvmExecutionOutput}

/-- The note hashes in the public inputs of every call of a tree, the root
included. -/
def treeNoteHashes (root : EmbeddedPxe.Root) (output : AcvmExecutionOutput) (trace : List Step) :
    List ScopedNoteHash :=
  trace.flatMap Step.circuitNoteHashes ++ output.noteHashes root.oracle.contractAddress

/-- The private logs in the public inputs of every call of a tree, the root
included. -/
def treeLogs (root : EmbeddedPxe.Root) (output : AcvmExecutionOutput) (trace : List Step) :
    List PrivateLogData :=
  trace.flatMap Step.circuitLogs ++ output.privateLogs root.oracle.contractAddress

/-- The root's note hashes are announced, or it is a top-level call in whose tree
nothing was recorded. The entrypoint's circuit makes no log, and no log recorded
in the tree has the counter of a log of a top-level circuit. -/
def RootKept (told : List ScopedNoteHash) (output : AcvmExecutionOutput)
    (final : PrivateExecutionOracle) (root : EmbeddedPxe.Root) : Prop :=
  let noteHashes := output.noteHashes root.oracle.contractAddress
  let logs := output.privateLogs root.oracle.contractAddress
  match root with
  | .entrypoint .. => (∀ noteHash ∈ noteHashes, noteHash ∈ told) ∧ logs = []
  | .topLevel .. => (final.noteHashes = [] ∨ ∀ noteHash ∈ noteHashes, noteHash ∈ told) ∧
      ∀ log ∈ logs, log.counter ∉ final.privateLogs.map (·.counter)

instance (told : List ScopedNoteHash) (output : AcvmExecutionOutput)
    (final : PrivateExecutionOracle) (root : EmbeddedPxe.Root) :
    Decidable (RootKept told output final root) :=
  match root with
  | .entrypoint origin .. =>
    inferInstanceAs (Decidable ((∀ noteHash ∈ output.noteHashes origin, noteHash ∈ told) ∧
      output.privateLogs origin = []))
  | .topLevel call .. =>
    inferInstanceAs (Decidable ((final.noteHashes = [] ∨
        ∀ noteHash ∈ output.noteHashes call.toAddress, noteHash ∈ told) ∧
      ∀ log ∈ output.privateLogs call.toAddress,
        log.counter ∉ final.privateLogs.map (·.counter)))

/-- The result's root shows what the tree recorded, or its own note hashes. -/
private theorem mem_bundle_noteHashes {noteHash : ScopedNoteHash}
    (shown : noteHash ∈
      (root.bundle function output final).executionResult.entrypoint.noteHashes) :
    noteHash ∈ final.noteHashes ∨ noteHash ∈ output.noteHashes root.oracle.contractAddress := by
  cases root with
  | entrypoint => exact .inl shown
  | topLevel call origin protocolNullifier =>
    simp only [EmbeddedPxe.Root.bundle, EmbeddedPxe.privateCallBundle,
      EmbeddedPxe.privateCallResult] at shown
    split at shown
    · exact .inr shown
    · exact .inl shown

private theorem recorded_bundle_noteHashes {noteHash : ScopedNoteHash}
    (held : noteHash ∈ final.noteHashes) :
    noteHash ∈ (root.bundle function output final).executionResult.entrypoint.noteHashes := by
  cases root with
  | entrypoint => exact held
  | topLevel call origin protocolNullifier =>
    simp only [EmbeddedPxe.Root.bundle, EmbeddedPxe.privateCallBundle,
      EmbeddedPxe.privateCallResult]
    split
    next empty =>
      have none : final.noteHashes = [] := List.isEmpty_iff.mp empty
      rw [none] at held
      cases held
    · exact held

theorem noteHashes_root : root.oracle.noteHashes = [] := by
  cases root <;> rfl

/-- Under the condition, every note hash of the tree is shown at the root. -/
private theorem tree_noteHash_shown {noteHash : ScopedNoteHash}
    (ended : final.noteHashes = trace.flatMap Step.addedNoteHashes)
    (kept : ∀ step ∈ trace, step.NotesKept (trace.flatMap Step.announced))
    (rootKept : RootKept (trace.flatMap Step.announced) output final root)
    (inTree : noteHash ∈ treeNoteHashes root output trace) :
    noteHash ∈ (root.bundle function output final).executionResult.entrypoint.noteHashes := by
  rcases List.mem_append.mp inTree with below | own
  · apply recorded_bundle_noteHashes
    rw [ended]
    exact circuitNoteHashes_added kept below
  · have told : noteHash ∈ trace.flatMap Step.announced → noteHash ∈
        (root.bundle function output final).executionResult.entrypoint.noteHashes := by
      intro told
      apply recorded_bundle_noteHashes
      rw [ended]
      exact announced_added told
    cases root with
    | entrypoint => exact told (rootKept.1 noteHash own)
    | topLevel call origin protocolNullifier =>
      rcases rootKept.1 with none | all
      · simp only [EmbeddedPxe.Root.bundle, EmbeddedPxe.privateCallBundle,
          EmbeddedPxe.privateCallResult, buildExecutionResult, none]
        exact own
      · exact told (all noteHash own)

/-- Under the condition, every log of the tree comes first at the root. -/
private theorem tree_log_first {log : PrivateLogData}
    (runs : Runs crypto contracts script root.oracle trace final)
    (distinct : ((treeLogs root output trace).map (·.counter)).Nodup)
    (kept : ∀ step ∈ trace, step.LogsKept (trace.flatMap Step.circuitLogs))
    (rootKept : RootKept (trace.flatMap Step.announced) output final root)
    (inTree : log ∈ treeLogs root output trace) :
    FirstIn (·.counter) log
      (root.bundle function output final).executionResult.entrypoint.privateLogs := by
  unfold treeLogs at distinct inTree
  rw [List.map_append, List.nodup_append] at distinct
  obtain ⟨belowApart, ownApart, -⟩ := distinct
  have below : log ∈ trace.flatMap Step.circuitLogs →
      FirstIn (·.counter) log final.privateLogs :=
    first_of_runs runs belowApart (fun _ held => held) kept
  cases root with
  | entrypoint =>
    rw [rootKept.2, List.append_nil] at inTree
    exact below inTree
  | topLevel call origin protocolNullifier =>
    rcases List.mem_append.mp inTree with inside | own
    · exact (below inside).append _
    · have first : FirstIn (·.counter) log (output.privateLogs call.toAddress) :=
        .of_unique own (fun _ held same => List.inj_on_of_nodup_map ownApart held own same)
      exact first.prepend (rootKept.2 log own)

/-- Where the circuits number their effects apart and announced notes carry the
circuit's counters, no note hash and no log of a circuit is lost, if every call
that returns and the root meet the condition. -/
theorem circuit_outputs_collected (root : EmbeddedPxe.Root) (function : PrivateFunction)
    (script : Script) (output : AcvmExecutionOutput) (final : PrivateExecutionOracle)
    (ran : script.execute crypto contracts root.oracle = .ok final) :
    let trace := script.steps crypto contracts root.oracle
    let result := (root.bundle function output final).executionResult
    ((treeNoteHashes root output trace).map (·.noteHash.counter) ++
      (treeLogs root output trace).map (·.counter)).Nodup →
    (∀ announced ∈ trace.flatMap Step.announced, ∀ noteHash ∈ treeNoteHashes root output trace,
      announced.noteHash.counter = noteHash.noteHash.counter → announced = noteHash) →
    (∀ step ∈ trace, step.NotesKept (trace.flatMap Step.announced) ∧
      step.LogsKept (trace.flatMap Step.circuitLogs)) →
    RootKept (trace.flatMap Step.announced) output final root →
    (∀ noteHash ∈ treeNoteHashes root output trace, noteHash ∈ result.allNoteHashes) ∧
      ∀ log ∈ treeLogs root output trace, log ∈ result.allPrivateLogs := by
  intro trace result distinct carried kept rootKept
  obtain ⟨notesApart, logsApart, -⟩ := List.nodup_append.mp distinct
  have runs := runs_of_execute ran
  have ended := noteHashes_of_runs runs
  rw [noteHashes_root, List.nil_append] at ended
  constructor
  · intro noteHash inTree
    unfold PrivateExecutionResult.allNoteHashes
    rw [PrivateExecutionResult.flatMap_iterAllCalls]
    apply FirstIn.collected
    apply FirstIn.of_unique
      (tree_noteHash_shown ended (fun step inside => (kept step inside).1) rootKept inTree)
    intro other shown same
    have unique : other ∈ treeNoteHashes root output trace → other = noteHash := fun held =>
      List.inj_on_of_nodup_map notesApart held inTree same
    rcases mem_bundle_noteHashes shown with held | own
    · rw [ended] at held
      rcases mem_addedNoteHashes held with told | below
      · exact carried other told noteHash inTree same
      · exact unique (List.mem_append_left _ below)
    · exact unique (List.mem_append_right _ own)
  · intro log inTree
    unfold PrivateExecutionResult.allPrivateLogs
    rw [PrivateExecutionResult.flatMap_iterAllCalls]
    apply FirstIn.collected
    exact tree_log_first runs logsApart (fun step inside => (kept step inside).2) rootKept inTree

/-- Public inputs with the note hash nine under the counter three and one log of
one field under the counter four. -/
def oneNoteOneLog : AcvmExecutionOutput where
  witness
    | 486 => some 1
    | 454 => some 9
    | 455 => some 3
    | 865 => some 1
    | 561 => some 6
    | 577 => some 1
    | 579 => some 4
    | _ => none

/-- Public inputs with one log of one field under the counter seven. -/
def oneLog : AcvmExecutionOutput where
  witness
    | 865 => some 1
    | 561 => some 6
    | 577 => some 1
    | 579 => some 7
    | _ => none

/-- One nested call, which announces nothing. -/
def oneCall : Script := .callPrivate [[20], [5], [0], [3], [0]] .done oneNoteOneLog .done

/-- A private function called at the top level. -/
def topLevelRoot : EmbeddedPxe.Root := .topLevel ⟨⟨7⟩, .fromField 1, [], false, false⟩ ⟨8⟩ 1

/-- The note hash and the logs of a top-level call and the call below it are
collected. -/
theorem nested_outputs_collected :
    ∃ final, oneCall.execute .zero (.one (.fromField 5)) topLevelRoot.oracle = .ok final ∧
      let trace := oneCall.steps .zero (.one (.fromField 5)) topLevelRoot.oracle
      let result := (topLevelRoot.bundle ⟨none, false, 0⟩ oneLog final).executionResult
      (∀ noteHash ∈ treeNoteHashes topLevelRoot oneLog trace, noteHash ∈ result.allNoteHashes) ∧
        ∀ log ∈ treeLogs topLevelRoot oneLog trace, log ∈ result.allPrivateLogs := by
  refine ⟨_, rfl, ?_⟩
  apply circuit_outputs_collected topLevelRoot ⟨none, false, 0⟩ oneCall oneLog _ rfl
  · decide
  · decide
  · decide
  · decide

/-- A log in the public inputs of the account's entrypoint is not collected. -/
theorem entrypoint_log_lost :
    ¬ ∀ crypto contracts (root : EmbeddedPxe.Root) function (script : Script) output final,
      script.execute crypto contracts root.oracle = .ok final →
      let trace := script.steps crypto contracts root.oracle
      let result := (root.bundle function output final).executionResult
      ((treeNoteHashes root output trace).map (·.noteHash.counter) ++
        (treeLogs root output trace).map (·.counter)).Nodup →
      (∀ announced ∈ trace.flatMap Step.announced, ∀ noteHash ∈ treeNoteHashes root output trace,
        announced.noteHash.counter = noteHash.noteHash.counter → announced = noteHash) →
      (∀ noteHash ∈ treeNoteHashes root output trace, noteHash ∈ result.allNoteHashes) ∧
        ∀ log ∈ treeLogs root output trace, log ∈ result.allPrivateLogs := by
  intro collected
  let root : EmbeddedPxe.Root := .entrypoint ⟨8⟩ 1 [] []
  have kept := (collected .zero .empty root ⟨none, false, 0⟩ .done oneLog root.oracle rfl
    (by decide) (by decide)).2
  exact absurd kept (by decide)

end CircuitOutputs

end AztecPxe
