import AztecPxe.Entrypoints
import AztecPxe.Recorders

/-! Static private calls. Whether a call may change the state is asked of the
flag of its own oracle only, the flag of a nested call is whatever its caller
passes, a public call is enqueued without being asked, and the effects in the
public inputs of a circuit are merged without being asked either. -/
namespace AztecPxe
open PrivateExecutionOracle

/-- A flag among the arguments, false where there is none. -/
def Args.flag (args : Args) (i : Nat) : Bool :=
  ((args.first i).map (fun flag => decide (flag ≠ 0))).getD false

/-- A call that recorded nothing but static public calls. -/
structure CallEffects.Quiet (own : CallEffects) : Prop where
  noteHashes : own.noteHashes = []
  nullifiers : own.nullifiers = []
  privateLogs : own.privateLogs = []
  contractClassLogs : own.contractClassLogs = []
  requests : ∀ request ∈ own.publicCallRequests, request.isStaticCall = true
  teardown : ∀ request ∈ own.publicTeardownCallRequest, request.isStaticCall = true

/-- Between two states an oracle collected nothing but static public calls. -/
structure PrivateExecutionOracle.Unchanged (before after : PrivateExecutionOracle) : Prop where
  noteHashes : after.noteHashes = before.noteHashes
  nullifiers : after.nullifiers = before.nullifiers
  privateLogs : after.privateLogs = before.privateLogs
  contractClassLogs : after.contractClassLogs = before.contractClassLogs
  requests : ∃ added, after.publicCallRequests = before.publicCallRequests ++ added ∧
    ∀ request ∈ added, request.isStaticCall = true
  teardown : ∀ request ∈ after.publicTeardownCallRequest,
    request ∈ before.publicTeardownCallRequest ∨ request.isStaticCall = true

namespace Handler

/-- The handlers that record a note hash, a nullifier or a log. -/
def records : Handler → Bool
  | .notifyCreatedNote | .notifyNullifiedNote | .notifyCreatedNullifier | .emitPrivateLog
  | .notifyCreatedContractClassLog => true
  | _ => false

/-- The handlers that enqueue a public call. -/
def enqueues : Handler → Bool
  | .notifyEnqueuedPublicFunctionCall | .notifySetPublicTeardownFunctionCall => true
  | _ => false

end Handler

namespace Step
variable (crypto : Crypto) (contracts : ContractStore)

/-- A step that tries to change the state: it records an effect, enqueues a
public call that is not static, publishes to a registry, or returns from a
circuit with effects of its own. -/
def Attempts : Step → Prop
  | .foreign oracle handler args => handler.records = true ∨
      (handler.enqueues = true ∧ (oracle.enqueuedRequest args).isStaticCall = false)
  | .called oracle args => ∃ answer next,
      oracle.enter crypto contracts args = .ok (.handled answer next)
  | .returned _ call output _ =>
      output.noteHashes call.target ≠ [] ∨ output.privateLogs call.target ≠ []

/-- What a static call must do by itself to stay static: enqueue static public
calls only, pass the flag on, and return from a circuit without effects. -/
def StaysStatic : Step → Prop
  | .foreign oracle handler args => oracle.callIsStatic = true → handler.enqueues = true →
      (oracle.enqueuedRequest args).isStaticCall = true
  | .called oracle args => oracle.callIsStatic = true → args.flag 4 = true
  | .returned _ call output _ => call.isStatic = true →
      output.noteHashes call.target = [] ∧ output.privateLogs call.target = []

instance (step : Step) : Decidable step.StaysStatic :=
  match step with
  | .foreign oracle handler args =>
    inferInstanceAs (Decidable (oracle.callIsStatic = true → handler.enqueues = true →
      (oracle.enqueuedRequest args).isStaticCall = true))
  | .called oracle args =>
    inferInstanceAs (Decidable (oracle.callIsStatic = true → args.flag 4 = true))
  | .returned _ call output _ =>
    inferInstanceAs (Decidable (call.isStatic = true →
      output.noteHashes call.target = [] ∧ output.privateLogs call.target = []))

end Step

/-- The points of an execution at or below a static call; `below` says whether
the script itself runs there. -/
def Script.staticSteps (crypto : Crypto) (contracts : ContractStore) (below : Bool) :
    Script → PrivateExecutionOracle → List Step
  | .done, _ => []
  | .failed _, _ => []
  | .foreign handler args rest, oracle =>
    (if below then [.foreign oracle handler args] else []) ++
      match oracle.handleForeignCall crypto args handler with
      | .error _ => []
      | .ok (_, next) => staticSteps crypto contracts below rest next
  | .callPrivate args body output rest, oracle =>
    (if below then [.called oracle args] else []) ++
      match oracle.enter crypto contracts args with
      | .error _ => []
      | .ok (.handled _ next) => staticSteps crypto contracts below rest next
      | .ok (.entered call) =>
        staticSteps crypto contracts (below || call.isStatic) body (oracle.nested call) ++
          match body.execute crypto contracts (oracle.nested call) with
          | .error _ => []
          | .ok inner =>
            (if below || call.isStatic then [.returned oracle call output inner] else []) ++
              staticSteps crypto contracts below rest (oracle.merge crypto call output inner).2

namespace StaticCalls
variable {crypto : Crypto} {contracts : ContractStore} {script : Script}
variable {oracle next final : PrivateExecutionOracle} {args : Args} {trace : List Step}

theorem unchanged_refl (oracle : PrivateExecutionOracle) : oracle.Unchanged oracle :=
  ⟨rfl, rfl, rfl, rfl, ⟨[], (List.append_nil _).symm, by simp⟩, fun _ held => .inl held⟩

theorem unchanged_trans (first : oracle.Unchanged next) (second : next.Unchanged final) :
    oracle.Unchanged final := by
  obtain ⟨added, asked, static⟩ := first.requests
  obtain ⟨more, askedMore, staticMore⟩ := second.requests
  refine ⟨second.noteHashes.trans first.noteHashes, second.nullifiers.trans first.nullifiers,
    second.privateLogs.trans first.privateLogs,
    second.contractClassLogs.trans first.contractClassLogs, ⟨added ++ more, ?_, ?_⟩, ?_⟩
  · rw [askedMore, asked, List.append_assoc]
  · intro request inside
    rcases List.mem_append.mp inside with early | late
    · exact static request early
    · exact staticMore request late
  · intro request held
    rcases second.teardown request held with earlier | flagged
    · exact first.teardown request earlier
    · exact .inr flagged

/-- A static call's successful foreign call leaves it unchanged. -/
private theorem unchanged_handled {handler : Handler} (static : oracle.callIsStatic = true)
    (stays : (Step.foreign oracle handler args).StaysStatic)
    (done : oracle.Handled crypto args handler next) : oracle.Unchanged next := by
  cases done with
  | createdNote writable => simp [static] at writable
  | nullifiedNote writable => simp [static] at writable
  | createdNullifier writable => simp [static] at writable
  | privateLog writable => simp [static] at writable
  | classLog writable => simp [static] at writable
  | enqueued =>
    have flagged := stays static rfl
    refine ⟨rfl, rfl, rfl, rfl, ⟨[oracle.enqueuedRequest args], rfl, ?_⟩, fun _ held => .inl held⟩
    intro request inside
    rw [List.mem_singleton.mp inside]
    exact flagged
  | teardown =>
    have flagged := stays static rfl
    refine ⟨rfl, rfl, rfl, rfl, ⟨[], (List.append_nil _).symm, by simp⟩, ?_⟩
    intro request held
    rw [← Option.some.inj held]
    exact .inr flagged
  | _ => exact ⟨rfl, rfl, rfl, rfl, ⟨[], (List.append_nil _).symm, by simp⟩, fun _ held => .inl held⟩

/-- The flag of a nested call is the one its caller passes. -/
private theorem flag_of_readCall {call : NestedCall} (read : oracle.readCall args = .ok call) :
    call.isStatic = args.flag 4 := by
  unfold readCall at read
  split at read
  · cases read
  · cases read
  · cases read
  · cases read
    rfl

/-- A static call passes the flag on. -/
private theorem passed_on {call : NestedCall} (static : oracle.callIsStatic = true)
    (stays : (Step.called oracle args).StaysStatic)
    (entered : oracle.enter crypto contracts args = .ok (.entered call)) :
    call.isStatic = true := by
  suffices read : oracle.readCall args = .ok call by
    rw [flag_of_readCall read]
    exact stays static
  unfold enter at entered
  split at entered
  · cases entered
  next read =>
    split at entered
    · cases entered
    · cases entered
    · split at entered
      · cases entered
      · cases entered
        exact read

/-- A static call that passes the flag on is handled by no registry. -/
private theorem not_published {answer : Answer} (static : oracle.callIsStatic = true)
    (stays : (Step.called oracle args).StaysStatic)
    (published : oracle.enter crypto contracts args = .ok (.handled answer next)) : False := by
  obtain ⟨call, read, writable, -⟩ := enter_handled published
  have passed : args.flag 4 = true := stays static
  rw [flag_of_readCall read, passed] at writable
  cases writable

section Fresh
variable {fresh final : PrivateExecutionOracle}

/-- An oracle that had no public call requests has static ones only. -/
private theorem static_requests (unchanged : fresh.Unchanged final)
    (silent : fresh.publicCallRequests = []) :
    ∀ request ∈ final.publicCallRequests, request.isStaticCall = true := by
  obtain ⟨added, asked, static⟩ := unchanged.requests
  rw [silent, List.nil_append] at asked
  rw [asked]
  exact static

private theorem static_teardown (unchanged : fresh.Unchanged final)
    (silent : fresh.publicTeardownCallRequest = none) :
    ∀ request ∈ final.publicTeardownCallRequest, request.isStaticCall = true := by
  intro request held
  rcases unchanged.teardown request held with before | flagged
  · rw [silent] at before
    cases before
  · exact flagged

end Fresh

section Returned
variable {call : NestedCall} {output : AcvmExecutionOutput} {inner : PrivateExecutionOracle}

/-- Nothing comes back from a static call but static public calls. -/
private theorem unchanged_merge (unchanged : (oracle.nested call).Unchanged inner)
    (noNoteHashes : output.noteHashes call.target = [])
    (noLogs : output.privateLogs call.target = []) :
    oracle.Unchanged (oracle.merge crypto call output inner).2 := by
  have noteHashes : inner.noteHashes = oracle.noteHashes := unchanged.noteHashes
  have nullifiers : inner.nullifiers = oracle.nullifiers := unchanged.nullifiers
  have logs : inner.privateLogs = [] := unchanged.privateLogs
  have classLogs : inner.contractClassLogs = [] := unchanged.contractClassLogs
  refine ⟨?_, ?_, ?_, ?_, ⟨inner.publicCallRequests, ?_, static_requests unchanged rfl⟩, ?_⟩
  · simp [merge, newNoteHashes, noteHashes, noNoteHashes]
  · simp [merge, nullifiers]
  · simp [merge, mergeNestedPrivateLogs, logs, noLogs]
  · simp [merge, classLogs]
  · simp [merge]
  · intro request held
    rcases Option.or_eq_some_iff.mp held with fromInner | ⟨-, own⟩
    · exact .inr (static_teardown unchanged rfl request fromInner)
    · exact .inl own

/-- The result of a static call is quiet. -/
private theorem quiet_nestedResult (unchanged : (oracle.nested call).Unchanged inner)
    (noLogs : output.privateLogs call.target = []) :
    (oracle.nestedResult call output inner).toCallEffects.Quiet := by
  have noteHashes : inner.noteHashes = oracle.noteHashes := unchanged.noteHashes
  have nullifiers : inner.nullifiers = oracle.nullifiers := unchanged.nullifiers
  have logs : inner.privateLogs = [] := unchanged.privateLogs
  have classLogs : inner.contractClassLogs = [] := unchanged.contractClassLogs
  refine ⟨?_, ?_, ?_, classLogs, static_requests unchanged rfl, static_teardown unchanged rfl⟩
  · simp [nestedResult, newNoteHashes, noteHashes]
  · simp [nestedResult, nullifiers]
  · simp [nestedResult, mergeNestedPrivateLogs, logs, noLogs]

end Returned

/-- Every result of a list and of the calls below it is quiet. -/
def AllQuiet (results : List PrivateCallExecutionResult) : Prop :=
  ∀ result ∈ PrivateCallExecutionResult.collectNested results, result.toCallEffects.Quiet

private theorem allQuiet_append {first second : List PrivateCallExecutionResult}
    (before : AllQuiet first) (after : AllQuiet second) : AllQuiet (first ++ second) := by
  unfold AllQuiet at before after ⊢
  rw [PrivateCallExecutionResult.collectNested_eq] at before after ⊢
  intro result inside
  rw [List.flatMap_append] at inside
  rcases List.mem_append.mp inside with early | late
  · exact before result early
  · exact after result late

private theorem allQuiet_singleton {result : PrivateCallExecutionResult} :
    AllQuiet [result] ↔ ∀ call ∈ result.collectCalls, call.toCallEffects.Quiet := by
  unfold AllQuiet
  simp [PrivateCallExecutionResult.collectNested_eq]

private theorem allQuiet_call {result : PrivateCallExecutionResult}
    (own : result.toCallEffects.Quiet) (below : AllQuiet result.nestedExecutionResults) :
    ∀ call ∈ result.collectCalls, call.toCallEffects.Quiet := by
  intro call inside
  rw [PrivateCallExecutionResult.collectCalls_eq] at inside
  rcases List.mem_cons.mp inside with rfl | nested
  · exact own
  · exact below call nested

open Script in
/-- A static call whose steps all stay static ends unchanged, and so does every
call below it. -/
theorem unchanged_of_runs (runs : Runs crypto contracts script oracle trace final)
    (stays : ∀ step ∈ trace, step.StaysStatic) (static : oracle.callIsStatic = true)
    (quiet : AllQuiet oracle.nestedResults) :
    oracle.Unchanged final ∧ AllQuiet final.nestedResults := by
  induction runs with
  | @done oracle => exact ⟨unchanged_refl oracle, quiet⟩
  | @foreign oracle next final handler args answer rest trace handled later ih =>
    have done := handled_of_ok handled
    obtain ⟨unchanged, quietAfter⟩ := ih (fun step inside => stays step (.tail _ inside))
      ((callIsStatic_handled done).trans static)
      (by rw [nestedResults_handled done]; exact quiet)
    exact ⟨unchanged_trans (unchanged_handled static (stays _ List.mem_cons_self) done) unchanged,
      quietAfter⟩
  | handled protocol later ih =>
    exact (not_published static (stays _ List.mem_cons_self) protocol).elim
  | @entered oracle inner final args call body rest output inside after enters below later inIh ih =>
    have passed := passed_on static (stays _ List.mem_cons_self) enters
    obtain ⟨noNoteHashes, noLogs⟩ := stays (.returned oracle call output inner) (by simp) passed
    obtain ⟨innerUnchanged, innerQuiet⟩ := inIh (fun step held => stays step (by simp [held]))
      passed (by intro result none; cases none)
    have own : (oracle.nestedResult call output inner).toCallEffects.Quiet :=
      quiet_nestedResult innerUnchanged noLogs
    have merged : oracle.Unchanged (oracle.merge crypto call output inner).2 :=
      unchanged_merge innerUnchanged noNoteHashes noLogs
    obtain ⟨unchanged, quietAfter⟩ := ih (fun step held => stays step (by simp [held])) static
      (allQuiet_append quiet (allQuiet_singleton.mpr (allQuiet_call own innerQuiet)))
    exact ⟨unchanged_trans merged unchanged, quietAfter⟩

open Script in
/-- Wherever a static call returns, its caller is unchanged and its result and
the results below it are quiet. -/
theorem returned_of_runs (runs : Runs crypto contracts script oracle trace final)
    (stays : ∀ step ∈ trace, step.StaysStatic)
    {caller inner : PrivateExecutionOracle} {call : NestedCall} {output : AcvmExecutionOutput}
    (returned : .returned caller call output inner ∈ trace) (static : call.isStatic = true) :
    caller.Unchanged (caller.merge crypto call output inner).2 ∧
      ∀ result ∈ (caller.nestedResult call output inner).collectCalls,
        result.toCallEffects.Quiet := by
  induction runs with
  | done => cases returned
  | foreign handled later ih =>
    rcases List.mem_cons.mp returned with same | inside
    · cases same
    · exact ih (fun step held => stays step (.tail _ held)) inside
  | handled protocol later ih =>
    rcases List.mem_cons.mp returned with same | inside
    · cases same
    · exact ih (fun step held => stays step (.tail _ held)) inside
  | @entered oracle innerHere final args callHere body rest outputHere inside after enters below
      later inIh ih =>
    rcases List.mem_cons.mp returned with same | held
    · cases same
    rcases List.mem_append.mp held with early | late
    · exact inIh (fun step held => stays step (by simp [held])) early
    rcases List.mem_cons.mp late with same | afterwards
    · cases same
      obtain ⟨noNoteHashes, noLogs⟩ := stays (.returned caller call output inner) (by simp) static
      obtain ⟨unchanged, quiet⟩ := unchanged_of_runs below
        (fun step held => stays step (by simp [held])) static (by intro result none; cases none)
      exact ⟨unchanged_merge unchanged noNoteHashes noLogs,
        allQuiet_call (quiet_nestedResult unchanged noLogs) quiet⟩
    · exact ih (fun step held => stays step (by simp [held])) afterwards

private theorem no_attempt_handled {handler : Handler} (static : oracle.callIsStatic = true)
    (stays : (Step.foreign oracle handler args).StaysStatic)
    (done : oracle.Handled crypto args handler next) :
    ¬ (Step.foreign oracle handler args).Attempts crypto contracts := by
  rintro (records | ⟨enqueues, unflagged⟩)
  · cases done with
    | createdNote writable => simp [static] at writable
    | nullifiedNote writable => simp [static] at writable
    | createdNullifier writable => simp [static] at writable
    | privateLog writable => simp [static] at writable
    | classLog writable => simp [static] at writable
    | _ => cases records
  · rw [stays static enqueues] at unflagged
    cases unflagged

open Script in
/-- A run that succeeds attempted nothing below a static call. -/
theorem no_attempt_of_runs {below : Bool} (runs : Runs crypto contracts script oracle trace final)
    (stays : ∀ step ∈ trace, step.StaysStatic) (flagged : below = true → oracle.callIsStatic = true) :
    ∀ step ∈ script.staticSteps crypto contracts below oracle,
      ¬ step.Attempts crypto contracts := by
  induction runs generalizing below with
  | done =>
    intro step inside
    cases inside
  | @foreign oracle next final handler args answer rest trace handled later ih =>
    intro step inside
    simp only [staticSteps, handled] at inside
    have done := handled_of_ok handled
    rcases List.mem_append.mp inside with here | afterwards
    · split at here
      next under =>
        rw [List.mem_singleton.mp here]
        exact no_attempt_handled (flagged under) (stays _ List.mem_cons_self) done
      · cases here
    · refine ih (fun step held => stays step (.tail _ held)) (fun under => ?_) step afterwards
      rw [callIsStatic_handled done]
      exact flagged under
  | @handled oracle next final args answer body rest output trace protocol later ih =>
    intro step inside
    have outside : below = false := by
      cases under : below with
      | false => rfl
      | true => exact (not_published (flagged under) (stays _ List.mem_cons_self) protocol).elim
    simp only [staticSteps, protocol, outside] at inside
    have untold : false = true → next.callIsStatic = true := fun under => by cases under
    exact ih (fun step held => stays step (.tail _ held)) untold step (by simpa using inside)
  | @entered oracle inner final args call body rest output inside after enters within later inIh ih =>
    intro step held
    have ran := execute_of_runs within
    simp only [staticSteps, enters, ran] at held
    have passed : (below || call.isStatic) = true → call.isStatic = true := by
      intro either
      cases under : below with
      | false => simpa [under] using either
      | true => exact passed_on (flagged under) (stays _ List.mem_cons_self) enters
    simp only [List.mem_append] at held
    rcases held with here | early | returned | late
    · split at here
      next under =>
        rw [List.mem_singleton.mp here]
        rintro ⟨answer, next, published⟩
        rw [enters] at published
        cases published
      · cases here
    · exact inIh (fun step held => stays step (by simp [held])) passed step early
    · split at returned
      next under =>
        rw [List.mem_singleton.mp returned]
        obtain ⟨noNoteHashes, noLogs⟩ :=
          stays (.returned oracle call output inner) (by simp) (passed under)
        rintro (noteHashes | logs)
        · exact noteHashes noNoteHashes
        · exact logs noLogs
      · cases returned
    · exact ih (fun step held => stays step (by simp [held])) flagged step late

section Root
open EmbeddedPxe

/-- What the root must do by itself: a top-level call of a static function is
made statically, and the circuit of a static call has no effects of its own. -/
def RootStaysStatic (root : Root) (function : PrivateFunction) (output : AcvmExecutionOutput) :
    Prop :=
  match root with
  | .entrypoint .. => True
  | .topLevel call _ _ => (function.isStatic = true → call.isStatic = true) ∧
      (call.isStatic = true →
        output.noteHashes call.toAddress = [] ∧ output.privateLogs call.toAddress = [])

/-- The result of a call that ran unchanged from a fresh oracle is quiet. -/
private theorem quiet_root {call : DecodedEntrypointCall} {origin : AztecAddress}
    {protocolNullifier : Fr} {function : PrivateFunction} {output : AcvmExecutionOutput}
    (unchanged : (callOracle call origin protocolNullifier).Unchanged final)
    (noNoteHashes : output.noteHashes call.toAddress = [])
    (noLogs : output.privateLogs call.toAddress = []) :
    (privateCallBundle call origin function output
      final).executionResult.entrypoint.toCallEffects.Quiet := by
  have noteHashes : final.noteHashes = [] := unchanged.noteHashes
  have logs : final.privateLogs = [] := unchanged.privateLogs
  refine ⟨?_, unchanged.nullifiers, ?_, unchanged.contractClassLogs,
    static_requests unchanged rfl, static_teardown unchanged rfl⟩
  · simp [privateCallBundle, privateCallResult, buildExecutionResult, noteHashes, noNoteHashes]
  · simp [privateCallBundle, privateCallResult, buildExecutionResult, logs, noLogs]

variable (crypto contracts)

/-- Static calls bind everything below them. If the execution succeeds, no call
of a static root recorded a change, and a static nested call brought its caller
none; and an attempt at or below a static call is an error. -/
def Hereditary (root : Root) (function : PrivateFunction) (script : Script)
    (output : AcvmExecutionOutput) : Prop :=
  (∀ final, script.execute crypto contracts root.oracle = .ok final →
    let result := (root.bundle function output final).executionResult
    (root.oracle.callIsStatic = true ∨ result.entrypoint.callContext.isStaticCall = true →
      ∀ call ∈ result.iterAllCalls, call.toCallEffects.Quiet) ∧
    ∀ caller call circuit inner,
      .returned caller call circuit inner ∈ script.steps crypto contracts root.oracle →
      call.isStatic = true →
        caller.Unchanged (caller.merge crypto call circuit inner).2 ∧
          ∀ below ∈ (caller.nestedResult call circuit inner).collectCalls,
            below.toCallEffects.Quiet) ∧
  ∀ step ∈ script.staticSteps crypto contracts root.oracle.callIsStatic root.oracle,
    step.Attempts crypto contracts → ∃ e, script.execute crypto contracts root.oracle = .error e

/-- Static calls bind everything below them in every run in which a static call
itself stays static: it passes the flag on, enqueues static public calls only
and its circuit has no effects of its own. -/
theorem static_calls_hereditary (root : Root) (function : PrivateFunction) (script : Script)
    (output : AcvmExecutionOutput) (rootStays : RootStaysStatic root function output)
    (stays : ∀ step ∈ script.steps crypto contracts root.oracle, step.StaysStatic) :
    Hereditary crypto contracts root function script output := by
  refine ⟨?_, ?_⟩
  · intro final ran
    have runs := Script.runs_of_execute ran
    refine ⟨?_, fun caller call circuit inner => returned_of_runs runs stays⟩
    intro static
    cases root with
    | entrypoint origin protocolNullifier argsOfCalls capsules =>
      rcases static with flagged | flagged
      · cases flagged
      · cases flagged
    | topLevel call origin protocolNullifier =>
      have flagged : call.isStatic = true := by
        rcases static with flagged | contextFlag
        · exact flagged
        · exact rootStays.1 contextFlag
      obtain ⟨noNoteHashes, noLogs⟩ := rootStays.2 flagged
      obtain ⟨unchanged, quiet⟩ := unchanged_of_runs runs stays flagged
        (by intro result none; cases none)
      exact allQuiet_call (quiet_root unchanged noNoteHashes noLogs) quiet
  · intro step below attempts
    cases ran : script.execute crypto contracts root.oracle with
    | error e => exact ⟨e, rfl⟩
    | ok final =>
      have none := no_attempt_of_runs (Script.runs_of_execute ran) stays id step below
      exact (none attempts).elim

/-- An account that calls statically, asks for a static public call below, and
makes a note itself. -/
def staticReader : Script :=
  .callPrivate [[20], [5], [0], [2], [1]]
    (.callPrivate [[21], [5], [0], [2], [1]]
      (.foreign .notifyEnqueuedPublicFunctionCall [[30], [0], [3], [1]] .done) {} .done) {}
    (.foreign .notifyCreatedNote [[1], [2], [3], [4], [], [9], [5]] .done)

/-- The static calls of that account bind what is below them. -/
theorem staticReader_hereditary :
    Hereditary .zero (.one (.fromField 5)) (.entrypoint ⟨8⟩ 1 [] []) ⟨none, false, 0⟩ staticReader
      {} := by
  apply static_calls_hereditary
  · exact trivial
  · decide

/-- A static call whose circuit makes a call that is not static, which makes a
note. -/
def staticCallDropsFlag : Script :=
  .callPrivate [[20], [5], [0], [2], [1]]
    (.callPrivate [[21], [5], [0], [2], [0]]
      (.foreign .notifyCreatedNote [[1], [2], [3], [4], [], [9], [5]] .done) {} .done) {} .done

/-- The note below that static call is recorded. -/
theorem note_below_static_call :
    ¬ Hereditary .zero (.one (.fromField 5)) (.entrypoint ⟨8⟩ 1 [] []) ⟨none, false, 0⟩
      staticCallDropsFlag {} := by
  rintro ⟨-, refused⟩
  have made : ∃ step ∈ staticCallDropsFlag.staticSteps .zero (.one (.fromField 5)) false
      (entrypointOracle ⟨8⟩ 1 [] []), step.Attempts .zero (.one (.fromField 5)) :=
    ⟨_, .tail _ (.head _), .inl rfl⟩
  obtain ⟨step, inside, attempts⟩ := made
  obtain ⟨e, failed⟩ := refused step inside attempts
  cases failed

end Root

end StaticCalls

end AztecPxe
