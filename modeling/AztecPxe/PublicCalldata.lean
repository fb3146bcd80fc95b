import AztecPxe.NestedMerge
import AztecPxe.RevertiblePhase

/-! The calldata `prove_tx` returns beside the public call requests of the kernel
output. Calldata is collected in the order in which the calls are enqueued; the
requests come out by counter, the teardown last. `prove_tx` sorts the calldata
by pairing it with requests that are sorted already, which moves nothing, so
the two agree as long as calls are enqueued in the order of their counters and
the teardown after all others. -/
namespace AztecPxe
open PrivateExecutionOracle Script SimulatedKernel

namespace Step

/-- The public call a step enqueues, and whether as the teardown. -/
def publicCalls : Step → List (PublicCallRequestData × Bool)
  | .foreign oracle .notifyEnqueuedPublicFunctionCall args => [(oracle.enqueuedRequest args, false)]
  | .foreign oracle .notifySetPublicTeardownFunctionCall args =>
    [(oracle.enqueuedRequest args, true)]
  | _ => []

/-- The teardown call a step sets. -/
def teardowns (step : Step) : List PublicCallRequestData :=
  (step.publicCalls.filter (·.2)).map Prod.fst

/-- The calldata of the call a step enqueues is in the cache, under its hash. -/
def Cached (crypto : Crypto) (step : Step) : Prop :=
  ∀ call ∈ step.publicCalls, ∃ values ∈ step.oracle.executionCache[call.1.calldataHash]?,
    Hash.computeCalldataHash crypto.poseidon2 values = call.1.calldataHash

instance (crypto : Crypto) (step : Step) : Decidable (step.Cached crypto) :=
  inferInstanceAs (Decidable (∀ call ∈ step.publicCalls,
    ∃ values ∈ step.oracle.executionCache[call.1.calldataHash]?,
      Hash.computeCalldataHash crypto.poseidon2 values = call.1.calldataHash))

end Step

/-- `MAX_FR_CALLDATA_TO_ALL_ENQUEUED_CALLS`. -/
def maxFrCalldataToAllEnqueuedCalls : Nat := 12288

/-- `TypedTx::get_total_public_calldata_count`. -/
def totalPublicCalldataCount (calldata : List HashedValues) : Nat :=
  (calldata.map (·.values.length)).sum

/-- The first request whose calldata does not hash to its hash. -/
def mismatchedCall (poseidon2 : List Fr → Fr) (calls : List (PublicCallRequest × HashedValues)) :
    Option PublicCallRequest :=
  (calls.find? (fun entry =>
    Hash.computeCalldataHash poseidon2 entry.2.values ≠ entry.1.calldataHash)).map Prod.fst

/-- `validation.rs::validate_calldata`, on the parts of the transaction it reads. -/
def validateCalldata (poseidon2 : List Fr → Fr) (data : PrivateKernelTailPublicInputs)
    (calldata : List HashedValues) : Except Error Unit :=
  if calldata.length ≠ data.numberOfPublicCalls then
    .error (.invalidData ("TX_ERROR_CALLDATA_COUNT_MISMATCH: expected " ++
      toString data.numberOfPublicCalls ++ " calldata entries, got " ++ toString calldata.length))
  else if maxFrCalldataToAllEnqueuedCalls < totalPublicCalldataCount calldata then
    .error (.invalidData ("TX_ERROR_CALLDATA_COUNT_TOO_LARGE: total calldata fields " ++
      toString (totalPublicCalldataCount calldata) ++ " exceeds max " ++
      toString maxFrCalldataToAllEnqueuedCalls))
  else match mismatchedCall poseidon2 (data.getAllPublicCallRequests.zip calldata) with
    | some request => .error (.invalidData (
        "TX_ERROR_INCORRECT_CALLDATA: calldata hash mismatch for call to " ++
          hex32 request.contractAddress.inner.val))
    | none => .ok ()

/-- `sorted_calldata` of `prove_tx`. -/
def sortedCalldata (requests : List PublicCallRequestData) (calldata : List HashedValues) :
    List HashedValues :=
  if requests.length = calldata.length ∧ calldata ≠ [] then
    (sortByCounter (fun entry => entry.1.counter) (requests.zip calldata)).map Prod.snd
  else calldata

namespace PublicCalldata

/-- Of two calls in the order of enqueueing, the first is no teardown, and the
counters ascend unless the second is. -/
def InOrder (a b : PublicCallRequestData × Bool) : Prop :=
  a.2 = false ∧ (b.2 = false → a.1.counter < b.1.counter)

instance : DecidableRel InOrder := fun a b =>
  inferInstanceAs (Decidable (a.2 = false ∧ (b.2 = false → a.1.counter < b.1.counter)))

/-- The calldata is that of the requests, in their order, and passes the node's
validation. -/
structure LinesUp (poseidon2 : List Fr → Fr) (output : PrivateKernelTailPublicInputs)
    (calldata : List HashedValues) : Prop where
  length : calldata.length = output.getAllPublicCallRequests.length
  hashes : ∀ (i : Nat) request hashed, output.getAllPublicCallRequests[i]? = some request →
    calldata[i]? = some hashed →
      Hash.computeCalldataHash poseidon2 hashed.values = request.calldataHash
  valid : validateCalldata poseidon2 output calldata = .ok ()

section Kernel
variable {poseidon2 : List Fr → Fr} {result : PrivateExecutionResult} {feePayer : Fr}
variable {expirationTimestamp : Nat} {output : PrivateKernelTailPublicInputs}

/-- Sorting pairs by the counters of requests that ascend moves nothing. -/
theorem sortedCalldata_eq (result : PrivateExecutionResult) (calldata : List HashedValues) :
    sortedCalldata result.allPublicCallRequests calldata = calldata := by
  unfold sortedCalldata
  split
  next both =>
    have sorted : sortByCounter (fun entry : PublicCallRequestData × HashedValues =>
        entry.1.counter) (result.allPublicCallRequests.zip calldata) =
          result.allPublicCallRequests.zip calldata := by
      apply List.Pairwise.insertionSort_eq
      have ascends : (result.allPublicCallRequests.map (·.counter)).Pairwise (· < ·) :=
        FirstWins.numbers_ascend _
      have firsts : ((result.allPublicCallRequests.zip calldata).map Prod.fst) =
          result.allPublicCallRequests := List.map_fst_zip (Nat.le_of_eq both.1)
      rw [← firsts, List.map_map, List.pairwise_map] at ascends
      exact ascends.imp Nat.le_of_lt
    rw [sorted]
    exact List.map_snd_zip (Nat.le_of_eq both.1.symm)
  · rfl

/-- What ascends and is split at a boundary is put together again by joining. -/
private theorem filter_append_filter {α : Type} {number : α → Nat} (boundary : Nat)
    {items : List α} (ascending : items.Pairwise (fun a b => number a < number b)) :
    items.filter (fun item => not (decide (boundary ≤ number item))) ++
      items.filter (fun item => id (decide (boundary ≤ number item))) = items := by
  induction items with
  | nil => rfl
  | cons item rest ih =>
    obtain ⟨first, others⟩ := List.pairwise_cons.mp ascending
    by_cases above : boundary ≤ number item
    · have none : rest.filter (fun item => not (decide (boundary ≤ number item))) = [] := by
        apply List.filter_eq_nil_iff.mpr
        intro other inside
        have later := first other inside
        simp only [Bool.not_eq_true', decide_eq_false_iff_not, not_not]
        omega
      have all := ih others
      rw [none, List.nil_append] at all
      simp only [above, List.filter_cons, decide_true, Bool.not_true, Bool.false_eq_true, if_false,
        id, if_true, none, List.nil_append]
      exact congrArg _ all
    · simp only [above, List.filter_cons, decide_false, Bool.not_false, if_true, id,
        Bool.false_eq_true, if_false, List.cons_append]
      exact congrArg _ (ih others)

private theorem filter_padTo (requests : List PublicCallRequest) (len : Nat) :
    (padTo {} len requests).filter (!·.isEmpty) = requests.filter (!·.isEmpty) := by
  unfold padTo
  rw [List.filter_append]
  have none : (List.replicate (len - requests.length) ({} : PublicCallRequest)).filter
      (!·.isEmpty) = [] := by
    apply List.filter_eq_nil_iff.mpr
    intro request inside
    rw [List.eq_of_mem_replicate inside]
    decide
  rw [none, List.append_nil]

/-- The requests of the kernel output: those collected, by counter, then the
teardown, less those to the zero address. -/
theorem getAllPublicCallRequests_process
    (processed : process poseidon2 result feePayer expirationTimestamp = .ok output) :
    output.getAllPublicCallRequests = ((result.allPublicCallRequests ++
      result.getTeardownCallRequest.toList).map publicCallRequest).filter (!·.isEmpty) := by
  unfold process at processed
  split at processed
  next privateOnly =>
    rw [isPrivateOnly, Bool.and_eq_true, List.isEmpty_iff, Option.isNone_iff_eq_none] at privateOnly
    rw [privateOnly.1, privateOnly.2, ← Except.ok.inj processed]
    rfl
  next isPublic =>
    rw [← Except.ok.inj processed]
    have joined := filter_append_filter result.entrypoint.minRevertibleSideEffectCounter
      (FirstWins.ascends PublicCallRequestData.counter
        (result.iterAllCalls.flatMap (·.publicCallRequests)))
    have calls : ((result.allPublicCallRequests.filter (fun request =>
          not (decide (result.entrypoint.minRevertibleSideEffectCounter ≤ request.counter)))).map
            publicCallRequest).filter (!·.isEmpty) ++
        ((result.allPublicCallRequests.filter (fun request =>
          id (decide (result.entrypoint.minRevertibleSideEffectCounter ≤ request.counter)))).map
            publicCallRequest).filter (!·.isEmpty) =
        (result.allPublicCallRequests.map publicCallRequest).filter (!·.isEmpty) := by
      rw [← List.filter_append, ← List.map_append]
      exact congrArg (fun items => (items.map publicCallRequest).filter (!·.isEmpty)) joined
    have teardown : (if ((result.getTeardownCallRequest.map publicCallRequest).getD {}).isEmpty
        then [] else [(result.getTeardownCallRequest.map publicCallRequest).getD {}]) =
        (result.getTeardownCallRequest.toList.map publicCallRequest).filter (!·.isEmpty) := by
      cases result.getTeardownCallRequest with
      | none => rfl
      | some request =>
        simp only [Option.map_some, Option.getD_some, Option.toList_some, List.map_cons,
          List.map_nil, List.filter_cons, List.filter_nil]
        cases (publicCallRequest request).isEmpty <;> rfl
    simp only [PrivateKernelTailPublicInputs.getAllPublicCallRequests, forPublic, accumulated,
      survivors_eq, splitByCounter_eq, filter_padTo]
    rw [calls, teardown, List.map_append, List.filter_append]

private theorem numberOfPublicCalls_eq (inputs : PrivateKernelTailPublicInputs) :
    inputs.numberOfPublicCalls = inputs.getAllPublicCallRequests.length := by
  unfold PrivateKernelTailPublicInputs.numberOfPublicCalls
    PrivateKernelTailPublicInputs.getAllPublicCallRequests
  cases inputs.forPublic with
  | none => rfl
  | some sections =>
    simp only [List.length_append, List.countP_eq_length_filter]
    congr 1
    split <;> rfl

/-- Calldata whose hashes are those of the requests lines up with them. -/
theorem linesUp_of_hashes {calldata : List HashedValues}
    (same : calldata.map (fun hashed => Hash.computeCalldataHash poseidon2 hashed.values) =
      output.getAllPublicCallRequests.map (·.calldataHash))
    (fits : totalPublicCalldataCount calldata ≤ maxFrCalldataToAllEnqueuedCalls) :
    LinesUp poseidon2 output calldata := by
  have lengths : calldata.length = output.getAllPublicCallRequests.length := by
    simpa using congrArg List.length same
  have hashes : ∀ (i : Nat) request hashed, output.getAllPublicCallRequests[i]? = some request →
      calldata[i]? = some hashed →
        Hash.computeCalldataHash poseidon2 hashed.values = request.calldataHash := by
    intro i request hashed asked given
    have both := congrArg (fun hashes => hashes[i]?) same
    simpa [asked, given] using both
  refine ⟨lengths, hashes, ?_⟩
  have matched : mismatchedCall poseidon2 (output.getAllPublicCallRequests.zip calldata) = none := by
    unfold mismatchedCall
    rw [Option.map_eq_none_iff, List.find?_eq_none]
    intro entry inside
    obtain ⟨i, found⟩ := List.getElem?_of_mem inside
    obtain ⟨asked, given⟩ := List.getElem?_zip_eq_some.mp found
    simpa using hashes i entry.1 entry.2 asked given
  unfold validateCalldata
  rw [numberOfPublicCalls_eq, if_neg (not_not.mpr lengths), if_neg (Nat.not_lt.mpr fits), matched]

end Kernel

/-- What a bundle holds of the public calls of its tree, which are given in the
order of enqueueing. -/
structure Holds (poseidon2 : List Fr → Fr) (bundle : CallExecutionBundle)
    (calls : List (PublicCallRequestData × Bool)) : Prop where
  requests : bundle.executionResult.allPublicCallRequests = (calls.filter (!·.2)).map Prod.fst
  teardown : bundle.executionResult.getTeardownCallRequest.toList =
    (calls.filter (·.2)).map Prod.fst
  calldata : bundle.publicFunctionCalldata.map (fun hashed =>
    Hash.computeCalldataHash poseidon2 hashed.values) = calls.map (·.1.calldataHash)

section Order
variable {calls : List (PublicCallRequestData × Bool)}

/-- Calls in order have at most one teardown among them. -/
private theorem length_teardowns (ordered : calls.Pairwise InOrder) :
    ((calls.filter (·.2)).map Prod.fst).length ≤ 1 := by
  rw [List.length_map]
  cases found : calls.filter (·.2) with
  | nil => exact Nat.zero_le _
  | cons first rest =>
    cases rest with
    | nil => exact Nat.le_refl _
    | cons second rest =>
      have pair := ordered.filter (·.2)
      rw [found] at pair
      have later := (List.pairwise_cons.mp pair).1 second List.mem_cons_self
      have flagged : first ∈ calls.filter (·.2) := by rw [found]; exact List.mem_cons_self
      have set : first.2 = true := by simpa using (List.mem_filter.mp flagged).2
      rw [later.1] at set
      cases set

private theorem requests_ascend (ordered : calls.Pairwise InOrder) :
    ((calls.filter (!·.2)).map Prod.fst).Pairwise (fun a b => a.counter < b.counter) := by
  rw [List.pairwise_map, List.pairwise_filter]
  refine ordered.imp ?_
  intro a b both _ plain
  exact both.2 (by simpa using plain)

/-- The teardown, if there is one, comes after all other calls. -/
private theorem split_calls (ordered : calls.Pairwise InOrder) :
    calls.filter (!·.2) ++ calls.filter (·.2) = calls := by
  induction calls with
  | nil => rfl
  | cons call rest ih =>
    obtain ⟨first, others⟩ := List.pairwise_cons.mp ordered
    cases rest with
    | nil =>
      obtain ⟨request, flag⟩ := call
      cases flag <;> rfl
    | cons next rest =>
      have plain := (first next List.mem_cons_self).1
      have kept : (call :: next :: rest).filter (!·.2) = call :: (next :: rest).filter (!·.2) :=
        List.filter_cons_of_pos (by simp [plain])
      have dropped : (call :: next :: rest).filter (·.2) = (next :: rest).filter (·.2) :=
        List.filter_cons_of_neg (by simp [plain])
      rw [kept, dropped, List.cons_append]
      exact congrArg _ (ih others)

end Order

section Tree
variable {crypto : Crypto} {contracts : ContractStore} {root : EmbeddedPxe.Root}
variable {function : PrivateFunction} {output : AcvmExecutionOutput} {script : Script}
variable {trace : List Step} {oracle final : PrivateExecutionOracle}

private theorem requests_eq (step : Step) :
    step.requests = (step.publicCalls.filter (!·.2)).map Prod.fst := by
  cases step with
  | foreign oracle handler args => cases handler <;> rfl
  | called oracle args => rfl
  | returned oracle call output inner => rfl

private theorem flatMap_requests (trace : List Step) : trace.flatMap Step.requests =
    ((trace.flatMap Step.publicCalls).filter (!·.2)).map Prod.fst := by
  induction trace with
  | nil => rfl
  | cons step rest ih =>
    rw [List.flatMap_cons, List.flatMap_cons, List.filter_append, List.map_append, ih, requests_eq]

private theorem flatMap_teardowns (trace : List Step) : trace.flatMap Step.teardowns =
    ((trace.flatMap Step.publicCalls).filter (·.2)).map Prod.fst := by
  induction trace with
  | nil => rfl
  | cons step rest ih =>
    rw [List.flatMap_cons, List.flatMap_cons, List.filter_append, List.map_append, ih]
    rfl

/-- The calldata a cached call finds hashes to the hash of its request. -/
private theorem calldata_of_cached {step : Step} (cached : step.Cached crypto) :
    (step.calldata crypto).map (fun hashed =>
      Hash.computeCalldataHash crypto.poseidon2 hashed.values) =
        step.publicCalls.map (·.1.calldataHash) := by
  cases step with
  | called oracle args => rfl
  | returned oracle call output inner => rfl
  | foreign oracle handler args =>
    cases handler with
    | notifyEnqueuedPublicFunctionCall =>
      obtain ⟨values, stored, same⟩ := cached _ List.mem_cons_self
      change oracle.executionCache[(oracle.enqueuedRequest args).calldataHash]? = _ at stored
      simp only [Step.calldata, stored]
      exact congrArg (fun hash => [hash]) same
    | notifySetPublicTeardownFunctionCall =>
      obtain ⟨values, stored, same⟩ := cached _ List.mem_cons_self
      change oracle.executionCache[(oracle.enqueuedRequest args).calldataHash]? = _ at stored
      simp only [Step.calldata, stored]
      exact congrArg (fun hash => [hash]) same
    | _ => rfl

private theorem teardown_handled {args : Args} {handler : Handler} {next : PrivateExecutionOracle}
    (done : oracle.Handled crypto args handler next) :
    next.publicTeardownCallRequest =
      (Step.foreign oracle handler args).teardowns.getLast?.or oracle.publicTeardownCallRequest := by
  cases done <;> rfl

/-- An oracle ends with the last teardown set below it. -/
private theorem teardown_of_runs (runs : Runs crypto contracts script oracle trace final) :
    final.publicTeardownCallRequest =
      (trace.flatMap Step.teardowns).getLast?.or oracle.publicTeardownCallRequest := by
  induction runs with
  | done => rfl
  | foreign handled later ih =>
    rw [ih, teardown_handled (handled_of_ok handled), List.flatMap_cons, List.getLast?_append,
      Option.or_assoc]
  | handled protocol later ih =>
    obtain ⟨call, -, -, published⟩ := enter_handled protocol
    rw [ih]
    cases published <;> rfl
  | @entered oracle inner final args call body rest output inside after enters below later inIh ih =>
    have merged : (oracle.merge crypto call output inner).2.publicTeardownCallRequest =
        inner.publicTeardownCallRequest.or oracle.publicTeardownCallRequest := rfl
    have fresh : (oracle.nested call).publicTeardownCallRequest = none := rfl
    rw [ih, merged, inIh, fresh, Option.or_none, List.cons_append, List.flatMap_cons,
      List.flatMap_append, List.flatMap_cons]
    change _ = ([] ++ (inside.flatMap Step.teardowns ++ ([] ++ _))).getLast?.or _
    rw [List.nil_append, List.nil_append, List.getLast?_append, Option.or_assoc]

private theorem findSome?_eq_head? {α β : Type} (f : α → Option β) (items : List α) :
    items.findSome? f = (items.flatMap (fun item => (f item).toList)).head? := by
  induction items with
  | nil => rfl
  | cons item rest ih =>
    rw [List.findSome?_cons, List.flatMap_cons]
    cases f item with
    | none => exact ih
    | some found => rfl

/-- The teardown collected from a tree is the one set in it, if at most one is. -/
private theorem teardown_of_tree (runs : Runs crypto contracts script root.oracle trace final)
    (once : (trace.flatMap Step.teardowns).length ≤ 1) :
    (root.bundle function output final).executionResult.getTeardownCallRequest.toList =
      trace.flatMap Step.teardowns := by
  have own : (root.bundle function output
      final).executionResult.entrypoint.publicTeardownCallRequest =
        (trace.flatMap Step.teardowns).getLast? := by
    have ended := teardown_of_runs runs
    have started : root.oracle.publicTeardownCallRequest = none := by cases root <;> rfl
    have held : (root.bundle function output
        final).executionResult.entrypoint.publicTeardownCallRequest =
          final.publicTeardownCallRequest := by cases root <;> rfl
    rw [held, ended, started, Option.or_none]
  unfold PrivateExecutionResult.getTeardownCallRequest
  rw [findSome?_eq_head?, PrivateExecutionResult.flatMap_iterAllCalls, own]
  rcases Nat.le_one_iff_eq_zero_or_eq_one.mp once with zero | one
  · have nothing := List.eq_nil_of_length_eq_zero zero
    have below : ∀ request ∈ (PrivateCallExecutionResult.collectNested
        (root.bundle function output
          final).executionResult.entrypoint.nestedExecutionResults).flatMap (fun call =>
            call.publicTeardownCallRequest.toList), request ∈ trace.flatMap Step.teardowns := by
      refine NestedMerge.recorded_of_root (fun call => call.publicTeardownCallRequest.toList)
        Step.teardowns (fun bare => by rw [bare.teardown]; rfl) ?_ runs
      intro oracle inner call body output inside below request held
      have ended := teardown_of_runs below
      have fresh : (oracle.nested call).publicTeardownCallRequest = none := rfl
      change request ∈ inner.publicTeardownCallRequest.toList at held
      rw [ended, fresh, Option.or_none, Option.mem_toList] at held
      exact .inl (List.mem_of_getLast? held)
    rw [nothing] at below ⊢
    have silent : (PrivateCallExecutionResult.collectNested (root.bundle function output
        final).executionResult.entrypoint.nestedExecutionResults).flatMap (fun call =>
          call.publicTeardownCallRequest.toList) = [] :=
      List.eq_nil_iff_forall_not_mem.mpr (fun request held => by cases below request held)
    rw [silent]
    rfl
  · obtain ⟨request, only⟩ := List.length_eq_one_iff.mp one
    rw [only]
    rfl

/-- The calldata of a tree is what its steps find in the cache. -/
private theorem calldata_of_tree (runs : Runs crypto contracts script root.oracle trace final) :
    (root.bundle function output final).publicFunctionCalldata =
      trace.flatMap (Step.calldata crypto) := by
  have held : (root.bundle function output final).publicFunctionCalldata =
      final.publicFunctionCalldata := by cases root <;> rfl
  have started : root.oracle.publicFunctionCalldata = [] := by cases root <;> rfl
  have ended : final.publicFunctionCalldata = root.oracle.publicFunctionCalldata ++
      trace.flatMap (Step.calldata crypto) := (Recorder.calldata crypto contracts).of_runs runs
  rw [held, ended, started, List.nil_append]

/-- The bundle of a tree whose calls are cached and in order holds them. -/
private theorem holds_tree (runs : Runs crypto contracts script root.oracle trace final)
    (cached : ∀ step ∈ trace, step.Cached crypto)
    (ordered : (trace.flatMap Step.publicCalls).Pairwise InOrder) :
    Holds crypto.poseidon2 (root.bundle function output final)
      (trace.flatMap Step.publicCalls) where
  requests := by
    have ascending := requests_ascend ordered
    rw [← flatMap_requests] at ascending ⊢
    apply FirstWins.collect_eq_of_ascending ascending
    apply NestedMerge.requests_once runs
    rw [List.nodup_iff_pairwise_ne, List.pairwise_map]
    exact ascending.imp Nat.ne_of_lt
  teardown := by
    rw [← flatMap_teardowns]
    apply teardown_of_tree runs
    rw [flatMap_teardowns]
    exact length_teardowns ordered
  calldata := by
    rw [calldata_of_tree runs, List.map_flatMap, List.map_flatMap]
    apply List.flatMap_congr
    intro step inside
    exact calldata_of_cached (cached step inside)

end Tree

section Calls
open EmbeddedPxe
variable (crypto : Crypto) (contracts : ContractStore) (origin : AztecAddress)
variable (protocolNullifier : Fr)

/-- The public calls of a top-level call, in the order of enqueueing. -/
def callsOf (call : DecodedEntrypointCall) : Target → List (PublicCallRequestData × Bool)
  | .privateFunction _ script _ => (script.steps crypto contracts
      (Root.topLevel call origin protocolNullifier).oracle).flatMap Step.publicCalls
  | .publicFunction selector => (publicCallBundle crypto call origin protocolNullifier
      selector).executionResult.entrypoint.publicCallRequests.map (·, false)
  | _ => []

variable {crypto contracts origin protocolNullifier} {capsules : List Capsule}

/-- Publishing a class makes no public call. -/
private theorem holds_publishClass {call : DecodedEntrypointCall} {bundle : CallExecutionBundle}
    (ran : publishClassBundle crypto call origin protocolNullifier capsules = .ok bundle) :
    Holds crypto.poseidon2 bundle [] := by
  unfold publishClassBundle at ran
  split at ran <;> cases ran
  exact ⟨rfl, rfl, rfl⟩

/-- Publishing an instance makes no public call. -/
private theorem holds_publishInstance {call : DecodedEntrypointCall} {bundle : CallExecutionBundle}
    (ran : publishInstanceBundle crypto call origin protocolNullifier = .ok bundle) :
    Holds crypto.poseidon2 bundle [] := by
  unfold publishInstanceBundle at ran
  split at ran
  · cases ran
  · obtain ⟨instanceAddress, -, rfl⟩ := map_eq_ok ran
    exact ⟨rfl, rfl, rfl⟩

/-- The bundle of a top-level call holds its public calls. -/
private theorem holds_call {call : DecodedEntrypointCall} {target : Target}
    {bundle : CallExecutionBundle}
    (ran : executeEntrypointCallBundle crypto contracts origin protocolNullifier capsules call
      target = .ok bundle)
    (cached : ∀ step ∈ RevertiblePhase.Transaction.callTree crypto contracts origin
      protocolNullifier call target, step.Cached crypto)
    (ordered : (callsOf crypto contracts origin protocolNullifier call target).Pairwise InOrder) :
    Holds crypto.poseidon2 bundle
      (callsOf crypto contracts origin protocolNullifier call target) := by
  cases target with
  | privateFunction function script output =>
    rw [executeEntrypointCallBundle_private] at ran
    obtain ⟨final, executed, rfl⟩ := map_eq_ok ran
    exact holds_tree (runs_of_execute executed) cached ordered
  | publicFunction selector =>
    cases ran
    exact ⟨rfl, rfl, rfl⟩
  | publishClass => exact holds_publishClass ran
  | publishInstance => exact holds_publishInstance ran

/-- The request with its counter shifted. -/
def shiftedCall (offset : Nat) (call : PublicCallRequestData × Bool) :
    PublicCallRequestData × Bool :=
  (EffectKind.publicCallRequests.shift offset call.1, call.2)

private theorem teardowns_aggregate (bundles : List CallExecutionBundle) :
    (aggregateCallBundles origin bundles).executionResult.iterAllCalls.flatMap (fun call =>
        call.publicTeardownCallRequest.toList) =
      (placed bundles).flatMap (fun entry =>
        (entry.1.executionResult.iterAllCalls.flatMap (fun call =>
          call.publicTeardownCallRequest.toList)).map
            (EffectKind.publicCallRequests.shift entry.2)) := by
  have moved : ∀ (offset : Nat) (call : PrivateCallExecutionResult),
      (offsetPrivateCallResult offset call).publicTeardownCallRequest.toList =
        call.publicTeardownCallRequest.toList.map (EffectKind.publicCallRequests.shift offset) := by
    intro offset call
    cases call with
    | mk own nested =>
      change (own.publicTeardownCallRequest.map _).toList = own.publicTeardownCallRequest.toList.map _
      cases own.publicTeardownCallRequest <;> rfl
  rw [iterAllCalls_aggregate, List.flatMap_cons, List.flatMap_assoc]
  change [] ++ _ = _
  rw [List.nil_append]
  apply List.flatMap_congr
  intro entry _
  rw [List.flatMap_map, List.map_flatMap]
  apply List.flatMap_congr
  intro call _
  exact moved entry.2 call

/-- Where at most one of some lists has a first item, it is the first of all. -/
private theorem head?_flatMap {α β : Type} (f : α → List β) {parts : List α}
    (once : (parts.flatMap (fun part => (f part).head?.toList)).length ≤ 1) :
    (parts.flatMap f).head?.toList = parts.flatMap (fun part => (f part).head?.toList) := by
  induction parts with
  | nil => rfl
  | cons part rest ih =>
    rw [List.flatMap_cons, List.length_append] at once
    rw [List.flatMap_cons, List.flatMap_cons]
    cases found : f part with
    | nil => exact ih (by omega)
    | cons first others =>
      rw [found] at once
      have none : rest.flatMap (fun part => (f part).head?.toList) = [] := by
        apply List.eq_nil_of_length_eq_zero
        change 1 + _ ≤ 1 at once
        omega
      rw [none]
      rfl

/-- The public calls of some top-level calls, each shifted with its call. -/
def callsFrom (crypto : Crypto) (contracts : ContractStore) (origin : AztecAddress)
    (protocolNullifier : Fr) (calls : List (DecodedEntrypointCall × Target)) (shifts : List Nat) :
    List (PublicCallRequestData × Bool) :=
  (calls.zip shifts).flatMap (fun entry =>
    (callsOf crypto contracts origin protocolNullifier entry.1.1 entry.1.2).map
      (shiftedCall entry.2))

variable {calls : List (DecodedEntrypointCall × Target)} {shifts : List Nat}

/-- A shift does not turn the order of calls around. -/
private theorem ordered_of_shifted {offset : Nat} {calls : List (PublicCallRequestData × Bool)}
    (ordered : (calls.map (shiftedCall offset)).Pairwise InOrder) : calls.Pairwise InOrder := by
  rw [List.pairwise_map] at ordered
  refine ordered.imp ?_
  rintro a b ⟨plain, ascends⟩
  refine ⟨plain, ?_⟩
  intro other
  have less : saturatingAdd a.1.counter offset < saturatingAdd b.1.counter offset := ascends other
  unfold saturatingAdd at less
  omega

private theorem callsFrom_filter (keep : Bool → Bool) :
    ((callsFrom crypto contracts origin protocolNullifier calls shifts).filter
        (fun call => keep call.2)).map Prod.fst =
      (calls.zip shifts).flatMap (fun entry =>
        (((callsOf crypto contracts origin protocolNullifier entry.1.1 entry.1.2).filter
          (fun call => keep call.2)).map Prod.fst).map
            (EffectKind.publicCallRequests.shift entry.2)) := by
  unfold callsFrom
  rw [List.filter_flatMap, List.map_flatMap]
  apply List.flatMap_congr
  intro entry _
  rw [List.filter_map, List.map_map, List.map_map]
  rfl

/-- Each bundle holds the public calls of its own call. -/
private theorem holds_calls {bundles : List CallExecutionBundle}
    (ran : List.Forall₂ (fun entry bundle => executeEntrypointCallBundle crypto contracts origin
      protocolNullifier capsules entry.1 entry.2 = .ok bundle) calls bundles)
    (cached : ∀ entry ∈ calls, ∀ step ∈ RevertiblePhase.Transaction.callTree crypto contracts origin
      protocolNullifier entry.1 entry.2, step.Cached crypto)
    (long : bundles.length ≤ shifts.length)
    (ordered : (callsFrom crypto contracts origin protocolNullifier calls shifts).Pairwise
      InOrder) :
    List.Forall₂ (fun entry bundle => Holds crypto.poseidon2 bundle
      (callsOf crypto contracts origin protocolNullifier entry.1 entry.2)) calls bundles := by
  induction ran generalizing shifts with
  | nil => exact .nil
  | cons made later ih =>
    cases shifts with
    | nil => cases long
    | cons shift shifts =>
      unfold callsFrom at ordered
      rw [List.zip_cons_cons, List.flatMap_cons, List.pairwise_append] at ordered
      obtain ⟨first, others, -⟩ := ordered
      refine .cons (holds_call made (cached _ List.mem_cons_self) (ordered_of_shifted first)) ?_
      apply ih (fun entry inside => cached entry (List.mem_cons_of_mem _ inside)) ?_ others
      exact Nat.le_of_succ_le_succ long

private theorem flatMap_zip {α β γ δ : Type} {f : β → γ → List δ} {g : α → γ → List δ}
    {as : List α} {bs : List β} (same : List.Forall₂ (fun a b => ∀ c, f b c = g a c) as bs)
    (cs : List γ) :
    (bs.zip cs).flatMap (fun entry => f entry.1 entry.2) =
      (as.zip cs).flatMap (fun entry => g entry.1 entry.2) := by
  induction same generalizing cs with
  | nil => rfl
  | cons first _ ih =>
    cases cs with
    | nil => rfl
    | cons c cs => rw [List.zip_cons_cons, List.zip_cons_cons, List.flatMap_cons, List.flatMap_cons,
        ih cs, first c]

private theorem head?_shifted (bundle : CallExecutionBundle) (offset : Nat) :
    ((bundle.executionResult.iterAllCalls.flatMap (fun call =>
        call.publicTeardownCallRequest.toList)).map
          (EffectKind.publicCallRequests.shift offset)).head?.toList =
      bundle.executionResult.getTeardownCallRequest.toList.map
        (EffectKind.publicCallRequests.shift offset) := by
  unfold PrivateExecutionResult.getTeardownCallRequest
  rw [findSome?_eq_head?, List.head?_map, Option.toList_map]

/-- The aggregate of bundles holds their public calls, shifted, one bundle's
after the other's. -/
private theorem holds_aggregate {bundles : List CallExecutionBundle}
    (each : List.Forall₂ (fun entry bundle => Holds crypto.poseidon2 bundle
      (callsOf crypto contracts origin protocolNullifier entry.1 entry.2)) calls bundles)
    (ordered : (callsFrom crypto contracts origin protocolNullifier calls
      (offsets 0 bundles)).Pairwise InOrder) :
    Holds crypto.poseidon2 (aggregateCallBundles origin bundles)
      (callsFrom crypto contracts origin protocolNullifier calls (offsets 0 bundles)) where
  requests := by
    have shifted := each.imp (fun entry bundle held => fun offset =>
      congrArg (fun requests => requests.map (EffectKind.publicCallRequests.shift offset))
        held.requests)
    have same := flatMap_zip shifted (offsets 0 bundles)
    rw [← callsFrom_filter (!·)] at same
    have ascending := requests_ascend ordered
    rw [← same] at ascending ⊢
    exact EffectKind.publicCallRequests.all_aggregate_eq origin bundles ascending
  teardown := by
    have shifted := each.imp (fun entry bundle held => fun offset =>
      (head?_shifted bundle offset).trans (congrArg (fun requests =>
        requests.map (EffectKind.publicCallRequests.shift offset)) held.teardown))
    have same := flatMap_zip shifted (offsets 0 bundles)
    rw [← callsFrom_filter (·)] at same
    have once := length_teardowns ordered
    rw [← same] at once ⊢
    unfold PrivateExecutionResult.getTeardownCallRequest
    rw [findSome?_eq_head?, teardowns_aggregate]
    exact head?_flatMap _ once
  calldata := by
    have same := flatMap_zip (each.imp (fun _ bundle held => fun _ : Nat => held.calldata))
      (offsets 0 bundles)
    have held : (aggregateCallBundles origin bundles).publicFunctionCalldata =
        (placed bundles).flatMap (fun entry => entry.1.publicFunctionCalldata) := by
      change bundles.flatMap _ = _
      nth_rewrite 1 [← EffectKind.map_fst_placed bundles]
      rw [List.flatMap_map]
    rw [held, List.map_flatMap]
    refine same.trans ?_
    unfold callsFrom
    rw [List.map_flatMap]
    apply List.flatMap_congr
    intro entry _
    rw [List.map_map]
    rfl

end Calls

section Transactions
open RevertiblePhase EmbeddedPxe
variable (crypto : Crypto) (contracts : ContractStore)

/-- The public calls of a transaction in the order of enqueueing, each shifted
with the top-level call it is enqueued in. -/
def enqueued (bundles : List CallExecutionBundle) :
    Transaction → List (PublicCallRequestData × Bool)
  | .entrypoint origin protocolNullifier argsOfCalls capsules _ script _ =>
    (script.steps crypto contracts
      (entrypointOracle origin protocolNullifier argsOfCalls capsules)).flatMap Step.publicCalls
  | .topLevel origin protocolNullifier _ calls =>
    callsFrom crypto contracts origin protocolNullifier calls (offsets 0 bundles)

/-- The calldata a top-level call finds for its public calls. -/
def calldataOf (origin : AztecAddress) (protocolNullifier : Fr) (call : DecodedEntrypointCall) :
    Target → List HashedValues
  | .publicFunction selector =>
    (publicCallBundle crypto call origin protocolNullifier selector).publicFunctionCalldata
  | target => (Transaction.callTree crypto contracts origin protocolNullifier call target).flatMap
      (Step.calldata crypto)

/-- The calldata a transaction finds for its public calls, in the order of
enqueueing. -/
def calldataFound : Transaction → List HashedValues
  | .entrypoint origin protocolNullifier argsOfCalls capsules _ script _ =>
    (script.steps crypto contracts
      (entrypointOracle origin protocolNullifier argsOfCalls capsules)).flatMap
        (Step.calldata crypto)
  | .topLevel origin protocolNullifier _ calls =>
    calls.flatMap (fun entry =>
      calldataOf crypto contracts origin protocolNullifier entry.1 entry.2)

variable {crypto contracts} {tx : Transaction} {bundles : List CallExecutionBundle}
variable {result : PrivateExecutionResult}

private theorem calldata_of_call {origin : AztecAddress} {protocolNullifier : Fr}
    {capsules : List Capsule} {call : DecodedEntrypointCall} {target : Target}
    {bundle : CallExecutionBundle}
    (ran : executeEntrypointCallBundle crypto contracts origin protocolNullifier capsules call
      target = .ok bundle) :
    bundle.publicFunctionCalldata =
      calldataOf crypto contracts origin protocolNullifier call target := by
  cases target with
  | privateFunction function script output =>
    rw [executeEntrypointCallBundle_private] at ran
    obtain ⟨final, executed, rfl⟩ := map_eq_ok ran
    exact calldata_of_tree (runs_of_execute executed)
  | publicFunction selector =>
    cases ran
    rfl
  | publishClass => exact List.map_eq_nil_iff.mp (holds_publishClass ran).calldata
  | publishInstance => exact List.map_eq_nil_iff.mp (holds_publishInstance ran).calldata

/-- The calldata the bundles hold together. -/
private theorem calldata_of_execute (ran : tx.execute crypto contracts = .ok (bundles, result)) :
    bundles.flatMap (·.publicFunctionCalldata) = calldataFound crypto contracts tx := by
  cases tx with
  | entrypoint origin protocolNullifier argsOfCalls capsules function script output =>
    obtain ⟨root, final, rfl, ended, rfl, rfl⟩ := Transaction.execute_entrypoint ran
    rw [List.flatMap_cons, List.flatMap_nil, List.append_nil]
    exact calldata_of_tree (runs_of_execute ended)
  | topLevel origin protocolNullifier capsules calls =>
    obtain ⟨each, -⟩ := Transaction.execute_topLevel ran
    clear ran
    change _ = calls.flatMap (fun entry => calldataOf crypto contracts origin protocolNullifier
      entry.1 entry.2)
    induction each with
    | nil => rfl
    | cons first _ ih =>
      rw [List.flatMap_cons, List.flatMap_cons, calldata_of_call first, ih]

/-- What the kernel is given holds the public calls of the transaction. -/
private theorem holds_execute (ran : tx.execute crypto contracts = .ok (bundles, result))
    (cached : ∀ tree ∈ tx.trees crypto contracts, ∀ step ∈ tree, step.Cached crypto)
    (ordered : (enqueued crypto contracts bundles tx).Pairwise InOrder) :
    ∃ bundle : CallExecutionBundle, bundle.executionResult = result ∧
      bundle.publicFunctionCalldata = bundles.flatMap (·.publicFunctionCalldata) ∧
      Holds crypto.poseidon2 bundle (enqueued crypto contracts bundles tx) := by
  cases tx with
  | entrypoint origin protocolNullifier argsOfCalls capsules function script output =>
    obtain ⟨root, final, rfl, ended, rfl, rfl⟩ := Transaction.execute_entrypoint ran
    refine ⟨_, rfl, (List.append_nil _).symm, ?_⟩
    exact holds_tree (runs_of_execute ended) (cached _ List.mem_cons_self) ordered
  | topLevel origin protocolNullifier capsules calls =>
    obtain ⟨each, rfl⟩ := Transaction.execute_topLevel ran
    refine ⟨aggregateCallBundles origin bundles, rfl, rfl, ?_⟩
    refine holds_aggregate (holds_calls each ?_ ?_ ordered) ordered
    · intro entry listed
      exact cached _ (List.mem_map_of_mem listed)
    · rw [EffectKind.length_offsets]
      exact Nat.le_succ _

/-- Where public calls are enqueued by ascending counters, the teardown last and
none to the zero address, and their calldata fits, the calldata that is
returned lines up with the requests of the kernel output. -/
theorem calldata_lines_up (crypto : Crypto) (contracts : ContractStore) (tx : Transaction)
    (bundles : List CallExecutionBundle) (result : PrivateExecutionResult)
    (feePayer : Fr) (expirationTimestamp : Nat) (output : PrivateKernelTailPublicInputs)
    (ran : tx.execute crypto contracts = .ok (bundles, result))
    (processed : process crypto.poseidon2 result feePayer expirationTimestamp = .ok output)
    (cached : ∀ tree ∈ tx.trees crypto contracts, ∀ step ∈ tree, step.Cached crypto)
    (ordered : (enqueued crypto contracts bundles tx).Pairwise InOrder)
    (addressed : ∀ call ∈ enqueued crypto contracts bundles tx, call.1.contractAddress ≠ .zero)
    (fits : totalPublicCalldataCount (calldataFound crypto contracts tx) ≤
      maxFrCalldataToAllEnqueuedCalls) :
    LinesUp crypto.poseidon2 output (sortedCalldata result.allPublicCallRequests
      (bundles.flatMap (·.publicFunctionCalldata))) := by
  obtain ⟨bundle, rfl, calldata, held⟩ := holds_execute ran cached ordered
  rw [sortedCalldata_eq]
  refine linesUp_of_hashes ?_ (by rw [calldata_of_execute ran]; exact fits)
  have kept : ((enqueued crypto contracts bundles tx).map (fun call =>
      publicCallRequest call.1)).filter (!·.isEmpty) =
        (enqueued crypto contracts bundles tx).map (fun call => publicCallRequest call.1) := by
    apply List.filter_eq_self.mpr
    intro request listed
    obtain ⟨call, inside, rfl⟩ := List.mem_map.mp listed
    have filled : (publicCallRequest call.1).isEmpty = false :=
      decide_eq_false (addressed call inside)
    rw [filled]
    rfl
  have requests : output.getAllPublicCallRequests =
      (enqueued crypto contracts bundles tx).map (fun call => publicCallRequest call.1) := by
    rw [getAllPublicCallRequests_process processed, held.requests, held.teardown, ← List.map_append,
      split_calls ordered, List.map_map]
    exact kept
  rw [← calldata, held.calldata, requests, List.map_map]
  rfl

/-- The account enqueues a call and then sets the teardown, each with its
calldata in the cache. -/
def teardownLast : Transaction :=
  .entrypoint ⟨8⟩ 1 [] [] ⟨none, false, 0⟩
    (.foreign .storeInExecutionCache [[1], [2760353948]]
      (.foreign .notifyEnqueuedPublicFunctionCall [[20], [2760353948], [3], [0]]
        (.foreign .storeInExecutionCache [[2], [2760353949]]
          (.foreign .notifySetPublicTeardownFunctionCall [[30], [2760353949], [4], [0]] .done)))) {}

/-- The calldata of that transaction lines up. -/
theorem teardownLast_lines_up :
    ∃ bundles result output,
      teardownLast.execute .summed .empty = .ok (bundles, result) ∧
      process Crypto.summed.poseidon2 result 8 0 = .ok output ∧
      output.getAllPublicCallRequests.length = 2 ∧
      LinesUp Crypto.summed.poseidon2 output (sortedCalldata result.allPublicCallRequests
        (bundles.flatMap (·.publicFunctionCalldata))) := by
  refine ⟨_, _, _, rfl, rfl, by decide, ?_⟩
  exact calldata_lines_up .summed .empty teardownLast _ _ 8 0 _ rfl rfl (by decide) (by decide)
    (by decide) (by decide)

/-- The account sets the teardown before it enqueues a call, as a payment of
fees in the setup phase does. -/
def teardownFirst : Transaction :=
  .entrypoint ⟨8⟩ 1 [] [] ⟨none, false, 0⟩
    (.foreign .storeInExecutionCache [[2], [2760353949]]
      (.foreign .notifySetPublicTeardownFunctionCall [[30], [2760353949], [3], [0]]
        (.foreign .storeInExecutionCache [[1], [2760353948]]
          (.foreign .notifyEnqueuedPublicFunctionCall [[20], [2760353948], [4], [0]] .done)))) {}

/-- The requests end with the teardown, the calldata starts with it. -/
theorem teardownFirst_refused :
    ∃ bundles result output,
      teardownFirst.execute .summed .empty = .ok (bundles, result) ∧
      (∀ tree ∈ teardownFirst.trees .summed .empty, ∀ step ∈ tree, step.Cached .summed) ∧
      process Crypto.summed.poseidon2 result 8 0 = .ok output ∧
      ¬ LinesUp Crypto.summed.poseidon2 output (sortedCalldata result.allPublicCallRequests
        (bundles.flatMap (·.publicFunctionCalldata))) := by
  refine ⟨_, _, _, rfl, by decide, rfl, ?_⟩
  intro lined
  have first := lined.hashes 0 _ _ rfl rfl
  exact absurd first (by decide)

end Transactions

end PublicCalldata

end AztecPxe
