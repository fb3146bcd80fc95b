import AztecPxe.BlockSync
import AztecPxe.RevertiblePhase

/-! The expiration `prove_tx` gives to the kernel. Each root's own witness says
until when it may be included; the earliest of these is taken, and where no root
says so the anchor's timestamp and the longest lifetime of a transaction. What
the witnesses of nested calls say is not read. -/
namespace AztecPxe
open PrivateExecutionOracle

/-- `constants.rs::MAX_TX_LIFETIME`. -/
def maxTxLifetime : Nat := 86400

namespace AnchorBlockHeader

/-- The timestamp `compute_expiration` reads of the anchor. -/
def timestamp (anchor : AnchorBlockHeader) : Nat :=
  ((anchor.data.pointer ["globalVariables", "timestamp"]).bind (fun value =>
    value.asU64.or (value.asStr.bind parseBlockNumber))).getD 0

/-- `compute_expiration`; the sum wraps in a release build. -/
def computeExpiration (anchor : AnchorBlockHeader) : Nat :=
  (anchor.timestamp + maxTxLifetime) % 2 ^ 64

end AnchorBlockHeader

namespace Expiration
open RevertiblePhase EmbeddedPxe

/-- The `expiration_timestamp` of `prove_tx`. -/
def kernelExpiration (anchor : AnchorBlockHeader) (result : PrivateExecutionResult) : Nat :=
  if result.expirationTimestamp ≠ 0 then result.expirationTimestamp else anchor.computeExpiration

/-! ## What the witnesses say -/

/-- What the witness of a top-level call says, zero for a call without a circuit. -/
def targetExpiration : Target → Nat
  | .privateFunction function _ output => output.expirationTimestamp function.contextInputsSize
  | _ => 0

/-- What the witnesses of the roots say. -/
def rootExpirations : Transaction → List Nat
  | .entrypoint _ _ _ _ function _ output => [output.expirationTimestamp function.contextInputsSize]
  | .topLevel _ _ _ calls => calls.map (fun entry => targetExpiration entry.2)

/-- What the witness of a nested call says, where its function takes context
inputs of a size. -/
def nestedExpiration (contextInputsSize : NestedCall → Nat) : Step → List Nat
  | .returned _ call output _ => [output.expirationTimestamp (contextInputsSize call)]
  | _ => []

section Transaction
variable (crypto : Crypto) (contracts : ContractStore) (contextInputsSize : NestedCall → Nat)

/-- What the witnesses of the nested calls say, at every depth. -/
def nestedExpirations (tx : Transaction) : List Nat :=
  (tx.trees crypto contracts).flatten.flatMap (nestedExpiration contextInputsSize)

/-- The kernel is given nothing later than any call says, nor than the anchor
allows. -/
def Earliest (tx : Transaction) (anchor : AnchorBlockHeader) (result : PrivateExecutionResult) :
    Prop :=
  (∀ time ∈ rootExpirations tx ++ nestedExpirations crypto contracts contextInputsSize tx,
    time ≠ 0 → kernelExpiration anchor result ≤ time) ∧
  kernelExpiration anchor result ≤ anchor.timestamp + maxTxLifetime

/-- Some root says it expires by then. -/
def RootBy (tx : Transaction) (bound : Nat) : Prop :=
  ∃ time ∈ rootExpirations tx, time ≠ 0 ∧ time ≤ bound

/-- Whatever a nested call says, a root says as early; and one that says anything
says something the anchor allows. Where no root says anything, no nested call
says less than the anchor. -/
structure RootsFirst (tx : Transaction) (anchor : AnchorBlockHeader) : Prop where
  silent : (∀ time ∈ rootExpirations tx, time = 0) →
    ∀ time ∈ nestedExpirations crypto contracts contextInputsSize tx, time ≠ 0 →
      anchor.computeExpiration ≤ time
  nested : (∃ time ∈ rootExpirations tx, time ≠ 0) →
    ∀ time ∈ nestedExpirations crypto contracts contextInputsSize tx, time ≠ 0 → RootBy tx time
  anchored : (∃ time ∈ rootExpirations tx, time ≠ 0) → RootBy tx (anchor.timestamp + maxTxLifetime)

end Transaction

/-! ## The earliest of the roots -/

/-- One turn of the loop over the bundles. -/
def earlier (sofar next : Nat) : Nat :=
  if next = 0 then sofar else if sofar = 0 then next else min sofar next

theorem earlier_by (sofar next bound : Nat) :
    (earlier sofar next ≠ 0 ∧ earlier sofar next ≤ bound) ↔
      (sofar ≠ 0 ∧ sofar ≤ bound) ∨ (next ≠ 0 ∧ next ≤ bound) := by
  unfold earlier
  split
  · omega
  · split <;> omega

/-- The loop ends by a bound exactly where it starts by it or meets a time that
does. -/
theorem foldl_earlier_by (times : List Nat) (bound start : Nat) :
    (times.foldl earlier start ≠ 0 ∧ times.foldl earlier start ≤ bound) ↔
      (start ≠ 0 ∧ start ≤ bound) ∨ ∃ time ∈ times, time ≠ 0 ∧ time ≤ bound := by
  induction times generalizing start with
  | nil => simp
  | cons time rest ih =>
    rw [List.foldl_cons, ih, earlier_by, or_assoc]
    simp only [List.mem_cons, exists_eq_or_imp]

theorem aggregateExpiration_eq (bundles : List CallExecutionBundle) :
    aggregateExpiration bundles =
      (bundles.map (·.executionResult.expirationTimestamp)).foldl earlier 0 := by
  cases bundles with
  | nil => rfl
  | cons first rest =>
    have started : earlier 0 first.executionResult.expirationTimestamp =
        first.executionResult.expirationTimestamp := by
      unfold earlier
      split
      next zero => exact zero.symm
      · rfl
    rw [List.map_cons, List.foldl_cons, started, List.foldl_map]
    rfl

variable {crypto : Crypto} {contracts : ContractStore} {contextInputsSize : NestedCall → Nat}
variable {tx : Transaction} {bundles : List CallExecutionBundle} {result : PrivateExecutionResult}

/-- A bundle says what its root's witness says. -/
private theorem expirationTimestamp_of_ok {origin : AztecAddress} {protocolNullifier : Fr}
    {capsules : List Capsule} {call : DecodedEntrypointCall} {target : Target}
    {bundle : CallExecutionBundle}
    (ran : executeEntrypointCallBundle crypto contracts origin protocolNullifier capsules call
      target = .ok bundle) :
    bundle.executionResult.expirationTimestamp = targetExpiration target := by
  cases target with
  | publishClass =>
    change publishClassBundle crypto call origin protocolNullifier capsules = _ at ran
    unfold publishClassBundle at ran
    split at ran
    · cases ran
    · cases ran
    · cases ran
    · cases ran
      rfl
  | publishInstance =>
    change publishInstanceBundle crypto call origin protocolNullifier = _ at ran
    unfold publishInstanceBundle at ran
    split at ran
    · cases ran
    · obtain ⟨address, -, rfl⟩ := map_eq_ok ran
      rfl
  | publicFunction selector =>
    cases ran
    rfl
  | privateFunction function script output =>
    obtain ⟨final, -, rfl⟩ := map_eq_ok ran
    rfl

/-- The bundles of the top-level calls say what their roots say. -/
private theorem map_expirationTimestamp {origin : AztecAddress} {protocolNullifier : Fr}
    {capsules : List Capsule} {calls : List (DecodedEntrypointCall × Target)}
    (each : List.Forall₂ (fun entry bundle => executeEntrypointCallBundle crypto contracts origin
      protocolNullifier capsules entry.1 entry.2 = .ok bundle) calls bundles) :
    bundles.map (·.executionResult.expirationTimestamp) =
      calls.map (fun entry => targetExpiration entry.2) := by
  induction each with
  | nil => rfl
  | cons made _ ih => rw [List.map_cons, List.map_cons, expirationTimestamp_of_ok made, ih]

/-- The result says the earliest that a root says. -/
theorem result_by_iff (ran : tx.execute crypto contracts = .ok (bundles, result)) (bound : Nat) :
    (result.expirationTimestamp ≠ 0 ∧ result.expirationTimestamp ≤ bound) ↔ RootBy tx bound := by
  cases tx with
  | entrypoint origin protocolNullifier argsOfCalls capsules function script output =>
    obtain ⟨root, final, rfl, -, rfl, rfl⟩ := Transaction.execute_entrypoint ran
    simp only [RootBy, rootExpirations, List.mem_singleton, exists_eq_left]
    rfl
  | topLevel origin protocolNullifier capsules calls =>
    obtain ⟨each, rfl⟩ := Transaction.execute_topLevel ran
    change (aggregateExpiration bundles ≠ 0 ∧ aggregateExpiration bundles ≤ bound) ↔ _
    rw [aggregateExpiration_eq, map_expirationTimestamp each, foldl_earlier_by]
    simp only [RootBy, rootExpirations, ne_eq, not_true_eq_false, false_and, false_or]

/-- No root says anything exactly where the result does not. -/
theorem result_zero_iff (ran : tx.execute crypto contracts = .ok (bundles, result)) :
    result.expirationTimestamp = 0 ↔ ∀ time ∈ rootExpirations tx, time = 0 := by
  constructor
  · intro zero time said
    by_contra positive
    exact ((result_by_iff ran time).mpr ⟨time, said, positive, le_rfl⟩).1 zero
  · intro silent
    by_contra positive
    obtain ⟨time, said, nonzero, -⟩ := (result_by_iff ran _).mp ⟨positive, le_rfl⟩
    exact nonzero (silent time said)

/-- What the anchor gives is never later than it allows. -/
theorem computeExpiration_le (anchor : AnchorBlockHeader) :
    anchor.computeExpiration ≤ anchor.timestamp + maxTxLifetime := Nat.mod_le _ _

/-- Over every transaction that is executed, through the account's entrypoint or
call by call, and every anchor, the kernel is given the earliest time exactly
where the roots say everything first. -/
theorem expiration_is_earliest_iff (crypto : Crypto) (contracts : ContractStore)
    (contextInputsSize : NestedCall → Nat) (tx : Transaction) (anchor : AnchorBlockHeader)
    (bundles : List CallExecutionBundle) (result : PrivateExecutionResult)
    (ran : tx.execute crypto contracts = .ok (bundles, result)) :
    Earliest crypto contracts contextInputsSize tx anchor result ↔
      RootsFirst crypto contracts contextInputsSize tx anchor := by
  by_cases zero : result.expirationTimestamp = 0
  · have silent := (result_zero_iff ran).mp zero
    have given : kernelExpiration anchor result = anchor.computeExpiration :=
      if_neg (not_not.mpr zero)
    have speechless : ¬ ∃ time ∈ rootExpirations tx, time ≠ 0 :=
      fun ⟨time, said, nonzero⟩ => nonzero (silent time said)
    constructor
    · rintro ⟨below, -⟩
      refine ⟨fun _ time said nonzero => ?_, fun some => absurd some speechless,
        fun some => absurd some speechless⟩
      rw [← given]
      exact below time (List.mem_append_right _ said) nonzero
    · intro first
      refine ⟨?_, given ▸ computeExpiration_le anchor⟩
      intro time said nonzero
      rcases List.mem_append.mp said with root | nested
      · exact absurd (silent time root) nonzero
      · rw [given]
        exact first.silent silent time nested nonzero
  · have given : kernelExpiration anchor result = result.expirationTimestamp := if_pos zero
    have by_iff : ∀ bound, kernelExpiration anchor result ≤ bound ↔ RootBy tx bound := by
      intro bound
      rw [given, ← result_by_iff ran]
      exact (and_iff_right zero).symm
    have spoken : ∃ time ∈ rootExpirations tx, time ≠ 0 := by
      by_contra silent
      refine zero ((result_zero_iff ran).mpr (fun time said => ?_))
      by_contra nonzero
      exact silent ⟨time, said, nonzero⟩
    constructor
    · rintro ⟨below, allowed⟩
      refine ⟨fun silent => absurd ((result_zero_iff ran).mpr silent) zero, ?_,
        fun _ => (by_iff _).mp allowed⟩
      intro _ time said nonzero
      exact (by_iff time).mp (below time (List.mem_append_right _ said) nonzero)
    · intro first
      refine ⟨?_, (by_iff _).mpr (first.anchored spoken)⟩
      intro time said nonzero
      rcases List.mem_append.mp said with root | nested
      · exact (by_iff time).mpr ⟨time, root, nonzero, le_rfl⟩
      · exact (by_iff time).mpr (first.nested spoken time nested nonzero)

/-- A witness that says when its call expires. -/
private def expiring (time : Fr) : AcvmExecutionOutput where
  witness i := if i = 40 then some time else none

/-- The account's entrypoint calls one function; each says when it expires. -/
private def callsOne (root nested : Fr) : Transaction :=
  .entrypoint ⟨8⟩ 1 [] [] ⟨none, false, 37⟩
    (.callPrivate [[20], [5], [0], [2], [0]] .done (expiring nested) .done) (expiring root)

/-- An anchor with a timestamp. -/
private def anchorAt (timestamp : UInt64) : AnchorBlockHeader :=
  .fromHeaderJson (.obj [("globalVariables", .obj [("timestamp", .posInt timestamp)])])

/-- The root expires before the call it makes. -/
theorem later_call_keeps_earliest :
    ∃ bundles result, (callsOne 50 100).execute .zero (.one (.fromField 5)) = .ok (bundles, result) ∧
      Earliest .zero (.one (.fromField 5)) (fun _ => 37) (callsOne 50 100) (anchorAt 10) result := by
  refine ⟨_, _, rfl, ?_⟩
  refine (expiration_is_earliest_iff .zero (.one (.fromField 5)) (fun _ => 37) (callsOne 50 100)
    (anchorAt 10) _ _ rfl).mpr ⟨?_, ?_, ?_⟩
  · decide
  · intro _ time said _
    have only : nestedExpirations .zero (.one (.fromField 5)) (fun _ => 37) (callsOne 50 100) =
        [100] := by decide
    rw [only, List.mem_singleton] at said
    exact ⟨50, by decide, by decide, by omega⟩
  · intro _
    exact ⟨50, by decide, by decide, by decide⟩

/-- The call the root makes expires first, and the kernel is not told. -/
theorem earlier_call_is_missed :
    ∃ bundles result, (callsOne 100 50).execute .zero (.one (.fromField 5)) = .ok (bundles, result) ∧
      ¬ Earliest .zero (.one (.fromField 5)) (fun _ => 37) (callsOne 100 50) (anchorAt 10) result := by
  refine ⟨_, _, rfl, ?_⟩
  rintro ⟨below, -⟩
  exact absurd (below 50 (by decide) (by decide)) (by decide)

end Expiration
end AztecPxe
