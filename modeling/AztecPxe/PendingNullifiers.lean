import AztecPxe.NullifierCollection

/-! What a private call learns of the nullifiers announced before it. The oracles of a call tree
hand one list up and down, of inner nullifiers with the contracts that announced them.
`check_nullifier_exists` looks for a siloed nullifier in it, `is_nullifier_pending` for an inner one
of any contract. -/
namespace AztecPxe
open PrivateExecutionOracle Script

/-- `check_nullifier_exists`, over what the node answers for a block number and a nullifier. -/
def PrivateExecutionOracle.checkNullifierExists {ω : Type} (crypto : Crypto)
    (getNullifierMembershipWitness : Nat → Fr → Except Error (Option ω)) (args : Args)
    (oracle : PrivateExecutionOracle) : Except Error Answer :=
  match args.first 0 with
  | none => .error (.invalidData "missing nullifier")
  | some innerNullifier =>
    let nullifier := Hash.siloNullifier crypto.poseidon2 oracle.contractAddress innerNullifier
    if oracle.nullifiers.any (fun n => n.nullifier.value = nullifier) then .ok [[Fr.ofBool true]]
    else do
      let witness ← getNullifierMembershipWitness 0 nullifier
      return [[Fr.ofBool witness.isSome]]

/-- The contract and the inner nullifier of an announcement. -/
def Step.announcedNullifier : Step → Option (AztecAddress × Fr)
  | .foreign oracle .notifyNullifiedNote args =>
    some (oracle.contractAddress, (args.first 0).getD 0)
  | .foreign oracle .notifyCreatedNullifier args =>
    some (oracle.contractAddress, (args.first 0).getD 0)
  | _ => none

namespace PendingNullifiers

/-- The contract has announced this inner nullifier. -/
def Announced (passed : List Step) (contract : AztecAddress) (innerNullifier : Fr) : Prop :=
  ∃ step ∈ passed, step.announcedNullifier = some (contract, innerNullifier)

instance (passed : List Step) (contract : AztecAddress) (innerNullifier : Fr) :
    Decidable (Announced passed contract innerNullifier) :=
  inferInstanceAs (Decidable (∃ step ∈ passed,
    step.announcedNullifier = some (contract, innerNullifier)))

/-- The answer is true where the statement holds and false where it does not. -/
def Tells (answer : Except Error Answer) (P : Prop) : Prop :=
  (P → answer = .ok [[Fr.ofBool true]]) ∧ (¬ P → answer = .ok [[Fr.ofBool false]])

/-- Asked for an inner nullifier in this state, both queries tell whether the running contract has
announced it, with a node that has not seen it. -/
structure QueriesExact (crypto : Crypto) (passed : List Step) (state : PrivateExecutionOracle)
    (innerNullifier : Fr) : Prop where
  checked : ∀ (args : Args) {ω : Type} (witness : Nat → Fr → Except Error (Option ω)),
    args.first 0 = some innerNullifier →
    witness 0 (Hash.siloNullifier crypto.poseidon2 state.contractAddress innerNullifier) = .ok none →
    Tells (state.checkNullifierExists crypto witness args)
      (Announced passed state.contractAddress innerNullifier)
  pending : ∀ args : Args, args.first 0 = some innerNullifier →
    Tells ((state.isNullifierPending args).map (·.1))
      (Announced passed state.contractAddress innerNullifier)

/-- The contract has not announced the nullifier, and nobody has recorded its inner or its siloed
value; or it has, and somebody has recorded its siloed value as an inner one. -/
def Undisturbed (crypto : Crypto) (contracts : ContractStore) (passed : List Step)
    (contract : AztecAddress) (innerNullifier : Fr) : Prop :=
  let siloed := Hash.siloNullifier crypto.poseidon2 contract innerNullifier
  let values := (NullifierCollection.recorded crypto contracts passed).map (·.nullifier.value)
  if Announced passed contract innerNullifier then siloed ∈ values
  else innerNullifier ∉ values ∧ siloed ∉ values

instance (crypto : Crypto) (contracts : ContractStore) (passed : List Step)
    (contract : AztecAddress) (innerNullifier : Fr) :
    Decidable (Undisturbed crypto contracts passed contract innerNullifier) :=
  inferInstanceAs (Decidable (if Announced passed contract innerNullifier
    then Hash.siloNullifier crypto.poseidon2 contract innerNullifier ∈
      (NullifierCollection.recorded crypto contracts passed).map (·.nullifier.value)
    else innerNullifier ∉
        (NullifierCollection.recorded crypto contracts passed).map (·.nullifier.value) ∧
      Hash.siloNullifier crypto.poseidon2 contract innerNullifier ∉
        (NullifierCollection.recorded crypto contracts passed).map (·.nullifier.value)))

section Queries
variable {crypto : Crypto} {contracts : ContractStore} {passed : List Step}
variable {state : PrivateExecutionOracle} {innerNullifier : Fr} {args : Args} {P : Prop}

theorem tells_iff {flag : Bool} : Tells (.ok [[Fr.ofBool flag]]) P ↔ (flag = true ↔ P) := by
  have apart : (Except.ok [[Fr.ofBool true]] : Except Error Answer) ≠ .ok [[Fr.ofBool false]] := by
    decide
  cases flag with
  | true =>
    exact ⟨fun tells => ⟨fun _ => not_not.mp fun wrong => apart (tells.2 wrong), fun _ => rfl⟩,
      fun holds => ⟨fun _ => rfl, fun wrong => absurd (holds.mp rfl) wrong⟩⟩
  | false =>
    exact ⟨fun tells => ⟨fun wrong => (nomatch wrong), fun holds => absurd (tells.1 holds).symm apart⟩,
      fun holds => ⟨fun held => (nomatch holds.mpr held), fun _ => rfl⟩⟩

/-- Whether the list has a nullifier of this value. -/
theorem any_value_iff (nullifiers : List ScopedNullifier) (value : Fr) :
    nullifiers.any (fun n => n.nullifier.value = value) = true ↔
      value ∈ nullifiers.map (·.nullifier.value) := by
  simp

/-- With a node that has not seen the nullifier, the answer is whether the list has its siloed
value. -/
theorem checkNullifierExists_eq {ω : Type} {witness : Nat → Fr → Except Error (Option ω)}
    (asked : args.first 0 = some innerNullifier)
    (unseen : witness 0 (Hash.siloNullifier crypto.poseidon2 state.contractAddress innerNullifier) =
      .ok none) :
    state.checkNullifierExists crypto witness args = .ok [[Fr.ofBool (state.nullifiers.any
      (fun n => n.nullifier.value =
        Hash.siloNullifier crypto.poseidon2 state.contractAddress innerNullifier))]] := by
  unfold checkNullifierExists
  rw [asked]
  dsimp only
  split
  next found => rw [found]
  next missing =>
    rw [unseen, Bool.eq_false_iff.mpr missing]
    rfl

/-- The answer is whether the list has the inner value. -/
theorem isNullifierPending_eq (asked : args.first 0 = some innerNullifier) :
    (state.isNullifierPending args).map (·.1) =
      .ok [[Fr.ofBool (state.nullifiers.any (fun n => n.nullifier.value = innerNullifier))]] := by
  unfold isNullifierPending
  rw [asked]
  rfl

/-- Both queries by the values the running oracle has in its list. -/
theorem queriesExact_iff_values : QueriesExact crypto passed state innerNullifier ↔
    (Hash.siloNullifier crypto.poseidon2 state.contractAddress innerNullifier ∈
        state.nullifiers.map (·.nullifier.value) ↔
      Announced passed state.contractAddress innerNullifier) ∧
    (innerNullifier ∈ state.nullifiers.map (·.nullifier.value) ↔
      Announced passed state.contractAddress innerNullifier) := by
  constructor
  · intro exact_answers
    have checked := exact_answers.checked [[innerNullifier]] (fun _ _ => .ok (none : Option Unit)) rfl rfl
    have pending := exact_answers.pending [[innerNullifier]] rfl
    rw [checkNullifierExists_eq rfl rfl, tells_iff, any_value_iff] at checked
    rw [isNullifierPending_eq rfl, tells_iff, any_value_iff] at pending
    exact ⟨checked, pending⟩
  · rintro ⟨checked, pending⟩
    refine ⟨fun args ω witness asked unseen => ?_, fun args asked => ?_⟩
    · rw [checkNullifierExists_eq asked unseen, tells_iff, any_value_iff]
      exact checked
    · rw [isNullifierPending_eq asked, tells_iff, any_value_iff]
      exact pending

/-- What a contract announces is recorded. -/
theorem recorded_of_announced {contract : AztecAddress}
    (announced : Announced passed contract innerNullifier) :
    innerNullifier ∈ (NullifierCollection.recorded crypto contracts passed).map
      (·.nullifier.value) := by
  obtain ⟨step, inside, announced⟩ := announced
  have own : innerNullifier ∈ (step.nullifiers crypto contracts).map (·.nullifier.value) := by
    unfold Step.announcedNullifier at announced
    split at announced
    · cases announced
      exact List.mem_cons_self
    · cases announced
      exact List.mem_cons_self
    · cases announced
  obtain ⟨n, held, rfl⟩ := List.mem_map.mp own
  exact List.mem_map_of_mem (List.mem_flatMap.mpr ⟨step, inside, held⟩)

/-- In every state the list is what was recorded on the way. -/
theorem nullifiers_of_reaches {root : EmbeddedPxe.Root} {script : Script}
    (reaches : Reaches crypto contracts script root.oracle passed state) :
    state.nullifiers = NullifierCollection.recorded crypto contracts passed := by
  have start : root.oracle.nullifiers = [] ++ [] := by cases root <;> rfl
  exact ((NullifierCollection.recorder crypto contracts).reached (fun _ _ => rfl) []).at_state reaches
    start

end Queries

/-- In every state of a call tree, the queries are exact for a nullifier when it is undisturbed. -/
theorem queries_exact_iff (crypto : Crypto) (contracts : ContractStore) (root : EmbeddedPxe.Root)
    (script : Script) (passed : List Step) (state : PrivateExecutionOracle)
    (reaches : Reaches crypto contracts script root.oracle passed state) (innerNullifier : Fr) :
    QueriesExact crypto passed state innerNullifier ↔
      Undisturbed crypto contracts passed state.contractAddress innerNullifier := by
  rw [queriesExact_iff_values, nullifiers_of_reaches reaches]
  unfold Undisturbed
  dsimp only
  split
  next announced =>
    have inner : innerNullifier ∈
        (NullifierCollection.recorded crypto contracts passed).map (·.nullifier.value) :=
      recorded_of_announced announced
    exact ⟨fun both => both.1.mpr announced,
      fun siloed => ⟨iff_of_true siloed announced, iff_of_true inner announced⟩⟩
  next silent =>
    rw [iff_false_right silent, iff_false_right silent]
    exact and_comm

/-- Another nullifier of the same contract is not confused with the one announced. -/
theorem queries_exact_sample :
    ∃ passed state, QueriesExact .summed passed state 6 ∧
      state.nullifiers.map (·.nullifier.value) = [5] := by
  have ran : Runs .summed .empty (.foreign .notifyCreatedNullifier [[5]] .done)
      NullifierCollection.bareEntrypoint.oracle _ _ := runs_of_execute rfl
  exact ⟨_, _, (queries_exact_iff .summed .empty NullifierCollection.bareEntrypoint _ _ _
    (reaches_of_runs ran) 6).mpr (by decide), rfl⟩

/-- A contract announces a nullifier and calls another. -/
def announcedBeforeCall : Script :=
  .foreign .notifyCreatedNullifier [[5]]
    (.callPrivate [[9], [7], [0], [4], [0]] (.foreign .isNullifierPending [[5]] .done) {} .done)

/-- The contract is told that its nullifier does not exist, and the contract it calls that one of its
own is pending. -/
theorem queries_not_exact :
    (∃ passed state, Reaches .summed (.one (.fromField 7)) announcedBeforeCall
        NullifierCollection.bareEntrypoint.oracle passed state ∧
      Announced passed state.contractAddress 5 ∧
      state.checkNullifierExists .summed (fun _ _ => .ok (none : Option Unit)) [[5]] =
        .ok [[Fr.ofBool false]]) ∧
    ∃ passed state, Reaches .summed (.one (.fromField 7)) announcedBeforeCall
        NullifierCollection.bareEntrypoint.oracle passed state ∧
      ¬ Announced passed state.contractAddress 5 ∧
      (state.isNullifierPending [[5]]).map (·.1) = .ok [[Fr.ofBool true]] := by
  have announces : NullifierCollection.bareEntrypoint.oracle.handleForeignCall .summed [[5]]
      .notifyCreatedNullifier = .ok ([], _) := rfl
  have enters : (NullifierCollection.bareEntrypoint.oracle.withCreatedNullifier [[5]]).enter .summed
      (.one (.fromField 7)) [[9], [7], [0], [4], [0]] = .ok (.entered ⟨⟨9⟩, 7, 0, 4, false⟩) := rfl
  exact ⟨⟨_, _, .foreign announces .here, by decide, rfl⟩,
    ⟨_, _, .foreign announces (.inside enters .here), by decide, rfl⟩⟩

end PendingNullifiers
end AztecPxe
