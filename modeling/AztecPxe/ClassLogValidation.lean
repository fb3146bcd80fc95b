import AztecPxe.ClassLogFields

/-! `validate_contract_class_logs`, which a node runs over the class log fields of a transaction.
Its comment promises that each log hash matches the hash of its fields. The code compares the
number of entries and the length each hash records, and never hashes an entry. -/
namespace AztecPxe
open ClassLogFields

/-- `Iterator::rposition`: the position of the last item that holds. -/
def rposition {α : Type} (holds : α → Bool) : List α → Option Nat
  | [] => none
  | item :: rest =>
    match rposition holds rest with
    | some i => some (i + 1)
    | none => if holds item then some 0 else none

/-- `expected_min_length`. -/
def expectedMinLength (fields : List Fr) : Nat := 1 + (rposition (· ≠ 0) fields).getD 0

/-- The loop of `validate_contract_class_logs`, from the entry with index `i` on. -/
def checkClassLogLengths (logHashes : List ScopedLogHash) : Nat → List (List Fr) → Except Error Unit
  | _, [] => .ok ()
  | i, fields :: rest =>
    match logHashes[i]? with
    | some hashEntry =>
      if hashEntry.length < expectedMinLength fields then
        .error (.invalidData ("TX_ERROR_CONTRACT_CLASS_LOG_LENGTH: log " ++ toString i ++
          " has length " ++ toString hashEntry.length ++ " but minimum is " ++
          toString (expectedMinLength fields)))
      else checkClassLogLengths logHashes (i + 1) rest
    | none => checkClassLogLengths logHashes (i + 1) rest

/-- `validation.rs::validate_contract_class_logs`. -/
def validateContractClassLogs (publicInputs : PrivateKernelTailPublicInputs)
    (logFields : List (List Fr)) : Except Error Unit :=
  let logHashes := publicInputs.getNonEmptyContractClassLogsHashes
  if logHashes.length ≠ logFields.length then
    .error (.invalidData ("TX_ERROR_CONTRACT_CLASS_LOG_COUNT: expected " ++
      toString logHashes.length ++ " log field entries, got " ++ toString logFields.length))
  else checkClassLogLengths logHashes 0 logFields

namespace ClassLogValidation

/-- The length a log hash records reaches past the last field of its entry that is not zero. -/
def LongEnough (publicInputs : PrivateKernelTailPublicInputs) (logFields : List (List Fr)) :
    Prop :=
  ∀ (i : Nat) fields hash, logFields[i]? = some fields →
    publicInputs.getNonEmptyContractClassLogsHashes[i]? = some hash →
      expectedMinLength fields ≤ hash.length

/-! ## The minimal length -/

section MinLength
variable {α : Type} {holds : α → Bool}

theorem rposition_eq_none_iff (items : List α) :
    rposition holds items = none ↔ ∀ item ∈ items, holds item = false := by
  induction items with
  | nil => simp [rposition]
  | cons first rest ih =>
    rw [rposition, List.forall_mem_cons, ← ih]
    cases rposition holds rest <;> cases holds first <;> simp

/-- The position found holds, and none behind it does. -/
theorem rposition_eq_some {items : List α} {i : Nat} (found : rposition holds items = some i) :
    (∃ item, items[i]? = some item ∧ holds item) ∧
      ∀ (j : Nat) item, items[j]? = some item → holds item → j ≤ i := by
  induction items generalizing i with
  | nil => cases found
  | cons first rest ih =>
    rw [rposition] at found
    cases last : rposition holds rest with
    | some k =>
      rw [last] at found
      cases found
      obtain ⟨⟨item, at_k, held⟩, above⟩ := ih last
      refine ⟨⟨item, at_k, held⟩, ?_⟩
      intro j other inside also
      cases j with
      | zero => exact Nat.zero_le _
      | succ j => exact Nat.succ_le_succ (above j other inside also)
    | none =>
      simp only [last, Option.ite_none_right_eq_some, Option.some.injEq] at found
      obtain ⟨held, rfl⟩ := found
      refine ⟨⟨first, rfl, held⟩, ?_⟩
      intro j other inside also
      cases j with
      | zero => exact Nat.le_refl _
      | succ j =>
        rw [(rposition_eq_none_iff rest).mp last other (List.mem_of_getElem? inside)] at also
        cases also

end MinLength

/-- An entry needs one field at least, and room for each field that is not zero. -/
theorem expectedMinLength_le_iff (fields : List Fr) (length : Nat) :
    expectedMinLength fields ≤ length ↔
      0 < length ∧ ∀ (j : Nat) field, fields[j]? = some field → field ≠ 0 → j < length := by
  unfold expectedMinLength
  cases last : rposition (· ≠ 0) fields with
  | none =>
    have zero := (rposition_eq_none_iff fields).mp last
    have free : ∀ (j : Nat) field, fields[j]? = some field → field ≠ 0 → j < length := by
      intro j field found differs
      exact absurd (by simpa using zero field (List.mem_of_getElem? found)) differs
    simp only [Option.getD_none, Nat.add_zero, Nat.succ_le_iff]
    exact ⟨fun positive => ⟨positive, free⟩, fun both => both.1⟩
  | some i =>
    obtain ⟨⟨field, found, differs⟩, above⟩ := rposition_eq_some last
    simp only [Option.getD_some]
    constructor
    · intro fits
      refine ⟨by omega, ?_⟩
      intro j other inside differs
      have behind := above j other inside (by simpa using differs)
      omega
    · rintro ⟨-, each⟩
      have room := each i field found (by simpa using differs)
      omega

/-! ## What is accepted -/

theorem checkClassLogLengths_ok_iff (logHashes : List ScopedLogHash) (i : Nat)
    (logFields : List (List Fr)) :
    checkClassLogLengths logHashes i logFields = .ok () ↔
      ∀ (j : Nat) fields hash, logFields[j]? = some fields → logHashes[i + j]? = some hash →
        expectedMinLength fields ≤ hash.length := by
  induction logFields generalizing i with
  | nil => simp [checkClassLogLengths]
  | cons first rest ih =>
    -- Index `0` is the head's own check, and the rest is the loop's next turn.
    have step : (∀ (j : Nat) fields hash, (first :: rest)[j]? = some fields →
          logHashes[i + j]? = some hash → expectedMinLength fields ≤ hash.length) ↔
        (∀ hash, logHashes[i]? = some hash → expectedMinLength first ≤ hash.length) ∧
          ∀ (j : Nat) fields hash, rest[j]? = some fields →
            logHashes[i + 1 + j]? = some hash → expectedMinLength fields ≤ hash.length := by
      constructor
      · intro each
        refine ⟨fun hash listed => each 0 first hash rfl listed, ?_⟩
        intro j fields hash given listed
        exact each (j + 1) fields hash given (by rwa [Nat.add_right_comm] at listed)
      · rintro ⟨head, tail⟩ j fields hash given listed
        cases j with
        | zero =>
          cases given
          exact head hash listed
        | succ j => exact tail j fields hash given (by rwa [Nat.add_right_comm])
    rw [step, ← ih (i + 1), checkClassLogLengths]
    cases logHashes[i]? with
    | none => simp
    | some hash =>
      by_cases short : hash.length < expectedMinLength first
      · simp [short, Nat.not_le.mpr short]
      · simp [short, Nat.le_of_not_lt short]

section Accepted
variable {poseidon2 : List Fr → Fr} {publicInputs : PrivateKernelTailPublicInputs}
  {logFields : List (List Fr)}

/-- The validation accepts by count and length alone. -/
theorem validateContractClassLogs_ok_iff :
    validateContractClassLogs publicInputs logFields = .ok () ↔
      logFields.length = publicInputs.getNonEmptyContractClassLogsHashes.length ∧
        LongEnough publicInputs logFields := by
  unfold validateContractClassLogs
  by_cases count : publicInputs.getNonEmptyContractClassLogsHashes.length = logFields.length
  · simp only [count, ne_eq, not_true_eq_false, if_false, true_and]
    rw [checkClassLogLengths_ok_iff]
    simp only [Nat.zero_add, LongEnough]
  · simp [count, Ne.symm count]

/-- A field set in an accepted entry is noticed when it is not zero and lies behind the recorded
length. -/
theorem set_refused_iff {i j : Nat} {fields : List Fr} {hash : ScopedLogHash} {field : Fr}
    (accepted : validateContractClassLogs publicInputs logFields = .ok ())
    (given : logFields[i]? = some fields) (inside : j < fields.length)
    (listed : publicInputs.getNonEmptyContractClassLogsHashes[i]? = some hash) :
    validateContractClassLogs publicInputs (logFields.set i (fields.set j field)) ≠ .ok () ↔
      field ≠ 0 ∧ hash.length ≤ j := by
  obtain ⟨count, long⟩ := validateContractClassLogs_ok_iff.mp accepted
  obtain ⟨positive, room⟩ := (expectedMinLength_le_iff fields hash.length).mp
    (long i fields hash given listed)
  have there : i < logFields.length := (List.getElem?_eq_some_iff.mp given).1
  -- Only the changed entry can have become too long.
  have changed : LongEnough publicInputs (logFields.set i (fields.set j field)) ↔
      expectedMinLength (fields.set j field) ≤ hash.length := by
    constructor
    · intro each
      exact each i _ hash (List.getElem?_set_self there) listed
    · intro fits k others other here there
      rcases eq_or_ne i k with rfl | apart
      · rw [List.getElem?_set_self ‹_›] at here
        rw [listed] at there
        cases here
        cases there
        exact fits
      · rw [List.getElem?_set_ne apart] at here
        exact long k others other here there
  have fits : expectedMinLength (fields.set j field) ≤ hash.length ↔
      (field ≠ 0 → j < hash.length) := by
    rw [expectedMinLength_le_iff]
    constructor
    · rintro ⟨-, each⟩ differs
      exact each j field (List.getElem?_set_self inside) differs
    · intro below
      refine ⟨positive, ?_⟩
      intro k other found differs
      rcases eq_or_ne j k with rfl | apart
      · rw [List.getElem?_set_self inside] at found
        cases found
        exact below differs
      · rw [List.getElem?_set_ne apart] at found
        exact room k other found differs
  rw [Ne, validateContractClassLogs_ok_iff, changed, fits, List.length_set]
  simp only [count, true_and, not_forall, Nat.not_lt, exists_prop]

/-- Without a collision the changed entry no longer has the hash of its log. -/
theorem not_linesUp_set {i j : Nat} {fields : List Fr} {field : Fr}
    (lined : LinesUp poseidon2 publicInputs logFields) (given : logFields[i]? = some fields)
    (distinct : poseidon2 (fields.set j field) ≠ poseidon2 fields) :
    ¬ LinesUp poseidon2 publicInputs (logFields.set i (fields.set j field)) := by
  intro changed
  have there : i < logFields.length := (List.getElem?_eq_some_iff.mp given).1
  have listed := List.getElem?_eq_getElem (lined.lengths ▸ there)
  have before := lined.hashes i fields _ given listed
  have after := changed.hashes i _ _ (List.getElem?_set_self there) listed
  exact distinct (after.trans before.symm)

/-- Validation is what its comment says exactly when another check refuses the fields already or
every entry has the listed hash. It notices a changed field only by its place. -/
theorem validation_exact_iff (poseidon2 : List Fr → Fr)
    (publicInputs : PrivateKernelTailPublicInputs) (logFields : List (List Fr)) :
    ((validateContractClassLogs publicInputs logFields = .ok () ↔
        LinesUp poseidon2 publicInputs logFields ∧ LongEnough publicInputs logFields) ↔
      logFields.length ≠ publicInputs.getNonEmptyContractClassLogsHashes.length ∨
        ¬ LongEnough publicInputs logFields ∨
        ∀ (i : Nat) fields hash, logFields[i]? = some fields →
          publicInputs.getNonEmptyContractClassLogsHashes[i]? = some hash →
            poseidon2 fields = hash.value) ∧
    ∀ (i j : Nat) fields hash old field,
      validateContractClassLogs publicInputs logFields = .ok () →
      logFields[i]? = some fields →
      publicInputs.getNonEmptyContractClassLogsHashes[i]? = some hash →
      fields[j]? = some old → field ≠ old →
      poseidon2 (fields.set j field) ≠ poseidon2 fields →
        (LinesUp poseidon2 publicInputs logFields →
          ¬ LinesUp poseidon2 publicInputs (logFields.set i (fields.set j field))) ∧
        (validateContractClassLogs publicInputs (logFields.set i (fields.set j field)) ≠ .ok () ↔
          field ≠ 0 ∧ hash.length ≤ j) := by
  constructor
  · rw [validateContractClassLogs_ok_iff]
    constructor
    · intro exact
      by_cases count : logFields.length = publicInputs.getNonEmptyContractClassLogsHashes.length
      · by_cases long : LongEnough publicInputs logFields
        · exact .inr (.inr (exact.mp ⟨count, long⟩).1.hashes)
        · exact .inr (.inl long)
      · exact .inl count
    · intro reasons
      constructor
      · rintro ⟨count, long⟩
        rcases reasons with wrong | short | hashes
        · exact absurd count wrong
        · exact absurd long short
        · exact ⟨⟨count, hashes⟩, long⟩
      · rintro ⟨lined, long⟩
        exact ⟨lined.lengths, long⟩
  · intro i j fields hash old field accepted given listed found differs distinct
    refine ⟨fun lined => not_linesUp_set lined given distinct, ?_⟩
    exact set_refused_iff accepted given (List.getElem?_eq_some_iff.mp found).1 listed

end Accepted

/-! ## A forged entry -/

/-- The output of a private transaction with one class log hash. -/
private def sampleInputs (value : Fr) (length : Nat) : PrivateKernelTailPublicInputs where
  gasUsed := ⟨0, 0⟩
  feePayer := .zero
  expirationTimestamp := 0
  forPublic := none
  forRollup := some
    { noteHashes := []
      nullifiers := []
      l2ToL1Msgs := []
      privateLogs := []
      contractClassLogsHashes := [{ value := value, length := length }] }

private theorem sample_accepted (field : Fr) :
    validateContractClassLogs (sampleInputs 8 1) [fromEmittedFields [field]] = .ok () := by
  rw [validateContractClassLogs_ok_iff]
  refine ⟨rfl, ?_⟩
  intro i fields hash given listed
  cases i with
  | succ i => cases given
  | zero =>
    cases given
    cases listed
    rw [expectedMinLength_le_iff]
    refine ⟨Nat.one_pos, ?_⟩
    intro j other found differs
    cases j with
    | zero => exact Nat.one_pos
    | succ j =>
      have padding := List.mem_of_getElem? (show (List.replicate 3022 (0 : Fr))[j]? = some other
        from found)
      exact absurd (List.eq_of_mem_replicate padding) differs

theorem validation_exact_iff_sample :
    (LinesUp (fun fields => fields.headD 0 + 1) (sampleInputs 8 1) [fromEmittedFields [7]] →
      ¬ LinesUp (fun fields => fields.headD 0 + 1) (sampleInputs 8 1)
        ([fromEmittedFields [7]].set 0 ((fromEmittedFields [7]).set 0 9))) ∧
    (validateContractClassLogs (sampleInputs 8 1)
        ([fromEmittedFields [7]].set 0 ((fromEmittedFields [7]).set 0 9)) ≠ .ok () ↔
      (9 : Fr) ≠ 0 ∧ 1 ≤ 0) :=
  (validation_exact_iff (fun fields => fields.headD 0 + 1) (sampleInputs 8 1)
    [fromEmittedFields [7]]).2 0 0 _ _ 7 9 (sample_accepted 7) rfl rfl rfl (by decide) (by decide)

/-- The entry with the field 9 passes for the log hash of the entry with the field 7. -/
theorem forged_entry_accepted :
    LinesUp (fun fields => fields.headD 0 + 1) (sampleInputs 8 1) [fromEmittedFields [7]] ∧
      validateContractClassLogs (sampleInputs 8 1) [fromEmittedFields [9]] = .ok () ∧
      ¬ LinesUp (fun fields => fields.headD 0 + 1) (sampleInputs 8 1) [fromEmittedFields [9]] := by
  refine ⟨⟨rfl, ?_⟩, sample_accepted 9, ?_⟩
  · intro i fields hash given listed
    cases i with
    | zero =>
      cases given
      cases listed
      decide
    | succ i => cases given
  · intro lined
    exact absurd (lined.hashes 0 _ _ rfl rfl) (by decide)

end ClassLogValidation
end AztecPxe
