import AztecPxe.PendingNotes
import AztecPxe.PersistNotes

/-! Notes that a transaction has spent. Within one call tree a spent note of the
store is remembered by its siloed nullifier and a spent pending note by its
counter; from one top-level call to the next only the note store remembers, and
it hears of notes the call announced, not of notes of the store the call spent.
A spent note is not offered again if notes of the store are only spent by the
last call, under a nullifier the store knows, and no hash is made twice. -/
namespace AztecPxe
open PrivateExecutionOracle Script

namespace Step
variable (crypto : Crypto) (innerNullifier : StoredNote → Fr)

/-- The step announces that a note is nullified, by its contract, its hash and
its inner nullifier. -/
def Spends (note : StoredNote) (step : Step) : Prop :=
  ∃ entry ∈ step.noteNullifier, entry.contractAddress = note.contractAddress ∧
    entry.nullifier.noteHash = note.noteHash ∧
    entry.nullifier.value = innerNullifier note.unscoped

instance (note : StoredNote) (step : Step) : Decidable (step.Spends innerNullifier note) :=
  inferInstanceAs (Decidable (∃ entry ∈ step.noteNullifier,
    entry.contractAddress = note.contractAddress ∧ entry.nullifier.noteHash = note.noteHash ∧
      entry.nullifier.value = innerNullifier note.unscoped))

/-- The step spends no active note of the store. -/
def SparesStored (store : NoteStore) (step : Step) : Prop :=
  ∀ note ∈ store.getAllNotes, note.nullified = false → ¬ step.Spends innerNullifier note

/-- An active note of the store that the step spends has its siloed nullifier
there. -/
def SpendsKnown (store : NoteStore) (step : Step) : Prop :=
  ∀ note ∈ store.getAllNotes, note.nullified = false → step.Spends innerNullifier note →
    note.siloedNullifier ≠ 0 ∧ note.siloedNullifier =
      Hash.siloNullifier crypto.poseidon2 note.contractAddress (innerNullifier note.unscoped)

/-- The later step does not announce a note of the hash that the earlier one
nullified. -/
def NotRemade (earlier later : Step) : Prop :=
  ∀ named ∈ earlier.nullifiedHash, ∀ note ∈ later.notes,
    (note.contractAddress, note.noteHash) ≠ named

instance (store : NoteStore) (step : Step) : Decidable (step.SparesStored innerNullifier store) :=
  inferInstanceAs (Decidable (∀ note ∈ store.getAllNotes, note.nullified = false →
    ¬ step.Spends innerNullifier note))

instance (store : NoteStore) (step : Step) :
    Decidable (step.SpendsKnown crypto innerNullifier store) :=
  inferInstanceAs (Decidable (∀ note ∈ store.getAllNotes, note.nullified = false →
    step.Spends innerNullifier note → note.siloedNullifier ≠ 0 ∧ note.siloedNullifier =
      Hash.siloNullifier crypto.poseidon2 note.contractAddress (innerNullifier note.unscoped)))

instance : DecidableRel NotRemade := fun earlier later =>
  inferInstanceAs (Decidable (∀ named ∈ earlier.nullifiedHash, ∀ note ∈ later.notes,
    (note.contractAddress, note.noteHash) ≠ named))

end Step

namespace SpentNotes

/-- In one call tree no two note hashes share a value or a counter, and none is
zero. -/
structure Fresh (steps : List Step) : Prop where
  values : ((steps.flatMap Step.addedNoteHashes).map (·.noteHash.value)).Nodup
  counters : ((steps.flatMap Step.addedNoteHashes).map (·.noteHash.counter)).Nodup
  nonzero : ∀ noteHash ∈ steps.flatMap Step.addedNoteHashes, noteHash.noteHash.value ≠ 0

section Batch
open EmbeddedPxe
variable (crypto : Crypto) (contracts : ContractStore) (origin : AztecAddress)
variable (protocolNullifier : Fr) (capsules : List Capsule) (scopes : List AztecAddress)

/-- The note store after a top-level call: only private functions persist notes. -/
def storeAfter (store : NoteStore) (target : Target) (bundle : CallExecutionBundle) : NoteStore :=
  match target with
  | .privateFunction .. => persistPendingNotes store bundle.executionResult scopes
  | _ => store

/-- The steps of a private top-level call, with the store it runs on. -/
def stepsOf (store : NoteStore) (call : DecodedEntrypointCall) :
    Target → List (NoteStore × List Step)
  | .privateFunction _ script _ => [(store, script.steps crypto contracts
      (Root.topLevel call origin protocolNullifier).oracle)]
  | _ => []

/-- The states a batch of top-level calls comes through: the calls before it with
the store each ran on, then the points passed in the running call. -/
inductive Reached : List (DecodedEntrypointCall × Target) → NoteStore →
    List (NoteStore × List Step) → NoteStore → List Step → PrivateExecutionOracle → Prop where
  | inside {call : DecodedEntrypointCall} {function : PrivateFunction} {script : Script}
      {output : AcvmExecutionOutput} {rest : List (DecodedEntrypointCall × Target)}
      {store : NoteStore} {passed : List Step} {state : PrivateExecutionOracle}
      (reaches : Reaches crypto contracts script
        (Root.topLevel call origin protocolNullifier).oracle passed state) :
      Reached ((call, .privateFunction function script output) :: rest) store [] store passed state
  | later {call : DecodedEntrypointCall} {target : Target}
      {rest : List (DecodedEntrypointCall × Target)} {bundle : CallExecutionBundle}
      {store storeAt : NoteStore} {history : List (NoteStore × List Step)} {passed : List Step}
      {state : PrivateExecutionOracle}
      (ran : executeEntrypointCallBundle crypto contracts origin protocolNullifier capsules call
        target = .ok bundle)
      (after : Reached rest (storeAfter scopes store target bundle) history storeAt passed state) :
      Reached ((call, target) :: rest) store
        (stepsOf crypto contracts origin protocolNullifier store call target ++ history) storeAt
        passed state

end Batch

variable {crypto : Crypto} {contracts : ContractStore} {innerNullifier : StoredNote → Fr}
variable {script : Script} {root : EmbeddedPxe.Root} {passed : List Step}
variable {state : PrivateExecutionOracle} {note : NoteAndSlot}

/-- What a step that spends a note is. -/
private theorem spends_cases {step : Step} {stored : StoredNote}
    (spends : step.Spends innerNullifier stored) :
    ∃ oracle args, step = .foreign oracle .notifyNullifiedNote args ∧
      oracle.contractAddress = stored.contractAddress ∧
      (args.first 1).getD 0 = stored.noteHash ∧
      (args.first 0).getD 0 = innerNullifier stored.unscoped := by
  obtain ⟨entry, told, own, hash, inner⟩ := spends
  unfold Step.noteNullifier at told
  split at told
  next oracle args =>
    rw [List.mem_singleton] at told
    subst told
    exact ⟨oracle, args, rfl, own, hash, inner⟩
  · cases told

private theorem nullifiedHash_of_spends {step : Step} {stored : StoredNote}
    (spends : step.Spends innerNullifier stored) :
    step.nullifiedHash = some (stored.contractAddress, stored.noteHash) := by
  obtain ⟨oracle, args, rfl, own, hash, -⟩ := spends_cases spends
  rw [← own, ← hash]
  rfl

section Tree

private theorem announced_sublist (steps : List Step) :
    List.Sublist (steps.flatMap Step.announced) (steps.flatMap Step.addedNoteHashes) := by
  induction steps with
  | nil => exact .slnil
  | cons step rest ih =>
    rw [List.flatMap_cons, List.flatMap_cons]
    refine List.Sublist.append ?_ ih
    cases step with
    | foreign oracle handler args => exact List.Sublist.refl _
    | called oracle args => exact List.Sublist.refl _
    | returned oracle call output inner => exact List.nil_sublist _

private theorem scopedHash_notes (steps : List Step) :
    (steps.flatMap Step.notes).map (·.scopedHash) = steps.flatMap Step.announced := by
  rw [List.map_flatMap]
  congr 1
  funext step
  cases step with
  | foreign oracle handler args => cases handler <;> rfl
  | called oracle args => rfl
  | returned oracle call output inner => rfl

/-- At most one note of a hash is announced. -/
private theorem countP_notes_le (fresh : Fresh passed) (hash : Fr) :
    (passed.flatMap Step.notes).countP (fun note => decide (note.noteHash = hash)) ≤ 1 := by
  have values : ((passed.flatMap Step.notes).map (·.noteHash)).Nodup := by
    have same : (passed.flatMap Step.notes).map (·.noteHash) =
        (passed.flatMap Step.announced).map (·.noteHash.value) := by
      rw [← scopedHash_notes, List.map_map]
      rfl
    rw [same]
    exact fresh.values.sublist ((announced_sublist passed).map _)
  have counted := List.nodup_iff_count_le_one.mp values hash
  rw [List.count, List.countP_map] at counted
  refine le_trans (List.countP_mono_left ?_) counted
  intro note _ same
  simpa using same

/-- Where a step nullifies a note its tree announced, it does so after the
announcement. -/
private theorem before_of_notRemade {before after : List Step} {step : Step}
    (ordered : (before ++ step :: after).Pairwise Step.NotRemade)
    (told : note ∈ (before ++ step :: after).flatMap Step.notes)
    (named : step.nullifiedHash = some (note.contractAddress, note.noteHash)) :
    note ∈ before.flatMap Step.notes := by
  rw [List.flatMap_append, List.flatMap_cons, List.mem_append, List.mem_append] at told
  rcases told with early | own | late
  · exact early
  · unfold Step.nullifiedHash Step.nullification at named
    unfold Step.notes at own
    cases step with
    | foreign oracle handler args => cases handler <;> first | cases named | cases own
    | called oracle args => cases named
    | returned oracle call output inner => cases named
  · obtain ⟨later, inside, announces⟩ := List.mem_flatMap.mp late
    rw [List.pairwise_append] at ordered
    have clash := (List.pairwise_cons.mp ordered.2.1).1 later inside _ named note announces
    exact (clash rfl).elim

/-- A note announced and nullified in a tree is paired, in every state after it. -/
private theorem paired_of_spent
    (reaches : Reaches crypto contracts script root.oracle passed state) (fresh : Fresh passed)
    (ordered : passed.Pairwise Step.NotRemade) (told : note ∈ passed.flatMap Step.notes)
    {oracle : PrivateExecutionOracle} {args : Args}
    (inside : .foreign oracle .notifyNullifiedNote args ∈ passed)
    (own : oracle.contractAddress = note.contractAddress)
    (hash : (args.first 1).getD 0 = note.noteHash) :
    note.counter ∈ state.noteHashNullifierCounterMap := by
  obtain ⟨before, after, rfl⟩ := List.append_of_mem inside
  have named : (Step.foreign oracle .notifyNullifiedNote args).nullifiedHash =
      some (note.contractAddress, note.noteHash) := by
    rw [← own, ← hash]
    rfl
  have recorded : note.scopedHash ∈ before.flatMap Step.addedNoteHashes :=
    PendingNotes.scopedHash_mem (before_of_notRemade ordered told named)
  have started : root.oracle.noteHashes = [] := by cases root <;> rfl
  have there : oracle.noteHashes = [] ++ before.flatMap Step.addedNoteHashes :=
    ((CircuitOutputs.noteHashRecorder crypto contracts).reached (fun _ _ => rfl) _).at_state
      (reaches_of_split reaches rfl) started
  have whole : ∀ entry ∈ before.flatMap Step.addedNoteHashes,
      entry ∈ (before ++ .foreign oracle .notifyNullifiedNote args :: after).flatMap
        Step.addedNoteHashes := by
    intro entry held
    rw [List.flatMap_append]
    exact List.mem_append_left _ held
  -- the first note hash of the value is the note's own
  obtain ⟨first, found⟩ : ∃ first, oracle.firstWith note.noteHash = some first := by
    apply Option.isSome_iff_exists.mp
    unfold firstWith
    rw [List.find?_isSome, there]
    exact ⟨note.scopedHash, recorded, by simp [NoteAndSlot.scopedHash]⟩
  have held : first ∈ before.flatMap Step.addedNoteHashes := by
    have known : first ∈ oracle.noteHashes := List.mem_of_find?_eq_some found
    rw [there] at known
    exact known
  have value : first.noteHash.value = note.scopedHash.noteHash.value := by
    simpa [NoteAndSlot.scopedHash] using List.find?_some found
  have same : first = note.scopedHash :=
    List.inj_on_of_nodup_map fresh.values (whole _ held) (whole _ recorded) value
  have nonzero : note.noteHash ≠ 0 := fresh.nonzero note.scopedHash (whole _ recorded)
  have empty : root.oracle.noteHashNullifierCounterMap = ∅ := by cases root <;> rfl
  apply ((CounterPairs.keys_reached crypto contracts root.oracle).at_state reaches
    (fun k => by simp) note.counter).mpr
  refine .inr (List.mem_map.mpr ⟨(note.counter, oracle.numbered (args.counter 2)), ?_, rfl⟩)
  refine List.mem_flatMap.mpr ⟨_, inside, ?_⟩
  simp only [Step.pairs, hash, if_neg nonzero, found, same]
  exact List.mem_cons_self

/-- A pending note that its tree has nullified is not offered. -/
private theorem not_pending_of_spent
    (reaches : Reaches crypto contracts script root.oracle passed state) (fresh : Fresh passed)
    (ordered : passed.Pairwise Step.NotRemade) {step : Step} (inside : step ∈ passed)
    {stored : StoredNote} (spends : step.Spends innerNullifier stored) {storageSlot : Fr}
    {owner : Option AztecAddress} : stored ∉ state.pendingNotes storageSlot owner := by
  intro offered
  obtain ⟨note, told, -, rfl⟩ := mem_pendingNotes offered
  obtain ⟨oracle, args, rfl, own, hash, -⟩ := spends_cases spends
  have notes : state.newNotes = [] ++ passed.flatMap Step.notes :=
    ((Recorder.notes crypto contracts).reached (fun _ _ => rfl) _).at_state reaches
      (by cases root <;> rfl)
  have noteHashes : state.noteHashes = [] ++ passed.flatMap Step.addedNoteHashes :=
    ((CircuitOutputs.noteHashRecorder crypto contracts).reached (fun _ _ => rfl) _).at_state
      reaches (by cases root <;> rfl)
  rw [List.nil_append] at notes noteHashes
  rw [notes] at told
  have paired := paired_of_spent reaches fresh ordered told inside own hash
  have distinct : (state.noteHashes.map (·.noteHash.counter)).Nodup := by
    rw [noteHashes]
    exact fresh.counters
  have hashed : state.hashAt note.counter = some note.noteHash := by
    rw [PendingNotes.hashAt_eq_iff distinct, List.any_eq_true, noteHashes]
    exact ⟨note.scopedHash, PendingNotes.scopedHash_mem told, by simp [NoteAndSlot.scopedHash]⟩
  have one : 0 < state.noteHashNullifierCounterMap.keys.countP (fun counter =>
      state.hashAt counter = some note.noteHash) :=
    List.countP_pos_iff.mpr ⟨note.counter, Std.ExtTreeMap.mem_keys.mpr paired, by simp [hashed]⟩
  have atMost : state.newNotes.countP (fun other => state.asksFor storageSlot owner other &&
      decide (other.noteHash = note.noteHash)) ≤ 1 := by
    rw [notes]
    refine le_trans (List.countP_mono_left ?_) (countP_notes_le fresh note.noteHash)
    intro other _ both
    exact (Bool.and_eq_true_iff.mp both).2
  have counted : 0 < (state.pendingNotes storageSlot owner).countP (·.noteHash = note.noteHash) :=
    List.countP_pos_iff.mpr ⟨note.offered, offered, by simp [NoteAndSlot.offered]⟩
  rw [countP_pendingNotes] at counted
  omega

/-- A note of the store that its tree has spent under a nullifier the store knows
is not offered. -/
private theorem not_stored_of_spent
    (reaches : Reaches crypto contracts script root.oracle passed state) {step : Step}
    (inside : step ∈ passed) {stored : StoredNote} (spends : step.Spends innerNullifier stored)
    (nonzero : stored.siloedNullifier ≠ 0)
    (siloed : stored.siloedNullifier = Hash.siloNullifier crypto.poseidon2 stored.contractAddress
      (innerNullifier stored.unscoped)) {store : NoteStore} {storageSlot : Fr}
    {owner : Option AztecAddress} {status : NoteStatus} :
    stored ∉ state.storedNotes store storageSlot owner status := by
  intro offered
  obtain ⟨oracle, args, rfl, own, -, inner⟩ := spends_cases spends
  have consumed : stored.siloedNullifier ∈ state.consumedDbNullifiers := by
    apply ((NestedMerge.consumed_reached crypto contracts root.oracle).at_state reaches
      (fun k => by simp) _).mpr
    refine .inr (List.mem_flatMap.mpr ⟨_, inside, ?_⟩)
    rw [siloed, ← own, ← inner]
    exact List.mem_cons_self
  have kept := (List.mem_filter.mp offered).2
  rw [Bool.or_eq_true, decide_eq_true_eq, Bool.not_eq_true'] at kept
  rcases kept with zero | unseen
  · exact nonzero zero
  · rw [← Bool.not_eq_true, Std.ExtTreeSet.contains_iff_mem] at unseen
    exact unseen consumed

end Tree

section Batch
open EmbeddedPxe
variable {origin : AztecAddress} {protocolNullifier : Fr} {capsules : List Capsule}
variable {scopes : List AztecAddress} {calls : List (DecodedEntrypointCall × Target)}
variable {store storeAt : NoteStore} {history : List (NoteStore × List Step)}

/-- The record is that of a note a finished call announced, and if it is active
no step of that call spends it. -/
def PersistedBy (innerNullifier : StoredNote → Fr) (steps : List Step) (stored : StoredNote) :
    Prop :=
  (∃ note ∈ steps.flatMap Step.notes, note.contractAddress = stored.contractAddress ∧
    note.noteHash = stored.noteHash) ∧
  (Fresh steps → steps.Pairwise Step.NotRemade → stored.nullified = false →
    ∀ step ∈ steps, ¬ step.Spends innerNullifier stored)

private theorem spends_congr {step : Step} {a b : StoredNote} (same : a.unscoped = b.unscoped)
    (spends : step.Spends innerNullifier a) : step.Spends innerNullifier b := by
  obtain ⟨entry, told, own, hash, inner⟩ := spends
  have contract : a.unscoped.contractAddress = b.unscoped.contractAddress := by rw [same]
  have value : a.unscoped.noteHash = b.unscoped.noteHash := by rw [same]
  exact ⟨entry, told, own.trans contract, hash.trans value, inner.trans (congrArg _ same)⟩

private theorem PersistedBy.congr {steps : List Step} {a b : StoredNote}
    (same : a.unscoped = b.unscoped) (persisted : PersistedBy innerNullifier steps a) :
    PersistedBy innerNullifier steps b := by
  obtain ⟨⟨note, told, contract, value⟩, spared⟩ := persisted
  have contracts : a.unscoped.contractAddress = b.unscoped.contractAddress := by rw [same]
  have values : a.unscoped.noteHash = b.unscoped.noteHash := by rw [same]
  have flags : a.unscoped.nullified = b.unscoped.nullified := by rw [same]
  refine ⟨⟨note, told, contract.trans contracts, value.trans values⟩, ?_⟩
  intro fresh ordered active step within spends
  exact spared fresh ordered (flags.trans active) step within (spends_congr same.symm spends)

/-- The records a private call leaves in the store. -/
private theorem persisted_of_run {call : DecodedEntrypointCall} {function : PrivateFunction}
    {output : AcvmExecutionOutput} {final : PrivateExecutionOracle}
    (ran : script.execute crypto contracts (Root.topLevel call origin protocolNullifier).oracle =
      .ok final) {key : Fr} {stored : StoredNote}
    (held : (persistPendingNotes store ((Root.topLevel call origin protocolNullifier).bundle
      function output final).executionResult scopes).notes[key]? = some stored) :
    (∃ before, store.notes[key]? = some before ∧ before.unscoped = stored.unscoped) ∨
      PersistedBy innerNullifier
        (script.steps crypto contracts (Root.topLevel call origin protocolNullifier).oracle)
        stored := by
  have runs := runs_of_execute ran
  rcases kept_persistPendingNotes store key stored held with before | ⟨_, found, same⟩
  · exact .inl before
  obtain ⟨result, inside, note, told, rfl⟩ := found
  have announced := announced_of_mem runs inside told
  have contract : stored.contractAddress = note.contractAddress :=
    congrArg StoredNote.contractAddress same
  have value : stored.noteHash = note.noteHash := congrArg StoredNote.noteHash same
  refine .inr ⟨⟨note, announced, contract.symm, value.symm⟩, ?_⟩
  intro fresh ordered active step within spends
  obtain ⟨oracle, args, rfl, own, hash, -⟩ := spends_cases spends
  have paired := paired_of_spent (reaches_of_runs runs) fresh ordered announced within
    (own.trans contract) (hash.trans value)
  have flag : stored.unscoped.nullified = true := by
    rw [same]
    exact nullified_of_paired runs paired
  exact Bool.false_ne_true (active.symm.trans flag)

/-- The steps of a call and what the store has after it. -/
private theorem record_after {call : DecodedEntrypointCall} {target : Target}
    {bundle : CallExecutionBundle}
    (ran : executeEntrypointCallBundle crypto contracts origin protocolNullifier capsules call
      target = .ok bundle) {key : Fr} {stored : StoredNote}
    (held : (storeAfter scopes store target bundle).notes[key]? = some stored) :
    (∃ before, store.notes[key]? = some before ∧ before.unscoped = stored.unscoped) ∨
      ∃ entry ∈ stepsOf crypto contracts origin protocolNullifier store call target,
        PersistedBy innerNullifier entry.2 stored := by
  cases target with
  | privateFunction function script output =>
    rw [executeEntrypointCallBundle_private] at ran
    obtain ⟨final, executed, rfl⟩ := map_eq_ok ran
    rcases persisted_of_run executed held with before | persisted
    · exact .inl before
    · exact .inr ⟨_, List.mem_cons_self, persisted⟩
  | publishClass => exact .inl ⟨stored, held, rfl⟩
  | publishInstance => exact .inl ⟨stored, held, rfl⟩
  | publicFunction selector => exact .inl ⟨stored, held, rfl⟩

/-- Where a record of the store comes from: it was there before the batch, or a
call before this one persisted it. -/
private theorem origin_of_record
    (reached : Reached crypto contracts origin protocolNullifier capsules scopes calls store history
      storeAt passed state) {key : Fr} {stored : StoredNote}
    (held : storeAt.notes[key]? = some stored) :
    (∃ before, store.notes[key]? = some before ∧ before.unscoped = stored.unscoped) ∨
      ∃ entry ∈ history, PersistedBy innerNullifier entry.2 stored := by
  induction reached with
  | inside reaches => exact .inl ⟨stored, held, rfl⟩
  | later ran after ih =>
    rcases ih held with ⟨middle, between, same⟩ | ⟨entry, inside, persisted⟩
    · rcases record_after ran between with ⟨before, early, alike⟩ | ⟨entry, inside, persisted⟩
      · exact .inl ⟨before, early, alike.trans same⟩
      · exact .inr ⟨entry, List.mem_append_left _ inside, persisted.congr same⟩
    · exact .inr ⟨entry, List.mem_append_right _ inside, persisted⟩

/-- The same, from the start of any call before this one. -/
private theorem origin_since
    (reached : Reached crypto contracts origin protocolNullifier capsules scopes calls store history
      storeAt passed state) {early late : List (NoteStore × List Step)}
    {entry : NoteStore × List Step} (split : history = early ++ entry :: late) {key : Fr}
    {stored : StoredNote} (held : storeAt.notes[key]? = some stored) :
    (∃ before, entry.1.notes[key]? = some before ∧ before.unscoped = stored.unscoped) ∨
      ∃ other ∈ entry :: late, PersistedBy innerNullifier other.2 stored := by
  induction reached generalizing early with
  | inside reaches => cases early <;> cases split
  | @later call target rest bundle store storeAt history passed state ran after ih =>
    cases target with
    | privateFunction function script output =>
      cases early with
      | nil =>
        obtain ⟨rfl, rfl⟩ := List.cons.inj split
        exact origin_of_record (.later ran after) held
      | cons first early => exact ih (List.cons.inj split).2 held
    | publishClass => exact ih split held
    | publishInstance => exact ih split held
    | publicFunction selector => exact ih split held

private theorem getAllNotes_of_held {key : Fr} {stored : StoredNote}
    (held : store.notes[key]? = some stored) : stored ∈ store.getAllNotes :=
  List.mem_map.mpr ⟨(key, stored), Std.ExtTreeMap.mem_toList_iff_getElem?_eq_some.mpr held, rfl⟩

/-- A note offered from the store is a record of it. -/
private theorem held_of_storedNotes {stored : StoredNote} {storageSlot : Fr}
    {owner : Option AztecAddress} {status : NoteStatus}
    (offered : stored ∈ state.storedNotes store storageSlot owner status) :
    ∃ key : Fr, store.notes[key]? = some stored := by
  have listed := (List.mem_filter.mp offered).1
  unfold NoteStore.getNotes at listed
  rw [List.mem_insertionSort] at listed
  obtain ⟨key, -, held⟩ := List.mem_filterMap.mp (List.mem_filter.mp listed).1
  exact ⟨key, held⟩

/-- The running call is one of the top-level trees. -/
private theorem reaches_of_reached
    (reached : Reached crypto contracts origin protocolNullifier capsules scopes calls store history
      storeAt passed state) :
    ∃ script root, Reaches crypto contracts script (Root.oracle root) passed state := by
  induction reached with
  | inside reaches => exact ⟨_, _, reaches⟩
  | later ran after ih => exact ih

/-- What a step spends, no later step announces. -/
private theorem not_remade {step : Step} {later : List Step} {stored : StoredNote}
    (ordered : ∀ other ∈ later, step.NotRemade other) (spends : step.Spends innerNullifier stored)
    (told : ∃ note ∈ later.flatMap Step.notes, note.contractAddress = stored.contractAddress ∧
      note.noteHash = stored.noteHash) : False := by
  obtain ⟨note, announced, contract, value⟩ := told
  obtain ⟨other, inside, announces⟩ := List.mem_flatMap.mp announced
  apply ordered other inside _ (nullifiedHash_of_spends spends) note announces
  rw [contract, value]

/-- The steps of the calls, each with those after it. -/
private theorem pairwise_split {early late : List (NoteStore × List Step)}
    {entry : NoteStore × List Step}
    (ordered : ((early ++ entry :: late).flatMap Prod.snd).Pairwise Step.NotRemade) :
    entry.2.Pairwise Step.NotRemade ∧
      ∀ step ∈ entry.2, ∀ other ∈ late, ∀ next ∈ other.2, step.NotRemade next := by
  rw [List.flatMap_append, List.flatMap_cons, List.pairwise_append] at ordered
  have onwards := List.pairwise_append.mp ordered.2.1
  exact ⟨onwards.1, fun step taken other later next inside =>
    onwards.2.2 step taken next (List.mem_flatMap.mpr ⟨other, later, inside⟩)⟩

end Batch

/-- In every state of a batch of top-level calls, no active note that `get_notes`
returns was spent by an earlier step of the transaction, if the calls before
spend no active note of the store, the running call spends those the store knows
the nullifier of, every tree makes fresh note hashes, and no hash is made again
after it was nullified. -/
theorem spent_note_not_offered (crypto : Crypto) (contracts : ContractStore)
    (innerNullifier : StoredNote → Fr) (origin : AztecAddress) (protocolNullifier : Fr)
    (capsules : List Capsule) (scopes : List AztecAddress)
    (calls : List (DecodedEntrypointCall × EmbeddedPxe.Target)) (store storeAt : NoteStore)
    (history : List (NoteStore × List Step)) (passed : List Step) (state : PrivateExecutionOracle)
    (reached : Reached crypto contracts origin protocolNullifier capsules scopes calls store history
      storeAt passed state)
    (spares : ∀ entry ∈ history, ∀ step ∈ entry.2, step.SparesStored innerNullifier entry.1)
    (known : ∀ step ∈ passed, step.SpendsKnown crypto innerNullifier storeAt)
    (freshBefore : ∀ entry ∈ history, Fresh entry.2) (fresh : Fresh passed)
    (ordered : (history.flatMap Prod.snd ++ passed).Pairwise Step.NotRemade) :
    ∀ args notes, state.returnedNotes storeAt args = some (.ok notes) → ∀ note ∈ notes,
      note.nullified = false → ∀ step ∈ history.flatMap Prod.snd ++ passed,
        ¬ step.Spends innerNullifier note := by
  intro args notes returned note inside active step within spends
  obtain ⟨storageSlot, status, offered⟩ := mem_returnedNotes returned
  obtain ⟨script, root, reaches⟩ := reaches_of_reached reached
  have orders := List.pairwise_append.mp ordered
  rcases List.mem_append.mp within with before | here
  · obtain ⟨entry, finished, taken⟩ := List.mem_flatMap.mp before
    rcases List.mem_append.mp (offered note inside) with stored | pending
    · -- a call before this one spent a note that the store still has as active
      obtain ⟨key, held⟩ := held_of_storedNotes stored
      obtain ⟨early, late, rfl⟩ := List.append_of_mem finished
      rcases origin_since reached rfl held with ⟨old, there, same⟩ | ⟨other, later, persisted⟩
      · have flags : old.unscoped.nullified = note.unscoped.nullified := by rw [same]
        exact spares entry finished step taken old (getAllNotes_of_held there)
          (flags.trans active) (spends_congr same.symm spends)
      · obtain ⟨own, onwards⟩ := pairwise_split orders.1
        rcases List.mem_cons.mp later with rfl | after
        · exact persisted.2 (freshBefore _ finished) own active step taken spends
        · exact not_remade (onwards step taken other after) spends persisted.1
    · obtain ⟨announced, told, -, rfl⟩ := mem_pendingNotes pending
      have notes : state.newNotes = [] ++ passed.flatMap Step.notes :=
        ((Recorder.notes crypto contracts).reached (fun _ _ => rfl) _).at_state reaches
          (by cases root <;> rfl)
      rw [notes] at told
      exact not_remade (orders.2.2 step before) spends ⟨announced, told, rfl, rfl⟩
  · rcases List.mem_append.mp (offered note inside) with stored | pending
    · obtain ⟨key, held⟩ := held_of_storedNotes stored
      obtain ⟨nonzero, siloed⟩ := known step here note (getAllNotes_of_held held) active spends
      exact not_stored_of_spent reaches here spends nonzero siloed stored
    · exact not_pending_of_spent reaches fresh orders.2.1 here spends pending

/-- Hashes that are all seven. -/
def sevens : Crypto := ⟨fun _ => 7, fun _ _ => .ok .zero⟩

/-- A call to the contract twenty. -/
def callTwenty : DecodedEntrypointCall := ⟨⟨20⟩, .fromField 5, [], false, false⟩

/-- A settled note of the contract twenty, with the hash nine. -/
def settledNote : StoredNote where
  contractAddress := ⟨20⟩
  owner := ⟨1⟩
  storageSlot := 2
  randomness := 3
  noteNonce := 4
  noteHash := 9
  siloedNullifier := 7
  noteData := []
  nullified := false
  isPending := false
  nullificationBlockNumber := none
  leafIndex := none
  blockNumber := some 1
  txIndexInBlock := none
  noteIndexInTx := none
  scopes := [⟨1⟩]

/-- A store with that note. -/
def settledStore : NoteStore := ({} : NoteStore).addNote settledNote

/-- The nullifiers the contract twenty spends its notes under. -/
def spentUnder (note : StoredNote) : Fr := if note.noteHash = 9 then 11 else 13

/-- The first call makes a note and spends it; the second makes another and
spends the settled one. -/
def spendingLast : List (DecodedEntrypointCall × EmbeddedPxe.Target) :=
  [(callTwenty, .privateFunction ⟨none, false, 0⟩
      (.foreign .notifyCreatedNote [[1], [2], [3], [4], [], [12], [2]]
        (.foreign .notifyNullifiedNote [[13], [12], [3]] .done)) {}),
    (callTwenty, .privateFunction ⟨none, false, 0⟩
      (.foreign .notifyCreatedNote [[1], [2], [3], [4], [], [14], [2]]
        (.foreign .notifyNullifiedNote [[11], [9], [3]] .done)) {})]

/-- At the end of the second call neither spent note is offered. -/
theorem spendingLast_not_offered :
    ∃ history storeAt passed state,
      Reached sevens .empty ⟨8⟩ 1 [] [⟨1⟩] spendingLast settledStore history storeAt passed state ∧
      history.length = 1 ∧ passed.length = 2 ∧
      ∀ args notes, state.returnedNotes storeAt args = some (.ok notes) → ∀ note ∈ notes,
        note.nullified = false → ∀ step ∈ history.flatMap Prod.snd ++ passed,
          ¬ step.Spends spentUnder note := by
  have reached : Reached sevens .empty ⟨8⟩ 1 [] [⟨1⟩] spendingLast settledStore _ _ _ _ :=
    .later rfl (.inside (reaches_of_runs (runs_of_execute rfl)))
  exact ⟨_, _, _, _, reached, rfl, rfl,
    spent_note_not_offered sevens .empty spentUnder ⟨8⟩ 1 [] [⟨1⟩] spendingLast settledStore _ _ _ _
      reached (by decide) (by decide)
      (fun entry inside => by
        rw [List.append_nil, stepsOf, List.mem_singleton] at inside
        subst inside
        exact ⟨by decide, by decide, by decide⟩)
      ⟨by decide, by decide, by decide⟩ (by decide)⟩

/-- The first call spends the settled note; the second asks for notes. -/
def spendingFirst : List (DecodedEntrypointCall × EmbeddedPxe.Target) :=
  [(callTwenty, .privateFunction ⟨none, false, 0⟩
      (.foreign .notifyNullifiedNote [[11], [9], [4]] .done) {}),
    (callTwenty, .privateFunction ⟨none, false, 0⟩ .done {})]

/-- The second call is offered the note that the first has spent. -/
theorem settledNote_offered_again :
    ∃ history storeAt state,
      Reached sevens .empty ⟨8⟩ 1 [] [⟨1⟩] spendingFirst settledStore history storeAt [] state ∧
      state.returnedNotes storeAt [[0], [0], [2], [0], [], [], [], [], [], [], [], [], [], [0], [0],
        [1], [10], [6]] = some (.ok [settledNote]) ∧
      ∃ step ∈ history.flatMap Prod.snd, step.Spends spentUnder settledNote := by
  have reached : Reached sevens .empty ⟨8⟩ 1 [] [⟨1⟩] spendingFirst settledStore _ _ [] _ :=
    .later rfl (.inside .here)
  exact ⟨_, _, _, reached, by decide, by decide⟩

end SpentNotes

end AztecPxe
