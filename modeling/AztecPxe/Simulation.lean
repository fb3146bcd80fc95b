import AztecPxe.Expiration
import AztecPxe.LiveExecution
import AztecPxe.PersistedRecords

/-! `simulate_tx` and `profile_tx` over the stores they share with `prove_tx`.
They execute each top-level call as `prove_tx` does: its pending notes go to the
note store and the indexes of its tags are taken, whether the transaction is
then proved, only reported on, or fails. -/
namespace AztecPxe

/-- The stores that executions share. -/
structure Stores where
  notes : NoteStore := {}
  tagging : SenderTaggingStore := {}

/-- What the function of a top-level call turns out to be, with its circuit. -/
inductive LiveTarget where
  | publishClass
  | publishInstance
  | publicFunction (selector : FunctionSelector)
  | privateFunction (function : PrivateFunction) (circuit : Circuit)

/-- A transaction request as far as it is decoded, or the error of that, and each
call as far as its function is found. -/
structure LiveRequest where
  origin : AztecAddress
  protocolNullifier : Fr := 0
  capsules : List Capsule := []
  feePayer : Option AztecAddress := none
  calls : Except Error (List (DecodedEntrypointCall × Except Halt LiveTarget))

/-- An execution over the stores. Beside what it leaves, `exchanges` says what it
was told by them and `persisted` of which calls it persisted the notes. -/
structure Executed (α : Type) where
  outcome : Except Halt α
  stores : Stores
  exchanges : List Exchange := []
  persisted : List PrivateExecutionResult := []

namespace EmbeddedPxe
variable (crypto : Crypto) (contracts : ContractStore) (secrets : TaggingSecrets)
variable (scopes : List AztecAddress)

/-- `execute_entrypoint_call_bundle` over the stores: only a private function
that comes to its end persists notes. -/
def executeLive (request : LiveRequest) (call : DecodedEntrypointCall) (target : LiveTarget)
    (stores : Stores) : Executed CallExecutionBundle :=
  let settled (target : Target) : Executed CallExecutionBundle :=
    ⟨(executeEntrypointCallBundle crypto contracts request.origin request.protocolNullifier
      request.capsules call target).mapError .error, stores, [], []⟩
  match target with
  | .publishClass => settled .publishClass
  | .publishInstance => settled .publishInstance
  | .publicFunction selector => settled (.publicFunction selector)
  | .privateFunction function circuit =>
    let ran := circuit.run crypto contracts secrets stores.notes
      (callOracle call request.origin request.protocolNullifier) stores.tagging
    match ran.outcome with
    | .error halt => ⟨.error halt, { stores with tagging := ran.tagging }, ran.exchanges, []⟩
    | .ok (output, final) =>
      let bundle := privateCallBundle call request.origin function output final
      ⟨.ok bundle,
        { notes := persistPendingNotes stores.notes bundle.executionResult scopes
          tagging := ran.tagging },
        ran.exchanges, [bundle.executionResult]⟩

/-- The loop over the top-level calls, which the first failure ends. -/
def executeAll (request : LiveRequest) :
    List (DecodedEntrypointCall × Except Halt LiveTarget) → Stores →
      Executed (List CallExecutionBundle)
  | [], stores => ⟨.ok [], stores, [], []⟩
  | (_, .error halt) :: _, stores => ⟨.error halt, stores, [], []⟩
  | (call, .ok target) :: rest, stores =>
    let first := executeLive crypto contracts secrets scopes request call target stores
    match first.outcome with
    | .error halt => ⟨.error halt, first.stores, first.exchanges, first.persisted⟩
    | .ok bundle =>
      let later := executeAll request rest first.stores
      ⟨later.outcome.map (bundle :: ·), later.stores, first.exchanges ++ later.exchanges,
        first.persisted ++ later.persisted⟩

/-- The part `simulate_tx` and `profile_tx` have in common: the calls are executed
and aggregated, then the rest is done without the stores. -/
def executeRequest {α : Type} (request : LiveRequest)
    (finish : CallExecutionBundle → Except Error α) (stores : Stores) : Executed α :=
  match request.calls with
  | .error e => ⟨.error (.error e), stores, [], []⟩
  | .ok calls =>
    let executed := executeAll crypto contracts secrets scopes request calls stores
    { executed with outcome := match executed.outcome with
        | .error halt => .error halt
        | .ok bundles => (finish (aggregateCallBundles request.origin bundles)).mapError .error }

/-- `simulate_tx` once the block state is synced, up to its report on what the
kernel returns. `verified` is the outcome of `verify_auth_witness_signatures`. -/
def simulateTx (request : LiveRequest) (verified : Except Error Unit) (stores : Stores) :
    Executed PrivateKernelTailPublicInputs :=
  executeRequest crypto contracts secrets scopes request (fun aggregated => do
    verified
    SimulatedKernel.process crypto.poseidon2 aggregated.executionResult request.origin.inner 0)
    stores

/-- `profile_tx` once the block state is synced. -/
def profileTx (request : LiveRequest) (anchor : AnchorBlockHeader) (stores : Stores) :
    Executed PrivateKernelTailPublicInputs :=
  executeRequest crypto contracts secrets scopes request (fun aggregated =>
    SimulatedKernel.process crypto.poseidon2 aggregated.executionResult
      (request.feePayer.getD request.origin).inner
      (Expiration.kernelExpiration anchor aggregated.executionResult)) stores

end EmbeddedPxe

namespace Simulation
open EmbeddedPxe PersistedRecords NoteStoreRollback

/-! ## What is written -/

/-- The scopes `persist_pending_notes` stores a note for. -/
def storedFor (scopes : List AztecAddress) (note : NoteAndSlot) : List AztecAddress :=
  let owning := scopes.filter (fun scope => scope = note.owner)
  if owning.isEmpty then
    if scopes.isEmpty then [] else [if note.owner.inner ≠ 0 then note.owner else .zero]
  else owning

/-- Every record and scope `persist_pending_notes` adds. -/
def insertions (scopes : List AztecAddress) (result : PrivateExecutionResult) :
    List (StoredNote × AztecAddress) :=
  (newNotes result).flatMap (fun note =>
    (storedFor scopes note).map (fun scope => (pendingRecord result note, scope)))

/-- The store after a list of additions. -/
def addAll (store : NoteStore) (entries : List (StoredNote × AztecAddress)) : NoteStore :=
  entries.foldl (fun store entry => store.addOne entry.1 entry.2) store

theorem persistPendingNotes_eq (store : NoteStore) (result : PrivateExecutionResult)
    (scopes : List AztecAddress) :
    persistPendingNotes store result scopes = addAll store (insertions scopes result) := by
  have one : ∀ (store : NoteStore) (note : NoteAndSlot),
      persistNote scopes result store note = addAll store
        ((storedFor scopes note).map (fun scope => (pendingRecord result note, scope))) := by
    intro store note
    unfold persistNote storedFor addAll
    dsimp only
    split
    · split <;> rfl
    · rw [List.foldl_map]
      rfl
  have flat : persistPendingNotes store result scopes =
      (newNotes result).foldl (persistNote scopes result) store := List.foldl_flatMap.symm
  have steps : persistNote scopes result = fun store note => addAll store
      ((storedFor scopes note).map (fun scope => (pendingRecord result note, scope))) := by
    funext store note
    exact one store note
  rw [flat, steps]
  exact List.foldl_flatMap.symm

/-- A record is there under a key, for a scope. -/
def Stored (store : NoteStore) (k : Fr) (scope : AztecAddress) : Prop :=
  ∃ record, store.notes[k]? = some record ∧ scope ∈ record.scopes

section AddAll
variable {store : NoteStore} {note : StoredNote} {scope other : AztecAddress} {k : Fr}

theorem mem_scopes_withScope : scope ∈ (note.withScope scope).scopes := by
  unfold StoredNote.withScope
  split
  next inside => exact inside
  · exact List.mem_append_right _ List.mem_cons_self

theorem mem_scopes_of_mem (inside : other ∈ note.scopes) : other ∈ (note.withScope scope).scopes := by
  unfold StoredNote.withScope
  split
  · exact inside
  · exact List.mem_append_left _ inside

theorem stored_self : Stored (store.addOne note scope) note.siloedNullifier scope := by
  refine ⟨(store.notes[note.siloedNullifier]?.getD note).withScope scope, ?_, mem_scopes_withScope⟩
  rw [notes_addOne, if_pos rfl]

theorem stored_addOne (stored : Stored store k other) : Stored (store.addOne note scope) k other := by
  obtain ⟨record, held, inside⟩ := stored
  by_cases same : k = note.siloedNullifier
  · refine ⟨record.withScope scope, ?_, mem_scopes_of_mem inside⟩
    rw [notes_addOne, if_pos same, held]
    rfl
  · refine ⟨record, ?_, inside⟩
    rw [notes_addOne, if_neg same, held]

/-- Adding what is there changes nothing. -/
theorem addOne_of_stored (stored : Stored store note.siloedNullifier scope) :
    store.addOne note scope = store := by
  obtain ⟨record, held, inside⟩ := stored
  have kept : record.withScope scope = record := by
    unfold StoredNote.withScope
    rw [if_pos inside]
  have same : store.notes.insert note.siloedNullifier record = store.notes := by
    apply Std.ExtTreeMap.ext_getElem?
    intro k
    rw [Std.ExtTreeMap.getElem?_insert]
    split
    next here => rw [← Std.LawfulEqCmp.eq_of_compare here, held]
    · rfl
  unfold NoteStore.addOne
  simp only [withScope_siloedNullifier, held, kept, same]

theorem stored_addAll (entries : List (StoredNote × AztecAddress)) {s : NoteStore}
    (stored : Stored s k other) : Stored (addAll s entries) k other :=
  Run.invariant_all (I := fun store => Stored store k other) stored
    (fun _ held => stored_addOne held) entries

theorem stored_of_mem {entries : List (StoredNote × AztecAddress)} (inside : (note, scope) ∈ entries) :
    Stored (addAll store entries) note.siloedNullifier scope := by
  induction entries generalizing store with
  | nil => cases inside
  | cons entry rest ih =>
    rcases List.mem_cons.mp inside with rfl | later
    · exact stored_addAll rest (s := store.addOne note scope) stored_self
    · exact ih later

theorem addAll_of_stored {entries : List (StoredNote × AztecAddress)}
    (stored : ∀ entry ∈ entries, Stored store entry.1.siloedNullifier entry.2) :
    addAll store entries = store := by
  induction entries with
  | nil => rfl
  | cons entry rest ih =>
    have first := addOne_of_stored (stored entry List.mem_cons_self)
    change addAll (store.addOne entry.1 entry.2) rest = store
    rw [first]
    exact ih (fun other inside => stored other (.tail _ inside))

theorem coherent_addAll (coherent : Coherent store) (entries : List (StoredNote × AztecAddress)) :
    Coherent (addAll store entries) :=
  Run.invariant_all coherent (fun entry held => coherent_addOne held entry.1 entry.2) entries

/-- Every query is answered as before exactly where all of it was there. -/
theorem getNotes_addAll_iff (coherent : Coherent store)
    (entries : List (StoredNote × AztecAddress)) :
    (∀ filter, (addAll store entries).getNotes filter = store.getNotes filter) ↔
      ∀ entry ∈ entries, Stored store entry.1.siloedNullifier entry.2 := by
  constructor
  · intro same entry inside
    obtain ⟨record, held, within⟩ : Stored (addAll store entries) entry.1.siloedNullifier entry.2 :=
      stored_of_mem inside
    have keyed := (coherent_addAll coherent entries).keyed held
    have listed : record ∈ (addAll store entries).getNotes { status := .activeOrNullified } := by
      simp only [NoteStore.getNotes, List.mem_insertionSort, List.mem_filter,
        NoteIndex.mem_getAllNotes (coherent_addAll coherent entries)]
      exact ⟨keyed.symm ▸ held, by simp [NoteFilter.accepts]⟩
    rw [same] at listed
    simp only [NoteStore.getNotes, List.mem_insertionSort, List.mem_filter,
      NoteIndex.mem_getAllNotes coherent] at listed
    exact ⟨record, keyed ▸ listed.1, within⟩
  · intro stored filter
    rw [addAll_of_stored stored]

end AddAll

/-! ## What an execution leaves behind -/

variable {crypto : Crypto} {contracts : ContractStore} {secrets : TaggingSecrets}
variable {scopes : List AztecAddress} {request : LiveRequest}

/-- An execution did nothing to the stores but take the indexes and persist the
notes it says. -/
structure Accounted {α : Type} (scopes : List AztecAddress) (before : Stores)
    (executed : Executed α) : Prop where
  notes : executed.stores.notes = addAll before.notes (executed.persisted.flatMap (insertions scopes))
  tagging : executed.stores.tagging =
    before.tagging.advance (executed.exchanges.filterMap Exchange.taken)

theorem accounted_executeLive (call : DecodedEntrypointCall) (target : LiveTarget)
    (stores : Stores) : Accounted scopes stores
      (executeLive crypto contracts secrets scopes request call target stores) := by
  cases target with
  | publishClass => exact ⟨rfl, rfl⟩
  | publishInstance => exact ⟨rfl, rfl⟩
  | publicFunction selector => exact ⟨rfl, rfl⟩
  | privateFunction function circuit =>
    have taken := @Circuit.tagging_run crypto contracts secrets stores.notes circuit
      (callOracle call request.origin request.protocolNullifier) stores.tagging
    unfold executeLive
    dsimp only
    split
    · exact ⟨rfl, taken⟩
    · refine ⟨?_, taken⟩
      rw [persistPendingNotes_eq]
      simp

theorem accounted_executeAll (calls : List (DecodedEntrypointCall × Except Halt LiveTarget))
    (stores : Stores) : Accounted scopes stores
      (executeAll crypto contracts secrets scopes request calls stores) := by
  induction calls generalizing stores with
  | nil => exact ⟨rfl, rfl⟩
  | cons entry rest ih =>
    obtain ⟨call, found⟩ := entry
    cases found with
    | error halt => exact ⟨rfl, rfl⟩
    | ok target =>
      have first := @accounted_executeLive crypto contracts secrets scopes request call target stores
      unfold executeAll
      dsimp only
      split
      · exact ⟨first.notes, first.tagging⟩
      · have later := ih (executeLive crypto contracts secrets scopes request call target stores).stores
        refine ⟨?_, ?_⟩
        · rw [later.notes, first.notes, List.flatMap_append]
          exact List.foldl_append.symm
        · rw [later.tagging, first.tagging, List.filterMap_append,
            SenderTaggingStore.advance_append]

theorem accounted_executeRequest {α : Type} (finish : CallExecutionBundle → Except Error α)
    (stores : Stores) : Accounted scopes stores
      (executeRequest crypto contracts secrets scopes request finish stores) := by
  unfold executeRequest
  split
  · exact ⟨rfl, rfl⟩
  next calls _ =>
    have all := @accounted_executeAll crypto contracts secrets scopes request calls stores
    exact ⟨all.notes, all.tagging⟩

/-! ## Free of effects -/

/-- Nobody who asks the stores can tell: every query for notes is answered as
before, and the next index of every secret is the same. -/
def Untouched (before after : Stores) : Prop :=
  (∀ filter, after.notes.getNotes filter = before.notes.getNotes filter) ∧
    ∀ secret, after.tagging.nextIndex secret = before.tagging.nextIndex secret

/-- No tag was asked for, unless its secret has no index left; and whatever notes
were persisted, for whichever scopes, the store had already. -/
structure Harmless {α : Type} (scopes : List AztecAddress) (before : Stores)
    (executed : Executed α) : Prop where
  untagged : ∀ secret ∈ executed.exchanges.filterMap Exchange.taken,
    2 ^ 64 ≤ before.tagging.getLastUsedIndex secret + 1
  known : ∀ result ∈ executed.persisted, ∀ note ∈ newNotes result, ∀ scope ∈ storedFor scopes note,
    Stored before.notes (pendingNullifier result note).1 scope

section Accounted
variable {α : Type} {before : Stores} {executed : Executed α}

/-- The persisted notes were known exactly where every addition was. -/
private theorem known_iff : (∀ result ∈ executed.persisted, ∀ note ∈ newNotes result,
      ∀ scope ∈ storedFor scopes note, Stored before.notes (pendingNullifier result note).1 scope) ↔
    ∀ entry ∈ executed.persisted.flatMap (insertions scopes),
      Stored before.notes entry.1.siloedNullifier entry.2 := by
  constructor
  · intro known entry inside
    obtain ⟨result, kept, added⟩ := List.mem_flatMap.mp inside
    obtain ⟨note, told, made⟩ := List.mem_flatMap.mp added
    obtain ⟨scope, given, rfl⟩ := List.mem_map.mp made
    exact known result kept note told scope given
  · intro stored result kept note told scope given
    exact stored (pendingRecord result note, scope) (List.mem_flatMap.mpr ⟨result, kept,
      List.mem_flatMap.mpr ⟨note, told, List.mem_map_of_mem given⟩⟩)

theorem Accounted.untouched_iff (accounted : Accounted scopes before executed)
    (coherent : Coherent before.notes) :
    Untouched before executed.stores ↔ Harmless scopes before executed := by
  unfold Untouched
  rw [accounted.notes, accounted.tagging, getNotes_addAll_iff coherent,
    SenderTaggingStore.nextIndex_advance_iff, ← known_iff]
  exact ⟨fun ⟨known, untagged⟩ => ⟨untagged, known⟩, fun harmless => ⟨harmless.known, harmless.untagged⟩⟩

/-- What a harmless execution leaves is what it found. -/
theorem Accounted.stores_alike (accounted : Accounted scopes before executed)
    (harmless : Harmless scopes before executed) :
    executed.stores.notes = before.notes ∧ executed.stores.tagging.Alike before.tagging := by
  constructor
  · rw [accounted.notes]
    exact addAll_of_stored (known_iff.mp harmless.known)
  · intro secret
    rw [accounted.tagging]
    exact SenderTaggingStore.getLastUsedIndex_advance_of_idle _ (harmless.untagged secret)

end Accounted

/-! ## Simulating before proving -/

/-- A call of `simulate_tx` or of `profile_tx`. -/
inductive Attempt where
  | simulate (request : LiveRequest) (scopes : List AztecAddress) (verified : Except Error Unit)
  | profile (request : LiveRequest) (scopes : List AztecAddress) (anchor : AnchorBlockHeader)

namespace Attempt
variable (crypto : Crypto) (contracts : ContractStore) (secrets : TaggingSecrets)

/-- The scopes it is given. -/
def givenScopes : Attempt → List AztecAddress
  | .simulate _ scopes _ => scopes
  | .profile _ scopes _ => scopes

/-- What it does on the stores. -/
def run : Attempt → Stores → Executed PrivateKernelTailPublicInputs
  | .simulate request scopes verified, stores =>
    simulateTx crypto contracts secrets scopes request verified stores
  | .profile request scopes anchor, stores =>
    profileTx crypto contracts secrets scopes request anchor stores

/-- The stores after a series of them. -/
def session (attempts : List Attempt) (stores : Stores) : Stores :=
  attempts.foldl (fun stores attempt => (attempt.run crypto contracts secrets stores).stores) stores

/-- Each of a series is harmless where it starts. -/
def AllHarmless : List Attempt → Stores → Prop
  | [], _ => True
  | attempt :: rest, stores =>
    Harmless attempt.givenScopes stores (attempt.run crypto contracts secrets stores) ∧
      AllHarmless rest (attempt.run crypto contracts secrets stores).stores

end Attempt

/-- What `prove_tx` executes, after its contract syncs: the account's entrypoint,
or each top-level call. -/
inductive Proving where
  | entrypoint (origin : AztecAddress) (protocolNullifier : Fr) (argsOfCalls : List HashedValues)
      (capsules : List Capsule) (circuit : Circuit)
  | topLevel (request : LiveRequest) (scopes : List AztecAddress)
      (calls : List (DecodedEntrypointCall × Except Halt LiveTarget))

/-- The tags and the candidate notes a proved transaction is given. `synced` is
the note store the contract syncs of `prove_tx` make of the one they find. -/
def Proving.exchanges (crypto : Crypto) (contracts : ContractStore) (secrets : TaggingSecrets)
    (synced : NoteStore → NoteStore) (stores : Stores) : Proving → List Exchange
  | .entrypoint origin protocolNullifier argsOfCalls capsules circuit =>
    (circuit.run crypto contracts secrets (synced stores.notes)
      (entrypointOracle origin protocolNullifier argsOfCalls capsules) stores.tagging).exchanges
  | .topLevel request scopes calls =>
    (executeAll crypto contracts secrets scopes request calls
      { stores with notes := synced stores.notes }).exchanges

/-- Two executions that nobody can tell apart. -/
structure Alike {α : Type} (executed again : Executed α) : Prop where
  outcome : executed.outcome = again.outcome
  exchanges : executed.exchanges = again.exchanges
  notes : executed.stores.notes = again.stores.notes
  tagging : executed.stores.tagging.Alike again.stores.tagging

theorem executeLive_alike (call : DecodedEntrypointCall) (target : LiveTarget)
    {stores others : Stores} (notes : stores.notes = others.notes)
    (tagging : stores.tagging.Alike others.tagging) :
    Alike (executeLive crypto contracts secrets scopes request call target stores)
      (executeLive crypto contracts secrets scopes request call target others) := by
  cases target with
  | publishClass => exact ⟨rfl, rfl, notes, tagging⟩
  | publishInstance => exact ⟨rfl, rfl, notes, tagging⟩
  | publicFunction selector => exact ⟨rfl, rfl, notes, tagging⟩
  | privateFunction function circuit =>
    have ran := @Circuit.run_alike crypto contracts secrets others.notes circuit
      (callOracle call request.origin request.protocolNullifier) _ _ tagging
    unfold executeLive
    dsimp only
    rw [notes, ran.outcome]
    split
    · exact ⟨rfl, ran.exchanges, rfl, ran.tagging⟩
    · exact ⟨rfl, ran.exchanges, rfl, ran.tagging⟩

theorem executeAll_alike (calls : List (DecodedEntrypointCall × Except Halt LiveTarget))
    {stores others : Stores} (notes : stores.notes = others.notes)
    (tagging : stores.tagging.Alike others.tagging) :
    Alike (executeAll crypto contracts secrets scopes request calls stores)
      (executeAll crypto contracts secrets scopes request calls others) := by
  induction calls generalizing stores others with
  | nil => exact ⟨rfl, rfl, notes, tagging⟩
  | cons entry rest ih =>
    obtain ⟨call, found⟩ := entry
    cases found with
    | error halt => exact ⟨rfl, rfl, notes, tagging⟩
    | ok target =>
      have first := @executeLive_alike crypto contracts secrets scopes request call target _ _ notes
        tagging
      unfold executeAll
      dsimp only
      rw [first.outcome]
      split
      · exact ⟨rfl, first.exchanges, first.notes, first.tagging⟩
      · have later := ih first.notes first.tagging
        exact ⟨by rw [later.outcome], by rw [first.exchanges, later.exchanges], later.notes,
          later.tagging⟩

/-- Stores nobody can tell apart give a proved transaction the same. -/
theorem exchanges_congr {synced : NoteStore → NoteStore} {stores others : Stores}
    (notes : stores.notes = others.notes) (tagging : stores.tagging.Alike others.tagging)
    (proving : Proving) :
    proving.exchanges crypto contracts secrets synced stores =
      proving.exchanges crypto contracts secrets synced others := by
  cases proving with
  | entrypoint origin protocolNullifier argsOfCalls capsules circuit =>
    unfold Proving.exchanges
    rw [notes]
    exact (Circuit.run_alike circuit _ tagging).exchanges
  | topLevel request scopes calls =>
    unfold Proving.exchanges
    rw [notes]
    exact (@executeAll_alike crypto contracts secrets scopes request calls
      ⟨synced others.notes, stores.tagging⟩ ⟨synced others.notes, others.tagging⟩ rfl
      tagging).exchanges

theorem accounted_run (attempt : Attempt) (stores : Stores) :
    Accounted attempt.givenScopes stores (attempt.run crypto contracts secrets stores) := by
  cases attempt with
  | simulate request scopes verified =>
    unfold Attempt.run simulateTx
    exact accounted_executeRequest _ stores
  | profile request scopes anchor =>
    unfold Attempt.run profileTx
    exact accounted_executeRequest _ stores

/-- A harmless series leaves what it found. -/
theorem session_alike (attempts : List Attempt) (stores : Stores)
    (harmless : Attempt.AllHarmless crypto contracts secrets attempts stores) :
    (Attempt.session crypto contracts secrets attempts stores).notes = stores.notes ∧
      (Attempt.session crypto contracts secrets attempts stores).tagging.Alike stores.tagging := by
  induction attempts generalizing stores with
  | nil => exact ⟨rfl, fun _ => rfl⟩
  | cons attempt rest ih =>
    obtain ⟨first, later⟩ := harmless
    obtain ⟨notes, tagging⟩ := (accounted_run attempt stores).stores_alike first
    obtain ⟨notes', tagging'⟩ := ih _ later
    exact ⟨notes'.trans notes, fun secret => (tagging' secret).trans (tagging secret)⟩

/-- A request for one private call with a circuit. -/
private def requestFor (circuit : Circuit) : LiveRequest where
  origin := ⟨8⟩
  calls := .ok [(⟨⟨20⟩, .fromField 5, [], false, false⟩,
    .ok (.privateFunction ⟨none, false, 37⟩ circuit))]

/-- A circuit that asks for one tag. -/
private def tagsOnce : Circuit := .getNextAppTagAsSender [[1], [2]] (fun _ => .done {})

end Simulation

end AztecPxe
