import AztecPxe.AcvmExecutor
import AztecPxe.CapsuleCopy
import AztecPxe.LogRetrieval
import AztecPxe.OracleExecution

/-! Utility functions as the client runs them: the ACVM loop with the oracle of
`execution/utility_oracle.rs` behind it. The capsules of all contracts lie in one
store, and the circuit names the contract in every call. A whole execution neither
changes the capsules of another contract nor depends on them. -/
namespace AztecPxe

/-- What a utility execution reads and writes: the capsules, the notes and events, the
tag indexes, and whatever else answers its questions. -/
structure UtilityState (ω : Type) where
  capsules : CapsuleStore := {}
  blocks : BlockState := {}
  tagging : RecipientTaggingStore := {}
  world : ω

/-- What a utility execution takes from the client around it. -/
structure UtilityServices (Opcodes Brillig Machine ω : Type) where
  acvm : Acvm Opcodes Brillig Machine
  poseidon2 : List Fr → Fr
  contractAddress : AztecAddress
  scopes : List AztecAddress := []
  node : AztecNode
  getPrivateLogsByTags : List Fr → Except Error Json
  getPublicLogsByTagsFromContract : AztecAddress → List Fr → Except Error Json
  taggingSecretsForRecipient : AztecAddress → Except Error (List Fr)
  query : String → Args → BlockState → ω → Except Error Answer × ω

namespace UtilityServices
open LogRetrieval
variable {Opcodes Brillig Machine ω : Type} (services : UtilityServices Opcodes Brillig Machine ω)

section Capsules
variable (self : AztecAddress) (args : Args) (store : CapsuleStore)

/-- The slot a capsule handler is called with, in the contract's own capsules. -/
def ownSlot (handler : String) : Except Error Fr := do
  let contract ← argument handler args 0 "contract address"
  let slot ← argument handler args 1 "slot"
  ensureContractDbAccess self ⟨contract⟩
  return slot

/-- `store_capsule`. -/
def storeCapsule : Except Error Answer × CapsuleStore :=
  match ownSlot self args "storeCapsule" with
  | .error e => (.error e, store)
  | .ok slot => (.ok [], store.storeCapsule self slot (args[2]?.getD []))

/-- `load_capsule`. -/
def loadCapsule : Except Error Answer × CapsuleStore :=
  match ownSlot self args "loadCapsule" with
  | .error e => (.error e, store)
  | .ok slot =>
    let values := store.loadCapsule self slot
    let arrayLen := ((args.first 2).getD 0).toUsize
    (.ok [[Fr.ofBool values.isSome], ExecutionServices.resized arrayLen (values.getD [])], store)

/-- `delete_capsule`. -/
def deleteCapsule : Except Error Answer × CapsuleStore :=
  match ownSlot self args "deleteCapsule" with
  | .error e => (.error e, store)
  | .ok slot => (.ok [], store.deleteCapsule self slot)

/-- The slots `copy_capsule` is called with. -/
def copiedSlots : Except Error (Fr × Fr) := do
  let contract ← argument "copyCapsule" args 0 "contract address"
  let srcSlot ← argument "copyCapsule" args 1 "src slot"
  let dstSlot ← argument "copyCapsule" args 2 "dst slot"
  ensureContractDbAccess self ⟨contract⟩
  return (srcSlot, dstSlot)

/-- `copy_capsule`; what it returns, or nothing where it panics. -/
def copyCapsule : Option (Except Error Answer) × CapsuleStore :=
  match copiedSlots self args with
  | .error e => (some (.error e), store)
  | .ok (srcSlot, dstSlot) =>
    let copied := store.copyCapsule self srcSlot dstSlot ((args.first 3).getD 0).toUsize
    (copied.1.map fun result => result.map fun _ => [], copied.2)

end Capsules

/-- The loop of `fetch_tagged_logs` over the scopes. -/
def fetchScopes (base : Fr) : List AztecAddress → UtilityState ω →
    Except Error Unit × UtilityState ω
  | [], state => (.ok (), state)
  | scope :: rest, state =>
    match services.taggingSecretsForRecipient scope with
    | .error e => (.error e, state)
    | .ok secrets =>
      if secrets.isEmpty then fetchScopes base rest state
      else
        let fetched := LogService.fetchTaggedLogs services.poseidon2 services.getPrivateLogsByTags
          services.contractAddress secrets state.tagging
        let state := { state with tagging := fetched.2 }
        match fetched.1 with
        | .error e => (.error e, state)
        | .ok logs =>
          if logs.isEmpty then fetchScopes base rest state
          else
            match logs.mapM (serializePendingTaggedLog · scope) with
            | .error e => (.error e, state)
            | .ok serialized => fetchScopes base rest { state with
                capsules := state.capsules.appendToCapsuleArray services.contractAddress base
                  serialized }

/-- `fetch_tagged_logs`. -/
def fetchTaggedLogs (args : Args) (state : UtilityState ω) :
    Except Error Answer × UtilityState ω :=
  match argument "fetchTaggedLogs" args 0 "capsule array base slot" with
  | .error e => (.error e, state)
  | .ok base =>
    let fetched := services.fetchScopes base services.scopes state
    (fetched.1.map fun _ => [], fetched.2)

/-- `validate_and_store_enqueued_notes_and_events`. -/
def validateAndStore (args : Args) (state : UtilityState ω) :
    Except Error Answer × UtilityState ω :=
  let stored := UtilityOracle.validateAndStoreEnqueuedNotesAndEvents services.poseidon2 services.node
    services.contractAddress args ⟨state.blocks, state.capsules⟩
  (stored.1, { state with blocks := stored.2.blocks, capsules := stored.2.capsules })

/-- A handler over the capsules alone. -/
def onCapsules (handler : CapsuleStore → Except Error Answer × CapsuleStore)
    (state : UtilityState ω) : Except Error Answer × UtilityState ω :=
  ((handler state.capsules).1, { state with capsules := (handler state.capsules).2 })

/-- `copy_capsule` among the other handlers; a panic is no outcome. -/
def copying (self : AztecAddress) (args : Args) : Procedure Error (UtilityState ω) Answer :=
  fun state =>
    (copyCapsule self args state.capsules).1.map fun result =>
      (result, { state with capsules := (copyCapsule self args state.capsules).2 })

/-- A handler of the stores, the node or a source of random fields. -/
def ask (handler : String) (args : Args) (state : UtilityState ω) :
    Except Error Answer × UtilityState ω :=
  let answered := services.query handler args state.blocks state.world
  (answered.1, { state with world := answered.2 })

/-- The handlers that read the stores, the node or a source of random fields. -/
def asking : List String :=
  ["getPublicStorageAt", "storageRead", "getContractInstance", "getNotes", "checkNullifierExists",
   "getPublicKeysAndPartialAddress", "tryGetPublicKeysAndPartialAddress",
   "getKeyValidationRequest", "getSecretKey", "getBlockHeader", "getUtilityContext",
   "getAuthWitness", "getNullifierMembershipWitness", "getLowNullifierMembershipWitness",
   "getPublicDataWitness", "getRandomField", "aes128Decrypt", "getSharedSecret"]

/-- The handlers that answer with one empty part. -/
def emptyWitnesses : List String :=
  ["getNoteHashMembershipWitness", "getBlockHashMembershipWitness", "getL1ToL2MembershipWitness"]

/-- The handler's name; the prefix of utility functions is tried first. -/
def handlerName (name : String) : String :=
  let stripped := ((Route.stripPrefix name "utility").or (Route.stripPrefix name "private")).getD name
  match stripped.toList with
  | [] => name
  | first :: rest => String.ofList (first.toLower :: rest)

/-- `handle_foreign_call`; an unknown call is answered with nothing. -/
def handleForeignCall : AcvmExecutor.OracleCallback (UtilityState ω) := fun name args =>
  let handler := handlerName name
  let self := services.contractAddress
  if handler ∈ ["loadCapsule", "getCapsule"] then Procedure.lift (onCapsules (loadCapsule self args))
  else if handler = "storeCapsule" then Procedure.lift (onCapsules (storeCapsule self args))
  else if handler = "deleteCapsule" then Procedure.lift (onCapsules (deleteCapsule self args))
  else if handler = "copyCapsule" then copying self args
  else if handler = "fetchTaggedLogs" then Procedure.lift (services.fetchTaggedLogs args)
  else if handler = "bulkRetrieveLogs" then Procedure.lift (onCapsules
    (bulkRetrieveLogs services.poseidon2 services.getPrivateLogsByTags
      services.getPublicLogsByTagsFromContract self args))
  else if handler = "validateAndStoreEnqueuedNotesAndEvents" then
    Procedure.lift (services.validateAndStore args)
  else if handler ∈ asking then Procedure.lift (services.ask handler args)
  else if handler ∈ emptyWitnesses then pure [[]]
  else pure []

/-- `execute_utility` with its oracle. -/
def executeUtility (turns : Nat) (artifact : CompiledContract) (functionName : String)
    (args : List Fr) : Procedure Error (UtilityState ω) (List Fr) :=
  AcvmExecutor.executeUtility services.acvm services.handleForeignCall turns artifact functionName
    args

end UtilityServices

/-! ## Calls on the capsules of one contract -/

namespace CapsuleStore
open CapsuleArrays

/-- A change of one contract's capsules: no other contract's change, and what becomes of
its own does not depend on theirs. -/
structure Local (contract : AztecAddress) (change : CapsuleStore → CapsuleStore) : Prop where
  others : ∀ {store other}, other ≠ contract → (change store).slots other = store.slots other
  own : ∀ {store store'}, store.slots contract = store'.slots contract →
    (change store).slots contract = (change store').slots contract

variable {contract : AztecAddress}

theorem local_id : Local contract id := ⟨fun _ => rfl, id⟩

theorem local_put (slot : Fr) (value : Option (List Fr)) :
    Local contract (fun store => store.put contract slot value) where
  others apart := by
    funext slot'
    exact slots_put_ne (fun both => apart both.1)
  own same := by
    funext slot'
    simp only [put, same]

theorem local_comp {first second : CapsuleStore → CapsuleStore} (one : Local contract first)
    (two : Local contract second) : Local contract (fun store => second (first store)) where
  others apart := (two.others apart).trans (one.others apart)
  own same := two.own (one.own same)

/-- A loop of such changes. -/
theorem local_foldl {α : Type} (items : List α) {change : CapsuleStore → α → CapsuleStore}
    (each : ∀ a, Local contract (fun store => change store a)) :
    Local contract (fun store => items.foldl change store) := by
  induction items with
  | nil => exact local_id
  | cons a rest ih => exact local_comp (each a) ih

/-- A change chosen by what the contract's own capsules say. -/
theorem local_chosen {α : Type} {choice : CapsuleStore → α}
    {change : α → CapsuleStore → CapsuleStore}
    (own : ∀ {store store'}, store.slots contract = store'.slots contract →
      choice store = choice store') (each : ∀ a, Local contract (change a)) :
    Local contract (fun store => change (choice store) store) where
  others apart := (each _).others apart
  own same := by
    rw [own same]
    exact (each _).own same

theorem arrayLength_own (base : Fr) {store store' : CapsuleStore}
    (same : store.slots contract = store'.slots contract) :
    store.arrayLength contract base = store'.arrayLength contract base := by
  rw [arrayLength, arrayLength, CapsuleStore.loadCapsule, CapsuleStore.loadCapsule, same]

theorem readCapsuleArray_own (base : Fr) {store store' : CapsuleStore}
    (same : store.slots contract = store'.slots contract) :
    store.readCapsuleArray contract base = store'.readCapsuleArray contract base := by
  simp only [readCapsuleArray, arrayLength, CapsuleStore.loadCapsule, same]

theorem local_storeEntries (slotAt : Nat → Fr) (content : List (List Fr)) :
    Local contract (storeEntries contract slotAt content) :=
  local_foldl content.zipIdx (fun entry => local_put (slotAt entry.2) (some entry.1))

theorem local_append (base : Fr) (content : List (List Fr)) :
    Local contract (fun store => store.appendToCapsuleArray contract base content) := by
  have written (length : Nat) : Local contract (fun store =>
      (storeEntries contract (fun i => arraySlot base (length + i)) content store).storeCapsule
        contract base [Fr.ofU64 (length + content.length)]) :=
    local_comp (local_storeEntries _ content) (local_put base _)
  exact local_chosen (arrayLength_own base) written

theorem local_set (base : Fr) (content : List (List Fr)) :
    Local contract (fun store => store.setCapsuleArray contract base content) := by
  have written (length : Nat) : Local contract (fun store =>
      deleteEntries contract (arraySlot base) content.length (length - content.length)
        (storeEntries contract (arraySlot base) content
          (store.storeCapsule contract base [Fr.ofU64 content.length]))) :=
    local_comp (local_comp (local_put base _) (local_storeEntries _ content))
      (local_foldl _ (fun i => local_put (arraySlot base i) none))
  exact local_chosen (arrayLength_own base) written

/-- A call on one contract's capsules: its answer and its change depend on them only. -/
structure LocalCall {α : Type} (contract : AztecAddress)
    (call : CapsuleStore → α × CapsuleStore) : Prop where
  change : Local contract (fun store => (call store).2)
  answer : ∀ {store store'}, store.slots contract = store'.slots contract →
    (call store).1 = (call store').1

theorem localCall_of_answer {α : Type} {answer : CapsuleStore → α}
    (own : ∀ {store store'}, store.slots contract = store'.slots contract →
      answer store = answer store') : LocalCall contract (fun store => (answer store, store)) :=
  ⟨local_id, own⟩

theorem localCall_of_change {α : Type} (a : α) {change : CapsuleStore → CapsuleStore}
    (local_ : Local contract change) : LocalCall contract (fun store => (a, change store)) :=
  ⟨local_, fun _ => rfl⟩

/-- A call chosen by what the contract's own capsules say. -/
theorem localCall_chosen {α β : Type} {choice : CapsuleStore → α}
    {call : α → CapsuleStore → β × CapsuleStore}
    (own : ∀ {store store'}, store.slots contract = store'.slots contract →
      choice store = choice store') (each : ∀ a, LocalCall contract (call a)) :
    LocalCall contract (fun store => call (choice store) store) where
  change := local_chosen own (fun a => (each a).change)
  answer same := by
    rw [own same]
    exact (each _).answer same

end CapsuleStore

namespace UtilityServices
open LogRetrieval CapsuleStore
variable {Opcodes Brillig Machine ω : Type} {services : UtilityServices Opcodes Brillig Machine ω}
variable {self : AztecAddress}

theorem localCall_storeCapsule (args : Args) : LocalCall self (storeCapsule self args) := by
  unfold storeCapsule
  split
  · exact localCall_of_change _ local_id
  · exact localCall_of_change _ (local_put _ _)

theorem localCall_loadCapsule (args : Args) : LocalCall self (loadCapsule self args) := by
  unfold loadCapsule
  split
  · exact localCall_of_change _ local_id
  · refine localCall_of_answer (fun same => ?_)
    simp only [CapsuleStore.loadCapsule, same]

theorem localCall_deleteCapsule (args : Args) : LocalCall self (deleteCapsule self args) := by
  unfold deleteCapsule
  split
  · exact localCall_of_change _ local_id
  · exact localCall_of_change _ (local_put _ _)

/-- The store's own copy. -/
private theorem localCall_copy (srcSlot dstSlot : Fr) (numEntries : Nat) :
    LocalCall self (fun store => store.copyCapsule self srcSlot dstSlot numEntries) := by
  unfold CapsuleStore.copyCapsule
  split
  · exact localCall_of_change _ local_id
  · split
    · exact localCall_of_change _ local_id
    · have read : ∀ {store store' : CapsuleStore}, store.slots self = store'.slots self →
          store.readCopied self srcSlot numEntries = store'.readCopied self srcSlot numEntries := by
        intro store store' same
        simp only [readCopied, CapsuleStore.loadCapsule, same]
      refine ⟨⟨fun apart => ?_, fun same => ?_⟩, fun same => ?_⟩
      · split
        · rfl
        · exact (local_storeEntries _ _).others apart
      · simp only [read same]
        split
        · exact same
        · exact (local_storeEntries _ _).own same
      · simp only [read same]
        split <;> rfl

theorem localCall_copyCapsule (args : Args) : LocalCall self (copyCapsule self args) := by
  unfold copyCapsule
  split
  · exact localCall_of_change _ local_id
  next srcSlot dstSlot _ =>
    have copied := @localCall_copy self srcSlot dstSlot ((args.first 3).getD 0).toUsize
    refine ⟨copied.change, fun same => ?_⟩
    have answers := copied.answer same
    simp only [answers]

theorem localCall_bulkRetrieveLogs {poseidon2 : List Fr → Fr}
    {privateNode : List Fr → Except Error Json}
    {publicNode : AztecAddress → List Fr → Except Error Json} (args : Args) :
    LocalCall self (bulkRetrieveLogs poseidon2 privateNode publicNode self args) := by
  unfold bulkRetrieveLogs
  cases parsed : parseArguments self args with
  | error e => exact localCall_of_change _ local_id
  | ok found =>
    obtain ⟨contract, requestsSlot, responsesSlot⟩ := found
    obtain rfl : contract = self := by
      unfold parseArguments at parsed
      obtain ⟨c, -, parsed⟩ := bind_eq_ok.mp parsed
      obtain ⟨slot, -, parsed⟩ := bind_eq_ok.mp parsed
      obtain ⟨slot', -, parsed⟩ := bind_eq_ok.mp parsed
      obtain ⟨⟨⟩, allowed, parsed⟩ := bind_eq_ok.mp parsed
      unfold ensureContractDbAccess at allowed
      split at allowed
      next own =>
        cases parsed
        exact own
      · cases allowed
    have asked : ∀ {store store' : CapsuleStore}, store.slots contract = store'.slots contract →
        (store.readCapsuleArray contract requestsSlot >>=
          retrieved poseidon2 privateNode publicNode) =
        (store'.readCapsuleArray contract requestsSlot >>=
          retrieved poseidon2 privateNode publicNode) := by
      intro store store' same
      rw [readCapsuleArray_own requestsSlot same]
    refine ⟨⟨fun apart => ?_, fun same => ?_⟩, fun same => ?_⟩
    · dsimp only
      split
      · rfl
      · split
        · exact (local_set requestsSlot []).others apart
        · exact ((local_set responsesSlot _).others apart).trans
            ((local_set requestsSlot []).others apart)
    · simp only [asked same]
      split
      · exact same
      · split
        · exact (local_set requestsSlot []).own same
        · exact (local_set responsesSlot _).own ((local_set requestsSlot []).own same)
    · simp only [asked same]
      split
      · rfl
      · split <;> rfl

/-! ## Two executions -/

/-- Two states that differ in other contracts' capsules at most, each of which has
those of a store of its own. -/
structure Alike (contract : AztecAddress) (foreign foreign' : CapsuleStore)
    (state state' : UtilityState ω) : Prop where
  own : state.capsules.slots contract = state'.capsules.slots contract
  others : ∀ {other}, other ≠ contract → state.capsules.slots other = foreign.slots other
  others' : ∀ {other}, other ≠ contract → state'.capsules.slots other = foreign'.slots other
  blocks : state.blocks = state'.blocks
  tagging : state.tagging = state'.tagging
  world : state.world = state'.world

variable {foreign foreign' : CapsuleStore} {state state' : UtilityState ω}

/-- A change of the contract's own capsules keeps states alike. -/
theorem Alike.changed (alike : Alike self foreign foreign' state state')
    {change : CapsuleStore → CapsuleStore} (local_ : Local self change) :
    Alike self foreign foreign' { state with capsules := change state.capsules }
      { state' with capsules := change state'.capsules } where
  own := local_.own alike.own
  others apart := (local_.others apart).trans (alike.others apart)
  others' apart := (local_.others apart).trans (alike.others' apart)
  blocks := alike.blocks
  tagging := alike.tagging
  world := alike.world

/-- So does a change of the tag indexes, made in both. -/
theorem Alike.tagged (alike : Alike self foreign foreign' state state')
    (tagging : RecipientTaggingStore) :
    Alike self foreign foreign' { state with tagging := tagging }
      { state' with tagging := tagging } :=
  ⟨alike.own, alike.others, alike.others', alike.blocks, rfl, alike.world⟩

/-- And a change of the notes and events. -/
theorem Alike.blocked (alike : Alike self foreign foreign' state state') (blocks : BlockState) :
    Alike self foreign foreign' { state with blocks := blocks } { state' with blocks := blocks } :=
  ⟨alike.own, alike.others, alike.others', rfl, alike.tagging, alike.world⟩

theorem agrees_onCapsules {call : CapsuleStore → Except Error Answer × CapsuleStore}
    (local_ : LocalCall self call) :
    Procedure.Agrees (@Alike ω self foreign foreign') (Procedure.lift (onCapsules call))
      (Procedure.lift (onCapsules call)) :=
  Procedure.agrees_lift (fun alike => ⟨local_.answer alike.own, alike.changed local_.change⟩)

theorem agrees_copying (args : Args) :
    Procedure.Agrees (@Alike ω self foreign foreign') (copying self args) (copying self args) := by
  intro state state' alike
  have answers := (localCall_copyCapsule args).answer alike.own
  have kept := alike.changed (localCall_copyCapsule args).change
  change ((copyCapsule self args state.capsules).1.map _ = none ∧
    (copyCapsule self args state'.capsules).1.map _ = none) ∨ _
  cases copied : (copyCapsule self args state'.capsules).1 with
  | none =>
    rw [copied] at answers
    rw [answers]
    exact .inl ⟨rfl, rfl⟩
  | some result =>
    rw [copied] at answers
    refine .inr ⟨result, _, _, ?_, ?_, kept⟩
    · change (copyCapsule self args state.capsules).1.map _ = _
      rw [answers]
      rfl
    · change (copyCapsule self args state'.capsules).1.map _ = _
      rw [copied]
      rfl

theorem fetchScopes_alike (base : Fr) (scopes : List AztecAddress)
    (alike : Alike services.contractAddress foreign foreign' state state') :
    (services.fetchScopes base scopes state).1 = (services.fetchScopes base scopes state').1 ∧
      Alike services.contractAddress foreign foreign' (services.fetchScopes base scopes state).2
        (services.fetchScopes base scopes state').2 := by
  induction scopes generalizing state state' with
  | nil => exact ⟨rfl, alike⟩
  | cons scope rest ih =>
    unfold fetchScopes
    cases services.taggingSecretsForRecipient scope with
    | error e => exact ⟨rfl, alike⟩
    | ok secrets =>
      dsimp only
      split
      · exact ih alike
      rw [alike.tagging]
      have tagged := alike.tagged (LogService.fetchTaggedLogs services.poseidon2
        services.getPrivateLogsByTags services.contractAddress secrets state'.tagging).2
      split
      · exact ⟨rfl, tagged⟩
      · split
        · exact ih tagged
        · split
          · exact ⟨rfl, tagged⟩
          · exact ih (tagged.changed (local_append base _))

theorem fetchTaggedLogs_alike (args : Args)
    (alike : Alike services.contractAddress foreign foreign' state state') :
    (services.fetchTaggedLogs args state).1 = (services.fetchTaggedLogs args state').1 ∧
      Alike services.contractAddress foreign foreign' (services.fetchTaggedLogs args state).2
        (services.fetchTaggedLogs args state').2 := by
  unfold fetchTaggedLogs
  split
  · exact ⟨rfl, alike⟩
  next base _ =>
    obtain ⟨same, kept⟩ := fetchScopes_alike base services.scopes alike
    exact ⟨congrArg (Except.map fun _ => []) same, kept⟩

theorem validateAndStore_alike (args : Args)
    (alike : Alike services.contractAddress foreign foreign' state state') :
    (services.validateAndStore args state).1 = (services.validateAndStore args state').1 ∧
      Alike services.contractAddress foreign foreign' (services.validateAndStore args state).2
        (services.validateAndStore args state').2 := by
  unfold validateAndStore UtilityOracle.validateAndStoreEnqueuedNotesAndEvents
  cases parsed : UtilityOracle.parseArguments services.contractAddress args with
  | error e => exact ⟨rfl, alike⟩
  | ok found =>
    obtain ⟨contract, noteSlot, eventSlot⟩ := found
    obtain rfl : contract = services.contractAddress := by
      unfold UtilityOracle.parseArguments at parsed
      obtain ⟨c, -, parsed⟩ := bind_eq_ok.mp parsed
      obtain ⟨slot, -, parsed⟩ := bind_eq_ok.mp parsed
      obtain ⟨slot', -, parsed⟩ := bind_eq_ok.mp parsed
      split at parsed
      next own =>
        cases parsed
        exact own
      · cases parsed
    dsimp only
    rw [readCapsuleArray_own noteSlot alike.own, alike.blocks]
    split
    · exact ⟨rfl, alike.blocked _⟩
    · split
      · exact ⟨rfl, alike.blocked _⟩
      · rw [readCapsuleArray_own eventSlot alike.own]
        split
        · exact ⟨rfl, alike.blocked _⟩
        · split
          · exact ⟨rfl, alike.blocked _⟩
          · have emptied := alike.changed
              (local_comp (local_set noteSlot []) (local_set eventSlot []))
            exact ⟨rfl, emptied.blocked _⟩

theorem ask_alike (handler : String) (args : Args)
    (alike : Alike services.contractAddress foreign foreign' state state') :
    (services.ask handler args state).1 = (services.ask handler args state').1 ∧
      Alike services.contractAddress foreign foreign' (services.ask handler args state).2
        (services.ask handler args state').2 := by
  unfold ask
  rw [alike.blocks, alike.world]
  exact ⟨rfl, alike.own, alike.others, alike.others', rfl, alike.tagging, rfl⟩

/-- Every foreign call answers alike from states that are alike, and leaves such. -/
theorem agrees_handleForeignCall (name : String) (args : Args) :
    Procedure.Agrees (Alike services.contractAddress foreign foreign')
      (services.handleForeignCall name args) (services.handleForeignCall name args) := by
  unfold handleForeignCall
  dsimp only
  split
  · exact agrees_onCapsules (localCall_loadCapsule args)
  split
  · exact agrees_onCapsules (localCall_storeCapsule args)
  split
  · exact agrees_onCapsules (localCall_deleteCapsule args)
  split
  · exact agrees_copying args
  split
  · exact Procedure.agrees_lift (fetchTaggedLogs_alike args)
  split
  · exact agrees_onCapsules (localCall_bulkRetrieveLogs args)
  split
  · exact Procedure.agrees_lift (validateAndStore_alike args)
  split
  · exact Procedure.agrees_lift (ask_alike _ args)
  split
  · exact Procedure.agrees_pure _
  · exact Procedure.agrees_pure _

/-- A utility execution keeps to its own capsules. Of two executions whose states differ
in the capsules of other contracts at most, both come to no end or both come to the same
result, they leave the same state up to those capsules, and neither has changed any. -/
theorem utility_execution_isolated (services : UtilityServices Opcodes Brillig Machine ω)
    (turns : Nat) (artifact : CompiledContract) (functionName : String) (args : List Fr)
    {state state' : UtilityState ω}
    (own : ∀ slot, state.capsules.slots services.contractAddress slot =
      state'.capsules.slots services.contractAddress slot)
    (blocks : state.blocks = state'.blocks) (tagging : state.tagging = state'.tagging)
    (world : state.world = state'.world) :
    ((services.executeUtility turns artifact functionName args).runFrom state = none ∧
      (services.executeUtility turns artifact functionName args).runFrom state' = none) ∨
    ∃ result last last',
      (services.executeUtility turns artifact functionName args).runFrom state = some (result, last) ∧
      (services.executeUtility turns artifact functionName args).runFrom state' =
        some (result, last') ∧
      Alike services.contractAddress state.capsules state'.capsules last last' :=
  AcvmExecutor.agrees_executeUtility agrees_handleForeignCall turns artifact functionName args
    ⟨funext own, fun _ => rfl, fun _ => rfl, blocks, tagging, world⟩

/-- Services for a contract whose function stores a capsule. -/
def storingServices : UtilityServices (List ForeignCall) Unit (List ForeignCall) Unit where
  acvm := AcvmExecutor.callingMachine fun _ =>
    [⟨"utilityStoreCapsule", [.single 3, .single 1, .array [7]]⟩]
  poseidon2 := fun _ => 0
  contractAddress := ⟨3⟩
  node := ⟨.ok 0, .ok 0, fun _ => .ok .null, fun _ _ => .ok none, fun _ => .ok none⟩
  getPrivateLogsByTags := fun _ => .ok .null
  getPublicLogsByTagsFromContract := fun _ _ => .ok .null
  taggingSecretsForRecipient := fun _ => .ok []
  query := fun _ _ _ world => (.ok [], world)

/-- A state in which another contract has a capsule. -/
def withForeignCapsule : UtilityState Unit where
  capsules := ({} : CapsuleStore).storeCapsule ⟨4⟩ 1 [9]
  world := ()

/-- Another contract's capsule is neither read nor lost. -/
theorem storing_isolated : ∃ result last last',
    (storingServices.executeUtility 2 (ExecutionServices.calledContract "called") "nullify" []).runFrom
      { world := () } = some (result, last) ∧
    (storingServices.executeUtility 2 (ExecutionServices.calledContract "called") "nullify" []).runFrom
      withForeignCapsule = some (result, last') ∧
    last.capsules.slots ⟨3⟩ 1 = some [7] ∧ last.capsules.slots ⟨4⟩ 1 = none ∧
    last'.capsules.slots ⟨3⟩ 1 = some [7] ∧ last'.capsules.slots ⟨4⟩ 1 = some [9] := by
  have apart : (⟨4⟩ : AztecAddress) ≠ ⟨3⟩ := by decide
  have stored : ((storingServices.executeUtility 2 (ExecutionServices.calledContract "called")
      "nullify" []).runFrom { world := () }).map (fun ran => ran.2.capsules.slots ⟨3⟩ 1) =
        some (some [7]) := by decide +kernel
  obtain ⟨ran, ended, held⟩ := Option.map_eq_some_iff.mp stored
  rcases @utility_execution_isolated _ _ _ _ storingServices 2
    (ExecutionServices.calledContract "called") "nullify" [] { world := () } withForeignCapsule
    (fun slot => (CapsuleArrays.slots_put_ne fun both => apart both.1.symm).symm) rfl rfl rfl with
    ⟨none, -⟩ | ⟨result, last, last', first, second, alike⟩
  · rw [ended] at none
    cases none
  · rw [ended] at first
    cases first
    refine ⟨result, last, last', ended, second, held, ?_, ?_, ?_⟩
    · exact congrFun (alike.others apart) 1
    · exact (congrFun alike.own 1).symm.trans held
    · exact congrFun (alike.others' apart) 1

end UtilityServices
end AztecPxe
