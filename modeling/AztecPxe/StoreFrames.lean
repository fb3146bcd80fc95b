import AztecPxe.GrumpkinCurve
import AztecPxe.KvNotes
import AztecPxe.KvTagging

/-! Ten stores share one flat space of keys, and each finds its own keys by the text they start
with. No such text of one store starts with one of another, so what a call of one store writes
shows in no reading of another. -/
namespace AztecPxe.KvStores
open AztecPxe PrefixStore Codec Abi Grumpkin

/-- The stores that `EmbeddedPxe::create_with_config` opens on one key-value store. -/
inductive StoreName where
  | contract
  | key
  | address
  | note
  | capsule
  | sender
  | senderTagging
  | recipientTagging
  | event
  | anchor
  deriving DecidableEq, Repr

/-- The texts the keys of a store start with. -/
def StoreName.starts : StoreName → List String
  | .contract => ContractStore.starts
  | .key => KeyStore.starts
  | .address => AddressStore.starts
  | .note => NoteStore.starts
  | .capsule => CapsuleStore.starts
  | .sender => SenderStore.starts
  | .senderTagging => SenderTaggingStore.starts
  | .recipientTagging => RecipientTaggingStore.starts
  | .event => PrivateEventStore.starts
  | .anchor => AnchorBlockStore.starts

/-- The region of a store. -/
def StoreName.keys (name : StoreName) : Set (List UInt8) := keysUnder name.starts

/-- The stores one after the other. -/
def StoreName.all : List StoreName :=
  [.contract, .key, .address, .note, .capsule, .sender, .senderTagging, .recipientTagging, .event,
    .anchor]

theorem StoreName.mem_all (name : StoreName) : name ∈ all := by
  cases name <;> simp [all]

/-- The texts of two stores are not starts of one another. -/
theorem starts_apart : ∀ first ∈ StoreName.all, ∀ second ∈ StoreName.all, first ≠ second →
    ∀ start ∈ first.starts.map utf8, ∀ start' ∈ second.starts.map utf8,
      ¬ start <+: start' ∧ ¬ start' <+: start := by
  decide +kernel

theorem disjoint_keys {first second : StoreName} (apart : first ≠ second) :
    Disjoint first.keys second.keys :=
  disjoint_under (starts_apart first first.mem_all second second.mem_all apart)

/-! ## The calls -/

/-- What the stores use beside the key-value store. -/
structure Environment (Affine : Type) where
  digests : ClassId.Digests
  sha512 : List UInt8 → Nat
  ark : ArkGrumpkin Affine
  contracts : ContractStore.Serde
  addresses : Codec CompleteAddress
  notes : NoteStore.Serde
  capsules : CapsuleStore.Serde
  senderTags : SenderTaggingStore.Serde
  recipientTags : Codec Nat
  events : PrivateEventStore.Serde
  anchor : Codec AnchorBlockHeader

/-- The calls that only read, with what they return. -/
inductive Query : Type → Type where
  | getInstance (address : AztecAddress) : Query (Option ContractInstance)
  | getContractAddresses : Query (List AztecAddress)
  | getArtifact (classId : Fr) : Query (Option ContractArtifact)
  | getClassPreimage (classId : Fr) : Query (Option Json)
  | getSecretKey (pkHash : Fr) : Query (Option Fr)
  | getMasterNullifierHidingKey (pkHash : Fr) : Query (Option Fq)
  | getMasterIncomingViewingSecretKey (pkHash : Fr) : Query (Option Fq)
  | getMasterOutgoingViewingSecretKey (pkHash : Fr) : Query (Option Fq)
  | getMasterTaggingSecretKey (pkHash : Fr) : Query (Option Fq)
  | getPublicKeys (pkHash : Fr) : Query (Option PublicKeys)
  | getAppNullifierHidingKey (pkHash : Fr) (app : AztecAddress) : Query (Option Fr)
  | getKeyValidationRequest (pkMHash : Fr) (app : AztecAddress) : Query (Option (Point × Fr))
  | getAppSecretKey (pkHash : Fr) (app : AztecAddress) (keyType : KeyType) : Query (Option Fr)
  | getAppOvsk (pkHash : Fr) (app : AztecAddress) : Query (Option Fq)
  | getAccounts : Query (List Fr)
  | getAddress (address : AztecAddress) : Query (Option CompleteAddress)
  | getAllAddresses : Query (List CompleteAddress)
  | getNotes (filter : NoteFilter) : Query (List StoredNote)
  | getNotesBySlot (contract : AztecAddress) (storageSlot : Fr) : Query (List StoredNote)
  | hasNote (contract : AztecAddress) (noteHash : Fr) : Query Bool
  | loadCapsule (contract : AztecAddress) (slot : Fr) : Query (Option (List Fr))
  | readCapsuleArray (contract : AztecAddress) (baseSlot : Fr) : Query (List (List Fr))
  | containsSender (sender : AztecAddress) : Query Bool
  | getAllSenders : Query (List AztecAddress)
  | getTxHashesOfPendingIndexes (secret : Fr) (fromIndex toIndex : Nat) : Query (List TxHash)
  | getLastFinalizedIndex (secret : Fr) : Query Nat
  | getLastUsedIndex (secret : Fr) : Query Nat
  | getAllPending : Query (Std.ExtTreeMap Fr (List PendingTagIndex))
  | getHighestAgedIndex (secret : Fr) : Query Nat
  | getHighestFinalizedIndex (secret : Fr) : Query Nat
  | getPrivateEvents (selector : EventSelector) (filter : PrivateEventQueryFilter) :
      Query (List StoredPrivateEvent)
  | getBlockHeader : Query (Option AnchorBlockHeader)
  | getBlockHeaderOrErr : Query AnchorBlockHeader
  | getBlockNumber : Query Nat

/-- The calls that write. -/
inductive Update : Type → Type where
  | addInstance (contract : ContractInstance) : Update Unit
  | addArtifact (classId : Fr) (artifact : ContractArtifact) : Update Unit
  | addClassPreimage (classId : Fr) (preimage : Json) : Update Unit
  | updateArtifact (address : AztecAddress) (artifact : ContractArtifact) : Update Unit
  | addClass (artifact : ContractArtifact) : Update Fr
  | addAccount (secretKey : Fr) : Update DerivedKeys
  | addAddress (complete : CompleteAddress) : Update Unit
  | addNotes (notes : List StoredNote) (scope : AztecAddress) : Update Unit
  | addNote (note : StoredNote) : Update Unit
  | applyNullifiers (nullifiers : List (Fr × Nat)) : Update Unit
  | nullifyNote (contract : AztecAddress) (storageSlot noteHash : Fr) : Update Unit
  | rollbackNotes (blockNumber syncedBlockNumber : Nat) : Update Unit
  | addCapsule (contract : Fr) (capsule : List (List Fr)) : Update Unit
  | popCapsule (contract : Fr) : Update (Option (List (List Fr)))
  | storeCapsule (contract : AztecAddress) (slot : Fr) (capsule : List Fr) : Update Unit
  | deleteCapsule (contract : AztecAddress) (slot : Fr) : Update Unit
  | copyCapsule (contract : AztecAddress) (srcSlot dstSlot : Fr) (numEntries : Nat) : Update Unit
  | appendToCapsuleArray (contract : AztecAddress) (baseSlot : Fr) (content : List (List Fr)) :
      Update Unit
  | setCapsuleArray (contract : AztecAddress) (baseSlot : Fr) (content : List (List Fr)) :
      Update Unit
  | addSender (sender : AztecAddress) : Update Unit
  | removeSender (sender : AztecAddress) : Update Unit
  | storePendingIndexes (preTags : List PreTag) : Update Unit
  | getNextIndex (secret : Fr) : Update Nat
  | dropPendingIndexes (txHashes : List TxHash) : Update Unit
  | finalizePendingIndexes (secret : Fr) (upToIndex : Nat) : Update Unit
  | updateHighestAgedIndex (secret : Fr) (index : Nat) : Update Unit
  | updateHighestFinalizedIndex (secret : Fr) (index : Nat) : Update Unit
  | storePrivateEventLog (event : StoredPrivateEvent) (scope : AztecAddress) : Update Unit
  | rollbackEvents (blockNumber syncedBlockNumber : Nat) : Update Unit
  | setHeader (header : AnchorBlockHeader) : Update Unit

/-- Any call. -/
inductive Operation (β : Type) where
  | query (call : Query β)
  | update (call : Update β)

section Calls
variable {kv : KvStore} {Affine β γ : Type}

namespace Query

/-- The store a call belongs to. -/
def store : Query β → StoreName
  | .getInstance _ | .getContractAddresses | .getArtifact _ | .getClassPreimage _ => .contract
  | .getSecretKey _ | .getMasterNullifierHidingKey _ | .getMasterIncomingViewingSecretKey _
  | .getMasterOutgoingViewingSecretKey _ | .getMasterTaggingSecretKey _ | .getPublicKeys _
  | .getAppNullifierHidingKey _ _ | .getKeyValidationRequest _ _ | .getAppSecretKey _ _ _
  | .getAppOvsk _ _ | .getAccounts => .key
  | .getAddress _ | .getAllAddresses => .address
  | .getNotes _ | .getNotesBySlot _ _ | .hasNote _ _ => .note
  | .loadCapsule _ _ | .readCapsuleArray _ _ => .capsule
  | .containsSender _ | .getAllSenders => .sender
  | .getTxHashesOfPendingIndexes _ _ _ | .getLastFinalizedIndex _ | .getLastUsedIndex _
  | .getAllPending => .senderTagging
  | .getHighestAgedIndex _ | .getHighestFinalizedIndex _ => .recipientTagging
  | .getPrivateEvents _ _ => .event
  | .getBlockHeader | .getBlockHeaderOrErr | .getBlockNumber => .anchor

/-- The call on the shared store. -/
def run (env : Environment Affine) : Query β → kv.Program β
  | .getInstance address => ContractStore.getInstance env.contracts address
  | .getContractAddresses => ContractStore.getContractAddresses env.contracts
  | .getArtifact classId => ContractStore.getArtifact env.contracts classId
  | .getClassPreimage classId => ContractStore.getClassPreimage env.contracts classId
  | .getSecretKey pkHash => KeyStore.getSecretKey pkHash
  | .getMasterNullifierHidingKey pkHash =>
    KeyStore.getMasterNullifierHidingKey env.sha512 env.ark pkHash
  | .getMasterIncomingViewingSecretKey pkHash =>
    KeyStore.getMasterIncomingViewingSecretKey env.sha512 env.ark pkHash
  | .getMasterOutgoingViewingSecretKey pkHash =>
    KeyStore.getMasterOutgoingViewingSecretKey env.sha512 env.ark pkHash
  | .getMasterTaggingSecretKey pkHash =>
    KeyStore.getMasterTaggingSecretKey env.sha512 env.ark pkHash
  | .getPublicKeys pkHash => KeyStore.getPublicKeys env.sha512 env.ark pkHash
  | .getAppNullifierHidingKey pkHash app =>
    KeyStore.getAppNullifierHidingKey env.digests.poseidon2 env.sha512 env.ark pkHash app
  | .getKeyValidationRequest pkMHash app =>
    KeyStore.getKeyValidationRequest env.digests.poseidon2 env.sha512 env.ark pkMHash app
  | .getAppSecretKey pkHash app keyType =>
    KeyStore.getAppSecretKey env.digests.poseidon2 env.sha512 env.ark pkHash app keyType
  | .getAppOvsk pkHash app =>
    KeyStore.getAppOvsk env.digests.poseidon2 env.sha512 env.ark pkHash app
  | .getAccounts => KeyStore.getAccounts
  | .getAddress address => AddressStore.get env.addresses address
  | .getAllAddresses => AddressStore.getAll env.addresses
  | .getNotes filter => NoteStore.getNotes env.notes filter
  | .getNotesBySlot contract storageSlot =>
    NoteStore.getNotesBySlot env.notes contract storageSlot
  | .hasNote contract noteHash => NoteStore.hasNote env.notes contract noteHash
  | .loadCapsule contract slot => CapsuleStore.loadCapsule env.capsules contract slot
  | .readCapsuleArray contract baseSlot =>
    CapsuleStore.readCapsuleArray env.capsules contract baseSlot
  | .containsSender sender => SenderStore.contains sender
  | .getAllSenders => SenderStore.getAll
  | .getTxHashesOfPendingIndexes secret fromIndex toIndex =>
    SenderTaggingStore.getTxHashesOfPendingIndexes env.senderTags secret fromIndex toIndex
  | .getLastFinalizedIndex secret =>
    SenderTaggingStore.getLastFinalizedIndex env.senderTags secret
  | .getLastUsedIndex secret => SenderTaggingStore.getLastUsedIndex env.senderTags secret
  | .getAllPending => SenderTaggingStore.getAllPending env.senderTags
  | .getHighestAgedIndex secret =>
    RecipientTaggingStore.getHighestAgedIndex env.recipientTags secret
  | .getHighestFinalizedIndex secret =>
    RecipientTaggingStore.getHighestFinalizedIndex env.recipientTags secret
  | .getPrivateEvents selector filter =>
    PrivateEventStore.getPrivateEvents env.events selector filter
  | .getBlockHeader => AnchorBlockStore.getBlockHeader env.anchor
  | .getBlockHeaderOrErr => AnchorBlockStore.getBlockHeaderOrErr env.anchor
  | .getBlockNumber => AnchorBlockStore.getBlockNumber env.anchor

end Query

namespace Update

/-- The store a call belongs to. -/
def store : Update β → StoreName
  | .addInstance _ | .addArtifact _ _ | .addClassPreimage _ _ | .updateArtifact _ _
  | .addClass _ => .contract
  | .addAccount _ => .key
  | .addAddress _ => .address
  | .addNotes _ _ | .addNote _ | .applyNullifiers _ | .nullifyNote _ _ _
  | .rollbackNotes _ _ => .note
  | .addCapsule _ _ | .popCapsule _ | .storeCapsule _ _ _ | .deleteCapsule _ _
  | .copyCapsule _ _ _ _ | .appendToCapsuleArray _ _ _ | .setCapsuleArray _ _ _ => .capsule
  | .addSender _ | .removeSender _ => .sender
  | .storePendingIndexes _ | .getNextIndex _ | .dropPendingIndexes _
  | .finalizePendingIndexes _ _ => .senderTagging
  | .updateHighestAgedIndex _ _ | .updateHighestFinalizedIndex _ _ => .recipientTagging
  | .storePrivateEventLog _ _ | .rollbackEvents _ _ => .event
  | .setHeader _ => .anchor

/-- The call on the shared store. -/
def run (env : Environment Affine) : Update β → kv.Program β
  | .addInstance contract => ContractStore.addInstance env.contracts contract
  | .addArtifact classId artifact => ContractStore.addArtifact env.contracts classId artifact
  | .addClassPreimage classId preimage =>
    ContractStore.addClassPreimage env.contracts classId preimage
  | .updateArtifact address artifact =>
    ContractStore.updateArtifact env.contracts address artifact
  | .addClass artifact => ContractStore.addClass env.contracts env.digests artifact
  | .addAccount secretKey =>
    KeyStore.addAccount env.digests.poseidon2 env.sha512 env.ark secretKey
  | .addAddress complete => AddressStore.add env.addresses complete
  | .addNotes notes scope => NoteStore.addNotes env.notes notes scope
  | .addNote note => NoteStore.addNote env.notes note
  | .applyNullifiers nullifiers => NoteStore.applyNullifiers env.notes nullifiers
  | .nullifyNote contract storageSlot noteHash =>
    NoteStore.nullifyNote env.notes contract storageSlot noteHash
  | .rollbackNotes blockNumber synced => NoteStore.rollback env.notes blockNumber synced
  | .addCapsule contract capsule => CapsuleStore.add env.capsules contract capsule
  | .popCapsule contract => CapsuleStore.pop env.capsules contract
  | .storeCapsule contract slot capsule =>
    CapsuleStore.storeCapsule env.capsules contract slot capsule
  | .deleteCapsule contract slot => CapsuleStore.deleteCapsule contract slot
  | .copyCapsule contract srcSlot dstSlot numEntries =>
    CapsuleStore.copyCapsule env.capsules contract srcSlot dstSlot numEntries
  | .appendToCapsuleArray contract baseSlot content =>
    CapsuleStore.appendToCapsuleArray env.capsules contract baseSlot content
  | .setCapsuleArray contract baseSlot content =>
    CapsuleStore.setCapsuleArray env.capsules contract baseSlot content
  | .addSender sender => SenderStore.add sender
  | .removeSender sender => SenderStore.remove sender
  | .storePendingIndexes preTags =>
    SenderTaggingStore.storePendingIndexes env.senderTags preTags
  | .getNextIndex secret => SenderTaggingStore.getNextIndex env.senderTags secret
  | .dropPendingIndexes txHashes =>
    SenderTaggingStore.dropPendingIndexes env.senderTags txHashes
  | .finalizePendingIndexes secret upToIndex =>
    SenderTaggingStore.finalizePendingIndexes env.senderTags secret upToIndex
  | .updateHighestAgedIndex secret index =>
    RecipientTaggingStore.updateHighestAgedIndex env.recipientTags secret index
  | .updateHighestFinalizedIndex secret index =>
    RecipientTaggingStore.updateHighestFinalizedIndex env.recipientTags secret index
  | .storePrivateEventLog event scope =>
    PrivateEventStore.storePrivateEventLog env.events event scope
  | .rollbackEvents blockNumber synced => PrivateEventStore.rollback env.events blockNumber synced
  | .setHeader header => AnchorBlockStore.setHeader env.anchor header

end Update

namespace Operation

/-- The store a call belongs to. -/
def store : Operation β → StoreName
  | .query call => call.store
  | .update call => call.store

/-- The call on the shared store. -/
def run (env : Environment Affine) : Operation β → kv.Program β
  | .query call => call.run env
  | .update call => call.run env

end Operation

/-! ## Where each call reads and writes -/

variable {env : Environment Affine}

theorem Query.reads (call : Query β) : Reads call.store.keys (call.run env : kv.Program β) := by
  cases call with
  | getInstance address => exact ContractStore.reads_getInstance address
  | getContractAddresses => exact ContractStore.reads_getContractAddresses
  | getArtifact classId => exact reads_load (ContractStore.artifactKey_mem classId)
  | getClassPreimage classId => exact reads_load (ContractStore.classPreimageKey_mem classId)
  | getSecretKey pkHash => exact KeyStore.reads_getSecretKey pkHash
  | getMasterNullifierHidingKey pkHash => exact KeyStore.reads_getDerived _ pkHash
  | getMasterIncomingViewingSecretKey pkHash => exact KeyStore.reads_getDerived _ pkHash
  | getMasterOutgoingViewingSecretKey pkHash => exact KeyStore.reads_getDerived _ pkHash
  | getMasterTaggingSecretKey pkHash => exact KeyStore.reads_getDerived _ pkHash
  | getPublicKeys pkHash => exact KeyStore.reads_getDerived _ pkHash
  | getAppNullifierHidingKey pkHash app =>
    exact KeyStore.reads_getAppNullifierHidingKey pkHash app
  | getKeyValidationRequest pkMHash app =>
    exact KeyStore.reads_getKeyValidationRequest pkMHash app
  | getAppSecretKey pkHash app keyType =>
    exact KeyStore.reads_getAppSecretKey pkHash app keyType
  | getAppOvsk pkHash app => exact KeyStore.reads_getAppOvsk pkHash app
  | getAccounts => exact KeyStore.reads_getAccounts
  | getAddress address => exact reads_load (AddressStore.addressKey_mem address)
  | getAllAddresses => exact AddressStore.reads_getAll
  | getNotes filter => exact NoteStore.reads_getNotes filter
  | getNotesBySlot contract storageSlot => exact NoteStore.reads_getNotesBySlot contract storageSlot
  | hasNote contract noteHash =>
    exact reads_bind (NoteStore.reads_getNotesForContract contract) (fun _ => reads_pure _)
  | loadCapsule contract slot => exact reads_load (CapsuleStore.dbSlotKey_mem contract slot)
  | readCapsuleArray contract baseSlot =>
    exact CapsuleStore.reads_readCapsuleArray contract baseSlot
  | containsSender sender =>
    exact reads_bind (reads_read (SenderStore.senderKey_mem sender)) (fun _ => reads_pure _)
  | getAllSenders => exact SenderStore.reads_getAll
  | getTxHashesOfPendingIndexes secret fromIndex toIndex =>
    exact reads_bind (SenderTaggingStore.reads_getPendingIndexes secret) (fun _ => reads_pure _)
  | getLastFinalizedIndex secret => exact SenderTaggingStore.reads_getLastFinalizedIndex secret
  | getLastUsedIndex secret => exact SenderTaggingStore.reads_getLastUsedIndex secret
  | getAllPending => exact SenderTaggingStore.reads_getAllPending
  | getHighestAgedIndex secret => exact RecipientTaggingStore.reads_getHighestAgedIndex secret
  | getHighestFinalizedIndex secret =>
    exact RecipientTaggingStore.reads_getHighestFinalizedIndex secret
  | getPrivateEvents selector filter => exact PrivateEventStore.reads_getPrivateEvents selector filter
  | getBlockHeader => exact reads_load AnchorBlockStore.anchorHeaderKey_mem
  | getBlockHeaderOrErr => exact AnchorBlockStore.reads_getBlockHeaderOrErr
  | getBlockNumber =>
    exact reads_bind (reads_load AnchorBlockStore.anchorHeaderKey_mem) (fun _ => reads_pure _)

theorem Update.writes (call : Update β) : Writes call.store.keys (call.run env : kv.Program β) := by
  cases call with
  | addInstance contract => exact writes_save (ContractStore.instanceKey_mem _) contract
  | addArtifact classId artifact => exact ContractStore.writes_addArtifact classId artifact
  | addClassPreimage classId preimage =>
    exact writes_save (ContractStore.classPreimageKey_mem classId) preimage
  | updateArtifact address artifact => exact ContractStore.writes_updateArtifact address artifact
  | addClass artifact => exact ContractStore.writes_addClass env.digests artifact
  | addAccount secretKey => exact KeyStore.writes_addAccount secretKey
  | addAddress complete => exact writes_save (AddressStore.addressKey_mem _) complete
  | addNotes notes scope => exact NoteStore.writes_addNotes notes scope
  | addNote note => exact NoteStore.writes_addNotes [note] _
  | applyNullifiers nullifiers => exact NoteStore.writes_applyNullifiers nullifiers
  | nullifyNote contract storageSlot noteHash =>
    exact NoteStore.writes_nullifyNote contract storageSlot noteHash
  | rollbackNotes blockNumber synced => exact NoteStore.writes_rollback blockNumber synced
  | addCapsule contract capsule => exact writes_save (CapsuleStore.capsuleKey_mem contract) capsule
  | popCapsule contract => exact CapsuleStore.writes_pop contract
  | storeCapsule contract slot capsule => exact CapsuleStore.writes_storeCapsule contract slot capsule
  | deleteCapsule contract slot => exact writes_delete (CapsuleStore.dbSlotKey_mem contract slot)
  | copyCapsule contract srcSlot dstSlot numEntries =>
    exact CapsuleStore.writes_copyCapsule contract srcSlot dstSlot numEntries
  | appendToCapsuleArray contract baseSlot content =>
    exact CapsuleStore.writes_appendToCapsuleArray contract baseSlot content
  | setCapsuleArray contract baseSlot content =>
    exact CapsuleStore.writes_setCapsuleArray contract baseSlot content
  | addSender sender => exact writes_put (SenderStore.senderKey_mem sender) _
  | removeSender sender => exact writes_delete (SenderStore.senderKey_mem sender)
  | storePendingIndexes preTags => exact SenderTaggingStore.writes_storePendingIndexes preTags
  | getNextIndex secret => exact SenderTaggingStore.writes_getNextIndex secret
  | dropPendingIndexes txHashes => exact SenderTaggingStore.writes_dropPendingIndexes txHashes
  | finalizePendingIndexes secret upToIndex =>
    exact SenderTaggingStore.writes_finalizePendingIndexes secret upToIndex
  | updateHighestAgedIndex secret index =>
    exact RecipientTaggingStore.writes_updateHighestAgedIndex secret index
  | updateHighestFinalizedIndex secret index =>
    exact RecipientTaggingStore.writes_updateHighestFinalizedIndex secret index
  | storePrivateEventLog event scope =>
    exact PrivateEventStore.writes_storePrivateEventLog event scope
  | rollbackEvents blockNumber synced => exact PrivateEventStore.writes_rollback blockNumber synced
  | setHeader header => exact writes_save AnchorBlockStore.anchorHeaderKey_mem header

theorem Operation.writes (call : Operation β) :
    Writes call.store.keys (call.run env : kv.Program β) := by
  cases call with
  | query call => exact call.reads.writes
  | update call => exact call.writes

/-! ## What they leave alone -/

/-- Whatever a call of one store does, also when it fails, a reading of another returns what it
returned before. -/
theorem reading_unchanged (env : Environment Affine) (operation : Operation β) (query : Query γ)
    (elsewhere : operation.store ≠ query.store) (state : kv.State) :
    (exec (query.run env) (exec (operation.run env) state).2).1 = (exec (query.run env) state).1 :=
  query.reads.frame operation.writes (disjoint_keys elsewhere) state

/-- The state after one call after the other. -/
def runAll (env : Environment Affine) (calls : List ((β : Type) × Operation β))
    (state : kv.State) : kv.State :=
  calls.foldl (fun state call => (exec (call.2.run env) state).2) state

/-- So it does after any run of calls of other stores. -/
theorem reading_unchanged_by_run (env : Environment Affine)
    (calls : List ((β : Type) × Operation β)) (query : Query γ)
    (elsewhere : ∀ call ∈ calls, call.2.store ≠ query.store) (state : kv.State) :
    (exec (query.run env) (runAll env calls state)).1 = (exec (query.run env) state).1 := by
  induction calls generalizing state with
  | nil => rfl
  | cons call rest ih =>
    have later := ih (fun other held => elsewhere other (.tail _ held))
      (exec (call.2.run env) state).2
    exact later.trans (query.reads.frame call.2.writes
      (disjoint_keys (elsewhere call List.mem_cons_self)) state)

end Calls

/-- A number as decimal digits. -/
def decimal : Codec Nat where
  toVec n := .ok (utf8 (toString n))
  fromSlice bytes := match u64FromStrRadix (utf8Lossy none bytes) 10 with
    | some n => .ok n
    | none => .error (.invalidData "expected value")

/-- A type nothing is stored of. -/
def unstored {α : Type} : Codec α where
  toVec _ := .error (.invalidData "unstored")
  fromSlice _ := .error (.invalidData "unstored")

/-- Numbers are stored, nothing else. -/
def numbersOnly : Environment (Option (Fr × Fr)) where
  digests := ⟨fun _ => 0, fun _ => 0, fun _ => none⟩
  sha512 := fun _ => 0
  ark := GrumpkinCurve.arkGrumpkin
  contracts := ⟨unstored, unstored, unstored⟩
  addresses := unstored
  notes := ⟨unstored, unstored⟩
  capsules := ⟨unstored, unstored⟩
  senderTags := ⟨unstored, decimal⟩
  recipientTags := decimal
  events := ⟨unstored, unstored⟩
  anchor := unstored

/-- A store in memory with one sender. -/
def oneSender : InMemoryKvStore.State :=
  (exec (SenderStore.add ⟨5⟩ : InMemoryKvStore.Program Unit) InMemoryKvStore.new).2

/-- A recipient's index is stored, and the senders are listed as before. -/
theorem aged_index_keeps_senders :
    (exec (Query.getAllSenders.run numbersOnly) (exec ((Operation.update
        (.updateHighestAgedIndex 9 3)).run numbersOnly) oneSender).2).1 =
      (exec (Query.getAllSenders.run numbersOnly) oneSender).1 :=
  reading_unchanged numbersOnly (.update (.updateHighestAgedIndex 9 3)) .getAllSenders (by decide)
    oneSender

end AztecPxe.KvStores
