import AztecPxe.CapsuleStore
import AztecPxe.Hash
import AztecPxe.NoteService

/-! The handler of `utility_oracle.rs` through which a contract's sync function
hands over what it discovered: note and event validation requests, queued in
two capsule arrays, are parsed, checked against the node and stored. Poseidon2
is a parameter. -/
namespace AztecPxe.UtilityOracle
open AztecPxe Hash

/-- `MAX_NOTE_PACKED_LEN`. -/
def maxNotePackedLen : Nat := 8

/-- `MAX_EVENT_SERIALIZED_LEN`. -/
def maxEventSerializedLen : Nat := 10

/-- `ParsedNoteValidationRequest`. -/
structure ParsedNoteValidationRequest where
  contractAddress : AztecAddress
  owner : AztecAddress
  storageSlot : Fr
  randomness : Fr
  noteNonce : Fr
  content : List Fr
  noteHash : Fr
  nullifier : Fr
  txHash : TxHash
  recipient : AztecAddress
  deriving DecidableEq, Repr

/-- `ParsedEventValidationRequest`. -/
structure ParsedEventValidationRequest where
  contractAddress : AztecAddress
  eventTypeId : EventSelector
  randomness : Fr
  serializedEvent : List Fr
  eventCommitment : Fr
  txHash : TxHash
  recipient : AztecAddress
  deriving DecidableEq, Repr

/-- `tx_hash_from_field`: the big-endian bytes of the field element. -/
def txHashFromField (field : Fr) : TxHash :=
  ⟨⟨field.val, Nat.lt_trans field.isLt (by decide)⟩⟩

/-- `parse_note_validation_request`. -/
def parseNoteValidationRequest (fields : List Fr) : Except Error ParsedNoteValidationRequest :=
  if fields.length < 5 + maxNotePackedLen + 5 then
    .error (.invalidData "note validation request too short")
  else
    let field (i : Nat) : Fr := fields.getD i 0
    let contentLen := min (field (5 + maxNotePackedLen)).toUsize maxNotePackedLen
    .ok { contractAddress := ⟨field 0⟩
          owner := ⟨field 1⟩
          storageSlot := field 2
          randomness := field 3
          noteNonce := field 4
          content := ((fields.drop 5).take maxNotePackedLen).take contentLen
          noteHash := field (5 + maxNotePackedLen + 1)
          nullifier := field (5 + maxNotePackedLen + 2)
          txHash := txHashFromField (field (5 + maxNotePackedLen + 3))
          recipient := ⟨field (5 + maxNotePackedLen + 4)⟩ }

/-- `parse_event_validation_request`. -/
def parseEventValidationRequest (fields : List Fr) : Except Error ParsedEventValidationRequest :=
  if fields.length < 3 + maxEventSerializedLen + 4 then
    .error (.invalidData "event validation request too short")
  else
    let field (i : Nat) : Fr := fields.getD i 0
    let eventLen := min (field (3 + maxEventSerializedLen)).toUsize maxEventSerializedLen
    .ok { contractAddress := ⟨field 0⟩
          eventTypeId := ⟨field 1⟩
          randomness := field 2
          serializedEvent := ((fields.drop 3).take maxEventSerializedLen).take eventLen
          eventCommitment := field (3 + maxEventSerializedLen + 1)
          txHash := txHashFromField (field (3 + maxEventSerializedLen + 2))
          recipient := ⟨field (3 + maxEventSerializedLen + 3)⟩ }

section Poseidon
variable (poseidon2 : List Fr → Fr)

/-- The record built from a note validation request. -/
def requestedNote (request : ParsedNoteValidationRequest) : StoredNote where
  contractAddress := request.contractAddress
  owner := request.owner
  storageSlot := request.storageSlot
  randomness := request.randomness
  noteNonce := request.noteNonce
  noteHash := request.noteHash
  siloedNullifier := siloNullifier poseidon2 request.contractAddress request.nullifier
  noteData := request.content
  nullified := false
  isPending := false
  nullificationBlockNumber := none
  leafIndex := none
  blockNumber := none
  txIndexInBlock := none
  noteIndexInTx := none
  scopes := [request.recipient]

/-- The loop over the note requests. -/
def storeNotes (node : AztecNode) : List (List Fr) → NoteStore → Except Error Unit × NoteStore
  | [], store => (.ok (), store)
  | fields :: rest, store =>
    match parseNoteValidationRequest fields with
    | .error e => (.error e, store)
    | .ok request =>
      match NoteService.validateAndStoreNote node (requestedNote poseidon2 request)
          request.recipient store with
      | (.error e, store) => (.error e, store)
      | (.ok (), store) => storeNotes node rest store

/-- The position of a commitment among the nullifiers of a transaction effect. -/
def nullifierPosition (commitment : Fr) (nullifiers : List Json) : Option Nat :=
  nullifiers.findIdx? (fun n => n.asStr == some (hex32 commitment.val))

/-- `EventService::validate_and_store_event`. -/
def validateAndStoreEvent (node : AztecNode) (anchorBlockNumber : Nat)
    (request : ParsedEventValidationRequest) (store : PrivateEventStore) :
    Except Error PrivateEventStore := do
  let siloed := poseidon2HashWithSeparator poseidon2
    [request.contractAddress.inner, request.eventCommitment] 0
  let txHash := hex32 request.txHash.bytes.val
  let effect ← match ← node.getTxEffect request.txHash with
    | some effect => .ok effect
    | none => .error (.invalidData ("tx effect not found for tx " ++ txHash))
  let blockNumber := ((effect.field "l2BlockNumber").bind Json.asU64).getD 0
  if anchorBlockNumber < blockNumber ∧ 0 < anchorBlockNumber then
    .error (.invalidData ("tx " ++ txHash ++ " is in block " ++ toString blockNumber ++
      " which is after anchor block " ++ toString anchorBlockNumber))
  else
    let nullifiers := (effect.field "nullifiers").bind Json.asArray
    let position := nullifiers.bind (nullifierPosition siloed)
    if nullifiers.isSome ∧ position.isNone then
      .error (.invalidData ("siloed event commitment " ++ hex32 siloed.val ++
        " not found in tx " ++ txHash ++ " nullifiers"))
    else
      return store.storePrivateEventLog
        { eventSelector := request.eventTypeId
          randomness := request.randomness
          msgContent := request.serializedEvent
          siloedEventCommitment := siloed
          contractAddress := request.contractAddress
          scopes := []
          txHash := request.txHash
          l2BlockNumber := blockNumber
          l2BlockHash := ((effect.field "l2BlockHash").bind Json.asStr).getD "0x0"
          txIndexInBlock := (effect.field "txIndexInBlock").bind Json.asU64
          eventIndexInTx := position } request.recipient

/-- The loop over the event requests. -/
def storeEvents (node : AztecNode) (anchorBlockNumber : Nat) :
    List (List Fr) → PrivateEventStore → Except Error Unit × PrivateEventStore
  | [], store => (.ok (), store)
  | fields :: rest, store =>
    match parseEventValidationRequest fields >>= fun request =>
        validateAndStoreEvent poseidon2 node anchorBlockNumber request store with
    | .error e => (.error e, store)
    | .ok store => storeEvents node anchorBlockNumber rest store

/-- What the handler reads and writes. -/
structure OracleState where
  blocks : BlockState := {}
  capsules : CapsuleStore := {}

/-- An argument of the handler, with the error for a missing one. -/
def argument (args : List (List Fr)) (i : Nat) (name : String) : Except Error Fr :=
  match (args[i]?).bind List.head? with
  | some field => .ok field
  | none => .error
    (.invalidData ("validateAndStoreEnqueuedNotesAndEvents: missing " ++ name))

/-- The three arguments, and the check that the contract reads its own slots. -/
def parseArguments (self : AztecAddress) (args : List (List Fr)) :
    Except Error (AztecAddress × Fr × Fr) := do
  let contract : AztecAddress := ⟨← argument args 0 "contract address"⟩
  let noteSlot ← argument args 1 "note requests slot"
  let eventSlot ← argument args 2 "event requests slot"
  if contract = self then return (contract, noteSlot, eventSlot)
  else .error (.invalidData ("contract " ++ hex32 contract.inner.val ++
    " is not allowed to access " ++ hex32 self.inner.val ++ "'s PXE DB"))

/-- `validate_and_store_enqueued_notes_and_events`: both arrays are emptied only
after every request of both was stored. -/
def validateAndStoreEnqueuedNotesAndEvents (node : AztecNode) (self : AztecAddress)
    (args : List (List Fr)) (state : OracleState) :
    Except Error (List (List Fr)) × OracleState :=
  match parseArguments self args with
  | .error e => (.error e, state)
  | .ok (contract, noteSlot, eventSlot) =>
    match state.capsules.readCapsuleArray contract noteSlot with
    | .error e => (.error e, state)
    | .ok noteRequests =>
      match storeNotes poseidon2 node noteRequests state.blocks.notes with
      | (.error e, notes) => (.error e, { state with blocks := { state.blocks with notes := notes } })
      | (.ok (), notes) =>
        let state := { state with blocks := { state.blocks with notes := notes } }
        match state.capsules.readCapsuleArray contract eventSlot with
        | .error e => (.error e, state)
        | .ok eventRequests =>
          match storeEvents poseidon2 node state.blocks.anchorBlockNumber eventRequests
              state.blocks.events with
          | (.error e, events) =>
            (.error e, { state with blocks := { state.blocks with events := events } })
          | (.ok (), events) =>
            let capsules := (state.capsules.setCapsuleArray contract noteSlot []).setCapsuleArray
              contract eventSlot []
            (.ok [], { blocks := { state.blocks with events := events }, capsules := capsules })

end Poseidon
end AztecPxe.UtilityOracle
