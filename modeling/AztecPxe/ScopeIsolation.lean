import AztecPxe.GetNotes
import AztecPxe.KeyRequests
import AztecPxe.NoteIndex

/-! What the scopes of an execution keep apart. Both oracles offer `getNotes` and requests for
keys, each in its own code: the utility oracle asks the note store for notes of its scopes, the
private one for notes of any; and without scopes the private oracle gives out every key, the
utility oracle none. -/
namespace AztecPxe.ScopeIsolation
open AztecPxe PrivateExecutionOracle KeyRequests Grumpkin

/-! ## The two handlers of `getNotes` -/

/-- What both handlers make of the notes they are offered: selected, cut to a page and packed,
or nothing where a select clause panics. -/
def answerNotes (args : Args) (offered : Fr → NoteStatus → List StoredNote) :
    Option (Except Error Answer) :=
  match args.first 2 with
  | none => some (.error (.invalidData "getNotes: missing storage_slot"))
  | some storageSlot =>
    match noteStatusFromField ((args.first 15).getD 0) with
    | .error e => some (.error e)
    | .ok status =>
      (SelectClause.selectNotes (SelectClause.parse args) (offered storageSlot status)).map
        (fun notes => do
          let packed ← (page (askedNumber args 14) (askedNumber args 13) (askedNumber args 16)
            notes).mapM packHintedNote
          packBoundedVecOfArrays packed (askedNumber args 16) (askedNumber args 17))

/-- The notes of a contract under the slot, of the owner and in the state asked for. -/
def asked (contract : AztecAddress) (args : Args) (storageSlot : Fr) (status : NoteStatus) :
    NoteFilter :=
  { contractAddress := some contract, storageSlot := some storageSlot, owner := askedOwner args,
    status := status }

/-- `UtilityExecutionOracle::get_notes`. -/
def utilityGetNotes (contract : AztecAddress) (scopes : List AztecAddress) (store : NoteStore)
    (args : Args) : Option (Except Error Answer) :=
  answerNotes args (fun storageSlot status =>
    store.getNotes { asked contract args storageSlot status with scopes := scopes })

/-- The private handler does the same with the notes it is offered. -/
theorem getNotes_eq (oracle : PrivateExecutionOracle) (store : NoteStore) (args : Args) :
    oracle.getNotes store args = answerNotes args (fun storageSlot status =>
      oracle.offeredNotes store storageSlot (askedOwner args) status) := by
  rw [getNotes, returnedNotes, answerNotes]
  cases args.first 2 with
  | none => rfl
  | some storageSlot =>
    cases noteStatusFromField ((args.first 15).getD 0) with
    | error e => rfl
    | ok status =>
      simp only [Option.map_map]
      rfl

/-! ## States that scopes cannot tell apart -/

/-- The stores the two kinds of calls read. -/
structure PxeState where
  notes : NoteStore := {}
  addresses : AztecAddress → Option CompleteAddress := fun _ => none
  keys : KeyStore := ∅

/-- Some scope of the note is one of these. -/
def inScope (scopes : List AztecAddress) (note : StoredNote) : Bool :=
  note.scopes.any (scopes.contains ·)

variable (poseidon2 : List Fr → Fr) (sha512 : List UInt8 → Nat) {Affine : Type}
  (ark : ArkGrumpkin Affine)

/-- The account has a key of an account in scope. -/
def ownedInScope (addresses : AztecAddress → Option CompleteAddress) (scopes : List AztecAddress)
    (account : Fr × Fr) : Bool :=
  (deriveKeys sha512 ark account.2).publicKeys.masterKeys.any (fun key =>
    keyInScope poseidon2 addresses scopes (keyHash poseidon2 key))

/-- Two states differ only in notes none of whose scopes is one of these, and in the keys of
other accounts. -/
structure DifferOutside (scopes : List AztecAddress) (first second : PxeState) : Prop where
  notes : ∀ contract, (first.notes.getNotesForContract contract).filter (inScope scopes) =
    (second.notes.getNotesForContract contract).filter (inScope scopes)
  addresses : ∀ scope ∈ scopes, first.addresses scope = second.addresses scope
  keys : first.keys.toList.filter (ownedInScope poseidon2 sha512 ark first.addresses scopes) =
    second.keys.toList.filter (ownedInScope poseidon2 sha512 ark second.addresses scopes)

section Isolated
variable {poseidon2 sha512 ark} {scopes : List AztecAddress} {first second : PxeState}

theorem keyInScope_eq (differ : DifferOutside poseidon2 sha512 ark scopes first second)
    (pkMHash : Fr) : keyInScope poseidon2 first.addresses scopes pkMHash =
      keyInScope poseidon2 second.addresses scopes pkMHash := by
  rw [Bool.eq_iff_iff, keyInScope, keyInScope, List.any_eq_true, List.any_eq_true]
  exact exists_congr (fun scope => and_congr_right (fun held => by
    rw [differ.addresses scope held]))

/-- A key in scope is found alike: only accounts in scope have it. -/
theorem answerRequest_eq (differ : DifferOutside poseidon2 sha512 ark scopes first second)
    (contract : AztecAddress) (pkMHash : Fr) :
    answerRequest poseidon2 sha512 ark first.keys contract
        (keyInScope poseidon2 first.addresses scopes pkMHash) pkMHash =
      answerRequest poseidon2 sha512 ark second.keys contract
        (keyInScope poseidon2 second.addresses scopes pkMHash) pkMHash := by
  rw [← keyInScope_eq differ]
  cases allowed : keyInScope poseidon2 first.addresses scopes pkMHash with
  | false => rfl
  | true =>
    have owners (state : PxeState)
        (shared : keyInScope poseidon2 state.addresses scopes pkMHash = true) (account : Fr × Fr)
        (owned : HasKey poseidon2 (deriveKeys sha512 ark account.2).publicKeys pkMHash) :
        ownedInScope poseidon2 sha512 ark state.addresses scopes account = true := by
      obtain ⟨key, listed, same⟩ := owned
      exact List.any_eq_true.mpr ⟨key, listed, by rwa [same]⟩
    have shared := (keyInScope_eq differ pkMHash).symm.trans allowed
    rw [answerRequest, answerRequest,
      ← getKeyValidationRequest_filter first.keys contract (owners first allowed), differ.keys,
      getKeyValidationRequest_filter second.keys contract (owners second shared)]

/-- Key requests with scopes are answered alike by either oracle. -/
theorem keyRequests_isolated (differ : DifferOutside poseidon2 sha512 ark scopes first second)
    (nonempty : scopes ≠ []) (contract : AztecAddress) (args : Args) :
    privateKeyRequest poseidon2 sha512 ark first.addresses first.keys contract scopes args =
        privateKeyRequest poseidon2 sha512 ark second.addresses second.keys contract scopes args ∧
      utilityKeyRequest poseidon2 sha512 ark first.addresses first.keys contract scopes args =
        utilityKeyRequest poseidon2 sha512 ark second.addresses second.keys contract scopes args := by
  have some : scopes.isEmpty = false := by simpa using nonempty
  rw [privateKeyRequest, privateKeyRequest, utilityKeyRequest, utilityKeyRequest]
  cases args.first 0 with
  | none => exact ⟨rfl, rfl⟩
  | some pkMHash =>
    simp only [some, Bool.false_or]
    exact ⟨answerRequest_eq differ contract pkMHash, answerRequest_eq differ contract pkMHash⟩

/-- A query for scopes reads only the notes in scope. -/
theorem getNotes_inScope (store : NoteStore) (nonempty : scopes ≠ []) (contract : AztecAddress)
    (args : Args) (storageSlot : Fr) (status : NoteStatus) :
    store.getNotes { asked contract args storageSlot status with scopes := scopes } =
      (((store.getNotesForContract contract).filter (inScope scopes)).filter
        (asked contract args storageSlot status).accepts).insertionSort
          (fun a b => a.before b = true) := by
  have some : scopes.isEmpty = false := by simpa using nonempty
  rw [NoteStore.getNotes, List.filter_filter]
  congr 1
  refine List.filter_congr (fun note _ => ?_)
  simp only [NoteFilter.accepts, asked, inScope, some, Bool.false_or, Option.all_none,
    List.isEmpty_nil, Bool.true_or, Bool.and_true]

/-- New notes out of scope are not among those in scope. -/
theorem filter_inScope_addNotes {store : NoteStore} (coherent : NoteStoreRollback.Coherent store)
    {notes : List StoredNote} (distinct : (notes.map (·.siloedNullifier)).Nodup)
    (fresh : ∀ note ∈ notes, store.notes[note.siloedNullifier]? = none) {scope : AztecAddress}
    (outside : ∀ note ∈ notes, inScope scopes (note.withScope scope) = false)
    (contract : AztecAddress) :
    ((store.addNotes notes scope).getNotesForContract contract).filter (inScope scopes) =
      (store.getNotesForContract contract).filter (inScope scopes) := by
  have none : ((notes.filter (fun note => note.contractAddress = contract)).map
      (·.withScope scope)).filter (inScope scopes) = [] := by
    rw [List.filter_eq_nil_iff]
    intro added held
    obtain ⟨note, kept, rfl⟩ := List.mem_map.mp held
    simp [outside note (List.mem_filter.mp kept).1]
  rw [NoteIndex.getNotesForContract_addNotes coherent distinct fresh, List.filter_append, none,
    List.append_nil]

theorem utilityGetNotes_isolated (differ : DifferOutside poseidon2 sha512 ark scopes first second)
    (nonempty : scopes ≠ []) (contract : AztecAddress) (args : Args) :
    utilityGetNotes contract scopes first.notes args =
      utilityGetNotes contract scopes second.notes args := by
  simp only [utilityGetNotes, getNotes_inScope _ nonempty, differ.notes contract]

/-- Every note the store has for the request is in scope. -/
def AsksInScope (scopes : List AztecAddress) (contract : AztecAddress) (args : Args)
    (store : NoteStore) : Prop :=
  ∀ storageSlot status,
    ∀ note ∈ store.getNotes (asked contract args storageSlot status), inScope scopes note = true

/-- Where no other note matches, the private oracle reads the notes in scope too. -/
theorem getNotes_of_asksInScope {store : NoteStore} {contract : AztecAddress} {args : Args}
    (inside : AsksInScope scopes contract args store) (storageSlot : Fr) (status : NoteStatus) :
    store.getNotes (asked contract args storageSlot status) =
      (((store.getNotesForContract contract).filter (inScope scopes)).filter
        (asked contract args storageSlot status).accepts).insertionSort
          (fun a b => a.before b = true) := by
  rw [NoteStore.getNotes, List.filter_filter]
  congr 1
  refine List.filter_congr (fun note held => ?_)
  cases accepted : (asked contract args storageSlot status).accepts note with
  | false => rfl
  | true =>
    rw [inside storageSlot status note, Bool.true_and]
    exact List.mem_insertionSort _ |>.mpr (List.mem_filter.mpr ⟨held, accepted⟩)

theorem getNotes_isolated (differ : DifferOutside poseidon2 sha512 ark scopes first second)
    (oracle : PrivateExecutionOracle) (args : Args)
    (insideFirst : AsksInScope scopes oracle.contractAddress args first.notes)
    (insideSecond : AsksInScope scopes oracle.contractAddress args second.notes) :
    oracle.getNotes first.notes args = oracle.getNotes second.notes args := by
  rw [getNotes_eq, getNotes_eq]
  congr 1
  funext storageSlot status
  have same : first.notes.getNotes (asked oracle.contractAddress args storageSlot status) =
      second.notes.getNotes (asked oracle.contractAddress args storageSlot status) := by
    rw [getNotes_of_asksInScope insideFirst, getNotes_of_asksInScope insideSecond,
      differ.notes oracle.contractAddress]
  simp only [asked] at same
  rw [offeredNotes, offeredNotes, storedNotes, storedNotes, same]

end Isolated

end AztecPxe.ScopeIsolation
