import AztecPxe.GrumpkinCurve
import AztecPxe.ScopeIsolation

/-! When the private oracle's `getNotes` keeps to the scopes of its execution. It never looks at
them, so it does where every note that matches the request is in scope, and it does whatever is
stored only where the request can show no stored note at all. -/
namespace AztecPxe.ScopeLeaks
open AztecPxe PrivateExecutionOracle KeyRequests ScopeIsolation Grumpkin

/-- Requests that no stored note shows in: they are refused, they panic on the pending notes, they
ask for no note, or their clauses accept none. -/
inductive Blind (oracle : PrivateExecutionOracle) (args : Args) : Prop where
  | noSlot (unnamed : args.first 2 = none)
  | badStatus (e : Error) (refused : noteStatusFromField ((args.first 15).getD 0) = .error e)
  | pendingPanics (storageSlot : Fr) (named : args.first 2 = some storageSlot)
      (panics : SelectClause.selectNotes (SelectClause.parse args)
        (oracle.pendingNotes storageSlot (askedOwner args)) = none)
  | asksForNone (room : askedNumber args 16 = 0)
      (decided : ∀ content, SelectClause.accept (SelectClause.parse args) content ≠ none)
  | acceptsNone
      (refuses : ∀ content, SelectClause.accept (SelectClause.parse args) content = some false)

variable {oracle : PrivateExecutionOracle} {args : Args} {scopes : List AztecAddress}

theorem getNotes_of_blind (blind : Blind oracle args) (first second : NoteStore) :
    oracle.getNotes first args = oracle.getNotes second args := by
  rw [getNotes_eq, getNotes_eq, answerNotes, answerNotes]
  cases named : args.first 2 with
  | none => rfl
  | some storageSlot =>
    cases allowed : noteStatusFromField ((args.first 15).getD 0) with
    | error e => rfl
    | ok status =>
      dsimp only
      cases blind with
      | noSlot unnamed => cases named.symm.trans unnamed
      | badStatus e refused => cases allowed.symm.trans refused
      | pendingPanics slot same panics =>
        obtain rfl := Option.some.inj (named.symm.trans same)
        simp [offeredNotes, SelectClause.selectNotes_append, panics]
      | asksForNone room decided =>
        have selects (notes : List StoredNote) := SelectClause.selectNotes_eq
          (fun note => (SelectClause.accept (SelectClause.parse args) note.noteData).getD false)
          (fun note (_ : note ∈ notes) => by
            obtain ⟨kept, is⟩ := Option.ne_none_iff_exists'.mp (decided note.noteData)
            rw [is]
            rfl)
        rw [selects, selects, room]
        simp [page]
      | acceptsNone refuses =>
        have selects (notes : List StoredNote) := SelectClause.selectNotes_eq
          (fun _ => false) (fun note (_ : note ∈ notes) => refuses note.noteData)
        rw [selects, selects]
        simp

/-! ## A store that leaks -/

/-- A mined note of one scope, without a nonce: a page with it is refused. -/
def settledNote (contract owner : AztecAddress) (storageSlot : Fr) (content : List Fr)
    (scope : AztecAddress) (siloedNullifier : Fr) : StoredNote where
  contractAddress := contract
  owner := owner
  storageSlot := storageSlot
  randomness := 0
  noteNonce := 0
  noteHash := 0
  siloedNullifier := siloedNullifier
  noteData := content
  nullified := false
  isPending := false
  nullificationBlockNumber := none
  leafIndex := none
  blockNumber := none
  txIndexInBlock := none
  noteIndexInTx := none
  scopes := [scope]

/-- The refusal of `pack_hinted_note`. -/
def withoutNonce : Error := .invalidData "cannot pack settled note with zero note_nonce"

private theorem exists_fresh (used : List Fr) (count : Nat)
    (room : used.length + count ≤ frModulus) :
    ∃ fresh : List Fr, fresh.Nodup ∧ fresh.length = count ∧ ∀ value ∈ fresh, value ∉ used := by
  have free : count ≤ (Finset.univ \ used.toFinset).card := by
    have taken := used.toFinset_card_le
    have parts := Finset.le_card_sdiff used.toFinset (Finset.univ : Finset Fr)
    have all : (Finset.univ : Finset Fr).card = frModulus := Finset.card_fin frModulus
    omega
  obtain ⟨picked, inside, counted⟩ := Finset.exists_subset_card_eq free
  refine ⟨picked.toList, picked.nodup_toList, by rw [Finset.length_toList, counted], ?_⟩
  intro value held again
  have outside := (Finset.mem_sdiff.mp (inside (Finset.mem_toList.mp held))).2
  exact outside (List.mem_toFinset.mpr again)

/-- Where such notes are all there is, they are the list of their contract. -/
private theorem getNotesForContract_settled (contract owner : AztecAddress) (storageSlot : Fr)
    (content : List Fr) (scope : AztecAddress) {nullifiers : List Fr}
    (distinct : nullifiers.Nodup) :
    (NoteIndex.run [.addNotes (nullifiers.map
        (settledNote contract owner storageSlot content scope)) scope]).getNotesForContract contract =
      nullifiers.map (settledNote contract owner storageSlot content scope) := by
  have once : ((nullifiers.map (settledNote contract owner storageSlot content scope)).map
      (·.siloedNullifier)).Nodup := by
    simpa [Function.comp_def, settledNote] using distinct
  refine (NoteIndex.getNotesForContract_addNotes NoteStoreRollback.coherent_empty once (by simp)
    scope contract).trans ?_
  simp [NoteStore.getNotesForContract, List.filter_map, settledNote, StoredNote.withScope,
    Function.comp_def]

/-- Some history stores as many notes as it takes that match a request and are out of scope. -/
theorem exists_leak (few : scopes.length < 2 ^ 64)
    (consumed : oracle.consumedDbNullifiers.size < 2 ^ 64) (storageSlot : Fr)
    (owner : Option AztecAddress) (content : List Fr) {count : Nat} (most : count ≤ 2 ^ 64) :
    ∃ calls : List NoteIndex.Call,
      (∀ contract,
        ((NoteIndex.run calls).getNotesForContract contract).filter (inScope scopes) = []) ∧
      ∀ status, status ≠ .nullified →
        (oracle.storedNotes (NoteIndex.run calls) storageSlot owner status).length = count ∧
        ∀ note ∈ oracle.storedNotes (NoteIndex.run calls) storageSlot owner status,
          note.noteData = content ∧ note.isPending = false ∧ note.noteNonce = 0 := by
  obtain ⟨nullifiers, distinct, counted, unused⟩ :=
    exists_fresh oracle.consumedDbNullifiers.toList count (by
      rw [Std.ExtTreeSet.length_toList]
      exact le_trans (Nat.add_le_add consumed.le most) (by decide))
  obtain ⟨others, -, one, outside⟩ := exists_fresh (scopes.map (·.inner)) 1 (by
    rw [List.length_map]
    exact le_trans (Nat.add_le_add_right few.le 1) (by decide))
  obtain ⟨other, rfl⟩ := List.length_eq_one_iff.mp one
  have foreign : (⟨other⟩ : AztecAddress) ∉ scopes := fun held =>
    outside other List.mem_cons_self (List.mem_map.mpr ⟨⟨other⟩, held, rfl⟩)
  let note := settledNote oracle.contractAddress (owner.getD AztecAddress.zero) storageSlot content
    ⟨other⟩
  refine ⟨[.addNotes (nullifiers.map note) ⟨other⟩], fun contract => ?_, fun status alive => ?_⟩
  · refine (filter_inScope_addNotes NoteStoreRollback.coherent_empty ?_ (by simp) ?_ contract).trans
      (by simp [NoteStore.getNotesForContract])
    · simpa [Function.comp_def, note, settledNote] using distinct
    · intro held inside
      obtain ⟨nullifier, -, rfl⟩ := List.mem_map.mp inside
      simpa [inScope, note, settledNote, StoredNote.withScope] using foreign
  · have accepted : ∀ held ∈ nullifiers.map note,
        NoteFilter.accepts { contractAddress := some oracle.contractAddress,
                             storageSlot := some storageSlot, owner := owner, status := status }
          held = true := by
      intro held inside
      obtain ⟨nullifier, -, rfl⟩ := List.mem_map.mp inside
      cases status with
      | nullified => exact absurd rfl alive
      | active => cases owner <;> simp [NoteFilter.accepts, note, settledNote]
      | activeOrNullified => cases owner <;> simp [NoteFilter.accepts, note, settledNote]
    have kept : ∀ held ∈ nullifiers.map note,
        (decide (held.siloedNullifier = 0) ||
          !oracle.consumedDbNullifiers.contains held.siloedNullifier) = true := by
      intro held inside
      obtain ⟨nullifier, listed, rfl⟩ := List.mem_map.mp inside
      have free := unused nullifier listed
      rw [Std.ExtTreeSet.mem_toList, Std.ExtTreeSet.mem_iff_contains] at free
      simp [note, settledNote, free]
    have all : (oracle.storedNotes (NoteIndex.run [.addNotes (nullifiers.map note) ⟨other⟩])
        storageSlot owner status).Perm (nullifiers.map note) := by
      rw [storedNotes, NoteStore.getNotes]
      dsimp only
      rw [getNotesForContract_settled oracle.contractAddress _ storageSlot content ⟨other⟩ distinct,
        List.filter_eq_self.mpr accepted]
      exact ((List.perm_insertionSort _ _).filter _).trans (by
        rw [List.filter_eq_self.mpr kept])
    refine ⟨by rw [all.length_eq, List.length_map, counted], fun held inside => ?_⟩
    obtain ⟨nullifier, -, rfl⟩ := List.mem_map.mp (all.mem_iff.mp inside)
    exact ⟨rfl, rfl, rfl⟩

/-! ## What it answers -/

private theorem mapM_pending (notes : List StoredNote)
    (pending : ∀ note ∈ notes, note.isPending = true) :
    ∃ packed, notes.mapM packHintedNote = .ok packed := by
  induction notes with
  | nil => exact ⟨[], rfl⟩
  | cons note rest ih =>
    obtain ⟨others, packs⟩ := ih (fun other held => pending other (.tail _ held))
    have packable : ∃ fields, packHintedNote note = .ok fields := by
      rw [packHintedNote, if_pos (pending note List.mem_cons_self)]
      exact ⟨_, rfl⟩
    obtain ⟨fields, first⟩ := packable
    exact ⟨fields :: others, by rw [List.mapM_cons, first, packs]; rfl⟩

/-- The texts of the other refusals start with other letters. -/
private theorem flattened_ne (nestedLength : Nat) (arrays : List (List Fr)) :
    flattened nestedLength arrays ≠ .error withoutNonce := by
  induction arrays with
  | nil => exact fun same => by cases same
  | cons array rest ih =>
    rw [flattened]
    split
    · intro same
      have texts := Error.invalidData.inj (Except.error.inj same)
      exact absurd (congrArg (fun text => text.toList.head?) texts) (by simp)
    · intro same
      cases later : flattened nestedLength rest with
      | ok fields =>
        rw [later] at same
        cases same
      | error e =>
        rw [later] at same
        exact ih (later.trans same)

private theorem packBoundedVecOfArrays_ne (arrays : List (List Fr)) (maxLength nestedLength : Nat) :
    packBoundedVecOfArrays arrays maxLength nestedLength ≠ .error withoutNonce := by
  rw [packBoundedVecOfArrays]
  split
  · intro same
    have texts := Error.invalidData.inj (Except.error.inj same)
    exact absurd (congrArg (fun text => text.toList.head?) texts) (by simp)
  · intro same
    cases flat : flattened nestedLength arrays with
    | ok fields =>
      rw [flat] at same
      cases same
    | error e =>
      rw [flat] at same
      exact flattened_ne nestedLength arrays (flat.trans (congrArg _ (Except.error.inj same)))

variable {storageSlot : Fr} {status : NoteStatus} {store : NoteStore}

/-- The answer to a request that gets as far as the notes. -/
private theorem getNotes_of_named (named : args.first 2 = some storageSlot)
    (allowed : noteStatusFromField ((args.first 15).getD 0) = .ok status) :
    oracle.getNotes store args =
      (SelectClause.selectNotes (SelectClause.parse args)
        (oracle.offeredNotes store storageSlot (askedOwner args) status)).map (fun notes => do
          let packed ← (page (askedNumber args 14) (askedNumber args 13) (askedNumber args 16)
            notes).mapM packHintedNote
          packBoundedVecOfArrays packed (askedNumber args 16) (askedNumber args 17)) := by
  rw [getNotes_eq, answerNotes, named]
  simp only [allowed]

/-- An empty store offers the pending notes only, which are all packed. -/
private theorem getNotes_empty (named : args.first 2 = some storageSlot)
    (allowed : noteStatusFromField ((args.first 15).getD 0) = .ok status)
    {pending : List StoredNote} (selects : SelectClause.selectNotes (SelectClause.parse args)
      (oracle.pendingNotes storageSlot (askedOwner args)) = some pending) :
    ∃ answer, oracle.getNotes {} args = some answer ∧ answer ≠ .error withoutNonce := by
  have none : oracle.offeredNotes {} storageSlot (askedOwner args) status =
      oracle.pendingNotes storageSlot (askedOwner args) := by
    simp [offeredNotes, storedNotes, NoteStore.getNotes, NoteStore.getNotesForContract]
  obtain ⟨packed, packs⟩ := mapM_pending (page (askedNumber args 14)
    (askedNumber args 13) (askedNumber args 16) pending) (fun note held => by
      obtain ⟨created, -, -, rfl⟩ :=
        mem_pendingNotes (mem_selectNotes selects note (mem_page held))
      rfl)
  refine ⟨packBoundedVecOfArrays packed (askedNumber args 16) (askedNumber args 17), ?_,
    packBoundedVecOfArrays_ne packed _ _⟩
  rw [getNotes_of_named named allowed, none, selects, Option.map_some, packs]
  rfl

/-- A request some stored note shows in tells a store with such notes from the empty one. -/
theorem blind_of_same (few : scopes.length < 2 ^ 64)
    (consumed : oracle.consumedDbNullifiers.size < 2 ^ 64)
    (same : ∀ calls : List NoteIndex.Call,
      (∀ contract,
        ((NoteIndex.run calls).getNotesForContract contract).filter (inScope scopes) = []) →
      oracle.getNotes (NoteIndex.run calls) args = oracle.getNotes {} args) :
    Blind oracle args := by
  cases named : args.first 2 with
  | none => exact .noSlot named
  | some storageSlot =>
  cases allowed : noteStatusFromField ((args.first 15).getD 0) with
  | error e => exact .badStatus e allowed
  | ok status =>
  cases selects : SelectClause.selectNotes (SelectClause.parse args)
      (oracle.pendingNotes storageSlot (askedOwner args)) with
  | none => exact .pendingPanics storageSlot named selects
  | some pending =>
  obtain ⟨answer, empty, packable⟩ := getNotes_empty named allowed selects
  have alive : status ≠ .nullified := by
    rintro rfl
    unfold noteStatusFromField at allowed
    split at allowed <;> cases allowed
  have offset : askedNumber args 14 + 1 ≤ 2 ^ 64 := Nat.mod_lt _ (by decide)
  have leaks (content : List Fr) :=
    exists_leak few consumed storageSlot (askedOwner args) content offset
  have decided : ∀ content, SelectClause.accept (SelectClause.parse args) content ≠ none := by
    intro content panics
    obtain ⟨calls, outside, stored⟩ := leaks content
    obtain ⟨counted, shape⟩ := stored status alive
    have answers := same calls outside
    rw [empty, getNotes_of_named named allowed, offeredNotes] at answers
    cases listed : oracle.storedNotes (NoteIndex.run calls) storageSlot (askedOwner args) status with
    | nil => simp [listed] at counted
    | cons note rest =>
      rw [listed, List.cons_append, SelectClause.selectNotes,
        (shape note (listed ▸ List.mem_cons_self)).1, panics] at answers
      cases answers
  by_cases room : askedNumber args 16 = 0
  · exact .asksForNone room decided
  · refine .acceptsNone (fun content => ?_)
    by_contra accepts
    have accepted : SelectClause.accept (SelectClause.parse args) content = some true := by
      obtain ⟨kept, is⟩ := Option.ne_none_iff_exists'.mp (decided content)
      cases kept with
      | true => exact is
      | false => exact absurd is accepts
    obtain ⟨calls, outside, stored⟩ := leaks content
    obtain ⟨counted, shape⟩ := stored status alive
    have answers := same calls outside
    rw [empty, getNotes_of_named named allowed, offeredNotes, SelectClause.selectNotes_append,
      SelectClause.selectNotes_eq (fun _ => true)
        (fun note held => by rw [(shape note held).1, accepted]), selects] at answers
    generalize oracle.storedNotes (NoteIndex.run calls) storageSlot (askedOwner args) status =
      settled at counted shape answers
    -- The last of the notes is the first of the page, which is refused for it.
    obtain ⟨before, last, rfl⟩ := List.eq_nil_or_concat settled |>.resolve_left (by
      rintro rfl
      cases counted)
    have reached : before.length = askedNumber args 14 := by
      simpa using counted
    obtain ⟨others, first⟩ := page_eq_cons (askedNumber args 13) room before last pending
    have refused : packHintedNote last = .error withoutNonce := by
      obtain ⟨-, mined, nonce⟩ := shape last (by simp)
      rw [packHintedNote, mined, if_neg Bool.false_ne_true, if_pos nonce]
      rfl
    simp only [List.filter_true, Option.bind_some, Option.map_some, List.concat_append,
      ← reached, first, List.mapM_cons, refused] at answers
    exact packable (Option.some.inj answers).symm

/-! ## What scopes isolate -/

/-- The notes got there by calls on the store. -/
def Reached (state : PxeState) : Prop := ∃ calls, state.notes = NoteIndex.run calls

/-- With scopes, the utility oracle's notes and every key depend on nothing out of scope; the
private oracle's notes do not where all that match are in scope, and for whatever is stored
exactly where none can show. Without scopes, the oracles decide alike about no key. -/
theorem isolated_by_scopes (poseidon2 : List Fr → Fr) (sha512 : List UInt8 → Nat) {Affine : Type}
    (ark : ArkGrumpkin Affine) (oracle : PrivateExecutionOracle) (scopes : List AztecAddress)
    (args : Args) :
    (scopes ≠ [] →
      (∀ first second, DifferOutside poseidon2 sha512 ark scopes first second →
        utilityGetNotes oracle.contractAddress scopes first.notes args =
            utilityGetNotes oracle.contractAddress scopes second.notes args ∧
          privateKeyRequest poseidon2 sha512 ark first.addresses first.keys
              oracle.contractAddress scopes args =
            privateKeyRequest poseidon2 sha512 ark second.addresses second.keys
              oracle.contractAddress scopes args ∧
          utilityKeyRequest poseidon2 sha512 ark first.addresses first.keys
              oracle.contractAddress scopes args =
            utilityKeyRequest poseidon2 sha512 ark second.addresses second.keys
              oracle.contractAddress scopes args ∧
          (AsksInScope scopes oracle.contractAddress args first.notes →
            AsksInScope scopes oracle.contractAddress args second.notes →
            oracle.getNotes first.notes args = oracle.getNotes second.notes args)) ∧
      (scopes.length < 2 ^ 64 → oracle.consumedDbNullifiers.size < 2 ^ 64 →
        ((∀ first second, Reached first → Reached second →
          DifferOutside poseidon2 sha512 ark scopes first second →
          oracle.getNotes first.notes args = oracle.getNotes second.notes args) ↔
          Blind oracle args))) ∧
    (scopes = [] → ∀ state : PxeState,
      ((privateKeyRequest poseidon2 sha512 ark state.addresses state.keys
          oracle.contractAddress scopes args).isOk =
        (utilityKeyRequest poseidon2 sha512 ark state.addresses state.keys
          oracle.contractAddress scopes args).isOk ↔ args.first 0 = none)) := by
  refine ⟨fun nonempty => ⟨fun first second differ => ?_, fun few consumed => ⟨fun same => ?_,
    fun blind first second _ _ _ => getNotes_of_blind blind first.notes second.notes⟩⟩, ?_⟩
  · obtain ⟨privately, utility⟩ := keyRequests_isolated differ nonempty oracle.contractAddress args
    exact ⟨utilityGetNotes_isolated differ nonempty oracle.contractAddress args, privately, utility,
      getNotes_isolated differ oracle args⟩
  · refine blind_of_same few consumed (fun calls outside => ?_)
    refine same { notes := NoteIndex.run calls } {} ⟨calls, rfl⟩ ⟨[], rfl⟩ ⟨?_, fun _ _ => rfl, rfl⟩
    intro contract
    rw [outside contract]
    simp [NoteStore.getNotesForContract]
  · rintro rfl state
    exact decisions_without_scopes state.addresses state.keys oracle.contractAddress args

/-- A mined note of an account. -/
def ownNote (account content siloedNullifier : Fr) : StoredNote :=
  { settledNote ⟨7⟩ ⟨account⟩ 5 [content] ⟨account⟩ siloedNullifier with noteNonce := 1 }

/-- One account with a note. -/
def alone : PxeState where
  notes := NoteIndex.run [.addNotes [ownNote 1 42 11] ⟨1⟩]

/-- Another account beside it, with a note and a key. -/
def shared : PxeState where
  notes := NoteIndex.run [.addNotes [ownNote 1 42 11] ⟨1⟩, .addNotes [ownNote 2 43 12] ⟨2⟩]
  keys := (∅ : KeyStore).insert 5 6

/-- A request for the notes under slot five, of an owner if the flag is one. -/
def request (hasOwner owner : Fr) : Args :=
  [[hasOwner], [owner], [5], [0], [], [], [], [], [], [], [], [], [], [0], [0], [1], [10], [7]]

/-- The other account is out of scope. -/
theorem alone_shared_differ :
    DifferOutside (fun _ => 0) (fun _ => 0) GrumpkinCurve.arkGrumpkin [⟨1⟩] alone shared where
  notes contract := by
    refine (filter_inScope_addNotes (NoteIndex.indexed_run _).coherent (by simp) ?_ ?_ contract).symm
    · decide +kernel
    · decide +kernel
  addresses _ _ := rfl
  keys := by
    have unowned (account : Fr × Fr) : ownedInScope (fun _ => 0) (fun _ => 0)
        GrumpkinCurve.arkGrumpkin (fun _ => none) [⟨1⟩] account = false := by
      simp [ownedInScope, keyInScope]
    exact (List.filter_eq_nil_iff.mpr (by simp [alone, unowned])).trans
      (List.filter_eq_nil_iff.mpr (by simp [shared, unowned])).symm

/-- The notes of the owner in scope are all that a request for them matches. -/
private theorem request_asksInScope (state : PxeState)
    (own : ∀ note ∈ state.notes.getNotesForContract ⟨7⟩,
      note.owner = ⟨1⟩ → inScope [⟨1⟩] note = true) :
    AsksInScope [⟨1⟩] ⟨7⟩ (request 1 1) state.notes := by
  intro storageSlot status note held
  obtain ⟨listed, accepted⟩ := List.mem_filter.mp ((List.mem_insertionSort _).mp held)
  have owner : askedOwner (request 1 1) = some ⟨1⟩ := rfl
  simp only [NoteFilter.accepts, asked, owner, Bool.and_eq_true, Option.all_some,
    beq_iff_eq] at accepted
  exact own note listed accepted.1.1.2

/-- They are answered alike, and so is a request without a slot whatever is stored. -/
theorem own_notes_isolated :
    utilityGetNotes ⟨7⟩ [⟨1⟩] alone.notes (request 1 1) =
        utilityGetNotes ⟨7⟩ [⟨1⟩] shared.notes (request 1 1) ∧
      PrivateExecutionOracle.getNotes { contractAddress := ⟨7⟩ } alone.notes (request 1 1) =
        PrivateExecutionOracle.getNotes { contractAddress := ⟨7⟩ } shared.notes (request 1 1) ∧
      PrivateExecutionOracle.getNotes { contractAddress := ⟨7⟩ } alone.notes [] =
        PrivateExecutionOracle.getNotes { contractAddress := ⟨7⟩ } shared.notes [] := by
  have isolated (args : Args) := (isolated_by_scopes (fun _ => 0) (fun _ => 0)
    GrumpkinCurve.arkGrumpkin { contractAddress := ⟨7⟩ } [⟨1⟩] args).1 (List.cons_ne_nil _ _)
  obtain ⟨utility, -, -, privately⟩ := (isolated (request 1 1)).1 alone shared alone_shared_differ
  refine ⟨utility, privately (request_asksInScope alone (by decide +kernel))
    (request_asksInScope shared (by decide +kernel)), ?_⟩
  exact ((isolated []).2 (by decide) (by decide)).mpr (.noSlot rfl) alone shared ⟨_, rfl⟩ ⟨_, rfl⟩
    alone_shared_differ

/-- A request for the notes of any owner shows the other account's note; and without scopes a key
is given to a private function and refused to a utility function. -/
theorem foreign_note_shows :
    DifferOutside (fun _ => 0) (fun _ => 0) GrumpkinCurve.arkGrumpkin [⟨1⟩] alone shared ∧
      PrivateExecutionOracle.getNotes { contractAddress := ⟨7⟩ } alone.notes (request 0 0) ≠
        PrivateExecutionOracle.getNotes { contractAddress := ⟨7⟩ } shared.notes (request 0 0) ∧
      (privateKeyRequest (fun _ => 0) (fun _ => 0) GrumpkinCurve.arkGrumpkin alone.addresses
          alone.keys ⟨7⟩ [] [[9]]).isOk ≠
        (utilityKeyRequest (fun _ => 0) (fun _ => 0) GrumpkinCurve.arkGrumpkin alone.addresses
          alone.keys ⟨7⟩ [] [[9]]).isOk :=
  ⟨alone_shared_differ, by decide +kernel, by decide +kernel⟩

end AztecPxe.ScopeLeaks
