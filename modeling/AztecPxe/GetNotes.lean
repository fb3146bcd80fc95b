import AztecPxe.NoteStore
import AztecPxe.PrivateOracle

/-! `get_notes` of `execution/oracle.rs` with the select clauses of
`execution/pick_notes.rs`. A private call is offered the notes of the store that
it has not consumed, then the pending notes of its transaction: of those with
one hash as many are held back as the counter map says were nullified. -/
namespace AztecPxe

/-! ## Select clauses -/

/-- `pick_notes.rs::SelectClause`. -/
structure SelectClause where
  index : Nat
  offset : Nat
  length : Nat
  value : Fr
  comparator : Nat
  deriving DecidableEq, Repr

namespace SelectClause

/-- `parse_select_clauses`. -/
def parse (args : Args) : List SelectClause :=
  let column (i : Nat) : List Fr := (args[i]?).getD []
  let number (i j : Nat) : Nat := (((column i)[j]?).map Fr.toUsize).getD 0
  (List.range (((args.first 3).map Fr.toUsize).getD 0)).map (fun j =>
    { index := number 4 j
      offset := number 5 j
      length := number 6 j
      value := ((column 7)[j]?).getD 0
      comparator := number 8 j % 2 ^ 8 })

/-- A property of the packed content. -/
inductive Property where
  | missing
  | found (value : Fr)
  | outOfRange
  deriving DecidableEq, Repr

/-- `extract_property`: a whole field, or some of its big-endian bytes. The
bytes are sliced unchecked, and the sum of two lengths wraps. -/
def extractProperty (clause : SelectClause) (noteData : List Fr) : Property :=
  match noteData[clause.index]? with
  | none => .missing
  | some field =>
    if clause.offset = 0 ∧ (clause.length = 0 ∨ 32 ≤ clause.length) then .found field
    else
      let last := min ((clause.offset + clause.length) % 2 ^ 64) 32
      if last < clause.offset then .outOfRange
      else .found (Fin.ofNat frModulus
        (field.val / 256 ^ (32 - last) % 256 ^ (last - clause.offset)))

/-- `compare`: an unknown comparator filters nothing. -/
def compare (comparator : Nat) (noteValue selectValue : Fr) : Bool :=
  match comparator with
  | 1 => noteValue = selectValue
  | 2 => noteValue ≠ selectValue
  | 3 => noteValue < selectValue
  | 4 => noteValue ≤ selectValue
  | 5 => selectValue < noteValue
  | 6 => selectValue ≤ noteValue
  | _ => true

/-- Whether every clause accepts a note's content, or nothing where one slices
out of range. -/
def accept : List SelectClause → List Fr → Option Bool
  | [], _ => some true
  | clause :: rest, noteData =>
    match clause.extractProperty noteData with
    | .missing => some false
    | .outOfRange => none
    | .found value =>
      if compare clause.comparator value clause.value then accept rest noteData else some false

/-- `select_notes`, or nothing where it panics. -/
def selectNotes (clauses : List SelectClause) : List StoredNote → Option (List StoredNote)
  | [] => some []
  | note :: rest =>
    match accept clauses note.noteData with
    | none => none
    | some kept => (selectNotes clauses rest).map (fun notes => if kept then note :: notes else notes)

/-- Where every note's clauses can be decided, the notes they accept are selected. -/
theorem selectNotes_eq {clauses : List SelectClause} {notes : List StoredNote}
    (kept : StoredNote → Bool)
    (decided : ∀ note ∈ notes, accept clauses note.noteData = some (kept note)) :
    selectNotes clauses notes = some (notes.filter kept) := by
  induction notes with
  | nil => rfl
  | cons note rest ih =>
    rw [selectNotes, decided note List.mem_cons_self,
      ih (fun other held => decided other (.tail _ held)), List.filter_cons]
    rfl

theorem selectNotes_append (clauses : List SelectClause) (first second : List StoredNote) :
    selectNotes clauses (first ++ second) = (selectNotes clauses first).bind (fun kept =>
      (selectNotes clauses second).map (kept ++ ·)) := by
  induction first with
  | nil => simp [selectNotes]
  | cons note rest ih =>
    rw [List.cons_append, selectNotes, selectNotes]
    cases accept clauses note.noteData with
    | none => rfl
    | some kept =>
      simp only [ih, Option.map_bind, Option.bind_map, Function.comp_def, Option.map_map]
      cases kept <;> rfl

end SelectClause

/-- The record `get_notes` makes of a pending note. -/
def NoteAndSlot.offered (note : NoteAndSlot) : StoredNote where
  contractAddress := note.contractAddress
  owner := note.owner
  storageSlot := note.storageSlot
  randomness := note.randomness
  noteNonce := 0
  noteHash := note.noteHash
  siloedNullifier := 0
  noteData := note.noteItems
  nullified := false
  isPending := true
  nullificationBlockNumber := none
  leafIndex := none
  blockNumber := none
  txIndexInBlock := none
  noteIndexInTx := none
  scopes := [note.owner]

/-! ## What a call is offered -/

namespace PrivateExecutionOracle
variable (oracle : PrivateExecutionOracle)

/-- `note_status_from_field`. -/
def noteStatusFromField (value : Fr) : Except Error NoteStatus :=
  match value.toUsize with
  | 1 => .ok .active
  | 2 => .ok .activeOrNullified
  | other => .error (.invalidData ("unknown note status: " ++ toString other))

/-- The value of the first note hash with a counter. -/
def hashAt (counter : Nat) : Option Fr :=
  (oracle.noteHashes.find? (fun other => other.noteHash.counter = counter)).map (·.noteHash.value)

/-- One turn of the loop that counts the nullified hashes. -/
def countNullified (counts : Std.ExtTreeMap Fr Nat) (counter : Nat) : Std.ExtTreeMap Fr Nat :=
  match oracle.hashAt counter with
  | some value => counts.insert value (counts.getD value 0 + 1)
  | none => counts

/-- `nullified_hash_counts`: for each hash, how many keys of the counter map are
counters of it. -/
def nullifiedHashCounts : Std.ExtTreeMap Fr Nat :=
  oracle.noteHashNullifierCounterMap.keys.foldl oracle.countNullified ∅

/-- The notes of the store, less those consumed in this execution. A note whose
nullifier the store does not know is kept. -/
def storedNotes (store : NoteStore) (storageSlot : Fr) (owner : Option AztecAddress)
    (status : NoteStatus) : List StoredNote :=
  (store.getNotes { contractAddress := some oracle.contractAddress, storageSlot := some storageSlot,
                    owner := owner, status := status }).filter (fun note =>
    decide (note.siloedNullifier = 0) ||
      !oracle.consumedDbNullifiers.contains note.siloedNullifier)

/-- A pending note is of this contract and under the slot and the owner asked for. -/
def asksFor (storageSlot : Fr) (owner : Option AztecAddress) (note : NoteAndSlot) : Bool :=
  decide (note.contractAddress = oracle.contractAddress) &&
    decide (note.storageSlot = storageSlot) && owner.all (note.owner = ·)

/-- One turn of the loop over the pending notes, with the number of notes of each
hash held back so far. -/
def offerPending (storageSlot : Fr) (owner : Option AztecAddress)
    (sofar : Std.ExtTreeMap Fr Nat × List StoredNote) (note : NoteAndSlot) :
    Std.ExtTreeMap Fr Nat × List StoredNote :=
  if oracle.asksFor storageSlot owner note then
    match oracle.nullifiedHashCounts[note.noteHash]? with
    | some maxNullified =>
      let alreadyConsumed := sofar.1.getD note.noteHash 0
      if alreadyConsumed < maxNullified then
        (sofar.1.insert note.noteHash (alreadyConsumed + 1), sofar.2)
      else (sofar.1.insert note.noteHash alreadyConsumed, sofar.2 ++ [note.offered])
    | none => (sofar.1, sofar.2 ++ [note.offered])
  else sofar

/-- The pending part of `get_notes`. -/
def pendingNotes (storageSlot : Fr) (owner : Option AztecAddress) : List StoredNote :=
  (oracle.newNotes.foldl (oracle.offerPending storageSlot owner) (∅, [])).2

/-- The notes `get_notes` selects from. -/
def offeredNotes (store : NoteStore) (storageSlot : Fr) (owner : Option AztecAddress)
    (status : NoteStatus) : List StoredNote :=
  oracle.storedNotes store storageSlot owner status ++ oracle.pendingNotes storageSlot owner

/-- `pack_hinted_note`. -/
def packHintedNote (note : StoredNote) : Except Error (List Fr) :=
  let packed (stage : Fr) := note.noteData ++
    [note.contractAddress.inner, note.owner.inner, note.randomness, note.storageSlot, stage,
      note.noteNonce]
  if note.isPending then .ok (packed (if note.noteNonce = 0 then 1 else 2))
  else if note.noteNonce = 0 then
    .error (.invalidData "cannot pack settled note with zero note_nonce")
  else .ok (packed 3)

/-- `usize::saturating_mul`. -/
def saturatingMul (a b : Nat) : Nat := min (a * b) (2 ^ 64 - 1)

/-- The arrays after each other, if each has the length. -/
def flattened (nestedLength : Nat) : List (List Fr) → Except Error (List Fr)
  | [] => .ok []
  | array :: rest =>
    if array.length ≠ nestedLength then
      .error (.invalidData ("packed hinted note length mismatch: " ++ toString array.length ++
        " != " ++ toString nestedLength))
    else (flattened nestedLength rest).map (array ++ ·)

/-- `pack_bounded_vec_of_arrays`. -/
def packBoundedVecOfArrays (arrays : List (List Fr)) (maxLength nestedLength : Nat) :
    Except Error Answer :=
  if maxLength < arrays.length then
    .error (.invalidData ("bounded vec overflow: " ++ toString arrays.length ++ " > " ++
      toString maxLength))
  else
    let size := saturatingMul maxLength nestedLength
    (flattened nestedLength arrays).map (fun fields =>
      [fields.take size ++ List.replicate (size - fields.length) 0, [Fr.ofU64 arrays.length]])

/-- The owner `get_notes` is asked for. -/
def askedOwner (args : Args) : Option AztecAddress :=
  if (args.first 0).getD 0 ≠ 0 then some ⟨(args.first 1).getD 0⟩ else none

/-- The part of the selected notes that is returned: from the offset on, up to
the limit if there is one, and no more than fit. -/
def page (offset limit maxNotes : Nat) (notes : List StoredNote) : List StoredNote :=
  let notes := notes.drop offset
  (if 0 < limit then notes.take limit else notes).take maxNotes

/-- A number among the arguments, zero where there is none. -/
def askedNumber (args : Args) (i : Nat) : Nat := ((args.first i).getD 0).toUsize

/-- The notes `get_notes` returns, or nothing where a select clause panics. -/
def returnedNotes (store : NoteStore) (args : Args) : Option (Except Error (List StoredNote)) :=
  match args.first 2 with
  | none => some (.error (.invalidData "getNotes: missing storage_slot"))
  | some storageSlot =>
    match noteStatusFromField ((args.first 15).getD 0) with
    | .error e => some (.error e)
    | .ok status =>
      (SelectClause.selectNotes (SelectClause.parse args)
        (oracle.offeredNotes store storageSlot (askedOwner args) status)).map (fun notes =>
          .ok (page (askedNumber args 14) (askedNumber args 13) (askedNumber args 16) notes))

/-- `get_notes`. -/
def getNotes (store : NoteStore) (args : Args) : Option (Except Error Answer) :=
  (oracle.returnedNotes store args).map (fun returned => do
    let packed ← (← returned).mapM packHintedNote
    packBoundedVecOfArrays packed (askedNumber args 16) (askedNumber args 17))

section Returned
variable {oracle} {store : NoteStore} {args : Args} {notes : List StoredNote}

theorem mem_selectNotes {clauses : List SelectClause} {offered selected : List StoredNote}
    (done : SelectClause.selectNotes clauses offered = some selected) :
    ∀ note ∈ selected, note ∈ offered := by
  induction offered generalizing selected with
  | nil =>
    cases done
    exact fun _ held => held
  | cons first rest ih =>
    unfold SelectClause.selectNotes at done
    split at done
    · cases done
    · obtain ⟨others, selects, rfl⟩ := Option.map_eq_some_iff.mp done
      intro note held
      split at held
      · rcases List.mem_cons.mp held with rfl | later
        · exact List.mem_cons_self
        · exact .tail _ (ih selects note later)
      · exact .tail _ (ih selects note held)

theorem mem_page {offset limit maxNotes : Nat} {note : StoredNote}
    (held : note ∈ page offset limit maxNotes notes) : note ∈ notes := by
  unfold page at held
  have kept := List.mem_of_mem_take held
  split at kept
  · exact List.mem_of_mem_drop (List.mem_of_mem_take kept)
  · exact List.mem_of_mem_drop kept

/-- A page that has room for a note starts with the one at the offset. -/
theorem page_eq_cons (limit : Nat) {maxNotes : Nat} (room : maxNotes ≠ 0)
    (before : List StoredNote) (note : StoredNote) (after : List StoredNote) :
    ∃ rest, page before.length limit maxNotes (before ++ note :: after) = note :: rest := by
  unfold page
  rw [List.drop_left]
  cases maxNotes with
  | zero => exact absurd rfl room
  | succ more =>
    cases limit with
    | zero => exact ⟨after.take more, rfl⟩
    | succ others => exact ⟨(after.take others).take more, rfl⟩

/-- Whatever is returned was offered, for the slot and the owner asked for. -/
theorem mem_returnedNotes (done : oracle.returnedNotes store args = some (.ok notes)) :
    ∃ storageSlot status, ∀ note ∈ notes,
      note ∈ oracle.offeredNotes store storageSlot (askedOwner args) status := by
  unfold returnedNotes at done
  split at done
  · cases done
  next storageSlot _ =>
    split at done
    · cases done
    next status _ =>
      obtain ⟨selected, selects, same⟩ := Option.map_eq_some_iff.mp done
      cases same
      exact ⟨storageSlot, status, fun note held => mem_selectNotes selects note (mem_page held)⟩

end Returned

/-! ## How many pending notes are offered -/

variable {oracle} {storageSlot : Fr} {owner : Option AztecAddress} {hash : Fr}

private theorem getD_countNullified (counts : Std.ExtTreeMap Fr Nat) (counter : Nat) :
    (oracle.countNullified counts counter).getD hash 0 =
      counts.getD hash 0 + if oracle.hashAt counter = some hash then 1 else 0 := by
  unfold countNullified
  cases found : oracle.hashAt counter with
  | none => simp
  | some value =>
    by_cases same : value = hash
    · subst same
      simp [Std.ExtTreeMap.getD_insert_self]
    · rw [Std.ExtTreeMap.getD_insert]
      simp [same]

/-- The count of a hash is the number of keys that are counters of it. -/
theorem getD_nullifiedHashCounts (hash : Fr) : oracle.nullifiedHashCounts.getD hash 0 =
    oracle.noteHashNullifierCounterMap.keys.countP (fun counter =>
      oracle.hashAt counter = some hash) := by
  have counted : ∀ (keys : List Nat) (counts : Std.ExtTreeMap Fr Nat),
      (keys.foldl oracle.countNullified counts).getD hash 0 = counts.getD hash 0 +
        keys.countP (fun counter => oracle.hashAt counter = some hash) := by
    intro keys
    induction keys with
    | nil => simp
    | cons counter rest ih =>
      intro counts
      rw [List.foldl_cons, ih, getD_countNullified, List.countP_cons]
      simp only [decide_eq_true_eq]
      omega
  unfold nullifiedHashCounts
  rw [counted]
  simp

/-- A counter that is written anew counts the difference. -/
private theorem getD_insert_add (counts : Std.ExtTreeMap Fr Nat) (counted hash : Fr) (n : Nat) :
    (counts.insert counted (counts.getD counted 0 + n)).getD hash 0 =
      counts.getD hash 0 + if counted = hash then n else 0 := by
  by_cases same : counted = hash
  · subst same
    simp [Std.ExtTreeMap.getD_insert_self]
  · rw [Std.ExtTreeMap.getD_insert]
    simp [same]

/-- One turn holds a note back while fewer of its hash are held back than were
nullified, and offers it afterwards. -/
private theorem offerPending_of_asked {note : NoteAndSlot}
    (asked : oracle.asksFor storageSlot owner note = true)
    (sofar : Std.ExtTreeMap Fr Nat × List StoredNote) :
    let next := oracle.offerPending storageSlot owner sofar note
    if sofar.1.getD note.noteHash 0 < oracle.nullifiedHashCounts.getD note.noteHash 0 then
      (∀ hash, next.1.getD hash 0 = sofar.1.getD hash 0 + if note.noteHash = hash then 1 else 0) ∧
        next.2 = sofar.2
    else (∀ hash, next.1.getD hash 0 = sofar.1.getD hash 0) ∧ next.2 = sofar.2 ++ [note.offered] := by
  have read : oracle.nullifiedHashCounts.getD note.noteHash 0 =
      (oracle.nullifiedHashCounts[note.noteHash]?).getD 0 := Std.ExtTreeMap.getD_eq_getD_getElem?
  unfold offerPending
  rw [read, if_pos asked]
  cases oracle.nullifiedHashCounts[note.noteHash]? with
  | none => simp
  | some most =>
    simp only [Option.getD_some]
    split
    · exact ⟨fun hash => getD_insert_add sofar.1 note.noteHash hash 1, rfl⟩
    · refine ⟨fun hash => (getD_insert_add sofar.1 note.noteHash hash 0).trans ?_, rfl⟩
      rw [ite_self, Nat.add_zero]

/-- The loop has held back as many notes of a hash as it could, and offered the
others. -/
private theorem offered_counts (notes : List NoteAndSlot) (hash : Fr) :
    ∀ (sofar : Std.ExtTreeMap Fr Nat × List StoredNote) (seen : Nat),
      sofar.1.getD hash 0 = min seen (oracle.nullifiedHashCounts.getD hash 0) →
      sofar.2.countP (·.noteHash = hash) + sofar.1.getD hash 0 = seen →
      (notes.foldl (oracle.offerPending storageSlot owner) sofar).2.countP (·.noteHash = hash) =
        (seen + notes.countP (fun note =>
          oracle.asksFor storageSlot owner note && decide (note.noteHash = hash))) -
          oracle.nullifiedHashCounts.getD hash 0 := by
  induction notes with
  | nil =>
    intro sofar seen held total
    simp only [List.foldl_nil, List.countP_nil]
    omega
  | cons note rest ih =>
    intro sofar seen held total
    rw [List.foldl_cons, List.countP_cons]
    cases asked : oracle.asksFor storageSlot owner note with
    | false =>
      have kept : oracle.offerPending storageSlot owner sofar note = sofar := by
        unfold offerPending
        rw [asked]
        rfl
      rw [kept, ih sofar seen held total]
      simp
    | true =>
      have turn := offerPending_of_asked asked sofar
      generalize oracle.offerPending storageSlot owner sofar note = next at turn
      by_cases same : note.noteHash = hash
      · subst same
        split at turn
        · rw [ih next (seen + 1) (by rw [turn.1, if_pos rfl]; omega)
            (by rw [turn.1, if_pos rfl, turn.2]; omega)]
          simp only [Bool.true_and, decide_true, if_true]
          omega
        · have counted : next.2.countP (·.noteHash = note.noteHash) =
              sofar.2.countP (·.noteHash = note.noteHash) + 1 := by
            rw [turn.2, List.countP_append]
            simp [NoteAndSlot.offered]
          rw [ih next (seen + 1) (by rw [turn.1]; omega) (by rw [turn.1, counted]; omega)]
          simp only [Bool.true_and, decide_true, if_true]
          omega
      · have counted : next.2.countP (·.noteHash = hash) = sofar.2.countP (·.noteHash = hash) ∧
            next.1.getD hash 0 = sofar.1.getD hash 0 := by
          split at turn
          · rw [turn.1, turn.2, if_neg same]
            exact ⟨rfl, rfl⟩
          · rw [turn.1, turn.2, List.countP_append]
            simp [NoteAndSlot.offered, same]
        rw [ih next seen (by rw [counted.2]; exact held) (by rw [counted.1, counted.2]; exact total)]
        simp [same]

/-- Of the pending notes asked for with a hash, as many are offered as are left
when one is taken away for each counter of that hash in the map. -/
theorem countP_pendingNotes (hash : Fr) :
    (oracle.pendingNotes storageSlot owner).countP (·.noteHash = hash) =
      oracle.newNotes.countP (fun note =>
        oracle.asksFor storageSlot owner note && decide (note.noteHash = hash)) -
      oracle.noteHashNullifierCounterMap.keys.countP (fun counter =>
        oracle.hashAt counter = some hash) := by
  unfold pendingNotes
  rw [offered_counts oracle.newNotes hash (∅, []) 0 (by simp) (by simp),
    getD_nullifiedHashCounts, Nat.zero_add]

/-- Whatever is offered as pending was announced, and is asked for. -/
theorem mem_pendingNotes {offered : StoredNote}
    (held : offered ∈ oracle.pendingNotes storageSlot owner) :
    ∃ note ∈ oracle.newNotes, oracle.asksFor storageSlot owner note = true ∧
      note.offered = offered := by
  have kept : ∀ (notes : List NoteAndSlot) (sofar : Std.ExtTreeMap Fr Nat × List StoredNote),
      offered ∈ (notes.foldl (oracle.offerPending storageSlot owner) sofar).2 →
        offered ∈ sofar.2 ∨ ∃ note ∈ notes, oracle.asksFor storageSlot owner note = true ∧
          note.offered = offered := by
    intro notes
    induction notes with
    | nil => exact fun _ => .inl
    | cons note rest ih =>
      intro sofar inside
      rcases ih _ inside with early | ⟨other, later, found⟩
      · cases asked : oracle.asksFor storageSlot owner note with
        | false =>
          unfold offerPending at early
          rw [asked] at early
          exact .inl early
        | true =>
          have turn := offerPending_of_asked asked sofar
          split at turn
          · rw [turn.2] at early
            exact .inl early
          · rw [turn.2, List.mem_append, List.mem_singleton] at early
            rcases early with before | rfl
            · exact .inl before
            · exact .inr ⟨note, List.mem_cons_self, asked, rfl⟩
      · exact .inr ⟨other, .tail _ later, found⟩
  rcases kept oracle.newNotes (∅, []) held with none | found
  · cases none
  · exact found

end PrivateExecutionOracle

end AztecPxe
