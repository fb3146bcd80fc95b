import AztecPxe.BigEndian
import AztecPxe.GetNotes

/-! Note selection against what its arguments say. The oracle cuts every number of a clause to
64 bits and its comparator to eight, slices the bytes of a field unchecked, and takes a length of
zero for the whole field at offset zero only. -/
namespace AztecPxe.NoteSelection
open ClassId BigEndian SelectClause

/-- `args[i][j]`, zero where there is none. -/
def argument (args : Args) (i j : Nat) : Fr := (((args[i]?).getD [])[j]?).getD 0

/-- `parse_select_clauses` and `select_notes` on what it returns, or nothing where one of them
panics. A clause takes 64 bytes, and no `Vec` more than `isize::MAX`. -/
def selectByArguments (args : Args) (notes : List StoredNote) : Option (List StoredNote) :=
  if 2 ^ 63 ≤ ((args.first 3).map Fr.toUsize).getD 0 * 64 then none
  else selectNotes (parse args) notes

/-! ## What the arguments say -/

/-- The number formed by the bytes of a field from `offset` to `offset + length`, or to the end;
the whole field for the length zero. -/
def selectedPart (field : Fr) (offset length : Nat) : Nat :=
  if length = 0 then field.val
  else fromBeBytes (((beBytes 32 field.val).take (min (offset + length) 32)).drop offset)

/-- The relation of a comparator. One that is not known filters nothing. -/
def stands (comparator part value : Nat) : Bool :=
  match comparator with
  | 1 => part = value
  | 2 => part ≠ value
  | 3 => part < value
  | 4 => part ≤ value
  | 5 => value < part
  | 6 => value ≤ part
  | _ => true

/-- The note has a field at the index of the clause, and the selected part of it stands in the
relation to the value of the clause. -/
def meets (args : Args) (noteData : List Fr) (j : Nat) : Bool :=
  match noteData[(argument args 4 j).val]? with
  | none => false
  | some field =>
    stands (argument args 8 j).val
      (selectedPart field (argument args 5 j).val (argument args 6 j).val) (argument args 7 j).val

/-- The note meets every clause below `numSelects`. -/
def Selected (args : Args) (noteData : List Fr) : Prop :=
  ∀ j < (argument args 3 0).val, meets args noteData j

instance (args : Args) (noteData : List Fr) : Decidable (Selected args noteData) :=
  inferInstanceAs (Decidable (∀ j < (argument args 3 0).val, meets args noteData j))

/-! ## What the code reads -/

/-- The clause with an index, as it is parsed. -/
def clauseOf (args : Args) (j : Nat) : SelectClause where
  index := (argument args 4 j).toUsize
  offset := (argument args 5 j).toUsize
  length := (argument args 6 j).toUsize
  value := argument args 7 j
  comparator := (argument args 8 j).toUsize % 2 ^ 8

/-- What a clause makes of a note, or nothing where it slices out of range. -/
def verdict (clause : SelectClause) (noteData : List Fr) : Option Bool :=
  match clause.extractProperty noteData with
  | .missing => some false
  | .outOfRange => none
  | .found value => some (SelectClause.compare clause.comparator value clause.value)

/-- The slice of the clause ends before it starts. -/
def SlicesOutOfRange (clause : SelectClause) : Prop :=
  0 < clause.offset ∧ (32 < clause.offset ∨ 2 ^ 64 ≤ clause.offset + clause.length)

/-- The numbers of the clause are read as they are given, and a length of zero goes with the
offset zero. -/
structure Plain (args : Args) (j : Nat) : Prop where
  index : (argument args 4 j).val < 2 ^ 64
  offset : (argument args 5 j).val < 2 ^ 64
  length : (argument args 6 j).val < 2 ^ 64
  comparator : (argument args 8 j).val < 2 ^ 8
  inRange : (argument args 5 j).val = 0 ∨ 0 < (argument args 6 j).val ∧
    (argument args 5 j).val ≤ 32 ∧ (argument args 5 j).val + (argument args 6 j).val < 2 ^ 64

/-! ## Bytes -/

/-- The bytes of a field from one position to another form these digits of it. -/
theorem fromBeBytes_slice (n : Nat) {first last : Nat} (ordered : first ≤ last) (within : last ≤ 32) :
    fromBeBytes (((beBytes 32 n).take last).drop first) =
      n / 256 ^ (32 - last) % 256 ^ (last - first) := by
  have upTo := take_beBytes last (32 - last) n
  have from_ := drop_beBytes first (last - first) (n / 256 ^ (32 - last))
  rw [Nat.add_sub_cancel' within] at upTo
  rw [Nat.add_sub_cancel' ordered] at from_
  rw [upTo, from_, fromBeBytes_beBytes]

/-! ## A note and its clauses -/

section Verdicts
variable {args : Args} {notes : List StoredNote} {clauses : List SelectClause}
  {clause : SelectClause} {noteData : List Fr} {j : Nat}

theorem compare_eq_stands (comparator : Nat) (part value : Fr) :
    SelectClause.compare comparator part value = stands comparator part.val value.val := by
  unfold SelectClause.compare stands
  split <;> simp [Fin.ext_iff]

/-- The numbers of a field's bytes are fields. -/
theorem ofNat_slice (field : Fr) (k m : Nat) :
    (Fin.ofNat frModulus (field.val / 256 ^ k % 256 ^ m)).val = field.val / 256 ^ k % 256 ^ m :=
  Nat.mod_eq_of_lt (Nat.lt_of_le_of_lt
    ((Nat.mod_le _ _).trans (Nat.div_le_self _ _)) field.isLt)

theorem toUsize_lt (value : Fr) : value.toUsize < 2 ^ 64 := Nat.mod_lt _ (by decide)

/-- A clause panics on a note with its field when it slices out of range. -/
theorem verdict_eq_none_iff : verdict (clauseOf args j) noteData = none ↔
    noteData[(clauseOf args j).index]?.isSome ∧ SlicesOutOfRange (clauseOf args j) := by
  have offset : (clauseOf args j).offset < 2 ^ 64 := toUsize_lt _
  have length : (clauseOf args j).length < 2 ^ 64 := toUsize_lt _
  generalize clauseOf args j = clause at offset length ⊢
  unfold verdict extractProperty
  cases noteData[clause.index]? with
  | none => simp
  | some field =>
    have cut : min ((clause.offset + clause.length) % 2 ^ 64) 32 < clause.offset ↔
        SlicesOutOfRange clause := by
      unfold SlicesOutOfRange
      omega
    by_cases whole : clause.offset = 0 ∧ (clause.length = 0 ∨ 32 ≤ clause.length)
    · simp [whole, SlicesOutOfRange]
    · dsimp only
      rw [if_neg whole]
      by_cases out : SlicesOutOfRange clause
      · rw [if_pos (cut.mpr out)]
        simp [out]
      · rw [if_neg (mt cut.mp out)]
        simp [out]

/-- A plain clause is read as it is given. -/
theorem verdict_of_plain (plain : Plain args j) :
    verdict (clauseOf args j) noteData = some (meets args noteData j) := by
  have index : (argument args 4 j).toUsize = (argument args 4 j).val := Nat.mod_eq_of_lt plain.index
  have offset : (argument args 5 j).toUsize = (argument args 5 j).val :=
    Nat.mod_eq_of_lt plain.offset
  have length : (argument args 6 j).toUsize = (argument args 6 j).val :=
    Nat.mod_eq_of_lt plain.length
  have comparator : (argument args 8 j).toUsize % 2 ^ 8 = (argument args 8 j).val := by
    have small := plain.comparator
    unfold Fr.toUsize
    omega
  have inRange := plain.inRange
  have shortLength := plain.length
  unfold verdict extractProperty clauseOf meets
  simp only [index, offset, length, comparator]
  generalize (argument args 5 j).val = first at inRange
  generalize (argument args 6 j).val = size at inRange shortLength
  cases noteData[(argument args 4 j).val]? with
  | none => rfl
  | some field =>
    have whole : field.val / 256 ^ (32 - 32) % 256 ^ (32 - 0) = field.val := by
      have small := field.isLt
      unfold frModulus at small
      rw [Nat.sub_self, Nat.pow_zero, Nat.div_one]
      exact Nat.mod_eq_of_lt (by omega)
    dsimp only
    by_cases empty : size = 0
    · have start : first = 0 := by omega
      simp [empty, start, selectedPart, compare_eq_stands]
    · by_cases full : first = 0 ∧ 32 ≤ size
      · -- All bytes of the field form the field.
        rw [if_pos ⟨full.1, .inr full.2⟩]
        dsimp only
        rw [compare_eq_stands, selectedPart, if_neg empty, full.1, Nat.zero_add,
          Nat.min_eq_right full.2, fromBeBytes_slice _ (Nat.zero_le _) (Nat.le_refl _), whole]
      · have sum : (first + size) % 2 ^ 64 = first + size := Nat.mod_eq_of_lt (by omega)
        have ordered : first ≤ min (first + size) 32 := by omega
        rw [if_neg (by omega), sum, if_neg (by omega)]
        dsimp only
        rw [compare_eq_stands, ofNat_slice, selectedPart, if_neg empty,
          fromBeBytes_slice _ ordered (Nat.min_le_right _ _)]

/-- The clauses are scanned up to the first that does not accept. -/
theorem accept_cons (rest : List SelectClause) :
    accept (clause :: rest) noteData = (verdict clause noteData).bind (fun kept =>
      if kept then accept rest noteData else some false) := by
  rw [accept, verdict]
  cases clause.extractProperty noteData <;> rfl

theorem accept_eq_true_iff : accept clauses noteData = some true ↔
    ∀ clause ∈ clauses, verdict clause noteData = some true := by
  induction clauses with
  | nil => simp [accept]
  | cons clause rest ih =>
    rw [accept_cons, List.forall_mem_cons, ← ih]
    cases verdict clause noteData with
    | none => simp
    | some kept => cases kept <;> simp

/-- The scan panics unless each clause that would comes after one that rejects the note. -/
theorem accept_ne_none_iff : accept clauses noteData ≠ none ↔
    ∀ (j : Nat) clause, clauses[j]? = some clause → verdict clause noteData = none →
      ∃ i < j, ∃ other, clauses[i]? = some other ∧ verdict other noteData = some false := by
  induction clauses with
  | nil => simp [accept]
  | cons first rest ih =>
    rw [accept_cons]
    cases own : verdict first noteData with
    | none =>
      simp only [Option.bind_none, ne_eq, not_true_eq_false, false_iff, not_forall]
      exact ⟨0, first, rfl, own, fun ⟨i, below, _⟩ => absurd below (Nat.not_lt_zero i)⟩
    | some kept =>
      cases kept with
      | false =>
        simp only [Option.bind_some, Bool.false_eq_true, if_false, ne_eq, reduceCtorEq,
          not_false_eq_true, true_iff]
        intro j clause found panics
        cases j with
        | zero =>
          cases found
          rw [own] at panics
          cases panics
        | succ j => exact ⟨0, Nat.succ_pos j, first, rfl, own⟩
      | true =>
        simp only [Option.bind_some, if_true]
        rw [ih]
        -- The first clause accepts, so the clause that rejects is one of the others.
        constructor
        · intro tail j clause found panics
          cases j with
          | zero =>
            cases found
            rw [own] at panics
            cases panics
          | succ j =>
            obtain ⟨i, below, other, there, rejects⟩ := tail j clause found panics
            exact ⟨i + 1, Nat.succ_lt_succ below, other, there, rejects⟩
        · intro whole j clause found panics
          obtain ⟨i, below, other, there, rejects⟩ := whole (j + 1) clause found panics
          cases i with
          | zero =>
            cases there
            rw [own] at rejects
            cases rejects
          | succ i => exact ⟨i, Nat.lt_of_succ_lt_succ below, other, there, rejects⟩

/-- Selection gives the notes a predicate holds of exactly when it decides each note so. -/
theorem selectNotes_eq_filter_iff (holds : StoredNote → Bool) :
    selectNotes clauses notes = some (notes.filter holds) ↔
      ∀ note ∈ notes, accept clauses note.noteData = some (holds note) := by
  refine ⟨?_, selectNotes_eq holds⟩
  intro selected
  have decided : ∀ note ∈ notes, ∃ kept, accept clauses note.noteData = some kept := by
    generalize notes.filter holds = kept at selected
    clear holds
    induction notes generalizing kept with
    | nil => simp
    | cons first rest ih =>
      rw [selectNotes] at selected
      cases own : accept clauses first.noteData with
      | none => simp [own] at selected
      | some value =>
        rw [own] at selected
        obtain ⟨others, later, -⟩ := Option.map_eq_some_iff.mp selected
        exact List.forall_mem_cons.mpr ⟨⟨value, own⟩, ih others later⟩
  have same : selectNotes clauses notes =
      some (notes.filter (fun note => (accept clauses note.noteData).getD false)) := by
    refine selectNotes_eq _ (fun note inside => ?_)
    obtain ⟨kept, own⟩ := decided note inside
    rw [own, Option.getD_some]
  rw [selected, Option.some.injEq] at same
  intro note inside
  obtain ⟨kept, own⟩ := decided note inside
  have both : holds note = true ↔ kept = true := by
    have member := congrArg (fun list => note ∈ list) same
    simpa [inside, own] using member
  rw [own, Bool.eq_iff_iff.mpr both]

/-- The number of clauses the code makes. -/
def numSelects (args : Args) : Nat := (argument args 3 0).toUsize

theorem numSelects_eq (args : Args) :
    ((args.first 3).map Fr.toUsize).getD 0 = numSelects args := by
  unfold numSelects argument Args.first
  cases args[3]? with
  | none => rfl
  | some column => cases column <;> rfl

theorem parse_eq (args : Args) : parse args = (List.range (numSelects args)).map (clauseOf args) := by
  have number : ∀ i j, ((((args[i]?).getD [])[j]?).map Fr.toUsize).getD 0 =
      (argument args i j).toUsize := by
    intro i j
    unfold argument
    cases ((args[i]?).getD [])[j]? <;> rfl
  unfold parse
  rw [numSelects_eq]
  simp only [number]
  rfl

/-- The clauses decide a note as the arguments say: none slices out of range before the note is
rejected, and once the plain clauses accept it the others do as read exactly if they do as given. -/
structure Decides (args : Args) (noteData : List Fr) : Prop where
  inRange : ∀ j < numSelects args, noteData[(clauseOf args j).index]?.isSome →
    SlicesOutOfRange (clauseOf args j) →
      ∃ i < j, verdict (clauseOf args i) noteData = some false
  misread : (∀ j < numSelects args, Plain args j → meets args noteData j) →
    ((∀ j < numSelects args, ¬ Plain args j → verdict (clauseOf args j) noteData = some true) ↔
      ∀ j < (argument args 3 0).val, ¬ (j < numSelects args ∧ Plain args j) →
        meets args noteData j)

theorem getElem?_parse (args : Args) (j : Nat) :
    (parse args)[j]? = if j < numSelects args then some (clauseOf args j) else none := by
  rw [parse_eq, List.getElem?_map]
  by_cases below : j < numSelects args
  · rw [List.getElem?_range below, if_pos below]
    rfl
  · rw [List.getElem?_eq_none (by simpa using below), if_neg below]
    rfl

theorem accept_parse_ne_none_iff : accept (parse args) noteData ≠ none ↔
    ∀ j < numSelects args, noteData[(clauseOf args j).index]?.isSome →
      SlicesOutOfRange (clauseOf args j) →
        ∃ i < j, verdict (clauseOf args i) noteData = some false := by
  rw [accept_ne_none_iff]
  constructor
  · intro each j below field out
    obtain ⟨i, before, other, found, rejects⟩ := each j (clauseOf args j)
      (by rw [getElem?_parse, if_pos below]) (verdict_eq_none_iff.mpr ⟨field, out⟩)
    rw [getElem?_parse, if_pos (before.trans below)] at found
    cases found
    exact ⟨i, before, rejects⟩
  · intro each j clause found panics
    rw [getElem?_parse] at found
    split at found
    next below =>
      cases found
      obtain ⟨field, out⟩ := verdict_eq_none_iff.mp panics
      obtain ⟨i, before, rejects⟩ := each j below field out
      exact ⟨i, before, _, by rw [getElem?_parse, if_pos (before.trans below)], rejects⟩
    next => cases found

theorem accept_parse_eq_true_iff : accept (parse args) noteData = some true ↔
    ∀ j < numSelects args, verdict (clauseOf args j) noteData = some true := by
  rw [accept_eq_true_iff, parse_eq]
  simp

/-- What the code accepts is what the arguments say exactly if the clauses that are not plain make
no difference. -/
theorem misread_iff :
    ((∀ j < numSelects args, verdict (clauseOf args j) noteData = some true) ↔
        Selected args noteData) ↔
      ((∀ j < numSelects args, Plain args j → meets args noteData j) →
        ((∀ j < numSelects args, ¬ Plain args j →
            verdict (clauseOf args j) noteData = some true) ↔
          ∀ j < (argument args 3 0).val, ¬ (j < numSelects args ∧ Plain args j) →
            meets args noteData j)) := by
  have fewer : numSelects args ≤ (argument args 3 0).val := Nat.mod_le _ _
  have read : (∀ j < numSelects args, verdict (clauseOf args j) noteData = some true) ↔
      (∀ j < numSelects args, Plain args j → meets args noteData j) ∧
        ∀ j < numSelects args, ¬ Plain args j →
          verdict (clauseOf args j) noteData = some true := by
    constructor
    · intro each
      refine ⟨fun j below plain => ?_, fun j below _ => each j below⟩
      have own := each j below
      rw [verdict_of_plain plain] at own
      exact Option.some.inj own
    · rintro ⟨plains, others⟩ j below
      by_cases plain : Plain args j
      · rw [verdict_of_plain plain, plains j below plain]
      · exact others j below plain
  have given : Selected args noteData ↔
      (∀ j < numSelects args, Plain args j → meets args noteData j) ∧
        ∀ j < (argument args 3 0).val, ¬ (j < numSelects args ∧ Plain args j) →
          meets args noteData j := by
    constructor
    · intro each
      exact ⟨fun j below _ => each j (below.trans_le fewer), fun j below _ => each j below⟩
    · rintro ⟨plains, others⟩ j below
      by_cases plain : j < numSelects args ∧ Plain args j
      · exact plains j plain.1 plain.2
      · exact others j below plain
  rw [read, given]
  exact and_congr_right_iff

theorem accept_parse_iff : accept (parse args) noteData = some (decide (Selected args noteData)) ↔
    Decides args noteData := by
  have split : accept (parse args) noteData = some (decide (Selected args noteData)) ↔
      accept (parse args) noteData ≠ none ∧
        (accept (parse args) noteData = some true ↔ Selected args noteData) := by
    cases accept (parse args) noteData with
    | none => simp
    | some kept => cases kept <;> simp
  rw [split, accept_parse_ne_none_iff, accept_parse_eq_true_iff, misread_iff]
  exact ⟨fun both => ⟨both.1, both.2⟩, fun both => ⟨both.inRange, both.misread⟩⟩

end Verdicts

/-- Plain clauses decide every note as the arguments say. -/
theorem decides_of_plain {args : Args} (few : (argument args 3 0).val < 2 ^ 64)
    (plain : ∀ j < (argument args 3 0).val, Plain args j) (noteData : List Fr) :
    Decides args noteData := by
  have count : numSelects args = (argument args 3 0).val := Nat.mod_eq_of_lt few
  refine ⟨?_, ?_⟩
  · intro j below field out
    have panics := verdict_eq_none_iff.mpr ⟨field, out⟩
    rw [verdict_of_plain (plain j (count ▸ below))] at panics
    cases panics
  · intro _
    constructor
    · intro _ j below other
      exact absurd ⟨count ▸ below, plain j below⟩ other
    · intro _ j below other
      exact absurd (plain j (count ▸ below)) other

/-- A note with these items. -/
private def sampleNote (noteData : List Fr) : StoredNote where
  contractAddress := .zero
  owner := .zero
  storageSlot := 0
  randomness := 0
  noteNonce := 1
  noteHash := 2
  siloedNullifier := 3
  noteData := noteData
  nullified := false
  isPending := false
  nullificationBlockNumber := none
  leafIndex := none
  blockNumber := none
  txIndexInBlock := none
  noteIndexInTx := none
  scopes := []

/-- A clause for the first item to equal 5, on the bytes from an offset on. -/
private def sampleArgs (offset length : Fr) : Args :=
  [[0], [0], [0], [1], [0], [offset], [length], [5], [1]]

end AztecPxe.NoteSelection
