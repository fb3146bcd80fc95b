import AztecPxe.AbiSizes

/-! What a decoding depends on: the fields it moves over. Neither the place they stand at nor what
is around them makes a difference, so a value can be decoded out of its own fields alone. -/
namespace AztecPxe.AbiCodec
open AztecPxe Abi

/-- From these places on, the lists hold the same so many fields. -/
def Alike (fields : List Fr) (cursor : Nat) (fields' : List Fr) (cursor' n : Nat) : Prop :=
  ∀ i < n, fields'[cursor' + i]? = fields[cursor + i]?

/-- A reading that depends on the fields it moves over. -/
def Local {α : Type} (read : List Fr → Nat → Except Error (α × Nat)) : Prop :=
  ∀ fields cursor value next, read fields cursor = .ok (value, next) →
    ∃ n, next = cursor + n ∧ ∀ fields' cursor', Alike fields cursor fields' cursor' n →
      read fields' cursor' = .ok (value, cursor' + n)

section Readings
variable {α β : Type}

theorem local_return (value : α) : Local (fun _ cursor => .ok (value, cursor)) := by
  intro fields cursor read next done
  cases done
  exact ⟨0, rfl, fun _ _ _ => rfl⟩

theorem Local.bind {first : List Fr → Nat → Except Error (α × Nat)}
    {second : α → List Fr → Nat → Except Error (β × Nat)} (reads : Local first)
    (then_reads : ∀ a, Local (second a)) :
    Local (fun fields cursor => do
      let (a, cursor) ← first fields cursor
      second a fields cursor) := by
  intro fields cursor value next done
  obtain ⟨⟨a, middle⟩, head, tail⟩ := bind_eq_ok.mp done
  obtain ⟨m, rfl, again⟩ := reads _ _ _ _ head
  obtain ⟨n, rfl, again'⟩ := then_reads a _ _ _ _ tail
  refine ⟨m + n, Nat.add_assoc _ _ _, fun fields' cursor' alike => ?_⟩
  dsimp only
  rw [again _ _ (fun i inside => alike i (Nat.lt_add_right n inside)), ok_bind]
  dsimp only
  rw [← Nat.add_assoc]
  refine again' _ _ fun i inside => ?_
  rw [Nat.add_assoc, Nat.add_assoc]
  exact alike (m + i) (Nat.add_lt_add_left inside m)

theorem Local.map {first : List Fr → Nat → Except Error (α × Nat)} (reads : Local first)
    (make : α → β) :
    Local (fun fields cursor => do
      let (a, cursor) ← first fields cursor
      return (make a, cursor)) :=
  reads.bind fun a => local_return (make a)

theorem Local.of_eq {first second : List Fr → Nat → Except Error (α × Nat)}
    (same : ∀ fields cursor, first fields cursor = second fields cursor) (reads : Local second) :
    Local first := by
  rw [funext₂ same]
  exact reads

theorem local_take : Local take := by
  intro fields cursor value next done
  obtain ⟨rfl, -⟩ := advanced_take done
  refine ⟨1, rfl, fun fields' cursor' alike => ?_⟩
  have same := alike 0 Nat.one_pos
  rw [Nat.add_zero, Nat.add_zero] at same
  unfold take at done ⊢
  rw [same]
  split at done
  next => cases done; rfl
  next => cases done

/-- Fields that are dropped are moved over all the same. -/
theorem local_skip (value : α) (n : Nat) :
    Local (fun fields cursor => do
      let cursor ← skip fields n cursor
      return (value, cursor)) := by
  induction n with
  | zero => exact local_return value
  | succ n ih =>
    simp only [skip, bind_assoc]
    exact local_take.bind (fun _ => ih)

theorem local_decodeChars (n : Nat) : Local (fun fields => decodeChars fields n) := by
  induction n with
  | zero => exact local_return []
  | succ n ih =>
    have last (fr : Fr) : Local (fun fields cursor =>
        if fr.toUsize % 256 = 0 then do
          let cursor ← skip fields n cursor
          return ([], cursor)
        else do
          let found ← decodeChars fields n cursor
          return (Char.ofNat (fr.toUsize % 256) :: found.1, found.2)) := by
      split
      next => exact local_skip [] n
      next => exact ih.map _
    exact local_take.bind last

theorem local_decodeItems {decode : List Fr → Nat → Except Error (α × Nat)} (reads : Local decode)
    (n : Nat) : Local (fun fields => decodeItems (decode fields) n) := by
  induction n with
  | zero => exact local_return []
  | succ n ih => exact reads.bind fun item => ih.bind fun items => local_return _

theorem local_decodeElements {types : List AbiType} (each : ∀ t ∈ types, Local (decodeNext t)) :
    Local (decodeElements types) := by
  induction types with
  | nil => exact local_return []
  | cons t types ih =>
    exact (each t List.mem_cons_self).bind fun item =>
      (ih (fun t inside => each t (List.mem_cons_of_mem _ inside))).bind fun items => local_return _

theorem local_decodeMembers {members : List AbiParameter}
    (each : ∀ p ∈ members, Local (decodeNext p.typ)) (map : List (String × AbiDecoded)) :
    Local (decodeMembers members map) := by
  induction members generalizing map with
  | nil => exact local_return map
  | cons p rest ih =>
    exact (each p List.mem_cons_self).bind fun value =>
      ih (fun p inside => each p (List.mem_cons_of_mem _ inside)) (insertMember p.name value map)

end Readings

/-- A value is decoded by its own fields. -/
theorem local_decodeNext (t : AbiType) : Local (decodeNext t) := by
  induction t with
  | field => exact local_take.map AbiDecoded.field
  | boolean => exact local_take.map fun fr => AbiDecoded.boolean (fr ≠ 0)
  | integer sign width => exact local_take.map fun fr => AbiDecoded.integer (decodeInteger sign width fr)
  | array element length ih => exact (local_decodeItems ih length).map AbiDecoded.array
  | string length => exact (local_decodeChars length).map fun chars => AbiDecoded.string (String.ofList chars)
  | tuple elements ih => exact (local_decodeElements ih).map AbiDecoded.tuple
  | struct name members ih storageIh =>
    cases address : (AbiType.struct name members).isAddressStruct with
    | true =>
      exact .of_eq (fun fields cursor => decodeNext_address fields cursor address)
        (local_take.map fun fr => if (AbiType.struct name members).isAztecAddressStruct
          then AbiDecoded.address ⟨fr⟩ else .field fr)
    | false =>
      cases option : (AbiType.struct name members).isOptionStruct with
      | true =>
        obtain ⟨p, q, rfl⟩ := isOption_two option
        have inside (flag : Fr) : Local (fun fields cursor =>
            if flag = 0 then do
              let cursor ← skip fields q.typ.size cursor
              return (.none, cursor)
            else decodeNext q.typ fields cursor) := by
          split
          next => exact local_skip _ _
          next => exact ih q (by simp)
        exact .of_eq (fun fields cursor => decodeNext_option fields cursor address option)
          (local_take.bind inside)
      | false =>
        cases bounded : (AbiType.struct name members).isBoundedVecStruct with
        | true =>
          obtain ⟨⟨p, q, rfl⟩, -⟩ := isBoundedVec_two bounded
          intro fields cursor value next done
          obtain ⟨element, maxLen, storage⟩ := storage_of_decoded fields cursor address bounded done
          have items := local_decodeItems (storageIh p (by simp) element maxLen storage) maxLen
          have whole : Local (decodeNext (.struct name [p, q])) :=
            .of_eq (fun fields cursor => decodeNext_boundedVec fields cursor address bounded storage)
              (items.bind fun items => local_take.map fun len => AbiDecoded.array (items.take len.toUsize))
          exact whole fields cursor value next done
        | false =>
          exact .of_eq (fun fields cursor => decodeNext_members fields cursor address bounded option)
            ((local_decodeMembers ih []).map AbiDecoded.struct)

/-- The fields a value was decoded from give it again when they stand alone. -/
theorem decodeFromAbi_own {t : AbiType} {fields : List Fr} {cursor n : Nat} {value : AbiDecoded}
    (done : decodeNext t fields cursor = .ok (value, cursor + n)) :
    decodeFromAbi [t] ((fields.drop cursor).take n) = .ok value := by
  obtain ⟨n', same, again⟩ := local_decodeNext t fields cursor value _ done
  cases Nat.add_left_cancel same
  have alike : Alike fields cursor ((fields.drop cursor).take n) 0 n := by
    intro i inside
    rw [Nat.zero_add, List.getElem?_take_of_lt inside, List.getElem?_drop]
  unfold decodeFromAbi
  dsimp only
  rw [again _ 0 alike]
  rfl

/-- The map of a struct has each value under its member's name, the later ones over the earlier. -/
theorem decodeMembers_elements {members : List AbiParameter} {map map' : List (String × AbiDecoded)}
    {fields : List Fr} {cursor next : Nat}
    (done : decodeMembers members map fields cursor = .ok (map', next)) :
    ∃ items, decodeElements (members.map (·.typ)) fields cursor = .ok (items, next) ∧
      map' = ((members.map (·.name)).zip items).foldl
        (fun map entry => insertMember entry.1 entry.2 map) map := by
  induction members generalizing map cursor with
  | nil =>
    cases done
    exact ⟨[], rfl, rfl⟩
  | cons p rest ih =>
    obtain ⟨⟨value, middle⟩, head, tail⟩ := bind_eq_ok.mp done
    obtain ⟨items, later, rfl⟩ := ih tail
    refine ⟨value :: items, ?_, rfl⟩
    rw [List.map_cons, decodeElements, head, ok_bind]
    dsimp only
    rw [later]
    rfl

end AztecPxe.AbiCodec
