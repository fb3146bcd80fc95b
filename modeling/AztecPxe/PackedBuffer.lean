import AztecPxe.BigEndian
import AztecPxe.CheckedDecoder
import AztecPxe.Chunks

/-! Byte buffers in fields, `abi/buffer.rs`: the length in the first field, then thirty-one bytes a
field behind a zero, filled up with zero fields. What is packed is read back as it was. The reader
takes other lists too: it leaves out what no buffer packs to, and allocates any length it is told.
A `Vec` holds at most `isize::MAX` bytes; with more, growing it panics. -/
namespace AztecPxe.PackedBuffer
open ClassId BigEndian CheckedDecoder Chunks

/-- One field of the buffer. -/
def packed (chunk : List UInt8) : Fr :=
  .ofBeBytes (0 :: (chunk ++ List.replicate (31 - chunk.length) 0))

/-- `buffer_as_fields`. -/
def bufferAsFields (input : List UInt8) (targetLength : Nat) :
    Except CheckedDecoder.Stop (List Fr) := do
  let encoded := Fr.ofU64 input.length :: (input.toChunks 31).map packed
  withCapacity 32 encoded.length
  if targetLength < encoded.length then
    .error (.err (.abi ("buffer exceeds maximum field count: got " ++ toString encoded.length ++
      " but max is " ++ toString targetLength)))
  else do
    withCapacity 32 targetLength
    return encoded ++ List.replicate (targetLength - encoded.length) 0

/-- The bytes of the fields, each without its first. -/
def unpacked (fields : List Fr) : List UInt8 :=
  fields.flatMap (fun field => (toBeBytes field).drop 1)

/-- `buffer_from_fields`. The bytes take less room than the fields they are from. -/
def bufferFromFields : List Fr → Except CheckedDecoder.Stop (List UInt8)
  | [] => .error (.err (.abi "empty field array"))
  | first :: rest => do
    let length := first.toUsize
    withCapacity 1 length
    return (unpacked rest).take length

/-! ## Fields of thirty-one bytes -/

/-- A field a buffer may pack to: its first byte is zero. -/
def Low (field : Fr) : Prop := field.val < 256 ^ 31

instance (field : Fr) : Decidable (Low field) := inferInstanceAs (Decidable (_ < _))

section Field
variable {chunk : List UInt8}

/-- The number of a field's bytes, the first one zero, is below the modulus. -/
theorem val_packed (fits : chunk.length ≤ 31) :
    (packed chunk).val = fromBeBytes (chunk ++ List.replicate (31 - chunk.length) 0) := by
  have bound : 256 ^ 31 ≤ frModulus := by decide
  have size : (chunk ++ List.replicate (31 - chunk.length) (0 : UInt8)).length = 31 := by
    rw [List.length_append, List.length_replicate]
    omega
  have below := fromBeBytes_lt (chunk ++ List.replicate (31 - chunk.length) (0 : UInt8))
  rw [size] at below
  have front : fromBeBytes (0 :: (chunk ++ List.replicate (31 - chunk.length) 0)) =
      fromBeBytes (chunk ++ List.replicate (31 - chunk.length) 0) := by
    rw [← List.singleton_append, fromBeBytes_append]
    simp [fromBeBytes]
  rw [packed, Fr.ofBeBytes, Fin.val_ofNat, front, Nat.mod_eq_of_lt (below.trans_le bound)]

theorem low_packed (fits : chunk.length ≤ 31) : Low (packed chunk) := by
  have below := fromBeBytes_lt (chunk ++ List.replicate (31 - chunk.length) (0 : UInt8))
  rw [← val_packed fits, List.length_append, List.length_replicate,
    Nat.add_sub_cancel' fits] at below
  exact below

theorem drop_toBeBytes (field : Fr) : (toBeBytes field).drop 1 = beBytes 31 field.val := by
  rw [toBeBytes_eq]
  exact drop_beBytes 1 31 field.val

/-- What was packed is read back, with the zeros it was filled up with. -/
theorem drop_packed (fits : chunk.length ≤ 31) :
    (toBeBytes (packed chunk)).drop 1 = chunk ++ List.replicate (31 - chunk.length) 0 := by
  have back := beBytes_fromBeBytes (chunk ++ List.replicate (31 - chunk.length) 0)
  rw [List.length_append, List.length_replicate, Nat.add_sub_cancel' fits] at back
  rw [drop_toBeBytes, val_packed fits, back]

/-- A low field is the number its last bytes form. -/
theorem low_ext {a b : Fr} (lowA : Low a) (lowB : Low b)
    (same : (toBeBytes a).drop 1 = (toBeBytes b).drop 1) : a = b := by
  rw [drop_toBeBytes, drop_toBeBytes, beBytes_eq_iff, Nat.mod_eq_of_lt lowA,
    Nat.mod_eq_of_lt lowB] at same
  exact Fin.ext same

end Field

/-! ## Lists of fields -/

theorem length_unpacked (fields : List Fr) : (unpacked fields).length = 31 * fields.length := by
  induction fields with
  | nil => rfl
  | cons field fields ih =>
    unfold unpacked at ih ⊢
    rw [List.flatMap_cons, List.length_append, List.length_drop, length_toBeBytes, ih,
      List.length_cons]
    omega

/-- Low fields are told apart by their bytes. -/
theorem unpacked_inj {as bs : List Fr} (lowA : ∀ field ∈ as, Low field)
    (lowB : ∀ field ∈ bs, Low field) (length : as.length = bs.length)
    (same : unpacked as = unpacked bs) : as = bs := by
  induction as generalizing bs with
  | nil => exact (List.length_eq_zero_iff.mp length.symm).symm
  | cons a as ih =>
    cases bs with
    | nil => exact nomatch length
    | cons b bs =>
      obtain ⟨first, rest⟩ := List.append_inj same (by simp)
      rw [low_ext (lowA a List.mem_cons_self) (lowB b List.mem_cons_self) first,
        ih (fun field inside => lowA field (List.mem_cons_of_mem a inside))
          (fun field inside => lowB field (List.mem_cons_of_mem b inside))
          (Nat.succ.inj length) rest]

/-- The fields after the first, with this many zero fields at the end. -/
def content (input : List UInt8) (zeros : Nat) : List Fr :=
  (input.toChunks 31).map packed ++ List.replicate zeros 0

theorem low_content (input : List UInt8) (zeros : Nat) : ∀ field ∈ content input zeros, Low field := by
  intro field inside
  rcases List.mem_append.mp inside with chunked | filled
  · obtain ⟨chunk, isChunk, rfl⟩ := List.mem_map.mp chunked
    exact low_packed (length_le_of_mem_toChunks isChunk)
  · rw [List.eq_of_mem_replicate filled]
    decide

theorem length_content (input : List UInt8) (zeros : Nat) :
    (content input zeros).length = (input.length + 30) / 31 + zeros := by
  rw [content, List.length_append, List.length_map, length_toChunks, List.length_replicate]

/-- The bytes of the content are the buffer, and then zeros. -/
theorem unpacked_content (input : List UInt8) (zeros : Nat) :
    unpacked (content input zeros) = input ++
      List.replicate (31 * ((input.length + 30) / 31 + zeros) - input.length) 0 := by
  have chunks : unpacked ((input.toChunks 31).map packed) = (input.toChunks 31).flatMap
      (fun chunk => chunk ++ List.replicate (31 - chunk.length) 0) := by
    rw [unpacked, List.flatMap_map]
    exact List.flatMap_congr fun chunk isChunk => drop_packed (length_le_of_mem_toChunks isChunk)
  have none : unpacked (List.replicate zeros 0) = List.replicate (31 * zeros) 0 := by
    have one : (toBeBytes (0 : Fr)).drop 1 = List.replicate 31 0 := by decide
    rw [unpacked, List.flatMap_replicate, one, List.flatten_replicate_replicate, Nat.mul_comm]
  have split : unpacked (content input zeros) =
      unpacked ((input.toChunks 31).map packed) ++ unpacked (List.replicate zeros 0) :=
    List.flatMap_append
  rw [split, chunks, none, flatMap_fill_toChunks, length_toChunks, List.append_assoc,
    List.replicate_append_replicate]
  congr 2
  omega

/-! ## The calls -/

theorem withCapacity_eq_ok {itemBytes n : Nat} :
    withCapacity itemBytes n = .ok () ↔ n * itemBytes ≤ isizeMax := by
  unfold withCapacity
  split
  next room => exact ⟨fun _ => room, fun _ => rfl⟩
  next full => exact ⟨nofun, fun room => absurd room full⟩

/-- A buffer is packed if its fields are no more than asked for and a `Vec` holds as many. -/
theorem bufferAsFields_eq_ok {input : List UInt8} {targetLength : Nat} {fields : List Fr} :
    bufferAsFields input targetLength = .ok fields ↔
      (1 + (input.length + 30) / 31 ≤ targetLength ∧ targetLength * 32 ≤ isizeMax) ∧
        fields = .ofU64 input.length ::
          content input (targetLength - (1 + (input.length + 30) / 31)) := by
  have size : (Fr.ofU64 input.length :: (input.toChunks 31).map packed).length =
      1 + (input.length + 30) / 31 := by
    rw [List.length_cons, List.length_map, length_toChunks, Nat.add_comm]
  unfold bufferAsFields
  dsimp only
  rw [size, bind_eq_ok]
  constructor
  · rintro ⟨-, -, done⟩
    by_cases short : targetLength < 1 + (input.length + 30) / 31
    · rw [if_pos short] at done
      exact nomatch done
    · rw [if_neg short, bind_eq_ok] at done
      obtain ⟨_, room, done⟩ := done
      cases done
      exact ⟨⟨Nat.not_lt.mp short, withCapacity_eq_ok.mp room⟩, rfl⟩
  · rintro ⟨⟨enough, room⟩, rfl⟩
    refine ⟨(), withCapacity_eq_ok.mpr ?_, ?_⟩
    · exact (Nat.mul_le_mul_right 32 enough).trans room
    · rw [if_neg (Nat.not_lt.mpr enough), withCapacity_eq_ok.mpr room]
      rfl

theorem bufferFromFields_eq_ok {first : Fr} {rest : List Fr} {bytes : List UInt8} :
    bufferFromFields (first :: rest) = .ok bytes ↔
      first.toUsize ≤ isizeMax ∧ bytes = (unpacked rest).take first.toUsize := by
  unfold bufferFromFields
  dsimp only
  rw [bind_eq_ok]
  constructor
  · rintro ⟨_, room, done⟩
    rw [withCapacity_eq_ok, Nat.mul_one] at room
    cases done
    exact ⟨room, rfl⟩
  · rintro ⟨room, rfl⟩
    refine ⟨(), withCapacity_eq_ok.mpr ?_, rfl⟩
    rwa [Nat.mul_one]

/-- The reader stops the content where the buffer ends. -/
theorem bufferFromFields_content {input : List UInt8} (short : input.length < 2 ^ 63)
    (zeros : Nat) : bufferFromFields (.ofU64 input.length :: content input zeros) = .ok input := by
  have length : (Fr.ofU64 input.length).toUsize = input.length :=
    Fr.toUsize_ofU64 (short.trans (by decide))
  rw [bufferFromFields_eq_ok, length, unpacked_content, List.take_left]
  exact ⟨Nat.le_pred_of_lt short, rfl⟩

/-! ## Round trip -/

theorem packed_reads_back {input : List UInt8} (short : input.length < 2 ^ 63)
    {targetLength : Nat} {fields : List Fr} (done : bufferAsFields input targetLength = .ok fields) :
    fields.length = targetLength ∧ bufferFromFields fields = .ok input := by
  obtain ⟨⟨enough, -⟩, rfl⟩ := bufferAsFields_eq_ok.mp done
  refine ⟨?_, bufferFromFields_content short _⟩
  rw [List.length_cons, length_content]
  omega

/-- The fields of a slice: of thirty-two bytes each, and all of it no more than `isize::MAX`. -/
structure FieldSlice where
  list : List Fr
  fits : list.length * 32 ≤ isizeMax

/-- The reader does not panic, and what it returns is as long as the first field says and packs to
the list again. -/
def ReadsCanonical (fields : List Fr) : Prop :=
  (∀ panic, bufferFromFields fields ≠ .error (.panic panic)) ∧
    ∀ bytes, bufferFromFields fields = .ok bytes →
      fields.head?.map Fin.val = some bytes.length ∧
        bufferAsFields bytes fields.length = .ok fields

/-- What a buffer packs to: the length is covered, each field after it is low, and behind the
length there are zeros. -/
def Canonical (first : Fr) (rest : List Fr) : Prop :=
  first.val ≤ 31 * rest.length ∧ (∀ field ∈ rest, Low field) ∧
    ∀ byte ∈ (unpacked rest).drop first.val, byte = 0

section Canonical
variable {first : Fr} {rest : List Fr}

/-- A list in canonical form is what its bytes pack to: the fields of both are low and unpack
alike. -/
theorem canonical_eq_content (canonical : Canonical first rest) :
    rest = content ((unpacked rest).take first.val) (rest.length - (first.val + 30) / 31) := by
  obtain ⟨covered, low, zeros⟩ := canonical
  have size := length_unpacked rest
  have length : ((unpacked rest).take first.val).length = first.val := by
    rw [List.length_take, size]
    exact min_eq_left covered
  have enough : (first.val + 30) / 31 ≤ rest.length := by omega
  have behind : (unpacked rest).drop first.val =
      List.replicate (31 * rest.length - first.val) 0 := by
    rw [List.eq_replicate_iff, List.length_drop, size]
    exact ⟨rfl, zeros⟩
  refine unpacked_inj low (low_content _ _) ?_ ?_
  · rw [length_content, length]
    omega
  · rw [unpacked_content, length, Nat.add_sub_cancel' enough, ← behind, List.take_append_drop]

/-- The reader takes the length of a canonical list from its first field whole. -/
theorem toUsize_of_canonical (fits : (rest.length + 1) * 32 ≤ isizeMax)
    (canonical : Canonical first rest) :
    first.toUsize = first.val ∧ first.val ≤ isizeMax := by
  have covered := canonical.1
  have word : isizeMax < 2 ^ 64 := by decide
  have small : first.val ≤ isizeMax := by omega
  exact ⟨Nat.mod_eq_of_lt (small.trans_lt word), small⟩

theorem readsCanonical_of_canonical (fits : (rest.length + 1) * 32 ≤ isizeMax)
    (canonical : Canonical first rest) : ReadsCanonical (first :: rest) := by
  obtain ⟨whole, small⟩ := toUsize_of_canonical fits canonical
  have covered := canonical.1
  have length : ((unpacked rest).take first.val).length = first.val := by
    rw [List.length_take, length_unpacked]
    exact min_eq_left covered
  have read : bufferFromFields (first :: rest) = .ok ((unpacked rest).take first.val) := by
    rw [bufferFromFields_eq_ok, whole]
    exact ⟨small, rfl⟩
  refine ⟨fun panic stopped => ?_, fun bytes done => ?_⟩
  · exact nomatch read.symm.trans stopped
  · cases read.symm.trans done
    have own : Fr.ofU64 first.val = first := by
      refine Fin.ext ?_
      rw [Fr.val_ofU64]
      exact whole
    have zeros : (first :: rest).length - (1 + (first.val + 30) / 31) =
        rest.length - (first.val + 30) / 31 := by
      rw [List.length_cons, Nat.add_comm rest.length 1, Nat.add_sub_add_left]
    rw [bufferAsFields_eq_ok, length, own, zeros, ← canonical_eq_content canonical]
    refine ⟨rfl, ⟨?_, fits⟩, rfl⟩
    rw [List.length_cons]
    omega

theorem canonical_of_readsCanonical (reads : ReadsCanonical (first :: rest)) :
    Canonical first rest := by
  obtain ⟨no_panic, reads⟩ := reads
  by_cases room : first.toUsize ≤ isizeMax
  · obtain ⟨announced, again⟩ := reads _ (bufferFromFields_eq_ok.mpr ⟨room, rfl⟩)
    have announced := Option.some.inj announced
    have size := length_unpacked rest
    obtain ⟨-, same⟩ := bufferAsFields_eq_ok.mp again
    have packed := (List.cons.inj same).2
    generalize taken : (unpacked rest).take first.toUsize = bytes at announced packed
    refine ⟨?_, ?_, ?_⟩
    · rw [announced, ← size, ← taken]
      exact List.length_take_le' _ _
    · rw [packed]
      exact low_content _ _
    · rw [packed, unpacked_content, announced, List.drop_left]
      exact fun byte behind => List.eq_of_mem_replicate behind
  · refine absurd ?_ (no_panic .capacityOverflow)
    unfold bufferFromFields withCapacity
    dsimp only
    rw [Nat.mul_one, if_neg room]
    rfl

end Canonical

/-- The reader deals with a list as it should exactly if that is empty or in canonical form. -/
theorem reads_canonical_iff (fields : FieldSlice) :
    ReadsCanonical fields.list ↔
      ∀ first rest, fields.list = first :: rest → Canonical first rest := by
  obtain ⟨list, fits⟩ := fields
  cases list with
  | nil =>
    refine ⟨fun _ first rest same => (nomatch same), fun _ => ⟨fun panic stopped => ?_,
      fun bytes done => ?_⟩⟩
    · exact nomatch stopped
    · exact nomatch done
  | cons first rest =>
    refine ⟨fun reads _ _ same => ?_, fun canonical => ?_⟩
    · cases same
      exact canonical_of_readsCanonical reads
    · exact readsCanonical_of_canonical fits (canonical first rest rfl)

/-- Five bytes announced and none returned, a length that cannot be allocated, and a first byte
that is left out. -/
theorem malformed_lists_are_read :
    ¬ ReadsCanonical [5] ∧ ¬ ReadsCanonical [.ofU64 (2 ^ 63)] ∧
      ¬ ReadsCanonical [0, Fin.ofNat frModulus (256 ^ 31)] := by
  refine ⟨fun reads => ?_, fun reads => ?_, fun reads => ?_⟩
  · exact absurd (reads.2 [] rfl).1 (by decide)
  · exact reads.1 .capacityOverflow rfl
  · exact nomatch (reads.2 [] rfl).2

end AztecPxe.PackedBuffer
