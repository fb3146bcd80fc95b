import AztecPxe.BigEndian
import AztecPxe.Chunks

/-! Sibling paths as the node sends them, `decode_base64_sibling_path` of the oracles: base64 of
the elements, thirty-two bytes each, with or without their number before them. Which of the two it
is the length tells. What is shorter than a number passes as one element. -/
namespace AztecPxe.SiblingPath
open ClassId BigEndian Chunks

/-- The elements of a payload, thirty-two bytes each, the last filled up in front. -/
def elements (payload : List UInt8) : List Fr :=
  (payload.toChunks 32).map (fun chunk =>
    .ofBeBytes (List.replicate (32 - chunk.length) 0 ++ chunk))

/-- `decode_base64_sibling_path`, which both oracles have a copy of. No number of four bytes
saturates where it is multiplied. -/
def decodeBase64SiblingPath (decode : String → Except String (List UInt8)) (encoded : String) :
    Except Error (List Fr) :=
  match decode encoded with
  | .error e => .error (.invalidData ("invalid siblingPath base64: " ++ e))
  | .ok bytes =>
    if 4 ≤ bytes.length then
      let declaredLen := fromBeBytes (bytes.take 4)
      let payload := bytes.drop 4
      if payload.length = declaredLen * 32 then .ok (elements payload)
      else if bytes.length % 32 = 0 then .ok (elements bytes)
      else .error (.invalidData ("siblingPath payload length mismatch: declared " ++
        toString declaredLen ++ " elements, got " ++ toString payload.length ++ " bytes"))
    else .ok (elements bytes)

/-! ## The two formats -/

/-- The elements alone. -/
def plain (path : List Fr) : List UInt8 := path.flatMap toBeBytes

/-- The elements after their number, of four bytes. -/
def counted (path : List Fr) : List UInt8 := beBytes 4 path.length ++ plain path

/-- What neither format can be, by its length. -/
def NeitherForm (bytes : List UInt8) : Prop :=
  bytes.length % 32 ≠ 0 ∧ bytes.length ≠ 4 + 32 * fromBeBytes (bytes.take 4)

/-- The text of these bytes is read as the path they are, and refused if they are none. -/
def ReadsFormats (decode : String → Except String (List UInt8)) (encoded : String)
    (bytes : List UInt8) : Prop :=
  (∀ path, path.length < 2 ^ 32 → bytes = counted path →
      decodeBase64SiblingPath decode encoded = .ok path) ∧
    (∀ path, bytes = plain path → decodeBase64SiblingPath decode encoded = .ok path) ∧
    (NeitherForm bytes → ∃ e, decodeBase64SiblingPath decode encoded = .error e)

theorem length_plain (path : List Fr) : (plain path).length = 32 * path.length := by
  induction path with
  | nil => rfl
  | cons first path ih =>
    unfold plain at ih ⊢
    rw [List.flatMap_cons, List.length_append, length_toBeBytes, ih, List.length_cons]
    omega

theorem elements_plain (path : List Fr) : elements (plain path) = path := by
  have whole (element : Fr) :
      Fr.ofBeBytes (List.replicate (32 - (toBeBytes element).length) 0 ++ toBeBytes element) =
        element := by
    rw [length_toBeBytes, Nat.sub_self, List.replicate_zero, List.nil_append, ofBeBytes_toBeBytes]
  rw [elements, plain, toChunks_flatMap toBeBytes length_toBeBytes, List.map_map]
  exact (List.map_congr_left fun element _ => whole element).trans (List.map_id path)

section Decoded
variable {decode : String → Except String (List UInt8)} {encoded : String} {bytes : List UInt8}

/-- The number before the elements is theirs. -/
theorem decode_counted {path : List Fr} (short : path.length < 2 ^ 32)
    (decoded : decode encoded = .ok (counted path)) :
    decodeBase64SiblingPath decode encoded = .ok path := by
  have number : (counted path).take 4 = beBytes 4 path.length :=
    List.take_left' (length_beBytes 4 _)
  have payload : (counted path).drop 4 = plain path := List.drop_left' (length_beBytes 4 _)
  have declared : fromBeBytes (beBytes 4 path.length) = path.length := by
    rw [fromBeBytes_beBytes]
    exact Nat.mod_eq_of_lt short
  have size : (plain path).length = path.length * 32 := by
    rw [length_plain, Nat.mul_comm]
  unfold decodeBase64SiblingPath
  rw [decoded]
  dsimp only
  rw [number, payload, declared, if_pos size, elements_plain, if_pos]
  rw [counted, List.length_append, length_beBytes]
  exact Nat.le_add_right 4 _

/-- Elements alone are not taken for counted ones, whatever number their first bytes form: four
bytes less are no number of elements. -/
theorem decode_plain {path : List Fr} (decoded : decode encoded = .ok (plain path)) :
    decodeBase64SiblingPath decode encoded = .ok path := by
  have size := length_plain path
  unfold decodeBase64SiblingPath
  rw [decoded]
  dsimp only
  rw [elements_plain]
  by_cases prefixed : 4 ≤ (plain path).length
  · rw [if_pos prefixed, if_neg, if_pos]
    · omega
    · rw [List.length_drop]
      omega
  · rw [if_neg prefixed]

/-- Bytes of neither form are refused, unless they are too few for a number. -/
theorem refused_iff (decoded : decode encoded = .ok bytes) (neither : NeitherForm bytes) :
    (∃ e, decodeBase64SiblingPath decode encoded = .error e) ↔ 4 ≤ bytes.length := by
  obtain ⟨partial_element, other_count⟩ := neither
  unfold decodeBase64SiblingPath
  rw [decoded]
  dsimp only
  by_cases prefixed : 4 ≤ bytes.length
  · have mismatch : (bytes.drop 4).length ≠ fromBeBytes (bytes.take 4) * 32 := by
      rw [List.length_drop]
      omega
    rw [if_pos prefixed, if_neg mismatch, if_neg partial_element]
    exact ⟨fun _ => prefixed, fun _ => ⟨_, rfl⟩⟩
  · rw [if_neg prefixed]
    refine ⟨fun refused => ?_, fun enough => absurd enough prefixed⟩
    obtain ⟨e, refused⟩ := refused
    exact nomatch refused

/-- One to three bytes are of neither form. -/
theorem neitherForm_of_short (some_byte : 0 < bytes.length) (short : bytes.length < 4) :
    NeitherForm bytes := by
  constructor
  · omega
  · omega

/-- Both formats are read and all else is refused, but for one to three bytes, which pass as one
element. -/
theorem reads_formats_iff (decoded : decode encoded = .ok bytes) :
    ReadsFormats decode encoded bytes ↔ ¬ (0 < bytes.length ∧ bytes.length < 4) := by
  constructor
  · rintro ⟨-, -, refused⟩ ⟨some_byte, short⟩
    have neither := neitherForm_of_short some_byte short
    have enough := (refused_iff decoded neither).mp (refused neither)
    omega
  · intro long
    refine ⟨fun path short form => ?_, fun path form => ?_, fun neither => ?_⟩
    · rw [form] at decoded
      exact decode_counted short decoded
    · rw [form] at decoded
      exact decode_plain decoded
    · refine (refused_iff decoded neither).mpr ?_
      have some_byte : bytes.length ≠ 0 := fun none => neither.1 (by rw [none])
      omega

end Decoded

/-! ## The standard alphabet -/

/-- The six bits of a character of the standard alphabet. -/
def sextet (c : Char) : Option Nat :=
  if 'A' ≤ c ∧ c ≤ 'Z' then some (c.toNat - 65)
  else if 'a' ≤ c ∧ c ≤ 'z' then some (c.toNat - 71)
  else if '0' ≤ c ∧ c ≤ '9' then some (c.toNat + 4)
  else if c = '+' then some 62
  else if c = '/' then some 63
  else none

/-- Four characters are three bytes; at the end two or three of them and their padding are one or
two, with no bits left over. -/
def decodeQuads : List Char → Except String (List UInt8)
  | [] => .ok []
  | [a, b, '=', '='] =>
    match sextet a, sextet b with
    | some a, some b =>
      if b % 16 = 0 then .ok [.ofNat (a * 4 + b / 16)] else .error "Invalid last symbol"
    | _, _ => .error "Invalid symbol"
  | [a, b, c, '='] =>
    match sextet a, sextet b, sextet c with
    | some a, some b, some c =>
      if c % 4 = 0 then .ok [.ofNat (a * 4 + b / 16), .ofNat (b * 16 + c / 4)]
      else .error "Invalid last symbol"
    | _, _, _ => .error "Invalid symbol"
  | a :: b :: c :: d :: rest =>
    match sextet a, sextet b, sextet c, sextet d with
    | some a, some b, some c, some d =>
      (decodeQuads rest).map ([.ofNat (a * 4 + b / 16), .ofNat (b * 16 + c / 4),
        .ofNat (c * 64 + d)] ++ ·)
    | _, _, _, _ => .error "Invalid symbol"
  | _ => .error "Invalid padding"

/-- The decoder of the standard alphabet, with padding. -/
def standard (encoded : String) : Except String (List UInt8) := decodeQuads encoded.toList

/-- The three bytes 0, 1 and 2 pass as an element. -/
theorem short_text_is_read :
    standard "AAEC" = .ok [0, 1, 2] ∧ ¬ ReadsFormats standard "AAEC" [0, 1, 2] := by
  refine ⟨by decide +kernel, fun reads => ?_⟩
  obtain ⟨e, refused⟩ := reads.2.2 ⟨by decide, by decide⟩
  have read : decodeBase64SiblingPath standard "AAEC" = .ok [258] := by decide +kernel
  exact nomatch read.symm.trans refused

/-- A count of none is the empty path. -/
theorem count_of_none_is_read : ReadsFormats standard "AAAAAA==" [0, 0, 0, 0] :=
  (reads_formats_iff (by decide +kernel)).mpr (by decide)

end AztecPxe.SiblingPath
