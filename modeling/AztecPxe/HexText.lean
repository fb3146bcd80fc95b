import AztecPxe.Json
import Mathlib.Data.List.Basic
import Mathlib.Tactic.Ring

/-! Texts as their bytes, and numbers as hexadecimal text: what `hex32` writes, `Fr::from_hex`
reads back. -/
namespace AztecPxe.HexText

/-! ## Bytes of texts -/

theorem toList_loop (bytes : ByteArray) (i : Nat) (front : List UInt8) :
    ByteArray.toList.loop bytes i front = front.reverse ++ bytes.data.toList.drop i := by
  induction left : bytes.size - i generalizing i front with
  | zero =>
    have past : bytes.data.toList.length ≤ i := Nat.le_of_sub_eq_zero left
    rw [ByteArray.toList.loop, if_neg (by omega), List.drop_eq_nil_of_le past, List.append_nil]
  | succ n ih =>
    have inside : i < bytes.data.toList.length := Nat.lt_of_sub_eq_succ left
    have read : bytes.get! i = bytes.data.toList[i] := getElem!_pos bytes.data i inside
    rw [ByteArray.toList.loop, if_pos (by omega), ih (i + 1) _ (by omega), read,
      List.drop_eq_getElem_cons inside]
    simp

theorem toList_eq (bytes : ByteArray) : bytes.toList = bytes.data.toList := by
  rw [ByteArray.toList, toList_loop]
  rfl

/-- Texts are told apart by their bytes. -/
theorem utf8_injective {a b : String} (same : a.toUTF8.toList = b.toUTF8.toList) : a = b := by
  rw [toList_eq, toList_eq] at same
  exact String.toByteArray_inj.mp (ByteArray.ext (Array.toList_inj.mp same))

theorem utf8_of_ascii {text : String} (ascii : ∀ c ∈ text.toList, c.toNat < 128) :
    text.toUTF8.data.toList = text.toList.map (fun c => UInt8.ofNat c.toNat) := by
  have encoded : text.toUTF8.data.toList = text.toList.flatMap String.utf8EncodeChar := by
    rw [String.toUTF8_eq_toByteArray, ← String.utf8Encode_toList]
    simp [List.utf8Encode]
  have each : ∀ c ∈ text.toList, String.utf8EncodeChar c = [UInt8.ofNat c.toNat] := by
    intro c inside
    have small : c.val ≤ UInt32.ofNatLT 127 (by decide) :=
      UInt32.le_iff_toNat_le.mpr (Nat.le_of_lt_succ (ascii c inside))
    have size : c.utf8Size = 1 := if_pos small
    rw [String.utf8EncodeChar_eq_singleton size]
    rfl
  rw [encoded]
  generalize text.toList = chars at each ⊢
  induction chars with
  | nil => rfl
  | cons c rest ih =>
    rw [List.flatMap_cons, each c List.mem_cons_self,
      ih (fun c inside => each c (List.mem_cons_of_mem _ inside)), List.map_cons]
    rfl

/-- The bytes of an ASCII text, taken as characters, are the text. -/
theorem chars_of_ascii {text : String} (ascii : ∀ c ∈ text.toList, c.toNat < 128) :
    text.toUTF8.toList.map (fun byte => Char.ofNat byte.toNat) = text.toList := by
  rw [toList_eq, utf8_of_ascii ascii, List.map_map]
  refine (List.map_congr_left fun c inside => ?_).trans (List.map_id _)
  have small : (UInt8.ofNat c.toNat).toNat = c.toNat :=
    Nat.mod_eq_of_lt ((ascii c inside).trans (by decide))
  change Char.ofNat (UInt8.ofNat c.toNat).toNat = c
  rw [small, Char.ofNat_toNat]

/-! ## Hexadecimal digits -/

/-- The digit `hexDigits` writes. -/
def hexDigit (k : Nat) : Char :=
  Char.ofNat (if k < 10 then '0'.toNat + k else 'a'.toNat + (k - 10))

/-- The lowest digits of a number, the highest of them first. -/
def digitsOf (n width : Nat) : List Char :=
  (List.range width).reverse.map (fun i => hexDigit (n / 16 ^ i % 16))

theorem toDigit_hexDigit : ∀ k < 16, toDigit (hexDigit k) 16 = some k := by decide

theorem hexDigit_ascii : ∀ k < 16, (hexDigit k).toNat < 128 := by decide

theorem toList_hexDigits (width n : Nat) :
    (hexDigits width n).toList = '0' :: 'x' :: digitsOf n width := String.toList_ofList

theorem length_digitsOf (n width : Nat) : (digitsOf n width).length = width := by
  rw [digitsOf, List.length_map, List.length_reverse, List.length_range]

theorem digitsOf_succ (n width : Nat) :
    digitsOf n (width + 1) = hexDigit (n / 16 ^ width % 16) :: digitsOf n width := by
  simp [digitsOf, List.range_succ]

theorem hexDigits_ascii (width n : Nat) : ∀ c ∈ (hexDigits width n).toList, c.toNat < 128 := by
  intro c inside
  rw [toList_hexDigits] at inside
  rcases List.mem_cons.mp inside with rfl | inside
  · decide
  rcases List.mem_cons.mp inside with rfl | inside
  · decide
  obtain ⟨i, -, rfl⟩ := List.mem_map.mp inside
  exact hexDigit_ascii _ (Nat.mod_lt _ (by decide))

/-! ## Reading back -/

/-- A reader that takes one digit after another, from whatever it read before them. -/
theorem foldlM_digitsOf {step : Nat → Char × Nat → Except Error Nat}
    (reads : ∀ {c digit}, toDigit c 16 = some digit → ∀ value position,
      step value (c, position) = .ok (value * 16 + digit)) (n width value position : Nat) :
    ((digitsOf n width).zipIdx position).foldlM step value =
      .ok (value * 16 ^ width + n % 16 ^ width) := by
  induction width generalizing value position with
  | zero =>
    rw [pow_zero, Nat.mod_one, Nat.mul_one]
    rfl
  | succ width ih =>
    have digit := toDigit_hexDigit (n / 16 ^ width % 16) (Nat.mod_lt _ (by decide))
    rw [digitsOf_succ, List.zipIdx_cons, List.foldlM_cons, reads digit]
    refine (ih _ _).trans (congrArg Except.ok ?_)
    rw [Nat.mod_pow_succ]
    ring

theorem hexValue_digitsOf (n width : Nat) :
    hexValue (digitsOf n width) = .ok (n % 16 ^ width) := by
  refine (foldlM_digitsOf (fun digit _ _ => ?_) n width 0 0).trans (by simp)
  rw [digit]

/-- Thirty-two bytes are read back from their text. -/
theorem decodeFixedHex_hex32 {n : Nat} (small : n < 16 ^ 64) : decodeFixedHex (hex32 n) = .ok n := by
  unfold decodeFixedHex hex32
  rw [chars_of_ascii (hexDigits_ascii 64 n), toList_hexDigits]
  change (if 64 < (digitsOf n 64).length then _ else hexValue
    (if (digitsOf n 64).length % 2 = 1 then '0' :: digitsOf n 64 else digitsOf n 64)) = _
  rw [length_digitsOf, if_neg (by decide), if_neg (by decide), hexValue_digitsOf,
    Nat.mod_eq_of_lt small]

/-- A field is read back from its text. -/
theorem fromHex_hex32 (f : Fr) : Fr.fromHex (hex32 f.val) = .ok f := by
  have bound : frModulus ≤ 16 ^ 64 := by decide
  unfold Fr.fromHex
  rw [decodeFixedHex_hex32 (f.isLt.trans_le bound)]
  exact congrArg Except.ok (Fin.ext (Nat.mod_eq_of_lt f.isLt))

end AztecPxe.HexText
