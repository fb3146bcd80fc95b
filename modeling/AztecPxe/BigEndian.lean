import AztecPxe.ClassId
import AztecPxe.KernelTypes

/-! Numbers as bytes, the most significant first. A field element has thirty-two of them; any
thirty-two bytes are a field element again, of the number they form up to the modulus. -/
namespace AztecPxe
open ClassId

/-- `Fr::from` of thirty-two bytes, which reduces the number they form. -/
def Fr.ofBeBytes (bytes : List UInt8) : Fr := Fin.ofNat frModulus (fromBeBytes bytes)

namespace BigEndian

/-! ## The number bytes form -/

theorem fromBeBytes_concat (bytes : List UInt8) (byte : UInt8) :
    fromBeBytes (bytes ++ [byte]) = fromBeBytes bytes * 256 + byte.toNat := by
  simp [fromBeBytes]

theorem fromBeBytes_append (front back : List UInt8) :
    fromBeBytes (front ++ back) = fromBeBytes front * 256 ^ back.length + fromBeBytes back := by
  induction back using List.reverseRecOn with
  | nil => simp [fromBeBytes]
  | append_singleton back byte ih =>
    rw [← List.append_assoc, fromBeBytes_concat, ih, fromBeBytes_concat, List.length_append,
      List.length_singleton, Nat.pow_succ]
    ring

theorem fromBeBytes_lt (bytes : List UInt8) : fromBeBytes bytes < 256 ^ bytes.length := by
  induction bytes using List.reverseRecOn with
  | nil => decide
  | append_singleton bytes byte ih =>
    have last := byte.toNat_lt
    rw [fromBeBytes_concat, List.length_append, List.length_singleton, Nat.pow_succ]
    omega

/-! ## The bytes of a number -/

theorem fromBeBytes_beBytes (len n : Nat) : fromBeBytes (beBytes len n) = n % 256 ^ len := by
  induction len generalizing n with
  | zero => simp [beBytes, fromBeBytes, Nat.mod_one]
  | succ len ih =>
    have lowest : n % 256 ^ (len + 1) = n % 256 + 256 * (n / 256 % 256 ^ len) := by
      rw [Nat.pow_succ', Nat.mod_mul]
    rw [beBytes, fromBeBytes_concat, ih, UInt8.toNat_ofNat', lowest]
    omega

theorem beBytes_fromBeBytes (bytes : List UInt8) :
    beBytes bytes.length (fromBeBytes bytes) = bytes := by
  induction bytes using List.reverseRecOn with
  | nil => rfl
  | append_singleton bytes byte ih =>
    have last := byte.toNat_lt
    have front : (fromBeBytes bytes * 256 + byte.toNat) / 256 = fromBeBytes bytes := by omega
    have back : UInt8.ofNat (fromBeBytes bytes * 256 + byte.toNat) = byte := by
      rw [← UInt8.toNat_inj, UInt8.toNat_ofNat']
      omega
    rw [List.length_append, List.length_singleton, beBytes, fromBeBytes_concat, front, back, ih]

theorem beBytes_eq_iff (len n m : Nat) :
    beBytes len n = beBytes len m ↔ n % 256 ^ len = m % 256 ^ len := by
  constructor
  · intro same
    rw [← fromBeBytes_beBytes, ← fromBeBytes_beBytes, same]
  · intro same
    have bytes (k : Nat) : beBytes len (k % 256 ^ len) = beBytes len k := by
      have back := beBytes_fromBeBytes (beBytes len k)
      rwa [length_beBytes, fromBeBytes_beBytes] at back
    rw [← bytes n, ← bytes m, same]

theorem take_beBytes (a b n : Nat) : (beBytes (a + b) n).take a = beBytes a (n / 256 ^ b) := by
  induction b generalizing n with
  | zero => simp [List.take_of_length_le]
  | succ b ih =>
    rw [← Nat.add_assoc, beBytes, List.take_append_of_le_length (by simp), ih, Nat.div_div_eq_div_mul,
      Nat.pow_succ']

theorem drop_beBytes (a b n : Nat) : (beBytes (a + b) n).drop a = beBytes b n := by
  induction b generalizing n with
  | zero => simp [beBytes]
  | succ b ih =>
    rw [← Nat.add_assoc, beBytes, List.drop_append_of_le_length (by simp), ih, beBytes]

/-! ## Field elements -/

/-- The bytes are the digits to the base 256. -/
theorem beBytes_eq_map (len n : Nat) :
    beBytes len n = (List.range len).reverse.map (fun i => UInt8.ofNat (n / 256 ^ i)) := by
  induction len generalizing n with
  | zero => rfl
  | succ len ih =>
    rw [beBytes, ih, List.range_succ_eq_map, List.reverse_cons, List.map_append, ← List.map_reverse,
      List.map_map]
    congr 1
    · refine List.map_congr_left fun i _ => ?_
      rw [Function.comp_apply, Nat.div_div_eq_div_mul, ← Nat.pow_succ']
    · simp

theorem toBeBytes_eq (value : Fr) : toBeBytes value = beBytes 32 value.val :=
  (beBytes_eq_map 32 value.val).symm

@[simp] theorem length_toBeBytes (value : Fr) : (toBeBytes value).length = 32 := by
  rw [toBeBytes_eq, length_beBytes]

@[simp] theorem fromBeBytes_toBeBytes (value : Fr) : fromBeBytes (toBeBytes value) = value.val := by
  have bound : frModulus ≤ 256 ^ 32 := by decide
  rw [toBeBytes_eq, fromBeBytes_beBytes, Nat.mod_eq_of_lt (value.isLt.trans_le bound)]

@[simp] theorem ofBeBytes_toBeBytes (value : Fr) : Fr.ofBeBytes (toBeBytes value) = value := by
  refine Fin.ext ?_
  rw [Fr.ofBeBytes, Fin.val_ofNat, fromBeBytes_toBeBytes, Nat.mod_eq_of_lt value.isLt]

end BigEndian
end AztecPxe
