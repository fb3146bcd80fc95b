import AztecPxe.Field
import AztecPxe.LucasTest
import Mathlib.FieldTheory.Finite.Basic
import Mathlib.Tactic.NormNum.Prime

/-! The field that `Fr` is: its modulus is prime, and inverses are powers. The instance is
local to the modules that ask for it, so that arithmetic on `Fr` elsewhere stays that of
`Fin`. -/
namespace AztecPxe
open LucasTest

/-! ## The modulus -/

theorem prime_405928799 : Nat.Prime 405928799 := by
  have passed : passes 405928799 22 [2, 11, 3691, 4999] = true := by decide +kernel
  refine prime_of_passes passed ?_
  simp only [List.forall_mem_cons]
  exact ⟨by norm_num, by norm_num, by norm_num, by norm_num, List.forall_mem_nil _⟩

theorem prime_12048837557 : Nat.Prime 12048837557 := by
  have passed : passes 12048837557 2 [2, 7, 661, 93001] = true := by decide +kernel
  refine prime_of_passes passed ?_
  simp only [List.forall_mem_cons]
  exact ⟨by norm_num, by norm_num, by norm_num, by norm_num, List.forall_mem_nil _⟩

theorem prime_5156902474397 : Nat.Prime 5156902474397 := by
  have passed : passes 5156902474397 2 [2, 107, 12048837557] = true := by decide +kernel
  refine prime_of_passes passed ?_
  simp only [List.forall_mem_cons]
  exact ⟨by norm_num, by norm_num, prime_12048837557, List.forall_mem_nil _⟩

theorem prime_1670836401704629 : Nat.Prime 1670836401704629 := by
  have passed : passes 1670836401704629 2 [2, 3, 5156902474397] = true := by decide +kernel
  refine prime_of_passes passed ?_
  simp only [List.forall_mem_cons]
  exact ⟨by norm_num, by norm_num, prime_5156902474397, List.forall_mem_nil _⟩

theorem prime_639533339 : Nat.Prime 639533339 := by
  have passed : passes 639533339 2 [2, 229, 853, 1637] = true := by decide +kernel
  refine prime_of_passes passed ?_
  simp only [List.forall_mem_cons]
  exact ⟨by norm_num, by norm_num, by norm_num, by norm_num, List.forall_mem_nil _⟩

theorem prime_65865678001877903 : Nat.Prime 65865678001877903 := by
  have passed : passes 65865678001877903 5 [2, 83, 379, 1637, 639533339] = true := by
    decide +kernel
  refine prime_of_passes passed ?_
  simp only [List.forall_mem_cons]
  exact ⟨by norm_num, by norm_num, by norm_num, by norm_num, prime_639533339,
    List.forall_mem_nil _⟩

theorem prime_13818364434197438864469338081 : Nat.Prime 13818364434197438864469338081 := by
  have passed : passes 13818364434197438864469338081 3
      [2, 5, 823, 1593227, 65865678001877903] = true := by decide +kernel
  refine prime_of_passes passed ?_
  simp only [List.forall_mem_cons]
  exact ⟨by norm_num, by norm_num, by norm_num, by norm_num, prime_65865678001877903,
    List.forall_mem_nil _⟩

theorem frModulus_prime : frModulus.Prime := by
  have passed : passes frModulus 5 [2, 3, 13, 29, 983, 11003, 237073, 405928799,
      1670836401704629, 13818364434197438864469338081] = true := by decide +kernel
  refine prime_of_passes passed ?_
  simp only [List.forall_mem_cons]
  exact ⟨by norm_num, by norm_num, by norm_num, by norm_num, by norm_num, by norm_num,
    by norm_num, prime_405928799, prime_1670836401704629, prime_13818364434197438864469338081,
    List.forall_mem_nil _⟩

/-! ## The field -/

/-- The inverse of a field element, by Fermat's little theorem. -/
def Fr.inverse (a : Fr) : Fr := Fin.ofNat frModulus (powMod frModulus 254 a.val (frModulus - 2))

theorem Fr.mul_inverse {a : Fr} (unit : a ≠ 0) : a * a.inverse = 1 := by
  have fits : frModulus - 2 < 2 ^ 254 := by decide
  have : Fact frModulus.Prime := ⟨frModulus_prime⟩
  have coprime : IsCoprime (a.val : ℤ) frModulus := by
    rw [Nat.isCoprime_iff_coprime, Nat.coprime_comm, Nat.Prime.coprime_iff_not_dvd frModulus_prime]
    intro divides
    exact unit (Fin.ext (Nat.eq_zero_of_dvd_of_lt divides a.isLt))
  have fermat : a.val ^ (frModulus - 1) % frModulus = 1 := by
    have fermat := Int.ModEq.pow_card_sub_one_eq_one frModulus_prime coprime
    exact_mod_cast fermat
  apply Fin.ext
  rw [Fin.val_mul, Fr.inverse, Fin.val_ofNat, powMod_eq _ fits, Nat.mod_mod, Nat.mul_mod_mod,
    ← pow_succ']
  exact fermat

open Fin.CommRing in
/-- The field structure on `Fr`, over the arithmetic of `Fin`. -/
abbrev frField : Field Fr where
  __ := Fin.instCommRing frModulus
  inv := Fr.inverse
  div a b := a * b.inverse
  div_eq_mul_inv _ _ := rfl
  exists_pair_ne := ⟨0, 1, by decide⟩
  mul_inv_cancel _ := Fr.mul_inverse
  inv_zero := by decide +kernel
  nnqsmul := _
  nnqsmul_def := fun _ _ => rfl
  qsmul := _
  qsmul_def := fun _ _ => rfl

end AztecPxe
