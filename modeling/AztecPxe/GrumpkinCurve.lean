import AztecPxe.Grumpkin
import AztecPxe.ShortCurve

/-! An `ark_grumpkin` that keeps the laws: the curve `y ^ 2 = x ^ 3 - 17` over `Fr`,
computed in Jacobian coordinates, with square roots by Tonelli and Shanks. That the
generator has the order of `Fq` is one run of the double-and-add below. -/
namespace AztecPxe.GrumpkinCurve
open LucasTest ShortCurve Grumpkin

/-- The ordinate of the generator, a square root of `1 - 17`. -/
def generatorY : Fr := 17631683881184975370165255887551781615748388533673675138860

/-! ## Square roots -/

/-- A power, by squaring. -/
def power (base : Fr) (exponent : Nat) : Fr :=
  Fin.ofNat frModulus (powMod frModulus 254 base.val exponent)

/-- The rounds of Tonelli and Shanks: the rest is brought to one, and the root follows it. -/
def adjust : Nat → Fr → Fr → Fr → Fr
  | 0, root, _, _ => root
  | n + 1, root, rest, twist =>
    if power rest (2 ^ n) = 1 then adjust n root rest (twist * twist)
    else adjust n (root * twist) (rest * (twist * twist)) (twist * twist)

/-- The root, where it is one. -/
def checked (square root : Fr) : Option Fr := if root * root = square then some root else none

/-- A square root, where there is one. -/
@[irreducible] def sqrt (square : Fr) : Option Fr :=
  let oddPart := (frModulus - 1) / 2 ^ 28
  let start := power square ((oddPart - 1) / 2)
  checked square (adjust 27 (square * start) (square * start * start) (power 5 oddPart))

theorem mul_self_of_checked {square root found : Fr} (passed : checked square root = some found) :
    found * found = square := by
  unfold checked at passed
  split at passed
  next same =>
    cases passed
    exact same
  next => cases passed

theorem sqrt_checked (square : Fr) : ∃ root, sqrt square = checked square root := by
  unfold sqrt
  exact ⟨_, rfl⟩

/-! ## The curve -/

section Curve
attribute [local instance] frField

/-- Grumpkin's group. -/
abbrev Group : Type := (curve (-17 : Fr)).Point

theorem two_ne_zero : (2 : Fr) ≠ 0 := by decide

theorem generator_on_curve : (curve (-17 : Fr)).Nonsingular 1 generatorY := by
  rw [WeierstrassCurve.Affine.nonsingular_iff, equation_curve]
  exact ⟨by decide +kernel, .inr (by decide +kernel)⟩

/-- The generator as an element of the group. -/
def generatorPoint : Group := .some 1 generatorY generator_on_curve

theorem generator_order : fqModulus • generatorPoint = 0 := by
  have infinite : (multiple (1 : Fr) generatorY 254 fqModulus).Z = 0 := by decide +kernel
  have multiple := multiple_affine two_ne_zero generator_on_curve
    (by decide : fqModulus < 2 ^ 254)
  rw [affine_eq_none.mpr infinite] at multiple
  exact coordinates_eq_none.mp multiple.symm

/-- The curve as `ark_grumpkin` serves it. -/
def arkGrumpkin : ArkGrumpkin (Option (Fr × Fr)) where
  newUnchecked x y := some (x, y)
  zero := none
  generator := some (1, generatorY)
  add
    | none, q => q
    | p, none => p
    | some (x, y), some (x', y') => (addAffine ⟨x, y, 1⟩ x' y').affine
  mulBigint
    | none, _ => none
    | some (x, y), n => (multiple x y (n.log2 + 1) n).affine
  xy := id
  sqrt := sqrt

theorem mulBigint_coordinates (P : Group) (n : Nat) :
    arkGrumpkin.mulBigint (coordinates P) n = coordinates (n • P) := by
  cases P with
  | zero =>
    have zero : n • (0 : Group) = 0 := nsmul_zero n
    exact (congrArg coordinates zero).symm
  | some x y on =>
    have multiple := multiple_affine two_ne_zero on (Nat.lt_log2_self : n < 2 ^ (n.log2 + 1))
    exact multiple

theorem affine_jacobian (x y : Fr) : (⟨x, y, 1⟩ : Jacobian Fr).affine = some (x, y) := by
  refine affine_eq_some.mpr ⟨one_ne_zero, ?_, ?_⟩
  · rw [mul_one, mul_one]
  · rw [mul_one, mul_one, mul_one]

theorem add_coordinates (P Q : Group) :
    arkGrumpkin.add (coordinates P) (coordinates Q) = coordinates (P + Q) := by
  cases P with
  | zero =>
    have sum : (0 : Group) + Q = Q := zero_add Q
    exact (congrArg coordinates sum).symm
  | some x y on =>
    cases Q with
    | zero =>
      have sum : (.some x y on : Group) + 0 = .some x y on := add_zero _
      exact (congrArg coordinates sum).symm
    | some x' y' on' =>
      have same : (⟨x, y, 1⟩ : Jacobian Fr).affine = coordinates (.some x y on : Group) :=
        affine_jacobian x y
      exact addAffine_affine two_ne_zero same on'

theorem affine_coordinates (P : Group) (finite : P ≠ 0) :
    ∃ x y, arkGrumpkin.xy (coordinates P) = some (x, y) ∧ y * y = x * x * x - 17 ∧
      arkGrumpkin.newUnchecked x y = coordinates P ∧
      arkGrumpkin.xy (coordinates (-P)) = some (x, -y) := by
  cases P with
  | zero => exact absurd rfl finite
  | some x y on =>
    have opposite : coordinates (-(.some x y on : Group)) = some (x, -y) := coordinates_neg rfl
    have held := equation_curve.mp on.left
    refine ⟨x, y, rfl, ?_, rfl, opposite⟩
    rw [held, sub_eq_add_neg]

theorem mul_self_of_sqrt (square found : Fr) (rooted : arkGrumpkin.sqrt square = some found) :
    found * found = square := by
  obtain ⟨root, same⟩ := sqrt_checked square
  exact mul_self_of_checked (same.symm.trans rooted)

theorem arkGrumpkin_lawful : Lawful arkGrumpkin (coordinates : Group → _) generatorPoint where
  zero := rfl
  generator := rfl
  order := generator_order
  add := add_coordinates
  mulBigint := mulBigint_coordinates
  infinity := rfl
  affine := affine_coordinates
  sqrt := mul_self_of_sqrt

end Curve
end AztecPxe.GrumpkinCurve
