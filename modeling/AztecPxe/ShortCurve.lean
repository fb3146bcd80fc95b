import Mathlib.AlgebraicGeometry.EllipticCurve.Affine.Point
import Mathlib.Tactic.FieldSimp

/-! Arithmetic on a curve `y ^ 2 = x ^ 3 + b` over any field in which two is not zero:
doubling and mixed addition in Jacobian coordinates and the multiples computed from them,
each shown to compute in the group of the curve's points. -/
namespace AztecPxe.ShortCurve
open WeierstrassCurve.Affine

variable {F : Type} [Field F]

/-- The curve `y ^ 2 = x ^ 3 + b`. -/
abbrev curve (b : F) : WeierstrassCurve.Affine F := ⟨0, 0, 0, 0, b⟩

theorem equation_curve {b x y : F} : (curve b).Equation x y ↔ y * y = x * x * x + b := by
  rw [WeierstrassCurve.Affine.equation_iff]
  constructor
  · intro held
    linear_combination held
  · intro held
    linear_combination held

/-- The affine coordinates of a point, or none at infinity. -/
def coordinates {b : F} : (curve b).Point → Option (F × F)
  | .zero => none
  | .some x y _ => some (x, y)

theorem coordinates_eq_none {b : F} {P : (curve b).Point} : coordinates P = none ↔ P = 0 := by
  cases P with
  | zero => exact iff_of_true rfl rfl
  | some x y on => exact iff_of_false nofun nofun

theorem coordinates_neg {b : F} {P : (curve b).Point} {x y : F}
    (at_point : coordinates P = some (x, y)) : coordinates (-P) = some (x, -y) := by
  cases P with
  | zero => cases at_point
  | some x' y' on =>
    cases at_point
    rw [Point.neg_some]
    simp [coordinates, negY]

/-- The point `(X / Z ^ 2, Y / Z ^ 3)`, or the one at infinity where `Z` is zero. -/
structure Jacobian (F : Type) where
  X : F
  Y : F
  Z : F

variable [DecidableEq F]

/-- The affine coordinates, at the cost of one inversion. -/
def Jacobian.affine (P : Jacobian F) : Option (F × F) :=
  if P.Z = 0 then none
  else
    let inverse := P.Z⁻¹
    let square := inverse * inverse
    some (P.X * square, P.Y * (square * inverse))

/-- The double of a point. -/
def double (P : Jacobian F) : Jacobian F :=
  let square := P.Y * P.Y
  let crossed := 4 * (P.X * square)
  let slope := 3 * (P.X * P.X)
  let X := slope * slope - 2 * crossed
  ⟨X, slope * (crossed - X) - 8 * (square * square), 2 * (P.Y * P.Z)⟩

/-- The sum of a point and an affine one. -/
def addAffine (P : Jacobian F) (x y : F) : Jacobian F :=
  if P.Z = 0 then ⟨x, y, 1⟩
  else
    let square := P.Z * P.Z
    let run := x * square - P.X
    let rise := y * (square * P.Z) - P.Y
    if run = 0 then if rise = 0 then double P else ⟨1, 1, 0⟩
    else
      let runSquare := run * run
      let X := rise * rise - runSquare * run - 2 * (P.X * runSquare)
      ⟨X, rise * (P.X * runSquare - X) - P.Y * (runSquare * run), P.Z * run⟩

/-- A multiple of an affine point, for a number of at most this many bits. -/
def multiple (x y : F) : Nat → Nat → Jacobian F
  | 0, _ => ⟨1, 1, 0⟩
  | bits + 1, n =>
    let twice := double (multiple x y bits (n / 2))
    if n % 2 = 1 then addAffine twice x y else twice

theorem affine_eq_none {P : Jacobian F} : P.affine = none ↔ P.Z = 0 := by
  unfold Jacobian.affine
  split
  next zero => exact iff_of_true rfl zero
  next unit => exact iff_of_false nofun unit

theorem affine_eq_some {P : Jacobian F} {x y : F} :
    P.affine = some (x, y) ↔ P.Z ≠ 0 ∧ P.X = x * (P.Z * P.Z) ∧ P.Y = y * (P.Z * P.Z * P.Z) := by
  unfold Jacobian.affine
  split
  next zero => exact iff_of_false nofun (fun held => held.1 zero)
  next unit =>
    have inverse : P.Z * P.Z⁻¹ = 1 := mul_inv_cancel₀ unit
    dsimp only
    rw [Option.some.injEq, Prod.mk.injEq]
    constructor
    · rintro ⟨rfl, rfl⟩
      refine ⟨unit, ?_, ?_⟩
      · field_simp
      · field_simp
    · rintro ⟨-, X, Y⟩
      rw [X, Y]
      constructor
      · field_simp
      · field_simp

/-! ## In the group -/

section Group
variable {b : F} (two : (2 : F) ≠ 0)
include two

theorem double_affine {P : Jacobian F} {Q : (curve b).Point} (same : P.affine = coordinates Q) :
    (double P).affine = coordinates (Q + Q) := by
  cases Q with
  | zero =>
    have zero : P.Z = 0 := affine_eq_none.mp same
    refine affine_eq_none.mpr ?_
    simp [double, zero]
  | some x y on =>
    obtain ⟨unit, X, Y⟩ := affine_eq_some.mp same
    by_cases flat : y = 0
    · have opposite : y = (curve b).negY x y := by simp [negY, flat]
      rw [Point.add_self_of_Y_eq opposite]
      refine affine_eq_none.mpr ?_
      simp [double, Y, flat]
    · have steep : 2 * y ≠ 0 := mul_ne_zero two flat
      have apart : y ≠ (curve b).negY x y := by
        intro opposite
        simp only [negY, zero_mul, sub_zero] at opposite
        exact steep (by linear_combination opposite)
      have slope : (curve b).slope x x y y = 3 * x ^ 2 / (2 * y) := by
        rw [slope_of_Y_ne rfl apart]
        simp only [negY]
        congr 1
        · ring
        · ring
      rw [Point.add_self_of_Y_ne apart]
      refine affine_eq_some.mpr ⟨?_, ?_, ?_⟩
      · simp only [double, Y]
        exact mul_ne_zero two (mul_ne_zero (mul_ne_zero flat (mul_ne_zero (mul_ne_zero unit unit) unit))
          unit)
      · simp only [double, X, Y, slope, addX]
        field_simp
        ring
      · simp only [double, X, Y, slope, addX, addY,
          negAddY, negY]
        field_simp
        ring

theorem addAffine_affine {P : Jacobian F} {Q : (curve b).Point} (same : P.affine = coordinates Q)
    {x y : F} (on : (curve b).Nonsingular x y) :
    (addAffine P x y).affine = coordinates (Q + .some x y on) := by
  cases Q with
  | zero =>
    have zero : P.Z = 0 := affine_eq_none.mp same
    have sum : (Point.zero + .some x y on : (curve b).Point) = .some x y on :=
      zero_add _
    rw [addAffine, if_pos zero, sum]
    refine affine_eq_some.mpr ⟨one_ne_zero, ?_, ?_⟩
    · simp
    · simp
  | some x' y' on' =>
    obtain ⟨unit, X, Y⟩ := affine_eq_some.mp same
    have square : P.Z * P.Z ≠ 0 := mul_ne_zero unit unit
    have run : x * (P.Z * P.Z) - P.X = (x - x') * (P.Z * P.Z) := by
      rw [X]
      ring
    have rise : y * (P.Z * P.Z * P.Z) - P.Y = (y - y') * (P.Z * P.Z * P.Z) := by
      rw [Y]
      ring
    rw [addAffine, if_neg unit]
    dsimp only
    rw [run, rise]
    by_cases column : x' = x
    · subst column
      rw [sub_self, zero_mul, if_pos rfl]
      by_cases again : y' = y
      · subst again
        rw [sub_self, zero_mul, if_pos rfl]
        exact double_affine two same
      · rw [if_neg (mul_ne_zero (sub_ne_zero.mpr (Ne.symm again)) (mul_ne_zero square unit))]
        have opposite : y' = (curve b).negY x' y := by
          rcases Y_eq_of_X_eq on'.left on.left rfl with equal | opposite
          · exact absurd equal again
          · exact opposite
        rw [Point.add_of_Y_eq rfl opposite]
        exact affine_eq_none.mpr rfl
    · have apart : x - x' ≠ 0 := sub_ne_zero.mpr (Ne.symm column)
      have slope : (curve b).slope x' x y' y = (y - y') / (x - x') := by
        rw [slope_of_X_ne column, ← neg_sub y, ← neg_sub x, neg_div_neg_eq]
      rw [if_neg (mul_ne_zero apart square), Point.add_of_X_ne column]
      refine affine_eq_some.mpr ⟨?_, ?_, ?_⟩
      · exact mul_ne_zero unit (mul_ne_zero apart square)
      · simp only [X, slope, addX]
        field_simp
        ring
      · simp only [X, Y, slope, addX, addY,
          negAddY, negY]
        field_simp
        ring

theorem multiple_affine {x y : F} (on : (curve b).Nonsingular x y) {bits n : Nat}
    (fits : n < 2 ^ bits) :
    (multiple x y bits n).affine = coordinates (n • (.some x y on : (curve b).Point)) := by
  induction bits generalizing n with
  | zero =>
    have none : n = 0 := by omega
    rw [none, zero_nsmul]
    exact affine_eq_none.mpr rfl
  | succ bits ih =>
    have twice := double_affine two (ih (n := n / 2) (by omega))
    unfold multiple
    dsimp only
    rw [← two_nsmul, ← mul_nsmul'] at twice
    split
    next odd =>
      rw [addAffine_affine two twice on, ← succ_nsmul]
      congr 2
      omega
    next even =>
      rw [twice]
      congr 2
      omega

end Group
end AztecPxe.ShortCurve
