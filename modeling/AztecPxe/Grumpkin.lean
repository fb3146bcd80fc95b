import AztecPxe.FrField
import AztecPxe.Hash

/-! The curve arithmetic of `core/src/grumpkin.rs` over an `ark_grumpkin` that is a
parameter. The group it computes in is abstract: `Lawful` says how its operations read in
a commutative group of points, whose multiples the scalars of `Fq` then act on. -/
namespace AztecPxe

/-- The order of the BN254 base field, which is the order of Grumpkin's group. -/
def fqModulus : Nat :=
  21888242871839275222246405745257275088696311157297823662689037894645226208583

instance : NeZero fqModulus := ⟨by decide⟩

/-- `types.rs::Fq`. -/
abbrev Fq := Fin fqModulus

/-- `ark_grumpkin::Affine` with the operations `grumpkin.rs` calls, and `sqrt` of
`ark_bn254::Fr`; `xy` has no coordinates for the point at infinity. -/
structure ArkGrumpkin (Affine : Type) where
  newUnchecked : Fr → Fr → Affine
  zero : Affine
  generator : Affine
  add : Affine → Affine → Affine
  mulBigint : Affine → Nat → Affine
  xy : Affine → Option (Fr × Fr)
  sqrt : Fr → Option Fr

namespace Grumpkin

/-- The choice of `has_positive_y` and `point_from_x`: at most
`MODULUS_MINUS_ONE_DIV_TWO`. -/
def positive (y : Fr) : Bool := y.val ≤ (frModulus - 1) / 2

/-- `has_positive_y`. -/
def hasPositiveY (point : Point) : Bool := positive point.y

section Arithmetic
variable {Affine : Type} (ark : ArkGrumpkin Affine)

/-- `to_ark_affine`. -/
def toArkAffine (point : Point) : Affine :=
  if point.isInfinite then ark.zero else ark.newUnchecked point.x point.y

/-- `from_ark_affine`. -/
def fromArkAffine (point : Affine) : Point :=
  match ark.xy point with
  | none => ⟨0, 0, true⟩
  | some (x, y) => ⟨x, y, false⟩

/-- `generator`. -/
def generator : Point := fromArkAffine ark ark.generator

/-- `point_add`. -/
def pointAdd (p q : Point) : Point :=
  fromArkAffine ark (ark.add (toArkAffine ark p) (toArkAffine ark q))

/-- `scalar_mul`. -/
def scalarMul (scalar : Fq) (point : Point) : Point :=
  if point.isInfinite then point
  else if scalar = 0 then ⟨0, 0, true⟩
  else fromArkAffine ark (ark.mulBigint (toArkAffine ark point) scalar.val)

/-- `point_from_x`. -/
def pointFromX (x : Fr) : Except Error Point :=
  let rhs := x * x * x - 17
  match ark.sqrt rhs with
  | none => .error (.invalidData "address x-coordinate is not on Grumpkin")
  | some y =>
    let chosen := if positive y then y else if positive (-y) then -y else y
    .ok ⟨x, chosen, false⟩

end Arithmetic

/-! ## Signs -/

section Signs
attribute [local instance] frField

theorem positive_neg {y : Fr} (negative : positive y = false) : positive (-y) = true := by
  have large : ¬ y.val ≤ (frModulus - 1) / 2 := of_decide_eq_false negative
  refine decide_eq_true ?_
  have value : (-y).val = (frModulus - y.val) % frModulus := rfl
  have odd : frModulus = 2 * ((frModulus - 1) / 2) + 1 := by decide
  have below : y.val < frModulus := y.isLt
  rw [value, Nat.mod_eq_of_lt (by omega)]
  omega

/-- Only zero has the sign of its opposite. -/
theorem eq_of_positive_neg {y : Fr} (first : positive y = true) (second : positive (-y) = true) :
    -y = y := by
  have small : y.val ≤ (frModulus - 1) / 2 := of_decide_eq_true first
  have opposite : (-y).val ≤ (frModulus - 1) / 2 := of_decide_eq_true second
  have value : (-y).val = (frModulus - y.val) % frModulus := rfl
  have odd : frModulus = 2 * ((frModulus - 1) / 2) + 1 := by decide
  have zero : y.val = 0 := by
    by_contra some
    rw [value, Nat.mod_eq_of_lt (by omega)] at opposite
    omega
  have none : y = 0 := Fin.ext zero
  rw [none]
  decide

/-- A square has one root of each sign. -/
theorem eq_of_positive {y z : Fr} (square : y * y = z * z) (first : positive y = true)
    (second : positive z = true) : y = z := by
  rcases mul_self_eq_mul_self_iff.mp square with same | opposite
  · exact same
  · rw [opposite] at first ⊢
    exact eq_of_positive_neg second first

end Signs

/-! ## Laws -/

variable {Affine E : Type} [AddCommGroup E]

/-- What `ark_grumpkin` documents: the points of the curve are a commutative group, in
which the generator has the order of `Fq`; a point other than infinity is given by
coordinates on the curve, its opposite by the opposite ordinate; and square roots are
roots. -/
structure Lawful (ark : ArkGrumpkin Affine) (point : E → Affine) (g : E) : Prop where
  zero : ark.zero = point 0
  generator : ark.generator = point g
  order : fqModulus • g = 0
  add : ∀ a b, ark.add (point a) (point b) = point (a + b)
  mulBigint : ∀ a n, ark.mulBigint (point a) n = point (n • a)
  infinity : ark.xy (point 0) = none
  affine : ∀ a, a ≠ 0 → ∃ x y, ark.xy (point a) = some (x, y) ∧ y * y = x * x * x - 17 ∧
    ark.newUnchecked x y = point a ∧ ark.xy (point (-a)) = some (x, -y)
  sqrt : ∀ square root, ark.sqrt square = some root → root * root = square

section Group
variable {ark : ArkGrumpkin Affine} {point : E → Affine} {g : E} (lawful : Lawful ark point g)
include lawful

theorem fromArkAffine_zero : fromArkAffine ark (point 0) = ⟨0, 0, true⟩ := by
  rw [fromArkAffine, lawful.infinity]

theorem toArkAffine_fromArkAffine (a : E) : toArkAffine ark (fromArkAffine ark (point a)) = point a := by
  by_cases zero : a = 0
  · rw [zero, fromArkAffine_zero lawful]
    exact lawful.zero
  · obtain ⟨x, y, coordinates, -, same, -⟩ := lawful.affine a zero
    rw [fromArkAffine, coordinates]
    exact same

theorem isInfinite_fromArkAffine (a : E) : (fromArkAffine ark (point a)).isInfinite = true ↔ a = 0 := by
  by_cases zero : a = 0
  · rw [zero, fromArkAffine_zero lawful]
    exact iff_of_true rfl rfl
  · obtain ⟨x, y, coordinates, -⟩ := lawful.affine a zero
    rw [fromArkAffine, coordinates]
    exact iff_of_false Bool.false_ne_true zero

theorem pointAdd_eq (a b : E) :
    pointAdd ark (fromArkAffine ark (point a)) (fromArkAffine ark (point b)) =
      fromArkAffine ark (point (a + b)) := by
  rw [pointAdd, toArkAffine_fromArkAffine lawful, toArkAffine_fromArkAffine lawful, lawful.add]

theorem scalarMul_eq (scalar : Fq) (a : E) :
    scalarMul ark scalar (fromArkAffine ark (point a)) =
      fromArkAffine ark (point (scalar.val • a)) := by
  unfold scalarMul
  split
  next infinite =>
    rw [(isInfinite_fromArkAffine lawful a).mp infinite, smul_zero]
  next =>
    split
    next zero =>
      rw [zero, Fin.val_zero, zero_smul, fromArkAffine_zero lawful]
    next => rw [toArkAffine_fromArkAffine lawful, lawful.mulBigint]

theorem scalarMul_generator (scalar : Fq) :
    scalarMul ark scalar (generator ark) = fromArkAffine ark (point (scalar.val • g)) := by
  rw [generator, lawful.generator, scalarMul_eq lawful]

/-- Multiples of the generator are those of the residues modulo its order. -/
theorem mod_smul (n : Nat) : (n % fqModulus) • g = n • g := by
  conv_rhs => rw [← Nat.mod_add_div n fqModulus]
  rw [add_smul, mul_comm, mul_smul, lawful.order, smul_zero, add_zero]

theorem add_smul_generator (a b : Fq) : (a + b).val • g = a.val • g + b.val • g := by
  rw [Fin.val_add, mod_smul lawful, add_smul]

theorem mul_smul_generator (a b : Fq) : (a * b).val • g = b.val • a.val • g := by
  rw [Fin.val_mul, mod_smul lawful, mul_comm, mul_smul]

theorem neg_smul_generator (a : Fq) : (-a).val • g = -(a.val • g) := by
  have value : (-a).val = (fqModulus - a.val) % fqModulus := rfl
  rw [value, mod_smul lawful, eq_neg_iff_add_eq_zero, ← add_smul, Nat.sub_add_cancel a.isLt.le,
    lawful.order]

/-- The point recovered from the abscissa of one with a positive ordinate is that point. -/
theorem pointFromX_eq {a : E} {x y : Fr} {found : Point} (coordinates : ark.xy (point a) = some (x, y))
    (sign : positive y = true) (recovered : pointFromX ark x = .ok found) :
    found = fromArkAffine ark (point a) := by
  have finite : a ≠ 0 := by
    rintro rfl
    rw [lawful.infinity] at coordinates
    cases coordinates
  obtain ⟨x', y', same, curve, -⟩ := lawful.affine a finite
  rw [coordinates] at same
  cases same
  unfold pointFromX at recovered
  dsimp only at recovered
  split at recovered
  next => cases recovered
  next root rooted =>
    cases recovered
    have square : root * root = y * y := (lawful.sqrt _ _ rooted).trans curve.symm
    rw [fromArkAffine, coordinates]
    dsimp only
    congr 1
    split
    next first => exact eq_of_positive square first sign
    next negative =>
      have opposite := positive_neg (Bool.eq_false_iff.mpr negative)
      rw [if_pos opposite]
      refine eq_of_positive ?_ opposite sign
      rw [← square]
      exact neg_mul_neg root root

end Group
end Grumpkin
end AztecPxe
