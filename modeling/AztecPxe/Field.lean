import AztecPxe.Fallible

/-! The scalar values every store and handler passes around: BN254 field
elements, addresses, and the machine integers cut out of field elements.
Field elements are numbers below the modulus, so equality is the equality the
Rust `Fr` derives and hexadecimal texts of two elements agree exactly when the
elements do. -/
namespace AztecPxe

/-- The order of the BN254 scalar field. -/
def frModulus : Nat :=
  21888242871839275222246405745257275088548364400416034343698204186575808495617

instance : NeZero frModulus := ⟨by decide⟩

instance neZeroU32 : NeZero (2 ^ 32) := ⟨by decide⟩

instance neZeroU256 : NeZero (2 ^ 256) := ⟨by decide⟩

/-- `types.rs::Fr`. -/
abbrev Fr := Fin frModulus

/-- `types.rs::AztecAddress`: a field element under its own type. -/
structure AztecAddress where
  inner : Fr
  deriving DecidableEq, Repr, Inhabited

namespace AztecAddress

instance : Ord AztecAddress := ⟨fun a b => compare a.inner b.inner⟩

instance : Std.TransOrd AztecAddress where
  eq_swap {a b} := Std.OrientedOrd.eq_swap (a := a.inner) (b := b.inner)
  isLE_trans {a b c} := Std.TransOrd.isLE_trans (a := a.inner) (b := b.inner) (c := c.inner)

instance : Std.LawfulEqOrd AztecAddress where
  compare_self {a} := Std.ReflOrd.compare_self (a := a.inner)
  eq_of_compare {a b} same := by
    cases a; cases b
    exact congrArg AztecAddress.mk (Std.LawfulEqOrd.eq_of_compare same)

/-- `AztecAddress::zero`. -/
def zero : AztecAddress := ⟨0⟩

end AztecAddress

/-- `tx.rs::TxHash`: thirty-two bytes, read as one number. -/
structure TxHash where
  bytes : Fin (2 ^ 256)
  deriving DecidableEq, Repr

/-- `Fr::to_usize`: the shifts drop every byte above the low eight. -/
def Fr.toUsize (value : Fr) : Nat := value.val % 2 ^ 64

/-- `Fr::from(u64)`. -/
def Fr.ofU64 (n : Nat) : Fr := Fin.ofNat frModulus (n % 2 ^ 64)

theorem Fr.val_ofU64 (n : Nat) : (Fr.ofU64 n).val = n % 2 ^ 64 :=
  Nat.mod_eq_of_lt ((Nat.mod_lt n (by decide)).trans (by decide))

/-- A machine word is read back from its field. -/
theorem Fr.toUsize_ofU64 {n : Nat} (small : n < 2 ^ 64) : (Fr.ofU64 n).toUsize = n := by
  rw [Fr.toUsize, Fr.val_ofU64, Nat.mod_mod, Nat.mod_eq_of_lt small]

theorem Fr.ofU64_inj {m n : Nat} (small : m < 2 ^ 64) (small' : n < 2 ^ 64) :
    Fr.ofU64 m = Fr.ofU64 n ↔ m = n := by
  constructor
  · intro same
    rw [← Fr.toUsize_ofU64 small, ← Fr.toUsize_ofU64 small', same]
  · exact congrArg _

/-- `u32::MAX`. -/
def u32Max : Nat := 2 ^ 32 - 1

/-- `to_usize() as u32`: the low four bytes of a field element. -/
def Fr.toU32 (value : Fr) : Nat := value.toUsize % 2 ^ 32

/-- `+= 1` on a `u32`, which wraps in a release build. -/
def u32Succ (n : Nat) : Nat := (n + 1) % 2 ^ 32

/-- `u32::saturating_add`. -/
def saturatingAdd (a b : Nat) : Nat := min (a + b) u32Max

/-- `Fr::from(bool)`. -/
def Fr.ofBool (flag : Bool) : Fr := if flag then 1 else 0

/-- `error.rs::Error`, with its message. -/
inductive Error where
  | transport (message : String)
  | json (message : String)
  | abi (message : String)
  | invalidData (message : String)
  | rpc (code : Int) (message : String)
  | reverted (message : String)
  | timeout (message : String)
  deriving DecidableEq, Repr

end AztecPxe
