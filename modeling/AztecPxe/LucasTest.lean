import Mathlib.NumberTheory.LucasPrimality

/-! Primes by Lucas's test: a number whose powers show that it has order `p - 1`. The
powers are computed by squaring, so a candidate of a few hundred bits is checked by a
short computation once the prime factors of `p - 1` are known. -/
namespace AztecPxe.LucasTest

/-- `base ^ exponent % modulus`, for an exponent of at most this many bits. -/
def powMod (modulus : Nat) : Nat → Nat → Nat → Nat
  | 0, _, _ => 1 % modulus
  | bits + 1, base, exponent =>
    let half := powMod modulus bits base (exponent / 2)
    let square := half * half % modulus
    if exponent % 2 = 1 then square * base % modulus else square

theorem powMod_eq {modulus bits : Nat} (base : Nat) {exponent : Nat} (fits : exponent < 2 ^ bits) :
    powMod modulus bits base exponent = base ^ exponent % modulus := by
  induction bits generalizing exponent with
  | zero =>
    have none : exponent = 0 := by omega
    rw [none, powMod, pow_zero]
  | succ bits ih =>
    have half : powMod modulus bits base (exponent / 2) = base ^ (exponent / 2) % modulus :=
      ih (by omega)
    have square : base ^ (exponent / 2) % modulus * (base ^ (exponent / 2) % modulus) % modulus =
        base ^ (2 * (exponent / 2)) % modulus := by
      rw [← Nat.mul_mod, ← pow_add, two_mul]
    unfold powMod
    dsimp only
    rw [half, square]
    split
    next odd =>
      rw [Nat.mod_mul_mod, ← pow_succ]
      congr 2
      omega
    next even =>
      congr 2
      omega

/-- The base has order `candidate - 1`, whose prime factors are among these. -/
def passes (candidate base : Nat) (factors : List Nat) : Bool :=
  1 < candidate && factors.prod ^ candidate.log2 % (candidate - 1) == 0 &&
    powMod candidate (candidate.log2 + 1) base (candidate - 1) == 1 &&
    factors.all (fun factor =>
      powMod candidate (candidate.log2 + 1) base ((candidate - 1) / factor) != 1)

theorem prime_of_passes {candidate base : Nat} {factors : List Nat}
    (passed : passes candidate base factors = true) (primes : ∀ factor ∈ factors, factor.Prime) :
    candidate.Prime := by
  simp only [passes, Bool.and_eq_true, decide_eq_true_eq, beq_iff_eq, List.all_eq_true,
    bne_iff_ne] at passed
  obtain ⟨⟨⟨large, smooth⟩, whole⟩, parts⟩ := passed
  have fits : ∀ exponent ≤ candidate - 1, exponent < 2 ^ (candidate.log2 + 1) := by
    intro exponent below
    have size : candidate < 2 ^ (candidate.log2 + 1) := Nat.lt_log2_self
    omega
  have power : ∀ exponent ≤ candidate - 1, (base : ZMod candidate) ^ exponent = 1 ↔
      powMod candidate (candidate.log2 + 1) base exponent = 1 := by
    intro exponent below
    rw [powMod_eq base (fits exponent below), ← Nat.cast_pow, ← Nat.cast_one,
      ZMod.natCast_eq_natCast_iff', Nat.mod_eq_of_lt large]
  refine lucas_primality candidate base ((power _ le_rfl).mpr whole) ?_
  intro divisor prime divides
  have divides_power : divisor ∣ factors.prod ^ candidate.log2 :=
    divides.trans (Nat.dvd_of_mod_eq_zero smooth)
  obtain ⟨factor, listed, divides_factor⟩ :=
    (Prime.dvd_prod_iff prime.prime).mp (prime.dvd_of_dvd_pow divides_power)
  cases (Nat.prime_dvd_prime_iff_eq prime (primes factor listed)).mp divides_factor
  rw [ne_eq, power _ (Nat.div_le_self _ _)]
  exact parts divisor listed

end AztecPxe.LucasTest
