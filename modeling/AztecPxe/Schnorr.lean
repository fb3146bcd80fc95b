import AztecPxe.BigEndian
import AztecPxe.GrumpkinCurve

/-! Schnorr signatures on Grumpkin, `crypto/src/schnorr.rs` with the Pedersen hash of
`pedersen.rs`. A challenge is kept as the bytes Blake2s gives and used as the scalar they reduce
to; a signature carries the first, and both sides reduce it alike. Blake2s, the derivation of
generators and `ark_grumpkin` are parameters. -/
namespace AztecPxe
open ClassId BigEndian Grumpkin

/-- An array of bytes. -/
structure Bytes (n : Nat) where
  toList : List UInt8
  length_eq : toList.length = n
  deriving DecidableEq

/-- `Fq::to_be_bytes`. -/
def Fq.toBeBytes (value : Fq) : Bytes 32 := ⟨beBytes 32 value.val, length_beBytes 32 _⟩

/-- `Fq::from_be_bytes_mod_order`. -/
def Fq.fromBeBytesModOrder (bytes : List UInt8) : Fq := Fin.ofNat fqModulus (fromBeBytes bytes)

theorem Fq.fromBeBytesModOrder_toBeBytes (value : Fq) :
    Fq.fromBeBytesModOrder value.toBeBytes.toList = value := by
  have bound : fqModulus ≤ 256 ^ 32 := by decide
  refine Fin.ext ?_
  change fromBeBytes (beBytes 32 value.val) % fqModulus = value.val
  rw [fromBeBytes_beBytes, Nat.mod_eq_of_lt (value.isLt.trans_le bound), Nat.mod_eq_of_lt value.isLt]

/-- `schnorr.rs::SchnorrSignature`. -/
structure SchnorrSignature where
  s : Bytes 32
  e : Bytes 32
  deriving DecidableEq

namespace SchnorrSignature

/-- `SchnorrSignature::to_bytes`. -/
def toBytes (signature : SchnorrSignature) : Bytes 64 where
  toList := signature.s.toList ++ signature.e.toList
  length_eq := by rw [List.length_append, signature.s.length_eq, signature.e.length_eq]

/-- `SchnorrSignature::from_bytes`. -/
def fromBytes (bytes : Bytes 64) : SchnorrSignature where
  s := ⟨bytes.toList.take 32, by rw [List.length_take, bytes.length_eq]; rfl⟩
  e := ⟨bytes.toList.drop 32, by rw [List.length_drop, bytes.length_eq]⟩

/-- `SchnorrSignature::to_fields`: one field for each byte. -/
def toFields (signature : SchnorrSignature) : List Fr :=
  signature.toBytes.toList.map (fun byte => Fr.ofU64 byte.toNat)

theorem fromBytes_toBytes (signature : SchnorrSignature) :
    fromBytes signature.toBytes = signature := by
  obtain ⟨⟨s, s_length⟩, e⟩ := signature
  simp only [fromBytes, toBytes, ← s_length, List.take_left, List.drop_left]

end SchnorrSignature

/-- What signing rests on: `ark_grumpkin`, Blake2s with 32 bytes of output, and the generators
`derive_generators` finds for a domain, counted from its start. -/
structure SchnorrCrypto (Affine : Type) where
  ark : ArkGrumpkin Affine
  blake2s : List UInt8 → Bytes 32
  deriveGenerator : String → Nat → Affine

namespace Schnorr
variable {Affine : Type} (crypto : SchnorrCrypto Affine)

/-- `pedersen.rs::fr_to_grumpkin_scalar`. -/
def frToGrumpkinScalar (fr : Fr) : Fq := Fq.fromBeBytesModOrder (toBeBytes fr)

/-- `pedersen_hash`. -/
def pedersenHash (inputs : List Fr) : Fr :=
  let term (input : Fr) (i : Nat) : Point :=
    scalarMul crypto.ark (frToGrumpkinScalar input)
      (fromArkAffine crypto.ark (crypto.deriveGenerator "DEFAULT_DOMAIN_SEPARATOR" i))
  let result := inputs.zipIdx.foldl (fun result entry =>
    pointAdd crypto.ark result (term entry.1 entry.2)) ⟨0, 0, true⟩
  let lengthTerm := scalarMul crypto.ark (Fin.ofNat fqModulus inputs.length)
    (fromArkAffine crypto.ark (crypto.deriveGenerator "pedersen_hash_length" 0))
  (pointAdd crypto.ark result lengthTerm).x

/-- `generate_nonce`. -/
def generateNonce (privateKey : Fq) (message : Fr) : Fq :=
  Fq.fromBeBytesModOrder
    (crypto.blake2s (privateKey.toBeBytes.toList ++ toBeBytes message)).toList

/-- `compute_challenge`. -/
def computeChallenge (r publicKey : Point) (message : List UInt8) : Bytes 32 :=
  let pedersenH := pedersenHash crypto [r.x, publicKey.x, publicKey.y]
  crypto.blake2s (toBeBytes pedersenH ++ message)

/-- `schnorr_sign`. -/
def schnorrSign (privateKey : Fq) (message : Fr) : SchnorrSignature :=
  let g := generator crypto.ark
  let publicKey := scalarMul crypto.ark privateKey g
  let k := generateNonce crypto privateKey message
  let r := scalarMul crypto.ark k g
  let eBytes := computeChallenge crypto r publicKey (toBeBytes message)
  let eScalar := Fq.fromBeBytesModOrder eBytes.toList
  { s := (k - privateKey * eScalar).toBeBytes
    e := eBytes }

/-- `schnorr_verify`. -/
def schnorrVerify (publicKey : Point) (message : Fr) (signature : SchnorrSignature) : Bool :=
  let g := generator crypto.ark
  let sScalar := Fq.fromBeBytesModOrder signature.s.toList
  let eScalar := Fq.fromBeBytesModOrder signature.e.toList
  let sG := scalarMul crypto.ark sScalar g
  let ePk := scalarMul crypto.ark eScalar publicKey
  let rPrime := pointAdd crypto.ark sG ePk
  signature.e = computeChallenge crypto rPrime publicKey (toBeBytes message)

/-! ## Completeness -/

section Complete
variable {crypto} {E : Type} [AddCommGroup E] {point : E → Affine} {g : E}
  (lawful : Lawful crypto.ark point g)
include lawful

/-- What a verifier computes from the answer to a challenge is the nonce's point, also where the
nonce or the key is zero. -/
theorem nonce_point (privateKey k e : Fq) :
    pointAdd crypto.ark (scalarMul crypto.ark (k - privateKey * e) (generator crypto.ark))
      (scalarMul crypto.ark e (scalarMul crypto.ark privateKey (generator crypto.ark))) =
    scalarMul crypto.ark k (generator crypto.ark) := by
  have sum : (k - privateKey * e).val • g + e.val • privateKey.val • g = k.val • g := by
    rw [← mul_smul_generator lawful, ← add_smul_generator lawful, sub_add_cancel]
  rw [scalarMul_generator lawful, scalarMul_generator lawful, scalarMul_generator lawful,
    scalarMul_eq lawful, pointAdd_eq lawful, sum]

/-- A signature verifies under the key it was made with. -/
theorem verify_sign (privateKey : Fq) (message : Fr) :
    schnorrVerify crypto (scalarMul crypto.ark privateKey (generator crypto.ark)) message
      (schnorrSign crypto privateKey message) = true := by
  refine decide_eq_true ?_
  unfold schnorrSign
  dsimp only
  rw [Fq.fromBeBytesModOrder_toBeBytes, nonce_point lawful]

end Complete

/-- Every signature verifies once it was sent as bytes: for any key, zero too, and any message,
over any challenge and nonce that come of them. -/
theorem sent_signature_verifies {E : Type} [AddCommGroup E] (point : E → Affine) (g : E)
    (lawful : Lawful crypto.ark point g) (privateKey : Fq) (message : Fr) :
    schnorrVerify crypto (scalarMul crypto.ark privateKey (generator crypto.ark)) message
      (.fromBytes (schnorrSign crypto privateKey message).toBytes) = true := by
  rw [SchnorrSignature.fromBytes_toBytes]
  exact verify_sign lawful privateKey message

open GrumpkinCurve

/-- Grumpkin itself, with a digest that adds up the 32-byte words it is given and generators that
are multiples of the first. -/
def summing : SchnorrCrypto (Option (Fr × Fr)) where
  ark := arkGrumpkin
  blake2s bytes := ⟨beBytes 32 (fromBeBytes bytes % (256 ^ 32 - 1)), length_beBytes 32 _⟩
  deriveGenerator _ i := arkGrumpkin.mulBigint arkGrumpkin.generator (i + 1)

/-- The key zero, whose public key is the point at infinity, and another. -/
theorem sent_signatures_of_zero_and_seven_verify :
    schnorrVerify summing ⟨0, 0, true⟩ 5
        (.fromBytes (schnorrSign summing 0 5).toBytes) = true ∧
      schnorrVerify summing (scalarMul arkGrumpkin 7 (generator arkGrumpkin)) 5
        (.fromBytes (schnorrSign summing 7 5).toBytes) = true :=
  ⟨sent_signature_verifies summing _ _ arkGrumpkin_lawful 0 5,
    sent_signature_verifies summing _ _ arkGrumpkin_lawful 7 5⟩

end Schnorr
end AztecPxe
