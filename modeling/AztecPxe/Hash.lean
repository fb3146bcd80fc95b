import AztecPxe.Field
import Mathlib.Data.List.Basic

/-! The hashes of `core/src/hash.rs` and the selectors of
`core/src/abi/selectors.rs` over a Poseidon2 that is a parameter. -/
namespace AztecPxe

/-- `types.rs::Point`. -/
structure Point where
  x : Fr
  y : Fr
  isInfinite : Bool
  deriving DecidableEq, Repr

/-- `types.rs::PublicKeys`. -/
structure PublicKeys where
  masterNullifierPublicKey : Point
  masterIncomingViewingPublicKey : Point
  masterOutgoingViewingPublicKey : Point
  masterTaggingPublicKey : Point
  deriving DecidableEq, Repr

/-- The arithmetic the stores and handlers only pass values through: the
Poseidon2 sponge and the Grumpkin arithmetic of `hash.rs::compute_address`. -/
structure Crypto where
  poseidon2 : List Fr → Fr
  computeAddress : PublicKeys → Fr → Except Error AztecAddress

/-- Hashes that are all zero, for runs that hash nothing. -/
def Crypto.zero : Crypto := ⟨fun _ => 0, fun _ _ => .ok .zero⟩

/-- Hashes that add up what they hash, for runs in which hashes differ. -/
def Crypto.summed : Crypto := ⟨fun fields => fields.foldl (· + ·) 0, fun _ _ => .ok .zero⟩

/-- `tx.rs::HashedValues`. -/
structure HashedValues where
  values : List Fr
  hash : Fr
  deriving DecidableEq, Repr

/-- `tx.rs::Capsule`. -/
structure Capsule where
  contractAddress : AztecAddress
  storageSlot : Fr
  data : List Fr
  deriving DecidableEq, Repr

/-- `abi/selectors.rs::FunctionSelector`: four bytes, read as one number. -/
structure FunctionSelector where
  bytes : Fin (2 ^ 32)
  deriving DecidableEq, Repr

namespace FunctionSelector

/-- `FunctionSelector::empty`. -/
def empty : FunctionSelector := ⟨0⟩

/-- `FunctionSelector::from_field`: the low four bytes. -/
def fromField (field : Fr) : FunctionSelector := ⟨Fin.ofNat _ field.val⟩

/-- `FunctionSelector::to_field`. -/
def toField (selector : FunctionSelector) : Fr := Fr.ofU64 selector.bytes.val

end FunctionSelector

namespace Hash
variable (poseidon2 : List Fr → Fr)

/-- `hash.rs::poseidon2_hash_with_separator`. -/
def poseidon2HashWithSeparator (inputs : List Fr) (separator : Fr) : Fr :=
  poseidon2 (separator :: inputs)

/-- `hash.rs::silo_nullifier`, with `domain_separator::SILOED_NULLIFIER`. -/
def siloNullifier (contract : AztecAddress) (innerNullifier : Fr) : Fr :=
  poseidon2HashWithSeparator poseidon2 [contract.inner, innerNullifier] 57496191

/-- `hash.rs::silo_note_hash`, with `domain_separator::SILOED_NOTE_HASH`. -/
def siloNoteHash (contract : AztecAddress) (noteHash : Fr) : Fr :=
  poseidon2HashWithSeparator poseidon2 [contract.inner, noteHash] 3361878420

/-- `hash.rs::compute_note_hash_nonce`, with `domain_separator::NOTE_HASH_NONCE`. -/
def computeNoteHashNonce (firstNullifier : Fr) (noteHashIndex : Nat) : Fr :=
  poseidon2HashWithSeparator poseidon2 [firstNullifier, Fr.ofU64 noteHashIndex] 1721808740

/-- `hash.rs::compute_unique_note_hash`, with `domain_separator::UNIQUE_NOTE_HASH`. -/
def computeUniqueNoteHash (nonce siloedNoteHash : Fr) : Fr :=
  poseidon2HashWithSeparator poseidon2 [nonce, siloedNoteHash] 226850429

/-- `hash.rs::compute_siloed_private_log_first_field`, with
`domain_separator::PRIVATE_LOG_FIRST_FIELD`. -/
def computeSiloedPrivateLogFirstField (contract : AztecAddress) (field : Fr) : Fr :=
  poseidon2HashWithSeparator poseidon2 [contract.inner, field] 2769976252

/-- `hash.rs::compute_var_args_hash`, with `domain_separator::FUNCTION_ARGS`. -/
def computeVarArgsHash (args : List Fr) : Fr :=
  if args.isEmpty then 0 else poseidon2HashWithSeparator poseidon2 args 3576554347

/-- `hash.rs::compute_calldata_hash`, with `domain_separator::PUBLIC_CALLDATA`. -/
def computeCalldataHash (calldata : List Fr) : Fr :=
  poseidon2HashWithSeparator poseidon2 calldata 2760353947

/-- `HashedValues::from_args`. -/
def fromArgs (args : List Fr) : HashedValues where
  values := args
  hash := computeVarArgsHash poseidon2 args

/-- `HashedValues::from_calldata`. -/
def fromCalldata (calldata : List Fr) : HashedValues where
  values := calldata
  hash := computeCalldataHash poseidon2 calldata

/-- `hash.rs::compute_contract_class_id`, with `domain_separator::CONTRACT_CLASS_ID`. -/
def computeContractClassId (artifactHash privateFunctionsRoot publicBytecodeCommitment : Fr) : Fr :=
  poseidon2HashWithSeparator poseidon2
    [artifactHash, privateFunctionsRoot, publicBytecodeCommitment] 3923495515

/-- `hash.rs::poseidon2_hash_bytes`: chunks of thirty-one bytes, each read with
its first byte lowest. -/
def poseidon2HashBytes (bytes : List UInt8) : Fr :=
  poseidon2 ((bytes.toChunks 31).map (fun chunk =>
    Fin.ofNat frModulus (chunk.foldr (fun byte rest => byte.toNat + 256 * rest) 0)))

/-- `FunctionSelector::from_signature`. -/
def selectorFromSignature (signature : String) : FunctionSelector :=
  .fromField (poseidon2HashBytes poseidon2 signature.toUTF8.toList)

end Hash

/-- `hash.rs::compute_contract_address_from_instance`, over the fields of the
instance it reads. -/
def Crypto.computeContractAddressFromInstance (crypto : Crypto) (salt initializationHash : Fr)
    (deployer : AztecAddress) (originalContractClassId : Fr) (publicKeys : PublicKeys) :
    Except Error AztecAddress :=
  let saltedInitHash := Hash.poseidon2HashWithSeparator crypto.poseidon2
    [salt, initializationHash, deployer.inner] 2103633018
  crypto.computeAddress publicKeys (Hash.poseidon2HashWithSeparator crypto.poseidon2
    [originalContractClassId, saltedInitHash] 2103633018)

end AztecPxe
