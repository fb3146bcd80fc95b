import AztecPxe.KernelTypes
import AztecPxe.TaggingSecret

/-! Requests for keys. `crypto/src/keys.rs` derives an account's master keys from its secret,
`stores/key_store.rs` finds the account a master public key belongs to, and both oracles ask it
for the secret key of a contract once they have looked for the key among the accounts in
scope. -/
namespace AztecPxe

/-- `types.rs::Fq::hi`. -/
def Fq.hi (value : Fq) : Fr := Fin.ofNat frModulus (value.val / 2 ^ 128)

/-- `types.rs::Fq::lo`. -/
def Fq.lo (value : Fq) : Fr := Fin.ofNat frModulus (value.val % 2 ^ 128)

/-- `keys.rs::KeyType`. -/
inductive KeyType where
  | nullifier
  | incomingViewing
  | outgoingViewing
  | tagging
  deriving DecidableEq, Repr

/-- `KeyType::domain_separator`. -/
def KeyType.domainSeparator : KeyType → Nat
  | .nullifier => 242137788
  | .incomingViewing => 2747825907
  | .outgoingViewing => 4272201051
  | .tagging => 1546190975

/-- `keys.rs::DerivedKeys`. -/
structure DerivedKeys where
  masterNullifierHidingKey : Fq
  masterIncomingViewingSecretKey : Fq
  masterOutgoingViewingSecretKey : Fq
  masterTaggingSecretKey : Fq
  publicKeys : PublicKeys

/-- The four master public keys, in the order both key checks take them. -/
def PublicKeys.masterKeys (keys : PublicKeys) : List Point :=
  [keys.masterNullifierPublicKey, keys.masterIncomingViewingPublicKey,
    keys.masterOutgoingViewingPublicKey, keys.masterTaggingPublicKey]

namespace KeyRequests
open Grumpkin
variable (poseidon2 : List Fr → Fr) (sha512 : List UInt8 → Nat) {Affine : Type}
  (ark : ArkGrumpkin Affine)

/-- `sha512_to_grumpkin_scalar`. -/
def sha512ToGrumpkinScalar (secretKey : Fr) (domainSeparator : Nat) : Fq :=
  Fin.ofNat fqModulus (sha512 (writeFr secretKey ++ writeU32 domainSeparator))

/-- `derive_keys`. -/
def deriveKeys (secretKey : Fr) : DerivedKeys :=
  let nhkM := sha512ToGrumpkinScalar sha512 secretKey KeyType.nullifier.domainSeparator
  let ivskM := sha512ToGrumpkinScalar sha512 secretKey KeyType.incomingViewing.domainSeparator
  let ovskM := sha512ToGrumpkinScalar sha512 secretKey KeyType.outgoingViewing.domainSeparator
  let tskM := sha512ToGrumpkinScalar sha512 secretKey KeyType.tagging.domainSeparator
  { masterNullifierHidingKey := nhkM
    masterIncomingViewingSecretKey := ivskM
    masterOutgoingViewingSecretKey := ovskM
    masterTaggingSecretKey := tskM
    publicKeys :=
      { masterNullifierPublicKey := TaggingSecret.derivePublicKeyFromSecretKey ark nhkM
        masterIncomingViewingPublicKey := TaggingSecret.derivePublicKeyFromSecretKey ark ivskM
        masterOutgoingViewingPublicKey := TaggingSecret.derivePublicKeyFromSecretKey ark ovskM
        masterTaggingPublicKey := TaggingSecret.derivePublicKeyFromSecretKey ark tskM } }

/-- `compute_app_secret_key`. -/
def computeAppSecretKey (masterKey : Fq) (app : AztecAddress) (keyType : KeyType) : Fr :=
  Hash.poseidon2HashWithSeparator poseidon2 [masterKey.hi, masterKey.lo, app.inner]
    (Fr.ofU64 keyType.domainSeparator)

/-- The hash a master public key is asked for by. -/
def keyHash (key : Point) : Fr := poseidon2 [key.x, key.y, Fr.ofBool key.isInfinite]

/-- `keys_and_types`. -/
def keysAndTypes (derived : DerivedKeys) : List (Point × Fq × KeyType) :=
  [(derived.publicKeys.masterNullifierPublicKey, derived.masterNullifierHidingKey, .nullifier),
    (derived.publicKeys.masterIncomingViewingPublicKey, derived.masterIncomingViewingSecretKey,
      .incomingViewing),
    (derived.publicKeys.masterOutgoingViewingPublicKey, derived.masterOutgoingViewingSecretKey,
      .outgoingViewing),
    (derived.publicKeys.masterTaggingPublicKey, derived.masterTaggingSecretKey, .tagging)]

/-- What the key store has under `key:account:{pk_hash}`: the secret key of an account. Its
listing is by the hash, which is printed with all its digits. -/
abbrev KeyStore := Std.ExtTreeMap Fr Fr

/-- The key of an account that has the hash, with the contract's secret key. -/
def accountKey (pkMHash : Fr) (app : AztecAddress) (secretKey : Fr) : Option (Point × Fr) :=
  (keysAndTypes (deriveKeys sha512 ark secretKey)).findSome? (fun entry =>
    if keyHash poseidon2 entry.1 = pkMHash then
      some (entry.1, computeAppSecretKey poseidon2 entry.2.1 app entry.2.2)
    else none)

/-- `KeyStore::get_key_validation_request`. -/
def getKeyValidationRequest (store : KeyStore) (pkMHash : Fr) (app : AztecAddress) :
    Option (Point × Fr) :=
  store.toList.findSome? (fun account => accountKey poseidon2 sha512 ark pkMHash app account.2)

/-- An account that has a master public key with this hash. -/
def HasKey (keys : PublicKeys) (pkMHash : Fr) : Prop :=
  ∃ key ∈ keys.masterKeys, keyHash poseidon2 key = pkMHash

instance (keys : PublicKeys) (pkMHash : Fr) : Decidable (HasKey poseidon2 keys pkMHash) :=
  inferInstanceAs (Decidable (∃ key ∈ keys.masterKeys, keyHash poseidon2 key = pkMHash))

/-- The loop over the scopes: some account in scope has the key. -/
def keyInScope (addressStore : AztecAddress → Option CompleteAddress) (scopes : List AztecAddress)
    (pkMHash : Fr) : Bool :=
  scopes.any (fun scope => (addressStore scope).any (fun complete =>
    decide (HasKey poseidon2 complete.publicKeys pkMHash)))

/-- The answer to a request: the key and the secret, or zeros. -/
def keyAnswer : Option (Point × Fr) → Answer
  | some (pkM, skApp) => [[pkM.x], [pkM.y], [Fr.ofBool pkM.isInfinite], [skApp]]
  | none => [[0], [0], [0], [0]]

/-- The answer of either oracle once it has the hash and has made its check. -/
def answerRequest (store : KeyStore) (contract : AztecAddress) (allowed : Bool) (pkMHash : Fr) :
    Except Error Answer :=
  if allowed then .ok (keyAnswer (getKeyValidationRequest poseidon2 sha512 ark store pkMHash
    contract))
  else .error (.invalidData "Key validation request denied")

section Oracles
variable (addressStore : AztecAddress → Option CompleteAddress) (store : KeyStore)
  (contract : AztecAddress) (scopes : List AztecAddress) (args : Args)

/-- `PrivateExecutionOracle::get_secret_key`: without scopes every key is given out. -/
def privateKeyRequest : Except Error Answer :=
  match args.first 0 with
  | none => .error (.invalidData "getKeyValidationRequest: missing pk_m_hash")
  | some pkMHash => answerRequest poseidon2 sha512 ark store contract
      (scopes.isEmpty || keyInScope poseidon2 addressStore scopes pkMHash) pkMHash

/-- `UtilityExecutionOracle::get_key_validation_request`: without scopes none is. -/
def utilityKeyRequest : Except Error Answer :=
  match args.first 0 with
  | none => .error (.invalidData "missing pk_m_hash")
  | some pkMHash => answerRequest poseidon2 sha512 ark store contract
      (keyInScope poseidon2 addressStore scopes pkMHash) pkMHash

end Oracles

section Lookup
variable {poseidon2 sha512 ark} {pkMHash : Fr}

/-- An account without the key answers nothing. -/
theorem accountKey_eq_none {app : AztecAddress} {secretKey : Fr}
    (without : ¬ HasKey poseidon2 (deriveKeys sha512 ark secretKey).publicKeys pkMHash) :
    accountKey poseidon2 sha512 ark pkMHash app secretKey = none := by
  rw [accountKey, List.findSome?_eq_none_iff]
  intro entry listed
  rw [if_neg]
  intro same
  refine without ⟨entry.1, ?_, same⟩
  simp only [keysAndTypes, List.mem_cons, List.not_mem_nil, or_false] at listed
  rcases listed with rfl | rfl | rfl | rfl <;> simp [PublicKeys.masterKeys]

private theorem findSome?_filter {α β : Type} {f : α → Option β} {p : α → Bool} {items : List α}
    (skipped : ∀ item ∈ items, p item = false → f item = none) :
    (items.filter p).findSome? f = items.findSome? f := by
  induction items with
  | nil => rfl
  | cons item rest ih =>
    have later := ih (fun other held => skipped other (.tail _ held))
    cases kept : p item with
    | true => rw [List.filter_cons_of_pos kept, List.findSome?_cons, List.findSome?_cons, later]
    | false =>
      rw [List.filter_cons_of_neg (by simp [kept]), List.findSome?_cons,
        skipped item List.mem_cons_self kept]
      exact later

/-- Only the accounts with the key matter to a lookup, so any others may be left out. -/
theorem getKeyValidationRequest_filter (store : KeyStore) (app : AztecAddress) {p : Fr × Fr → Bool}
    (owners : ∀ account, HasKey poseidon2 (deriveKeys sha512 ark account.2).publicKeys pkMHash →
      p account = true) :
    (store.toList.filter p).findSome? (fun account =>
        accountKey poseidon2 sha512 ark pkMHash app account.2) =
      getKeyValidationRequest poseidon2 sha512 ark store pkMHash app := by
  refine findSome?_filter (fun account _ left => accountKey_eq_none (fun owned => ?_))
  rw [owners account owned] at left
  cases left

/-- Without scopes the two oracles decide alike only where no key is named. -/
theorem decisions_without_scopes (addressStore : AztecAddress → Option CompleteAddress)
    (store : KeyStore) (contract : AztecAddress) (args : Args) :
    (privateKeyRequest poseidon2 sha512 ark addressStore store contract [] args).isOk =
        (utilityKeyRequest poseidon2 sha512 ark addressStore store contract [] args).isOk ↔
      args.first 0 = none := by
  cases named : args.first 0 with
  | none => simp [privateKeyRequest, utilityKeyRequest, named, Except.isOk, Except.toBool]
  | some pkMHash =>
    simp [privateKeyRequest, utilityKeyRequest, named, answerRequest, keyInScope, Except.isOk,
      Except.toBool]

end Lookup

end KeyRequests

end AztecPxe
