import AztecPxe.GrumpkinCurve
import AztecPxe.LiveExecution
import AztecPxe.LogService

/-! The shared secret behind the tags of private logs. An address is the abscissa of a
point, so each side knows the other's point only up to its sign; the address secret is
corrected to the sign that recovering a point from its abscissa picks, and with that both
sides multiply the generator by the same two secrets. -/
namespace AztecPxe

/-- `Point::is_zero`. -/
def Point.isZero (point : Point) : Bool := point.x = 0 && point.y = 0 && !point.isInfinite

namespace PublicKeys

/-- `PublicKeys::is_empty`. -/
def isEmpty (keys : PublicKeys) : Bool :=
  keys.masterNullifierPublicKey.isZero && keys.masterIncomingViewingPublicKey.isZero &&
    keys.masterOutgoingViewingPublicKey.isZero && keys.masterTaggingPublicKey.isZero

/-- `PublicKeys::hash`, with `domain_separator::PUBLIC_KEYS_HASH`. -/
def hash (poseidon2 : List Fr → Fr) (keys : PublicKeys) : Fr :=
  if keys.isEmpty then 0
  else Hash.poseidon2HashWithSeparator poseidon2
    ([keys.masterNullifierPublicKey, keys.masterIncomingViewingPublicKey,
      keys.masterOutgoingViewingPublicKey, keys.masterTaggingPublicKey].flatMap
        fun key => [key.x, key.y, Fr.ofBool key.isInfinite]) 777457226

end PublicKeys

/-- `types.rs::CompleteAddress`. -/
structure CompleteAddress where
  address : AztecAddress
  publicKeys : PublicKeys
  partialAddress : Fr
  deriving DecidableEq, Repr

/-- A number of `Fr` as one of `Fq`, which is the larger field. -/
def Fq.ofFr (value : Fr) : Fq := Fin.ofNat fqModulus value.val

namespace TaggingSecret
open Grumpkin
variable (poseidon2 : List Fr → Fr) {Affine : Type} (ark : ArkGrumpkin Affine)

/-- The pre-address of keys and a partial address, with
`domain_separator::CONTRACT_ADDRESS_V1`. -/
def preaddress (publicKeys : PublicKeys) (partialAddress : Fr) : Fr :=
  Hash.poseidon2HashWithSeparator poseidon2 [publicKeys.hash poseidon2, partialAddress] 1788365517

/-- `hash.rs::compute_address`. -/
def computeAddress (publicKeys : PublicKeys) (partialAddress : Fr) : Except Error AztecAddress :=
  let preaddressPoint :=
    scalarMul ark (Fq.ofFr (preaddress poseidon2 publicKeys partialAddress)) (generator ark)
  let ivpk := publicKeys.masterIncomingViewingPublicKey
  let addressPoint := if ivpk.isZero then preaddressPoint else pointAdd ark preaddressPoint ivpk
  if addressPoint.isInfinite then
    .error (.invalidData "address derivation resulted in point at infinity")
  else .ok ⟨addressPoint.x⟩

/-- `keys.rs::derive_public_key_from_secret_key`. -/
def derivePublicKeyFromSecretKey (secretKey : Fq) : Point := scalarMul ark secretKey (generator ark)

/-- `compute_address_secret`. -/
def computeAddressSecret (preaddress : Fr) (ivsk : Fq) : Fq :=
  let candidate := ivsk + Fq.ofFr preaddress
  if hasPositiveY (scalarMul ark candidate (generator ark)) then candidate else -candidate

/-- `compute_directional_tagging_secret`. -/
def computeDirectionalTaggingSecret (localAddress : CompleteAddress) (localIvsk : Fq)
    (externalAddress app recipient : AztecAddress) : Except Error Fr := do
  let addressSecret := computeAddressSecret ark
    (preaddress poseidon2 localAddress.publicKeys localAddress.partialAddress) localIvsk
  let externalPoint ← pointFromX ark externalAddress.inner
  let sharedSecret := scalarMul ark addressSecret externalPoint
  let appTaggingSecret := poseidon2 [sharedSecret.x, sharedSecret.y, app.inner]
  return poseidon2 [appTaggingSecret, recipient.inner]

/-- The secret `get_next_app_tag_as_sender` takes an index for, from the complete addresses
and incoming viewing keys the PXE holds. -/
def senderSecret (addressStore : AztecAddress → Option CompleteAddress) (keyStore : Fr → Option Fq) :
    TaggingSecrets := fun contractAddress sender recipient =>
  match addressStore sender with
  | none => .error (.invalidData ("sender " ++ hex32 sender.inner.val ++ " not in address store"))
  | some senderComplete =>
    match keyStore (senderComplete.publicKeys.hash poseidon2) with
    | none => .error (.invalidData ("ivsk not found for sender " ++ hex32 sender.inner.val))
    | some ivsk =>
      computeDirectionalTaggingSecret poseidon2 ark senderComplete ivsk recipient contractAddress
        recipient

/-- The addresses `tagging_secrets_for_recipient` takes for senders: the registered ones and
the accounts, and the recipient itself. -/
def possibleSenders (senderStore accounts : List AztecAddress) (recipient : AztecAddress) :
    List AztecAddress :=
  let senders := accounts.foldl (fun senders address =>
    if senders.contains address then senders else senders ++ [address]) senderStore
  if senders.contains recipient then senders else senders ++ [recipient]

/-- `tagging_secrets_for_recipient`. -/
def taggingSecretsForRecipient (addressStore : AztecAddress → Option CompleteAddress)
    (keyStore : Fr → Option Fq) (senderStore accounts : List AztecAddress)
    (contractAddress recipient : AztecAddress) : Except Error (List Fr) :=
  match addressStore recipient with
  | none => .ok []
  | some complete =>
    match keyStore (complete.publicKeys.hash poseidon2) with
    | none => .ok []
    | some ivsk =>
      (possibleSenders senderStore accounts recipient).mapM fun sender =>
        computeDirectionalTaggingSecret poseidon2 ark complete ivsk sender contractAddress recipient

/-- The tag of `get_next_app_tag_as_sender` for an index. -/
def senderTag (secret : Fr) (index : Nat) : Fr := poseidon2 [secret, Fr.ofU64 index]

/-- The address belongs to keys whose incoming viewing key has this secret. -/
structure Derived (complete : CompleteAddress) (ivsk : Fq) : Prop where
  viewing : complete.publicKeys.masterIncomingViewingPublicKey = derivePublicKeyFromSecretKey ark ivsk
  address : computeAddress poseidon2 ark complete.publicKeys complete.partialAddress =
    .ok complete.address

/-- What a PXE holds of its accounts was derived: the complete address under an address is
its own, and belongs to the key held for it. -/
def HoldsDerived (addressStore : AztecAddress → Option CompleteAddress) (keyStore : Fr → Option Fq) :
    Prop :=
  ∀ {address complete ivsk}, addressStore address = some complete →
    keyStore (complete.publicKeys.hash poseidon2) = some ivsk →
    complete.address = address ∧ Derived poseidon2 ark complete ivsk

theorem mem_possibleSenders {senderStore accounts : List AztecAddress} {sender recipient : AztecAddress} :
    sender ∈ possibleSenders senderStore accounts recipient ↔
      sender ∈ senderStore ∨ sender ∈ accounts ∨ sender = recipient := by
  have mem_add : ∀ {senders : List AztecAddress} {address : AztecAddress},
      sender ∈ (if senders.contains address then senders else senders ++ [address]) ↔
        sender ∈ senders ∨ sender = address := by
    intro senders address
    split
    next listed =>
      refine ⟨.inl, fun either => either.elim id ?_⟩
      rintro rfl
      exact List.contains_iff_mem.mp listed
    next => rw [List.mem_append, List.mem_singleton]
  have mem_accounts : ∀ senders : List AztecAddress,
      sender ∈ accounts.foldl (fun senders address =>
        if senders.contains address then senders else senders ++ [address]) senders ↔
          sender ∈ senders ∨ sender ∈ accounts := by
    induction accounts with
    | nil => intro senders; simp
    | cons address rest ih =>
      intro senders
      rw [List.foldl_cons, ih, mem_add, List.mem_cons, or_assoc]
  unfold possibleSenders
  rw [mem_add, mem_accounts, or_assoc]

section Secrets
variable {poseidon2 : List Fr → Fr} {ark : ArkGrumpkin Affine}
variable {E : Type} [AddCommGroup E] {point : E → Affine} {g : E} (lawful : Lawful ark point g)

/-- The secret of a complete address: its own secret key and pre-address together. -/
def addressSecret (poseidon2 : List Fr → Fr) (ark : ArkGrumpkin Affine) (complete : CompleteAddress)
    (ivsk : Fq) : Fq :=
  computeAddressSecret ark (preaddress poseidon2 complete.publicKeys complete.partialAddress) ivsk

include lawful

/-- No point of the curve has both coordinates zero. -/
theorem isZero_fromArkAffine (a : E) : (fromArkAffine ark (point a)).isZero = false := by
  by_cases zero : a = 0
  · rw [zero, fromArkAffine_zero lawful]
    rfl
  · obtain ⟨x, y, coordinates, curve, -⟩ := lawful.affine a zero
    rw [fromArkAffine, coordinates]
    dsimp only [Point.isZero]
    by_contra none
    simp only [Bool.not_eq_false, Bool.and_eq_true, decide_eq_true_eq] at none
    obtain ⟨⟨rfl, rfl⟩, -⟩ := none
    exact absurd curve (by decide)

/-- A derived address is the abscissa of the generator's multiple by the viewing key and the
pre-address. -/
theorem address_point {complete : CompleteAddress} {ivsk : Fq}
    (derived : Derived poseidon2 ark complete ivsk) :
    ∃ y, ark.xy (point ((ivsk + Fq.ofFr (preaddress poseidon2 complete.publicKeys
      complete.partialAddress)).val • g)) = some (complete.address.inner, y) := by
  have computed := derived.address
  unfold computeAddress at computed
  dsimp only at computed
  rw [derived.viewing, derivePublicKeyFromSecretKey, scalarMul_generator lawful,
    scalarMul_generator lawful, isZero_fromArkAffine lawful, if_neg Bool.false_ne_true,
    pointAdd_eq lawful, add_comm, ← add_smul_generator lawful] at computed
  generalize (ivsk + Fq.ofFr _).val • g = a at computed ⊢
  split at computed
  next => cases computed
  next finite =>
    have some_point : a ≠ 0 := fun zero => finite ((isInfinite_fromArkAffine lawful a).mpr zero)
    obtain ⟨x, y, coordinates, -⟩ := lawful.affine a some_point
    rw [fromArkAffine, coordinates] at computed
    rw [← Except.ok.inj computed]
    exact ⟨y, coordinates⟩

/-- The secret of a derived address is corrected to the point with its abscissa and a
positive ordinate. -/
theorem addressSecret_point {complete : CompleteAddress} {ivsk : Fq}
    (derived : Derived poseidon2 ark complete ivsk) :
    ∃ y, ark.xy (point ((addressSecret poseidon2 ark complete ivsk).val • g)) =
      some (complete.address.inner, y) ∧ positive y = true := by
  obtain ⟨y, coordinates⟩ := address_point lawful derived
  unfold addressSecret computeAddressSecret
  dsimp only
  generalize ivsk + Fq.ofFr _ = candidate at coordinates ⊢
  have ordinate : hasPositiveY (scalarMul ark candidate (generator ark)) = positive y := by
    rw [scalarMul_generator lawful, fromArkAffine, coordinates]
    rfl
  rw [ordinate]
  split
  next sign => exact ⟨y, coordinates, sign⟩
  next negative =>
    have finite : candidate.val • g ≠ 0 := by
      intro zero
      rw [zero, lawful.infinity] at coordinates
      cases coordinates
    obtain ⟨x, y', same, -, -, opposite⟩ := lawful.affine _ finite
    rw [coordinates] at same
    cases same
    rw [neg_smul_generator lawful]
    exact ⟨-y, opposite, positive_neg (Bool.eq_false_iff.mpr negative)⟩

/-- Each side multiplies the generator by both secrets. -/
theorem shared_secret {complete : CompleteAddress} {ivsk : Fq} {found : Point}
    (derived : Derived poseidon2 ark complete ivsk)
    (recovered : pointFromX ark complete.address.inner = .ok found) (secret : Fq) :
    scalarMul ark secret found = fromArkAffine ark
      (point ((secret.val * (addressSecret poseidon2 ark complete ivsk).val) • g)) := by
  obtain ⟨y, coordinates, sign⟩ := addressSecret_point lawful derived
  rw [pointFromX_eq lawful coordinates sign recovered, scalarMul_eq lawful, mul_smul]

/-- The sign choices of both sides agree: their shared point is the same. -/
theorem directional_eq {A B : CompleteAddress} {a b : Fq} (derivedA : Derived poseidon2 ark A a)
    (derivedB : Derived poseidon2 ark B b) {app recipient : AztecAddress} {secretA secretB : Fr}
    (sideA : computeDirectionalTaggingSecret poseidon2 ark A a B.address app recipient = .ok secretA)
    (sideB : computeDirectionalTaggingSecret poseidon2 ark B b A.address app recipient = .ok secretB) :
    secretA = secretB := by
  obtain ⟨foundB, recoveredB, doneA⟩ := bind_eq_ok.mp sideA
  obtain ⟨foundA, recoveredA, doneB⟩ := bind_eq_ok.mp sideB
  cases doneA
  cases doneB
  have left := shared_secret lawful derivedB recoveredB (addressSecret poseidon2 ark A a)
  have right := shared_secret lawful derivedA recoveredA (addressSecret poseidon2 ark B b)
  rw [mul_comm] at right
  unfold addressSecret at left right
  rw [left, right]

/-- The secret under which a sender takes the index of a tag is among those a recipient
fetches logs for, when the recipient knows the sender. -/
theorem sender_secret_is_searched {addressesS addressesR : AztecAddress → Option CompleteAddress}
    {keysS keysR : Fr → Option Fq} (heldS : HoldsDerived poseidon2 ark addressesS keysS)
    (heldR : HoldsDerived poseidon2 ark addressesR keysR) {senderStore accounts : List AztecAddress}
    {contractAddress sender recipient : AztecAddress} {secret : Fr} {secrets : List Fr}
    (known : sender ∈ senderStore ∨ sender ∈ accounts ∨ sender = recipient)
    {complete : CompleteAddress} (registered : addressesR recipient = some complete) {ivsk : Fq}
    (opened : keysR (complete.publicKeys.hash poseidon2) = some ivsk)
    (sent : senderSecret poseidon2 ark addressesS keysS contractAddress sender recipient = .ok secret)
    (searched : taggingSecretsForRecipient poseidon2 ark addressesR keysR senderStore accounts
      contractAddress recipient = .ok secrets) :
    secret ∈ secrets := by
  obtain ⟨rfl, derivedR⟩ := heldR registered opened
  unfold taggingSecretsForRecipient at searched
  rw [registered] at searched
  dsimp only at searched
  rw [opened] at searched
  obtain ⟨found, listed, sideR⟩ := mapM_each searched (mem_possibleSenders.mpr known)
  unfold senderSecret at sent
  split at sent
  next => cases sent
  next senderComplete senderHeld =>
    split at sent
    next => cases sent
    next senderIvsk senderOpened =>
      obtain ⟨rfl, derivedS⟩ := heldS senderHeld senderOpened
      rw [directional_eq lawful derivedS derivedR sent sideR]
      exact listed

end Secrets

/-- Both sides of a pair derive the same secret for an app and a recipient, so the recipient
looks for the tags the sender gives its logs, index by index. -/
theorem tagging_secrets_agree {Affine E : Type} [AddCommGroup E] (poseidon2 : List Fr → Fr)
    (ark : ArkGrumpkin Affine) (point : E → Affine) (g : E) (lawful : Lawful ark point g)
    (A B : CompleteAddress) (a b : Fq) (derivedA : Derived poseidon2 ark A a)
    (derivedB : Derived poseidon2 ark B b) (app recipient : AztecAddress) (secretA secretB : Fr)
    (sideA : computeDirectionalTaggingSecret poseidon2 ark A a B.address app recipient = .ok secretA)
    (sideB : computeDirectionalTaggingSecret poseidon2 ark B b A.address app recipient = .ok secretB) :
    secretA = secretB ∧ ∀ index, senderTag poseidon2 secretA index = senderTag poseidon2 secretB index ∧
      LogService.computeSiloedTag poseidon2 secretB index app =
        Hash.computeSiloedPrivateLogFirstField poseidon2 app (senderTag poseidon2 secretA index) := by
  have same := directional_eq lawful derivedA derivedB sideA sideB
  subst same
  exact ⟨rfl, fun index => ⟨rfl, rfl⟩⟩

open GrumpkinCurve

/-- Public keys of an account, of which all accounts share three. -/
def keysOf (ivsk : Fq) : PublicKeys :=
  let key := derivePublicKeyFromSecretKey arkGrumpkin
  ⟨key 2, key ivsk, key 3, key 4⟩

/-- An account whose address point has a positive ordinate. -/
def positiveAccount : CompleteAddress where
  address := ⟨21351120799380507957869061114449242087866739195789849403110820184628407548702⟩
  publicKeys := keysOf 1
  partialAddress := 7

/-- An account whose address secret has to be negated. -/
def negativeAccount : CompleteAddress where
  address := ⟨18478091841522275464486729808833087459882989099269425592929163302667515526715⟩
  publicKeys := keysOf 3
  partialAddress := 7

theorem accounts_share_secret : ∃ secret,
    computeDirectionalTaggingSecret Crypto.summed.poseidon2 arkGrumpkin positiveAccount 1
      negativeAccount.address ⟨9⟩ negativeAccount.address = .ok secret ∧
    computeDirectionalTaggingSecret Crypto.summed.poseidon2 arkGrumpkin negativeAccount 3
      positiveAccount.address ⟨9⟩ negativeAccount.address = .ok secret := by
  have isOk_eq : ∀ {result : Except Error Fr}, result.isOk = true → ∃ value, result = .ok value := by
    rintro (_ | value) ok
    · cases ok
    · exact ⟨value, rfl⟩
  have addressA : computeAddress Crypto.summed.poseidon2 arkGrumpkin (keysOf 1) 7 =
    .ok positiveAccount.address := by decide +kernel
  have addressB : computeAddress Crypto.summed.poseidon2 arkGrumpkin (keysOf 3) 7 =
    .ok negativeAccount.address := by decide +kernel
  obtain ⟨secretA, sideA⟩ := isOk_eq (by decide +kernel :
    (computeDirectionalTaggingSecret Crypto.summed.poseidon2 arkGrumpkin positiveAccount 1
      negativeAccount.address ⟨9⟩ negativeAccount.address).isOk = true)
  obtain ⟨secretB, sideB⟩ := isOk_eq (by decide +kernel :
    (computeDirectionalTaggingSecret Crypto.summed.poseidon2 arkGrumpkin negativeAccount 3
      positiveAccount.address ⟨9⟩ negativeAccount.address).isOk = true)
  have same := tagging_secrets_agree Crypto.summed.poseidon2 arkGrumpkin _ _ arkGrumpkin_lawful
    positiveAccount negativeAccount 1 3 ⟨rfl, addressA⟩ ⟨rfl, addressB⟩ ⟨9⟩ negativeAccount.address
    secretA secretB sideA sideB
  exact ⟨secretA, sideA, same.1 ▸ sideB⟩

end TaggingSecret
end AztecPxe
