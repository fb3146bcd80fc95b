import AztecPxe.ContractRegistry
import AztecPxe.KeyRequests
import AztecPxe.KvStore
import AztecPxe.BlockSync

/-! The stores of what a PXE has registered, call by call on the shared key-value store:
contracts, account keys, complete addresses and senders, with the anchor block header. Beside
each store stands the region of its keys, which its calls do not leave. -/
namespace AztecPxe.KvStores
open AztecPxe PrefixStore Codec Abi

variable {kv : KvStore}

/-- The keys that start with one of these texts. -/
def keysUnder (starts : List String) : Set (List UInt8) := under (starts.map utf8)

/-- A formatted key is in the region of the text it is formatted with. -/
theorem mem_keysUnder {starts : List String} {start : String} (listed : start ∈ starts)
    (rest : String) : utf8 (start ++ rest) ∈ keysUnder starts := by
  rw [utf8_append]
  exact mem_under (List.mem_map_of_mem listed) (List.prefix_append _ _)

/-- So is every key a listing of that text finds. -/
theorem mem_of_begins {starts : List String} {start : String} (listed : start ∈ starts)
    {key : List UInt8} (begins : utf8 start <+: key) : key ∈ keysUnder starts :=
  mem_under (List.mem_map_of_mem listed) begins

/-! ## `contract_store.rs` -/

namespace ContractStore

/-- The types the contract store writes. -/
structure Serde where
  contractInstance : Codec ContractInstance
  artifact : Codec ContractArtifact
  value : Codec Json

/-- `instance_key`. -/
def instanceKey (address : AztecAddress) : List UInt8 :=
  utf8 ("contract:instance:" ++ hex32 address.inner.val)

/-- `artifact_key`. -/
def artifactKey (classId : Fr) : List UInt8 := utf8 ("contract:artifact:" ++ hex32 classId.val)

/-- `class_preimage_key`. -/
def classPreimageKey (classId : Fr) : List UInt8 :=
  utf8 ("contract:class-preimage:" ++ hex32 classId.val)

section Calls
variable (serde : Serde)

/-- `add_instance`. -/
def addInstance (contract : ContractInstance) : kv.Program Unit :=
  serde.contractInstance.save (instanceKey contract.address) contract

/-- `get_instance`. -/
def getInstance (address : AztecAddress) : kv.Program (Option ContractInstance) :=
  serde.contractInstance.load (instanceKey address)

/-- `get_contract_addresses`. -/
def getContractAddresses : kv.Program (List AztecAddress) := do
  let entries ← kv.scan (utf8 "contract:instance:")
  entries.mapM (fun entry => do
    return (← ofResult (serde.contractInstance.fromSlice entry.2)).address)

/-- `add_artifact`. -/
def addArtifact (classId : Fr) (artifact : ContractArtifact) : kv.Program Unit :=
  serde.artifact.save (artifactKey classId) artifact

/-- `get_artifact`. -/
def getArtifact (classId : Fr) : kv.Program (Option ContractArtifact) :=
  serde.artifact.load (artifactKey classId)

/-- `add_class_preimage`. -/
def addClassPreimage (classId : Fr) (preimage : Json) : kv.Program Unit :=
  serde.value.save (classPreimageKey classId) preimage

/-- `get_class_preimage`. -/
def getClassPreimage (classId : Fr) : kv.Program (Option Json) :=
  serde.value.load (classPreimageKey classId)

/-- `update_artifact`. -/
def updateArtifact (address : AztecAddress) (artifact : ContractArtifact) : kv.Program Unit := do
  match ← getInstance serde address with
  | some contract => addArtifact serde contract.currentContractClassId artifact
  | none => throw (.failed (.invalidData ("contract not found at " ++ hex32 address.inner.val)))

/-- `add_class`. -/
def addClass (digests : ClassId.Digests) (artifact : ContractArtifact) : kv.Program Fr := do
  match ClassId.computeContractClassIdFromArtifact digests artifact with
  | some classId =>
    addArtifact serde classId artifact
    return classId
  | none => throw .panicked

end Calls

/-- The keys of the contract store. -/
def starts : List String := ["contract:instance:", "contract:artifact:", "contract:class-preimage:"]

theorem instanceKey_mem (address : AztecAddress) : instanceKey address ∈ keysUnder starts :=
  mem_keysUnder (by simp [starts]) _

theorem artifactKey_mem (classId : Fr) : artifactKey classId ∈ keysUnder starts :=
  mem_keysUnder (by simp [starts]) _

theorem classPreimageKey_mem (classId : Fr) : classPreimageKey classId ∈ keysUnder starts :=
  mem_keysUnder (by simp [starts]) _

variable {serde : Serde}

theorem reads_getInstance (address : AztecAddress) :
    Reads (keysUnder starts) (getInstance serde address : kv.Program _) :=
  reads_load (instanceKey_mem address)

theorem reads_getContractAddresses :
    Reads (keysUnder starts) (getContractAddresses serde : kv.Program _) :=
  reads_bind (reads_scan (fun _ => mem_of_begins (by simp [starts]))) (fun _ =>
    reads_mapM (fun _ _ => reads_bind (reads_ofResult _) (fun _ => reads_pure _)))

theorem writes_addArtifact (classId : Fr) (artifact : ContractArtifact) :
    Writes (keysUnder starts) (addArtifact serde classId artifact : kv.Program _) :=
  writes_save (artifactKey_mem classId) artifact

theorem writes_updateArtifact (address : AztecAddress) (artifact : ContractArtifact) :
    Writes (keysUnder starts) (updateArtifact serde address artifact : kv.Program _) := by
  refine writes_bind (reads_getInstance address).writes (fun found => ?_)
  cases found with
  | none => exact (reads_throw _).writes
  | some contract => exact writes_addArtifact _ artifact

theorem writes_addClass (digests : ClassId.Digests) (artifact : ContractArtifact) :
    Writes (keysUnder starts) (addClass serde digests artifact : kv.Program _) := by
  unfold addClass
  cases ClassId.computeContractClassIdFromArtifact digests artifact with
  | none => exact (reads_throw _).writes
  | some classId =>
    exact writes_bind (writes_addArtifact classId artifact) (fun _ => (reads_pure _).writes)

end ContractStore

/-! ## `key_store.rs` -/

namespace KeyStore
open KeyRequests Grumpkin

/-- `account_key`. -/
def accountKey (pkHash : Fr) : List UInt8 := utf8 ("key:account:" ++ hex32 pkHash.val)

/-- `Fr::from([u8; 32])`. -/
def frOfBytes (bytes : List UInt8) : Fr :=
  Fin.ofNat frModulus (bytes.foldl (fun value byte => value * 256 + byte.toNat) 0)

/-- `get_secret_key`. -/
def getSecretKey (pkHash : Fr) : kv.Program (Option Fr) := do
  match ← kv.read (accountKey pkHash) with
  | some bytes =>
    if bytes.length = 32 then return some (frOfBytes bytes)
    else throw (.failed (.invalidData "invalid secret key length"))
  | none => return none

/-- `get_accounts`. -/
def getAccounts : kv.Program (List Fr) := do
  let entries ← kv.scan (utf8 "key:account:")
  entries.mapM (fun entry =>
    match textAfter "key:account:" entry.1 with
    | some hexPart => ofResult (Fr.fromHex (String.ofList hexPart))
    | none => throw (.failed (.invalidData "invalid key prefix")))

section Calls
variable (poseidon2 : List Fr → Fr) (sha512 : List UInt8 → Nat) {Affine : Type}
  (ark : ArkGrumpkin Affine)

/-- `add_account`. -/
def addAccount (secretKey : Fr) : kv.Program DerivedKeys := do
  let derived := deriveKeys sha512 ark secretKey
  kv.write (accountKey (derived.publicKeys.hash poseidon2)) (writeFr secretKey)
  return derived

/-- What the readers below return: a part of the keys of an account. -/
def getDerived {β : Type} (part : DerivedKeys → β) (pkHash : Fr) : kv.Program (Option β) := do
  return (← getSecretKey pkHash).map (fun secretKey => part (deriveKeys sha512 ark secretKey))

/-- `get_master_nullifier_hiding_key`. -/
def getMasterNullifierHidingKey (pkHash : Fr) : kv.Program (Option Fq) :=
  getDerived sha512 ark (·.masterNullifierHidingKey) pkHash

/-- `get_master_incoming_viewing_secret_key`. -/
def getMasterIncomingViewingSecretKey (pkHash : Fr) : kv.Program (Option Fq) :=
  getDerived sha512 ark (·.masterIncomingViewingSecretKey) pkHash

/-- `get_master_outgoing_viewing_secret_key`. -/
def getMasterOutgoingViewingSecretKey (pkHash : Fr) : kv.Program (Option Fq) :=
  getDerived sha512 ark (·.masterOutgoingViewingSecretKey) pkHash

/-- `get_master_tagging_secret_key`. -/
def getMasterTaggingSecretKey (pkHash : Fr) : kv.Program (Option Fq) :=
  getDerived sha512 ark (·.masterTaggingSecretKey) pkHash

/-- `get_public_keys`. -/
def getPublicKeys (pkHash : Fr) : kv.Program (Option PublicKeys) :=
  getDerived sha512 ark (·.publicKeys) pkHash

/-- `get_app_nullifier_hiding_key`. -/
def getAppNullifierHidingKey (pkHash : Fr) (app : AztecAddress) : kv.Program (Option Fr) :=
  getDerived sha512 ark (fun derived =>
    computeAppSecretKey poseidon2 derived.masterNullifierHidingKey app .nullifier) pkHash

/-- `get_app_secret_key`. -/
def getAppSecretKey (pkHash : Fr) (app : AztecAddress) (keyType : KeyType) :
    kv.Program (Option Fr) :=
  getDerived sha512 ark (fun derived =>
    let masterKey := match keyType with
      | .nullifier => derived.masterNullifierHidingKey
      | .incomingViewing => derived.masterIncomingViewingSecretKey
      | .outgoingViewing => derived.masterOutgoingViewingSecretKey
      | .tagging => derived.masterTaggingSecretKey
    computeAppSecretKey poseidon2 masterKey app keyType) pkHash

/-- `get_app_ovsk`, with `compute_ovsk_app`. -/
def getAppOvsk (pkHash : Fr) (app : AztecAddress) : kv.Program (Option Fq) :=
  getDerived sha512 ark (fun derived => Fq.ofFr
    (computeAppSecretKey poseidon2 derived.masterOutgoingViewingSecretKey app .outgoingViewing))
    pkHash

/-- The loop of `get_key_validation_request` over the accounts. -/
def findRequest (pkMHash : Fr) (app : AztecAddress) : List Fr → kv.Program (Option (Point × Fr))
  | [] => return none
  | account :: rest => do
    match ← getSecretKey account with
    | none => findRequest pkMHash app rest
    | some secretKey =>
      match KeyRequests.accountKey poseidon2 sha512 ark pkMHash app secretKey with
      | some found => return some found
      | none => findRequest pkMHash app rest

/-- `get_key_validation_request`. -/
def getKeyValidationRequest (pkMHash : Fr) (app : AztecAddress) :
    kv.Program (Option (Point × Fr)) := do
  findRequest poseidon2 sha512 ark pkMHash app (← getAccounts)

end Calls

/-- The keys of the key store. -/
def starts : List String := ["key:account:"]

theorem accountKey_mem (pkHash : Fr) : accountKey pkHash ∈ keysUnder starts :=
  mem_keysUnder (by simp [starts]) _

theorem reads_getSecretKey (pkHash : Fr) :
    Reads (keysUnder starts) (getSecretKey pkHash : kv.Program _) := by
  refine reads_bind (reads_read (accountKey_mem pkHash)) (fun held => ?_)
  cases held with
  | none => exact reads_pure none
  | some bytes =>
    dsimp only
    split
    · exact reads_pure _
    · exact reads_throw _

theorem reads_getAccounts : Reads (keysUnder starts) (getAccounts : kv.Program _) := by
  refine reads_bind (reads_scan (fun _ => mem_of_begins (by simp [starts]))) (fun entries =>
    reads_mapM (fun entry _ => ?_))
  cases textAfter "key:account:" entry.1 with
  | none => exact reads_throw _
  | some hexPart => exact reads_ofResult _

variable {poseidon2 : List Fr → Fr} {sha512 : List UInt8 → Nat} {Affine : Type}
  {ark : ArkGrumpkin Affine}

theorem writes_addAccount (secretKey : Fr) :
    Writes (keysUnder starts) (addAccount poseidon2 sha512 ark secretKey : kv.Program _) :=
  writes_bind (writes_put (accountKey_mem _) _) (fun _ => (reads_pure _).writes)

theorem reads_getDerived {β : Type} (part : DerivedKeys → β) (pkHash : Fr) :
    Reads (keysUnder starts) (getDerived sha512 ark part pkHash : kv.Program _) :=
  reads_bind (reads_getSecretKey pkHash) (fun _ => reads_pure _)

theorem reads_getAppNullifierHidingKey (pkHash : Fr) (app : AztecAddress) :
    Reads (keysUnder starts)
      (getAppNullifierHidingKey poseidon2 sha512 ark pkHash app : kv.Program _) :=
  reads_getDerived _ pkHash

theorem reads_getAppSecretKey (pkHash : Fr) (app : AztecAddress) (keyType : KeyType) :
    Reads (keysUnder starts)
      (getAppSecretKey poseidon2 sha512 ark pkHash app keyType : kv.Program _) :=
  reads_getDerived _ pkHash

theorem reads_getAppOvsk (pkHash : Fr) (app : AztecAddress) :
    Reads (keysUnder starts) (getAppOvsk poseidon2 sha512 ark pkHash app : kv.Program _) :=
  reads_getDerived _ pkHash

/-- By induction on the accounts left to look at. -/
private theorem reads_findRequest (pkMHash : Fr) (app : AztecAddress) (accounts : List Fr) :
    Reads (keysUnder starts)
      (findRequest poseidon2 sha512 ark pkMHash app accounts : kv.Program _) := by
  induction accounts with
  | nil => exact reads_pure none
  | cons account rest ih =>
    refine reads_bind (reads_getSecretKey account) (fun held => ?_)
    cases held with
    | none => exact ih
    | some secretKey =>
      dsimp only
      cases KeyRequests.accountKey poseidon2 sha512 ark pkMHash app secretKey with
      | none => exact ih
      | some found => exact reads_pure _

theorem reads_getKeyValidationRequest (pkMHash : Fr) (app : AztecAddress) :
    Reads (keysUnder starts)
      (getKeyValidationRequest poseidon2 sha512 ark pkMHash app : kv.Program _) :=
  reads_bind reads_getAccounts (fun accounts => reads_findRequest pkMHash app accounts)

end KeyStore

/-! ## `address_store.rs` -/

namespace AddressStore
variable (serde : Codec CompleteAddress)

/-- `address_key`. -/
def addressKey (address : AztecAddress) : List UInt8 :=
  utf8 ("address:" ++ hex32 address.inner.val)

/-- `add`. -/
def add (complete : CompleteAddress) : kv.Program Unit :=
  serde.save (addressKey complete.address) complete

/-- `get`. -/
def get (address : AztecAddress) : kv.Program (Option CompleteAddress) :=
  serde.load (addressKey address)

/-- `get_all`. -/
def getAll : kv.Program (List CompleteAddress) := do
  let entries ← kv.scan (utf8 "address:")
  entries.mapM (fun entry => ofResult (serde.fromSlice entry.2))

/-- The keys of the address store. -/
def starts : List String := ["address:"]

theorem addressKey_mem (address : AztecAddress) : addressKey address ∈ keysUnder starts :=
  mem_keysUnder (by simp [starts]) _

variable {serde}

theorem reads_getAll : Reads (keysUnder starts) (getAll serde : kv.Program _) :=
  reads_bind (reads_scan (fun _ => mem_of_begins (by simp [starts]))) (fun _ =>
    reads_mapM (fun _ _ => reads_ofResult _))

end AddressStore

/-! ## `sender_store.rs` -/

namespace SenderStore

/-- `sender_key`. -/
def senderKey (sender : AztecAddress) : List UInt8 := utf8 ("sender:" ++ hex32 sender.inner.val)

/-- `add`: that the key is there is all that matters. -/
def add (sender : AztecAddress) : kv.Program Unit := kv.write (senderKey sender) [1]

/-- `remove`. -/
def remove (sender : AztecAddress) : kv.Program Unit := kv.erase (senderKey sender)

/-- `contains`. -/
def contains (sender : AztecAddress) : kv.Program Bool := do
  return (← kv.read (senderKey sender)).isSome

/-- `get_all`. -/
def getAll : kv.Program (List AztecAddress) := do
  let entries ← kv.scan (utf8 "sender:")
  entries.mapM (fun entry =>
    match textAfter "sender:" entry.1 with
    | some hexPart => do return ⟨← ofResult (Fr.fromHex (String.ofList hexPart))⟩
    | none => throw (.failed (.invalidData "invalid sender key prefix")))

/-- The keys of the sender store. -/
def starts : List String := ["sender:"]

theorem senderKey_mem (sender : AztecAddress) : senderKey sender ∈ keysUnder starts :=
  mem_keysUnder (by simp [starts]) _

theorem reads_getAll : Reads (keysUnder starts) (getAll : kv.Program _) := by
  refine reads_bind (reads_scan (fun _ => mem_of_begins (by simp [starts]))) (fun entries =>
    reads_mapM (fun entry _ => ?_))
  cases textAfter "sender:" entry.1 with
  | none => exact reads_throw _
  | some hexPart => exact reads_bind (reads_ofResult _) (fun _ => reads_pure _)

end SenderStore

/-! ## `anchor_block_store.rs` -/

namespace AnchorBlockStore
variable (serde : Codec AnchorBlockHeader)

/-- `ANCHOR_HEADER_KEY`. -/
def anchorHeaderKey : List UInt8 := utf8 "anchor:header"

/-- `set_header`. -/
def setHeader (header : AnchorBlockHeader) : kv.Program Unit := serde.save anchorHeaderKey header

/-- `get_block_header`. -/
def getBlockHeader : kv.Program (Option AnchorBlockHeader) := serde.load anchorHeaderKey

/-- `get_block_header_or_err`. -/
def getBlockHeaderOrErr : kv.Program AnchorBlockHeader := do
  match ← getBlockHeader serde with
  | some header => return header
  | none => throw (.failed (.invalidData "anchor block header not set"))

/-- `get_block_number`. -/
def getBlockNumber : kv.Program Nat := do
  return ((← getBlockHeader serde).map (·.blockNumber)).getD 0

/-- The keys of the anchor block store. -/
def starts : List String := ["anchor:header"]

theorem anchorHeaderKey_mem : anchorHeaderKey ∈ keysUnder starts :=
  mem_of_begins (List.mem_singleton_self "anchor:header") (List.prefix_refl _)

variable {serde}

theorem reads_getBlockHeaderOrErr :
    Reads (keysUnder starts) (getBlockHeaderOrErr serde : kv.Program _) := by
  refine reads_bind (reads_load anchorHeaderKey_mem) (fun held => ?_)
  cases held with
  | none => exact reads_throw _
  | some header => exact reads_pure header

end AnchorBlockStore

end AztecPxe.KvStores
