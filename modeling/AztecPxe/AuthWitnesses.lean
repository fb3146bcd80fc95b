import AztecPxe.ExecutionPayload
import AztecPxe.HexText
import AztecPxe.NoteStore
import AztecPxe.Schnorr
import AztecPxe.TxConstants

/-! The check of auth witnesses in `embedded_pxe.rs`, which stands in for the one of an account's
entrypoint. The entrypoint checks the signature of its own payload; here every witness that may be
a signature is verified under the origin's key, whoever it is of. -/
namespace AztecPxe
open Grumpkin HexText Schnorr

/-! ## The check -/

/-- `AuthWitness::deserialize`; both fields have defaults. -/
def AuthWitness.deserialize : Json → Option AuthWitness
  | .obj members => do
    let requestHash ← ((members.lookup "request_hash").map Fr.deserialize).getD (some 0)
    let fields ← ((members.lookup "fields").map (deserializeVec Fr.deserialize)).getD (some [])
    return { requestHash := requestHash, fields := fields }
  | .arr [] => some { requestHash := 0, fields := [] }
  | .arr [requestHash] => do return { requestHash := ← Fr.deserialize requestHash, fields := [] }
  | .arr [requestHash, fields] => do
    return { requestHash := ← Fr.deserialize requestHash
             fields := ← deserializeVec Fr.deserialize fields }
  | _ => none

/-- `AuthWitness::serialize`. -/
def AuthWitness.serialize (witness : AuthWitness) : Json :=
  .obj [("request_hash", .str (hex32 witness.requestHash.val)),
    ("fields", .arr (witness.fields.map (fun field => .str (hex32 field.val))))]

/-- `NoteStore::get_notes_by_slot`. -/
def NoteStore.getNotesBySlot (store : NoteStore) (contract : AztecAddress) (storageSlot : Fr) :
    List StoredNote :=
  store.getNotes { contractAddress := some contract, storageSlot := some storageSlot,
                   status := .active }

namespace EmbeddedPxe
variable {Affine : Type} (crypto : SchnorrCrypto Affine)

/-- The witnesses of a request, or none where they are not read. -/
def authWitnessesOf (txRequest : Json) : List AuthWitness :=
  ((txRequest.get "authWitnesses").bind (deserializeVec AuthWitness.deserialize)).getD []

/-- The first note that may hold a signing key: two fields, not nullified. -/
def signingKey (notes : List StoredNote) : Option Point :=
  notes.findSome? (fun note =>
    match note.noteData with
    | x :: y :: _ => if note.nullified then none else some ⟨x, y, false⟩
    | _ => none)

/-- The signature in a witness of sixty-four fields, the lowest byte of each. -/
def signatureOf (fields : List Fr) : Option SchnorrSignature :=
  if size : fields.length = 64 then
    some (.fromBytes ⟨fields.map (fun field => UInt8.ofNat field.toUsize), by
      rw [List.length_map, size]⟩)
  else none

/-- One turn of the loop: what has another number of fields passes. -/
def passes (pk : Point) (witness : AuthWitness) : Bool :=
  match signatureOf witness.fields with
  | none => true
  | some signature => schnorrVerify crypto pk witness.requestHash signature

/-- The loop over the witnesses. -/
def checkSignatures (pk : Point) : List AuthWitness → Except Error Unit
  | [] => .ok ()
  | witness :: rest =>
    if passes crypto pk witness then checkSignatures pk rest
    else .error (.invalidData
      "Cannot satisfy constraint: auth witness signature verification failed")

/-- `verify_auth_witness_signatures`. -/
def verifyAuthWitnessSignatures (store : NoteStore) (txRequest : Json) (origin : AztecAddress) :
    Except Error Unit :=
  let authWitnesses := authWitnessesOf txRequest
  if authWitnesses.isEmpty then .ok ()
  else match signingKey (store.getNotesBySlot origin 1) with
    | none => .ok ()
    | some pk => checkSignatures crypto pk authWitnesses

end EmbeddedPxe

namespace AuthWitnesses
open EmbeddedPxe
variable {Affine : Type} (crypto : SchnorrCrypto Affine)

/-! ## Witnesses as text -/

theorem deserialize_hex32 (f : Fr) : Fr.deserialize (.str (hex32 f.val)) = some f := by
  change (Fr.fromHex (hex32 f.val)).toOption = some f
  rw [fromHex_hex32]
  rfl

/-- A list is read back if each of its items is. -/
theorem deserializeVec_map {α β : Type} {read : Json → Option β} {write : α → Json} {value : α → β}
    (reads : ∀ a, read (write a) = some (value a)) (items : List α) :
    deserializeVec read (.arr (items.map write)) = some (items.map value) := by
  change (items.map write).mapM read = _
  induction items with
  | nil => rfl
  | cons a rest ih => simp [reads, ih]

theorem deserialize_serialize (witness : AuthWitness) :
    AuthWitness.deserialize witness.serialize = some witness := by
  have fields := deserializeVec_map deserialize_hex32 witness.fields
  rw [List.map_id'] at fields
  simp [AuthWitness.serialize, AuthWitness.deserialize, List.lookup, deserialize_hex32, fields]

/-! ## Whose witnesses pass -/

/-- Someone's key and the hash of the message they sign. -/
structure Signing where
  key : Fq
  hash : Fr

/-- The witness it makes. -/
def Signing.witness (signing : Signing) : AuthWitness where
  requestHash := signing.hash
  fields := (schnorrSign crypto signing.key signing.hash).toFields

/-- The witness is a signature that verifies under the key. -/
def Verifies (pk : Point) (witness : AuthWitness) : Prop :=
  ∃ signature, signatureOf witness.fields = some signature ∧
    schnorrVerify crypto pk witness.requestHash signature = true

/-- With a payload the origin signed the request passes; with a wrong signature it does not. -/
def ChecksPayload (store : NoteStore) (txRequest : Json) (origin : AztecAddress) (pk : Point)
    (own : AuthWitness) : Prop :=
  (Verifies crypto pk own → verifyAuthWitnessSignatures crypto store txRequest origin = .ok ()) ∧
    (own.fields.length = 64 → ¬ Verifies crypto pk own →
      ∃ e, verifyAuthWitnessSignatures crypto store txRequest origin = .error e)

section Check
variable {crypto}

theorem signatureOf_toFields (signature : SchnorrSignature) :
    signatureOf signature.toFields = some signature := by
  have byte (b : UInt8) : UInt8.ofNat (Fr.ofU64 b.toNat).toUsize = b := by
    rw [Fr.toUsize_ofU64 (b.toNat_lt.trans (by decide)), UInt8.ofNat_toNat]
  have size : signature.toFields.length = 64 := by
    rw [SchnorrSignature.toFields, List.length_map, signature.toBytes.length_eq]
  have bytes : signature.toFields.map (fun field => UInt8.ofNat field.toUsize) =
      signature.toBytes.toList := by
    rw [SchnorrSignature.toFields, List.map_map]
    exact (List.map_congr_left fun b _ => byte b).trans (List.map_id _)
  rw [signatureOf, dif_pos size]
  simp only [bytes]
  exact congrArg some (SchnorrSignature.fromBytes_toBytes signature)

/-- The loop ends where no witness fails. -/
theorem checkSignatures_eq_ok {pk : Point} {witnesses : List AuthWitness} :
    checkSignatures crypto pk witnesses = .ok () ↔
      ∀ witness ∈ witnesses, passes crypto pk witness = true := by
  induction witnesses with
  | nil => simp [checkSignatures]
  | cons witness witnesses ih =>
    by_cases passed : passes crypto pk witness = true
    · simp [checkSignatures, passed, ih]
    · simp [checkSignatures, passed]

theorem checkSignatures_eq_error {pk : Point} {witnesses : List AuthWitness}
    {witness : AuthWitness} (listed : witness ∈ witnesses)
    (fails : passes crypto pk witness = false) :
    ∃ e, checkSignatures crypto pk witnesses = .error e := by
  cases checked : checkSignatures crypto pk witnesses with
  | error e => exact ⟨e, rfl⟩
  | ok done =>
    rw [checkSignatures_eq_ok.mp checked witness listed] at fails
    exact nomatch fails

/-- Witnesses of other numbers of fields aside, those pass that verify. -/
theorem passes_iff {pk : Point} {witness : AuthWitness} (whole : witness.fields.length = 64) :
    passes crypto pk witness = true ↔ Verifies crypto pk witness := by
  have signed : signatureOf witness.fields = some _ := dif_pos whole
  unfold passes Verifies
  rw [signed]
  constructor
  · intro verified
    exact ⟨_, rfl, verified⟩
  · rintro ⟨_, same, verified⟩
    cases same
    exact verified

theorem passes_of_verifies {pk : Point} {witness : AuthWitness}
    (verifies : Verifies crypto pk witness) : passes crypto pk witness = true := by
  obtain ⟨signature, signed, verified⟩ := verifies
  unfold passes
  rw [signed]
  exact verified

theorem verifies_witness {pk : Point} {signing : Signing}
    (verified : schnorrVerify crypto pk signing.hash
      (schnorrSign crypto signing.key signing.hash) = true) :
    Verifies crypto pk (signing.witness crypto) := by
  refine ⟨schnorrSign crypto signing.key signing.hash, ?_, verified⟩
  unfold Signing.witness
  rw [signatureOf_toFields]

theorem passes_witness {pk : Point} (signing : Signing) :
    passes crypto pk (signing.witness crypto) =
      schnorrVerify crypto pk signing.hash (schnorrSign crypto signing.key signing.hash) := by
  unfold passes Signing.witness
  rw [signatureOf_toFields]

/-- Wherever the payload's witness stands, all pass if it does and all others verify. -/
theorem all_pass_iff {pk : Point} {before after : List Signing} {own : AuthWitness} :
    (∀ witness ∈ before.map (·.witness crypto) ++ own :: after.map (·.witness crypto),
      passes crypto pk witness = true) ↔
    passes crypto pk own = true ∧ ∀ signing ∈ before ++ after,
      schnorrVerify crypto pk signing.hash
        (schnorrSign crypto signing.key signing.hash) = true := by
  simp only [← passes_witness, List.mem_append, List.mem_cons, List.mem_map]
  constructor
  · intro all
    refine ⟨all own (.inr (.inl rfl)), fun signing listed => ?_⟩
    rcases listed with first | last
    · exact all _ (.inl ⟨signing, first, rfl⟩)
    · exact all _ (.inr (.inr ⟨signing, last, rfl⟩))
  · rintro ⟨ownPasses, others⟩ witness (⟨signing, first, rfl⟩ | rfl | ⟨signing, last, rfl⟩)
    · exact others signing (.inl first)
    · exact ownPasses
    · exact others signing (.inr last)

section Request
variable {store : NoteStore} {txRequest : Json} {origin : AztecAddress} {pk : Point}

/-- A request with witnesses, of an origin whose key is stored, is checked under that key. -/
theorem verify_eq (key : signingKey (store.getNotesBySlot origin 1) = some pk)
    {witnesses : List AuthWitness} (listed : authWitnessesOf txRequest = witnesses)
    (some_witness : witnesses ≠ []) :
    verifyAuthWitnessSignatures crypto store txRequest origin =
      checkSignatures crypto pk witnesses := by
  unfold verifyAuthWitnessSignatures
  simp [listed, some_witness, key]

/-- The check does what it stands in for exactly if, along with a payload the origin signed, all
further witnesses verify under the origin's key as well. -/
theorem checks_payload_iff (key : signingKey (store.getNotesBySlot origin 1) = some pk)
    (before after : List Signing) {own : AuthWitness}
    (listed : authWitnessesOf txRequest =
      before.map (·.witness crypto) ++ own :: after.map (·.witness crypto)) :
    ChecksPayload crypto store txRequest origin pk own ↔
      (Verifies crypto pk own → ∀ signing ∈ before ++ after,
        schnorrVerify crypto pk signing.hash
          (schnorrSign crypto signing.key signing.hash) = true) := by
  have checked : verifyAuthWitnessSignatures crypto store txRequest origin = _ :=
    verify_eq key listed (by simp)
  unfold ChecksPayload
  rw [checked, checkSignatures_eq_ok, all_pass_iff]
  constructor
  · rintro ⟨accepted, -⟩ verifies
    exact (accepted verifies).2
  · intro others
    refine ⟨fun verifies => ⟨passes_of_verifies verifies, others verifies⟩, fun whole wrong => ?_⟩
    refine checkSignatures_eq_error (by simp : own ∈ _) ?_
    rw [← Bool.not_eq_true, passes_iff whole]
    exact wrong

/-- Without further signers every request passes whose origin's key is the stored one. -/
theorem own_signings_pass {E : Type} [AddCommGroup E] {point : E → Affine} {g : E}
    (lawful : Lawful crypto.ark point g) {privateKey : Fq}
    (key : signingKey (store.getNotesBySlot origin 1) =
      some (scalarMul crypto.ark privateKey (generator crypto.ark)))
    {signings : List Signing} (own : ∀ signing ∈ signings, signing.key = privateKey)
    (listed : authWitnessesOf txRequest = signings.map (·.witness crypto)) :
    verifyAuthWitnessSignatures crypto store txRequest origin = .ok () := by
  cases signings with
  | nil =>
    unfold verifyAuthWitnessSignatures
    simp [listed]
  | cons first rest =>
    rw [verify_eq key listed (by simp), checkSignatures_eq_ok]
    intro witness inside
    obtain ⟨signing, signed, rfl⟩ := List.mem_map.mp inside
    rw [passes_witness, own signing signed]
    exact verify_sign lawful privateKey signing.hash

end Request

end Check

open GrumpkinCurve

/-- The note of the key 1, in the slot where accounts keep it. -/
def keyNote : StoredNote where
  contractAddress := ⟨42⟩
  owner := ⟨42⟩
  storageSlot := 1
  randomness := 0
  noteNonce := 0
  noteHash := 7
  siloedNullifier := 8
  noteData := [1, generatorY]
  nullified := false
  isPending := false
  nullificationBlockNumber := none
  leafIndex := none
  blockNumber := some 1
  txIndexInBlock := none
  noteIndexInTx := none
  scopes := []

/-- The store of an origin whose key is 1. -/
def originStore : NoteStore := ({} : NoteStore).addNote keyNote

/-- A payload signed with the key 1, and messages signed with it and with the key 2. -/
def ownPayload : Signing := ⟨1, 5⟩

def ownMessage : Signing := ⟨1, 6⟩

def foreignMessage : Signing := ⟨2, 6⟩

/-- A request with the witnesses of these. -/
def requestOf (signings : List Signing) : Json :=
  .obj [("authWitnesses",
    .arr (signings.map (fun signing => (signing.witness summing).serialize)))]

theorem authWitnessesOf_requestOf (signings : List Signing) :
    authWitnessesOf (requestOf signings) = signings.map (·.witness summing) := by
  have reads (signing : Signing) :
      AuthWitness.deserialize (signing.witness summing).serialize =
        some (signing.witness summing) := deserialize_serialize _
  unfold authWitnessesOf
  exact congrArg (Option.getD · []) (deserializeVec_map reads signings)

theorem originStore_key :
    signingKey (originStore.getNotesBySlot ⟨42⟩ 1) = some ⟨1, generatorY, false⟩ := by
  decide +kernel

/-- Whatever is signed with the key 1 verifies under the stored key. -/
theorem own_verifies (hash : Fr) :
    schnorrVerify summing ⟨1, generatorY, false⟩ hash (schnorrSign summing 1 hash) = true := by
  have publicKey : scalarMul arkGrumpkin 1 (generator arkGrumpkin) = ⟨1, generatorY, false⟩ := by
    decide +kernel
  rw [← publicKey]
  exact verify_sign arkGrumpkin_lawful 1 hash

/-- With a second signature of the origin the check does what it stands in for. -/
theorem own_message_is_checked :
    ChecksPayload summing originStore (requestOf [ownMessage, ownPayload]) ⟨42⟩
      ⟨1, generatorY, false⟩ (ownPayload.witness summing) := by
  refine (checks_payload_iff originStore_key [ownMessage] []
    (authWitnessesOf_requestOf _)).mpr fun _ signing inside => ?_
  rw [List.mem_singleton.mp inside]
  exact own_verifies 6

/-- A payload the origin signed is rejected along with a message another account signed. -/
theorem foreign_message_is_rejected :
    Verifies summing ⟨1, generatorY, false⟩ (ownPayload.witness summing) ∧
      Verifies summing (scalarMul arkGrumpkin 2 (generator arkGrumpkin))
        (foreignMessage.witness summing) ∧
      ∃ e, verifyAuthWitnessSignatures summing originStore
        (requestOf [foreignMessage, ownPayload]) ⟨42⟩ = .error e := by
  refine ⟨verifies_witness (own_verifies 5),
    verifies_witness (verify_sign arkGrumpkin_lawful 2 6), ?_⟩
  rw [verify_eq originStore_key (authWitnessesOf_requestOf _) (by simp)]
  refine checkSignatures_eq_error (List.mem_map_of_mem List.mem_cons_self) ?_
  rw [passes_witness]
  decide +kernel

end AuthWitnesses
end AztecPxe
