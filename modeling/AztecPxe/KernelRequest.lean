import AztecPxe.AuthWitnesses
import AztecPxe.BigEndian
import AztecPxe.CanonicalJson
import AztecPxe.Procedure

/-! The request for a proof with real kernels, which `embedded_pxe.rs` writes for a helper
outside. A call is JSON with its nested calls inside; its bytecode, key and witness stand in
the JSON or in files beside it, which are numbered in the order of the calls. However the
request is written, the calls are read back from it. -/
namespace AztecPxe

/-- A solved witness: the fields of a map, in the order of their indices. -/
structure SolvedWitness where
  entries : List (UInt32 × Fr)
  sorted : entries.Pairwise (fun a b => a.1 < b.1)

/-- What a request says of one call. -/
structure ProvedData where
  acir : List UInt8
  vk : List UInt8
  partialWitness : SolvedWitness
  publicInputsFields : List Fr := []
  minRevertibleSideEffectCounter : UInt32 := 0
  startSideEffectCounter : UInt32 := 0
  endSideEffectCounter : UInt32 := 0
  returnValues : List Fr := []
  noteHashNullifierCounterMap : List (UInt32 × UInt32) := []

/-- `PrivateCallExecutionResult`, as a request takes it. -/
structure ProvedCall where
  own : ProvedData
  nested : List ProvedCall

/-- Files by their path. A file written is read back, and a write touches no other file. -/
structure FileStore (τ : Type) where
  write : String → List UInt8 → τ → Except String Unit × τ
  read : τ → String → Option (List UInt8)
  read_written : ∀ {path bytes state next}, write path bytes state = (.ok (), next) →
    read next path = some bytes
  read_other : ∀ {path bytes state result next other}, write path bytes state = (result, next) →
    other ≠ path → read next other = read state other

/-- `base64::engine::general_purpose::STANDARD`. -/
structure Base64 where
  encode : List UInt8 → String
  decode : String → Option (List UInt8)
  decode_encode : ∀ bytes, decode (encode bytes) = some bytes

/-- `RealProofRequestFormat`, with the directory of the files. -/
inductive RealProofRequestFormat where
  | json
  | binaryV1 (sidecarDir : Option String)

namespace KernelRequest
open Procedure ClassId BigEndian HexText

/-! ## Writing -/

section Writing
variable {τ : Type} (fs : FileStore τ) (base64 : Base64) (format : RealProofRequestFormat)

/-- `encode_witness_binary_v1`. -/
def encodeWitnessBinaryV1 (witness : SolvedWitness) : List UInt8 :=
  let entries := witness.entries.mergeSort (fun a b => decide (a.1 ≤ b.1))
  beBytes 4 entries.length ++
    entries.flatMap fun entry => beBytes 4 entry.1.toNat ++ toBeBytes entry.2

/-- `Path::join`, with a relative path. -/
def joinPath (dir name : String) : String :=
  if dir = "" ∨ dir.toList.getLast? = some '/' then dir ++ name else dir ++ "/" ++ name

/-- The file of a call for one of its parts. -/
def sidecarPath (dir : String) (callId : Nat) (label : String) : String :=
  joinPath dir ("call-" ++ toString callId ++ "-" ++ label ++ ".bin")

/-- `write_kernel_call_sidecar`. -/
def writeKernelCallSidecar (dir : String) (callId : Nat) (label : String) (bytes : List UInt8) :
    Procedure Error τ String :=
  lift fun state =>
    let path := sidecarPath dir callId label
    match fs.write path bytes state with
    | (.ok (), next) => (.ok path, next)
    | (.error err, next) => (.error (.invalidData ("write " ++ label ++ " sidecar: " ++ err)), next)

/-- A field as JSON. -/
def frJson (field : Fr) : Json := .str (hex32 field.val)

/-- A `u32` as JSON. -/
def u32Json (n : UInt32) : Json := .posInt n.toUInt64

/-- The parts of a call that are bytes, and where they are. -/
def dataMembers (callId : Nat) (own : ProvedData) : Procedure Error τ (List (String × Json)) :=
  match format with
  | .json => pure
    [("acirBase64", .str (base64.encode own.acir)), ("vkBase64", .str (base64.encode own.vk)),
      ("partialWitness", .arr (own.partialWitness.entries.map fun entry =>
        .arr [u32Json entry.1, frJson entry.2]))]
  | .binaryV1 none => throw (.invalidData "binary-v1 request missing sidecar directory")
  | .binaryV1 (some dir) => do
    let acirPath ← writeKernelCallSidecar fs dir callId "acir" own.acir
    let vkPath ← writeKernelCallSidecar fs dir callId "vk" own.vk
    let witnessPath ← writeKernelCallSidecar fs dir callId "witness"
      (encodeWitnessBinaryV1 own.partialWitness)
    pure [("acirPath", .str acirPath), ("vkPath", .str vkPath), ("witnessPath", .str witnessPath)]

/-- The other parts of a call, with its nested calls. -/
def plainMembers (own : ProvedData) (nested : List Json) : List (String × Json) :=
  [("functionName", .str "private_call"),
    ("publicInputsFields", .arr (own.publicInputsFields.map frJson)),
    ("minRevertibleSideEffectCounter", u32Json own.minRevertibleSideEffectCounter),
    ("startSideEffectCounter", u32Json own.startSideEffectCounter),
    ("endSideEffectCounter", u32Json own.endSideEffectCounter),
    ("returnValues", .arr (own.returnValues.map frJson)),
    ("noteHashNullifierCounterMap", .obj (own.noteHashNullifierCounterMap.map fun entry =>
      (toString entry.1.toNat, u32Json entry.2))),
    ("nestedExecutionResults", .arr nested)]

mutual

/-- `kernel_proof_call_json`: the JSON, and the number of the call after. -/
def kernelProofCallJson : ProvedCall → Nat → Procedure Error τ (Json × Nat)
  | ⟨own, nested⟩, callId => do
    let inner ← nestedCallsJson nested (callId + 1)
    let parts ← dataMembers fs base64 format callId own
    pure (.obj (plainMembers own inner.1 ++ parts), inner.2)

/-- The loop of `kernel_proof_call_json` over the nested calls. -/
def nestedCallsJson : List ProvedCall → Nat → Procedure Error τ (List Json × Nat)
  | [], callId => pure ([], callId)
  | call :: rest, callId => do
    let first ← kernelProofCallJson call callId
    let others ← nestedCallsJson rest first.2
    pure (first.1 :: others.1, others.2)

end

end Writing

/-! ## Reading -/

section Reading
variable (base64 : Base64) (files : String → Option (List UInt8))

/-- The entries of a witness in bytes. -/
def readEntries : Nat → List UInt8 → List (UInt32 × Fr)
  | 0, _ => []
  | count + 1, bytes =>
    (UInt32.ofNat (fromBeBytes (bytes.take 4)), Fr.ofBeBytes ((bytes.drop 4).take 32)) ::
      readEntries count (bytes.drop 36)

/-- A witness in bytes. -/
def readWitness (bytes : List UInt8) : List (UInt32 × Fr) :=
  readEntries (fromBeBytes (bytes.take 4)) (bytes.drop 4)

/-- The file whose path stands under a name. -/
def fileAt (json : Json) (name : String) : Option (List UInt8) :=
  ((json.get name).bind Json.asStr).bind files

/-- A number under a name. -/
def u32At (json : Json) (name : String) : Option UInt32 :=
  ((json.get name).bind Json.asU64).map UInt32.ofNat

/-- The fields under a name. -/
def fieldsAt (json : Json) (name : String) : Option (List Fr) :=
  (json.get name).bind (deserializeVec Fr.deserialize)

/-- An entry of a witness in JSON. -/
def readPair : Json → Option (UInt32 × Fr)
  | .arr [index, field] => do
    let index ← index.asU64
    let field ← Fr.deserialize field
    return (UInt32.ofNat index, field)
  | _ => none

/-- An entry of the map of counters. -/
def readCounter (entry : String × Json) : Option (UInt32 × UInt32) := do
  let key ← entry.1.toNat?
  let value ← entry.2.asU64
  return (UInt32.ofNat key, UInt32.ofNat value)

/-- The map of counters in JSON. -/
def readCounters : Json → Option (List (UInt32 × UInt32))
  | .obj members => members.mapM readCounter
  | _ => none

/-- The bytes of a part: in its file, or in the JSON. -/
def bytesAt (json : Json) (pathName base64Name : String) : Option (List UInt8) :=
  (fileAt files json pathName).or
    (((json.get base64Name).bind Json.asStr).bind base64.decode)

/-- The witness: in its file, or in the JSON. -/
def witnessAt (json : Json) : Option (List (UInt32 × Fr)) :=
  ((fileAt files json "witnessPath").map readWitness).or
    ((json.get "partialWitness").bind (deserializeVec readPair))

/-- JSON, with the files it names, says this of a call. -/
structure Shows (json : Json) (own : ProvedData) : Prop where
  acir : bytesAt base64 files json "acirPath" "acirBase64" = some own.acir
  vk : bytesAt base64 files json "vkPath" "vkBase64" = some own.vk
  partialWitness : witnessAt files json = some own.partialWitness.entries
  publicInputsFields : fieldsAt json "publicInputsFields" = some own.publicInputsFields
  minRevertible : u32At json "minRevertibleSideEffectCounter" =
    some own.minRevertibleSideEffectCounter
  start : u32At json "startSideEffectCounter" = some own.startSideEffectCounter
  finish : u32At json "endSideEffectCounter" = some own.endSideEffectCounter
  returnValues : fieldsAt json "returnValues" = some own.returnValues
  counters : (json.get "noteHashNullifierCounterMap").bind readCounters =
    some own.noteHashNullifierCounterMap

mutual

/-- JSON, with the files it names, is that of a call and of all calls in it. -/
inductive Denotes : Json → ProvedCall → Prop where
  | call {json : Json} {own : ProvedData} {nested : List ProvedCall} {items : List Json}
      (shows : Shows base64 files json own)
      (list : (json.get "nestedExecutionResults").bind Json.asArray = some items)
      (inside : DenotesAll items nested) : Denotes json ⟨own, nested⟩

/-- Each is that of the call in its place. -/
inductive DenotesAll : List Json → List ProvedCall → Prop where
  | nil : DenotesAll [] []
  | cons {json : Json} {call : ProvedCall} {items : List Json} {rest : List ProvedCall}
      (first : Denotes json call) (others : DenotesAll items rest) :
      DenotesAll (json :: items) (call :: rest)

end

end Reading

/-! ## Witnesses in bytes -/

theorem readEntries_flatMap (entries : List (UInt32 × Fr)) :
    readEntries entries.length
      (entries.flatMap fun entry => beBytes 4 entry.1.toNat ++ toBeBytes entry.2) = entries := by
  induction entries with
  | nil => rfl
  | cons entry rest ih =>
    obtain ⟨index, field⟩ := entry
    have number : fromBeBytes (beBytes 4 index.toNat) = index.toNat := by
      rw [fromBeBytes_beBytes]
      exact Nat.mod_eq_of_lt index.toNat_lt
    have whole : (beBytes 4 index.toNat ++ toBeBytes field).length = 36 := by simp
    rw [List.length_cons, List.flatMap_cons, readEntries, ← whole, List.drop_append_length, ih,
      List.append_assoc, List.take_left' (length_beBytes 4 _), List.drop_left' (length_beBytes 4 _),
      List.take_left' (length_toBeBytes field), number, ofBeBytes_toBeBytes, UInt32.ofNat_toNat]

/-- A witness is read back from its bytes. -/
theorem readWitness_encode {witness : SolvedWitness} (small : witness.entries.length < 2 ^ 32) :
    readWitness (encodeWitnessBinaryV1 witness) = witness.entries := by
  have inOrder : witness.entries.mergeSort (fun a b => decide (a.1 ≤ b.1)) = witness.entries :=
    List.mergeSort_of_pairwise (witness.sorted.imp fun below =>
      decide_eq_true (UInt32.le_of_lt below))
  have count : fromBeBytes (beBytes 4 witness.entries.length) = witness.entries.length := by
    rw [fromBeBytes_beBytes]
    exact Nat.mod_eq_of_lt small
  rw [encodeWitnessBinaryV1, inOrder, readWitness, List.take_left' (length_beBytes 4 _), count,
    List.drop_left' (length_beBytes 4 _), readEntries_flatMap]

/-! ## Files of their own -/

theorem split_at_dash {front back later last : List Char} (clear : '-' ∉ front)
    (clear' : '-' ∉ back) (same : front ++ '-' :: later = back ++ '-' :: last) : front = back ∧ later = last := by
  induction front generalizing back with
  | nil =>
    cases back with
    | nil => exact ⟨rfl, (List.cons.inj same).2⟩
    | cons c rest =>
      obtain ⟨rfl, -⟩ := List.cons.inj same
      exact absurd List.mem_cons_self clear'
  | cons c rest ih =>
    cases back with
    | nil =>
      obtain ⟨rfl, -⟩ := List.cons.inj same
      exact absurd List.mem_cons_self clear
    | cons c' rest' =>
      obtain ⟨rfl, tail⟩ := List.cons.inj same
      obtain ⟨rfl, rfl⟩ := ih (fun inside => clear (List.mem_cons_of_mem _ inside))
        (fun inside => clear' (List.mem_cons_of_mem _ inside)) tail
      exact ⟨rfl, rfl⟩

theorem dash_not_digit (n : Nat) : '-' ∉ (toString n).toList := fun inside =>
  absurd (CanonicalJson.natDigits n '-' inside) (by decide)

theorem joinPath_inj {dir name other : String} (same : joinPath dir name = joinPath dir other) :
    name = other := by
  have lists := congrArg String.toList same
  apply String.toList_injective
  unfold joinPath at lists
  split at lists <;> simpa using lists

/-- Each part of each call has a file of its own. -/
theorem sidecarPath_inj {dir label label' : String} {id id' : Nat}
    (same : sidecarPath dir id label = sidecarPath dir id' label') : id = id' ∧ label = label' := by
  have names := congrArg String.toList (joinPath_inj same)
  simp only [String.toList_append, List.append_assoc] at names
  obtain ⟨digits, rest⟩ := split_at_dash (dash_not_digit id) (dash_not_digit id')
    (List.append_cancel_left names)
  exact ⟨Nat.repr_injective (String.toList_injective digits),
    String.toList_injective (List.append_cancel_right rest)⟩

/-! ## What is written is read back -/

section Members
variable {base64 : Base64} {files : String → Option (List UInt8)} {own : ProvedData}
  {inner : List Json} {parts : List (String × Json)}

/-- The names of the parts that are bytes. -/
def partNames : List String :=
  ["acirPath", "vkPath", "witnessPath", "acirBase64", "vkBase64", "partialWitness"]

/-- The parts stand behind the other members and are found there. -/
theorem get_part {name : String} (inside : name ∈ partNames) :
    (Json.obj (plainMembers own inner ++ parts)).get name = parts.lookup name := by
  simp only [partNames, List.mem_cons, List.not_mem_nil, or_false] at inside
  rcases inside with rfl | rfl | rfl | rfl | rfl | rfl <;>
    simp [Json.get, plainMembers, List.lookup]

theorem u32_back (n : UInt32) : UInt32.ofNat n.toUInt64.toNat = n := by simp

theorem u32At_of_get {json : Json} {name : String} {n : UInt32}
    (found : json.get name = some (u32Json n)) : u32At json name = some n := by
  rw [u32At, found]
  simp [u32Json, Json.asU64]

theorem fieldsAt_of_get {json : Json} {name : String} {fields : List Fr}
    (found : json.get name = some (.arr (fields.map frJson))) :
    fieldsAt json name = some fields := by
  have read : deserializeVec Fr.deserialize (.arr (fields.map frJson)) = some (fields.map id) :=
    AuthWitnesses.deserializeVec_map AuthWitnesses.deserialize_hex32 fields
  rw [fieldsAt, found, Option.bind_some, read, List.map_id]

theorem readCounters_map (counters : List (UInt32 × UInt32)) :
    readCounters (.obj (counters.map fun entry => (toString entry.1.toNat, u32Json entry.2))) =
      some counters := by
  rw [readCounters]
  induction counters with
  | nil => rfl
  | cons entry rest ih =>
    have key : (toString entry.1.toNat).toNat? = some entry.1.toNat := Nat.toNat?_repr _
    have back : readCounter (toString entry.1.toNat, u32Json entry.2) = some entry := by
      rw [readCounter, key]
      simp [u32Json, Json.asU64]
    rw [List.map_cons, List.mapM_cons, back, ih]
    rfl

/-- A call's JSON says what its parts do and the rest of its data. -/
theorem shows_of_parts
    (acir : bytesAt base64 files (.obj (plainMembers own inner ++ parts)) "acirPath" "acirBase64" =
      some own.acir)
    (vk : bytesAt base64 files (.obj (plainMembers own inner ++ parts)) "vkPath" "vkBase64" =
      some own.vk)
    (witness : witnessAt files (.obj (plainMembers own inner ++ parts)) =
      some own.partialWitness.entries) :
    Shows base64 files (.obj (plainMembers own inner ++ parts)) own where
  acir := acir
  vk := vk
  partialWitness := witness
  publicInputsFields := fieldsAt_of_get rfl
  minRevertible := u32At_of_get rfl
  start := u32At_of_get rfl
  finish := u32At_of_get rfl
  returnValues := fieldsAt_of_get rfl
  counters := readCounters_map own.noteHashNullifierCounterMap

theorem readPairs_map (entries : List (UInt32 × Fr)) :
    deserializeVec readPair (.arr (entries.map fun entry =>
      .arr [u32Json entry.1, frJson entry.2])) = some entries := by
  have back (entry : UInt32 × Fr) :
      readPair (.arr [u32Json entry.1, frJson entry.2]) = some (id entry) := by
    have field : Fr.deserialize (frJson entry.2) = some entry.2 :=
      AuthWitnesses.deserialize_hex32 entry.2
    simp [readPair, u32Json, Json.asU64, field]
  have read := AuthWitnesses.deserializeVec_map back entries
  rwa [List.map_id] at read

end Members

section Files
variable {τ : Type} {fs : FileStore τ} {base64 : Base64} {format : RealProofRequestFormat}

variable (format) in
/-- The file of a call for one of its parts, where there are files. -/
def fileOf (callId : Nat) (label : String) : Option String :=
  match format with
  | .binaryV1 (some dir) => some (sidecarPath dir callId label)
  | _ => none

theorem fileOf_inj {id id' : Nat} {label label' path : String}
    (own : fileOf format id label = some path) (other : fileOf format id' label' = some path) :
    id = id' ∧ label = label' := by
  unfold fileOf at own other
  split at own
  · exact sidecarPath_inj ((Option.some.inj own).trans (Option.some.inj other).symm)
  · cases own

variable (fs format) in
/-- Only files of these calls were written. -/
def Kept (first next : Nat) (state last : τ) : Prop :=
  ∀ path, (∀ id label, first ≤ id → id < next → fileOf format id label ≠ some path) →
    fs.read last path = fs.read state path

variable (fs format) in
/-- The files of these calls are as they are in a state. -/
def AgreeOn (first next : Nat) (files : String → Option (List UInt8)) (state : τ) : Prop :=
  ∀ id label path, first ≤ id → id < next → fileOf format id label = some path →
    files path = fs.read state path

theorem kept_refl (first next : Nat) (state : τ) : Kept fs format first next state state :=
  fun _ _ => rfl

/-- What was written of two parts of a range was written of the range. -/
theorem kept_both {first next a b c d : Nat} {state state' last : τ}
    (before : Kept fs format a b state state') (after : Kept fs format c d state' last)
    (low : first ≤ a) (high : b ≤ next) (low' : first ≤ c) (high' : d ≤ next) :
    Kept fs format first next state last := by
  intro path outside
  have later := after path fun id label above below =>
    outside id label (low'.trans above) (Nat.lt_of_lt_of_le below high')
  have earlier := before path fun id label above below =>
    outside id label (low.trans above) (Nat.lt_of_lt_of_le below high)
  rw [later, earlier]

/-- Part of what agrees agrees, also before other calls' files were written. -/
theorem agreeOn_part {first next a b c d : Nat} {files : String → Option (List UInt8)}
    {state last : τ} (agree : AgreeOn fs format first next files last)
    (kept : Kept fs format c d state last) (apart : b ≤ c ∨ d ≤ a) (low : first ≤ a)
    (high : b ≤ next) : AgreeOn fs format a b files state := by
  intro id label path above below file
  rw [agree id label path (low.trans above) (Nat.lt_of_lt_of_le below high) file]
  refine kept path fun other label' above' below' file' => ?_
  obtain ⟨rfl, -⟩ := fileOf_inj file file'
  omega

/-- A part written is in its file, and no other file is touched. -/
theorem written_part {dir label path : String} {callId : Nat} {bytes : List UInt8}
    {state last : τ}
    (ended : (writeKernelCallSidecar fs dir callId label bytes).runFrom state =
      some (.ok path, last)) :
    path = sidecarPath dir callId label ∧ fs.read last path = some bytes ∧
      ∀ other, other ≠ path → fs.read last other = fs.read state other := by
  have said := Option.some.inj ended
  dsimp only at said
  cases wrote : fs.write (sidecarPath dir callId label) bytes state with
  | mk result next =>
    cases result with
    | error e =>
      rw [wrote] at said
      cases said
    | ok _ =>
      rw [wrote] at said
      cases said
      exact ⟨rfl, fs.read_written wrote, fun other different => fs.read_other wrote different⟩

/-- The three files of a call. -/
theorem written_parts {dir : String} {callId : Nat} {own : ProvedData}
    {parts : List (String × Json)} {state last : τ}
    (ended : (dataMembers fs base64 (.binaryV1 (some dir)) callId own).runFrom state =
      some (.ok parts, last)) :
    parts = [("acirPath", .str (sidecarPath dir callId "acir")),
        ("vkPath", .str (sidecarPath dir callId "vk")),
        ("witnessPath", .str (sidecarPath dir callId "witness"))] ∧
      fs.read last (sidecarPath dir callId "acir") = some own.acir ∧
      fs.read last (sidecarPath dir callId "vk") = some own.vk ∧
      fs.read last (sidecarPath dir callId "witness") =
        some (encodeWitnessBinaryV1 own.partialWitness) ∧
      Kept fs (.binaryV1 (some dir)) callId (callId + 1) state last := by
  rcases runFrom_bind_some ended with ⟨e, -, same⟩ | ⟨acirPath, state₁, wroteAcir, ended⟩
  · cases same
  rcases runFrom_bind_some ended with ⟨e, -, same⟩ | ⟨vkPath, state₂, wroteVk, ended⟩
  · cases same
  rcases runFrom_bind_some ended with ⟨e, -, same⟩ | ⟨witnessPath, state₃, wroteWitness, ended⟩
  · cases same
  cases ended
  obtain ⟨rfl, acir, others₁⟩ := written_part wroteAcir
  obtain ⟨rfl, vk, others₂⟩ := written_part wroteVk
  obtain ⟨rfl, witness, others₃⟩ := written_part wroteWitness
  have apart {label label' : String} (different : label ≠ label') :
      sidecarPath dir callId label ≠ sidecarPath dir callId label' :=
    fun same => different (sidecarPath_inj same).2
  refine ⟨rfl, ?_, ?_, witness, ?_⟩
  · rw [others₃ _ (apart (by decide)), others₂ _ (apart (by decide)), acir]
  · rw [others₃ _ (apart (by decide)), vk]
  · intro path outside
    have other (label : String) : path ≠ sidecarPath dir callId label := fun same =>
      outside callId label (Nat.le_refl _) (Nat.lt_succ_self _) (congrArg some same.symm)
    rw [others₃ _ (other _), others₂ _ (other _), others₁ _ (other _)]

/-- The parts of a call that are bytes can be read, with its files, from any JSON they are in. -/
theorem dataMembers_ok {callId : Nat} {own : ProvedData} {parts : List (String × Json)}
    {state last : τ} (small : own.partialWitness.entries.length < 2 ^ 32)
    (ended : (dataMembers fs base64 format callId own).runFrom state = some (.ok parts, last)) :
    Kept fs format callId (callId + 1) state last ∧
      ∀ files inner, AgreeOn fs format callId (callId + 1) files last →
        Shows base64 files (.obj (plainMembers own inner ++ parts)) own := by
  cases format with
  | json =>
    cases ended
    refine ⟨fun _ _ => rfl, fun files inner _ => shows_of_parts ?_ ?_ ?_⟩
    · rw [bytesAt, fileAt, get_part (by decide), get_part (by decide)]
      simp [List.lookup, Json.asStr, base64.decode_encode]
    · rw [bytesAt, fileAt, get_part (by decide), get_part (by decide)]
      simp [List.lookup, Json.asStr, base64.decode_encode]
    · rw [witnessAt, fileAt, get_part (by decide), get_part (by decide)]
      simpa [List.lookup] using readPairs_map own.partialWitness.entries
  | binaryV1 sidecarDir =>
    cases sidecarDir with
    | none => cases ended
    | some dir =>
      obtain ⟨rfl, acir, vk, witness, kept⟩ := written_parts ended
      refine ⟨kept, fun files inner agree => ?_⟩
      have found (label : String) :
          files (sidecarPath dir callId label) = fs.read last (sidecarPath dir callId label) :=
        agree callId label _ (Nat.le_refl _) (Nat.lt_succ_self _) rfl
      refine shows_of_parts ?_ ?_ ?_
      · rw [bytesAt, fileAt, get_part (by decide)]
        simp [List.lookup, Json.asStr, found, acir]
      · rw [bytesAt, fileAt, get_part (by decide)]
        simp [List.lookup, Json.asStr, found, vk]
      · rw [witnessAt, fileAt, get_part (by decide)]
        simp [List.lookup, Json.asStr, found, witness, readWitness_encode small]

mutual

/-- How many calls there are in a call, itself included. -/
def count : ProvedCall → Nat
  | ⟨_, nested⟩ => countAll nested + 1

/-- How many calls there are in a list of calls. -/
def countAll : List ProvedCall → Nat
  | [] => 0
  | call :: rest => count call + countAll rest

end

mutual

/-- The witnesses of a call and of all calls in it have fewer entries than there are indices. -/
def Small : ProvedCall → Prop
  | ⟨own, nested⟩ => own.partialWitness.entries.length < 2 ^ 32 ∧ SmallAll nested

/-- Those of a list of calls do. -/
def SmallAll : List ProvedCall → Prop
  | [] => True
  | call :: rest => Small call ∧ SmallAll rest

end

variable (fs base64 format) in
/-- What was written of calls: they are numbered one after the other, only their files were
written, and they are read back with these files. -/
def WrittenAs (size : Nat) (denotes : (String → Option (List UInt8)) → Prop) (first next : Nat)
    (state last : τ) : Prop :=
  next = first + size ∧ Kept fs format first next state last ∧
    ∀ files, AgreeOn fs format first next files last → denotes files

mutual

theorem written_call (call : ProvedCall) {first next : Nat} {json : Json} {state last : τ}
    (small : Small call)
    (ended : (kernelProofCallJson fs base64 format call first).runFrom state =
      some (.ok (json, next), last)) :
    WrittenAs fs format (count call) (fun files => Denotes base64 files json call) first next state
      last := by
  obtain ⟨own, nested⟩ := call
  rcases runFrom_bind_some ended with ⟨e, -, same⟩ | ⟨⟨items, after⟩, mid, ranNested, ended⟩
  · cases same
  rcases runFrom_bind_some ended with ⟨e, -, same⟩ | ⟨parts, state', ranOwn, ended⟩
  · cases same
  cases ended
  obtain ⟨numbered, keptNested, inside⟩ := written_calls nested small.2 ranNested
  obtain ⟨keptOwn, shows⟩ := dataMembers_ok small.1 ranOwn
  have own_ : first + 1 ≤ after := by omega
  refine ⟨?_, kept_both keptNested keptOwn (Nat.le_succ _) (Nat.le_refl _) (Nat.le_refl _) own_,
    fun files agree => ?_⟩
  · rw [count, numbered]
    omega
  · have ownFiles := agreeOn_part agree (kept_refl after after last) (.inl own_) (Nat.le_refl _)
      own_
    have innerFiles := agreeOn_part agree keptOwn (.inr (Nat.le_refl _)) (Nat.le_succ _)
      (Nat.le_refl after)
    exact .call (shows files items ownFiles) rfl (inside files innerFiles)

theorem written_calls (calls : List ProvedCall) {first next : Nat} {items : List Json}
    {state last : τ} (small : SmallAll calls)
    (ended : (nestedCallsJson fs base64 format calls first).runFrom state =
      some (.ok (items, next), last)) :
    WrittenAs fs format (countAll calls) (fun files => DenotesAll base64 files items calls) first
      next state last := by
  cases calls with
  | nil =>
    cases ended
    exact ⟨rfl, kept_refl _ _ _, fun _ _ => .nil⟩
  | cons call rest =>
    rcases runFrom_bind_some ended with ⟨e, -, same⟩ | ⟨⟨json, mid⟩, state', ranFirst, ended⟩
    · cases same
    rcases runFrom_bind_some ended with ⟨e, -, same⟩ | ⟨⟨others, after⟩, last', ranRest, ended⟩
    · cases same
    cases ended
    obtain ⟨numbered, kept, inside⟩ := written_call call small.1 ranFirst
    obtain ⟨numbered', kept', inside'⟩ := written_calls rest small.2 ranRest
    have low : first ≤ mid := by omega
    have high : mid ≤ after := by omega
    refine ⟨?_, kept_both kept kept' (Nat.le_refl _) high low (Nat.le_refl _),
      fun files agree => ?_⟩
    · rw [countAll, numbered', numbered, Nat.add_assoc]
    · have firstFiles := agreeOn_part agree kept' (.inl (Nat.le_refl _)) (Nat.le_refl _) high
      have restFiles := agreeOn_part agree (kept_refl after after last) (.inl (Nat.le_refl _)) low
        (Nat.le_refl _)
      exact .cons (inside files firstFiles) (inside' files restFiles)

end

/-- JSON that says two things of a call says one. -/
theorem shows_unique {files : String → Option (List UInt8)} {json : Json} {own other : ProvedData}
    (shows : Shows base64 files json own) (shows' : Shows base64 files json other) :
    own = other := by
  obtain ⟨acir, vk, ⟨entries, sorted⟩, fields, least, start, finish, values, counters⟩ := own
  obtain ⟨acir', vk', ⟨entries', sorted'⟩, fields', least', start', finish', values', counters'⟩ :=
    other
  have same {α : Type} {read : Option α} {a b : α} (first : read = some a)
      (second : read = some b) : a = b := Option.some.inj (first.symm.trans second)
  cases same shows.acir shows'.acir
  cases same shows.vk shows'.vk
  cases same shows.partialWitness shows'.partialWitness
  cases same shows.publicInputsFields shows'.publicInputsFields
  cases same shows.minRevertible shows'.minRevertible
  cases same shows.start shows'.start
  cases same shows.finish shows'.finish
  cases same shows.returnValues shows'.returnValues
  cases same shows.counters shows'.counters
  rfl

mutual

theorem denotes_unique {files : String → Option (List UInt8)} {json : Json}
    {call other : ProvedCall} (denotes : Denotes base64 files json call)
    (denotes' : Denotes base64 files json other) : call = other := by
  cases denotes with
  | call shows list inside =>
    cases denotes' with
    | call shows' list' inside' =>
      cases Option.some.inj (list.symm.trans list')
      rw [shows_unique shows shows', denotesAll_unique inside inside']

theorem denotesAll_unique {files : String → Option (List UInt8)} {items : List Json}
    {calls others : List ProvedCall} (denotes : DenotesAll base64 files items calls)
    (denotes' : DenotesAll base64 files items others) : calls = others := by
  cases denotes with
  | nil =>
    cases denotes'
    rfl
  | cons first rest =>
    cases denotes' with
    | cons first' rest' => rw [denotes_unique first first', denotesAll_unique rest rest']

end

/-- The request for a call says, with the files it names, what the call and every call in it
are and nothing else; its files are numbered from the first number on, and no other file is
touched. -/
theorem kernel_proof_call_json_read_back {call : ProvedCall} {first next : Nat} {json : Json}
    {state last : τ} (small : Small call)
    (ended : (kernelProofCallJson fs base64 format call first).runFrom state =
      some (.ok (json, next), last)) :
    next = first + count call ∧ Kept fs format first next state last ∧
      ∀ other, Denotes base64 (fs.read last) json other ↔ other = call := by
  obtain ⟨numbered, kept, denotes⟩ := written_call call small ended
  have own := denotes (fs.read last) fun _ _ _ _ _ _ => rfl
  refine ⟨numbered, kept, fun other => ⟨fun said => denotes_unique said own, ?_⟩⟩
  rintro rfl
  exact own

end Files

section Sample

/-- Files in a list, the last written first. -/
def listedFiles : FileStore (List (String × List UInt8)) where
  write := fun path bytes files => (.ok (), (path, bytes) :: files)
  read := fun files path => files.lookup path
  read_written := by
    rintro path bytes state next ⟨⟩
    exact List.lookup_cons_self
  read_other := by
    rintro path bytes state result next other ⟨⟩ different
    rw [List.lookup_cons, beq_eq_false_iff_ne.mpr different]

theorem toNat_latin (byte : UInt8) : (Char.ofNat byte.toNat).toNat = byte.toNat := by
  have valid : byte.toNat.isValidChar := .inl (byte.toNat_lt.trans (by decide))
  rw [Char.toNat_ofNat, if_pos valid]

/-- A character for each byte. -/
def latin : Base64 where
  encode := fun bytes => String.ofList (bytes.map fun byte => Char.ofNat byte.toNat)
  decode := fun text => some (text.toList.map fun c => UInt8.ofNat c.toNat)
  decode_encode := by
    intro bytes
    rw [String.toList_ofList, List.map_map]
    refine congrArg some ((List.map_congr_left fun byte _ => ?_).trans (List.map_id bytes))
    simp [toNat_latin]

/-- A call with one byte of code. -/
def sampleCall (code : UInt8) (nested : List ProvedCall) : ProvedCall :=
  ⟨{ acir := [code], vk := [], partialWitness := ⟨[(4, 7)], List.pairwise_singleton _ _⟩ }, nested⟩

theorem nested_calls_read_back : ∃ json last,
    (kernelProofCallJson listedFiles latin (.binaryV1 (some "/work"))
      (sampleCall 1 [sampleCall 2 [], sampleCall 3 [sampleCall 4 []]]) 0).runFrom [] =
        some (.ok (json, 4), last) ∧
      ∀ other, Denotes latin (listedFiles.read last) json other ↔
        other = sampleCall 1 [sampleCall 2 [], sampleCall 3 [sampleCall 4 []]] := by
  obtain ⟨json, last, ended⟩ : ∃ json last,
      (kernelProofCallJson listedFiles latin (.binaryV1 (some "/work"))
        (sampleCall 1 [sampleCall 2 [], sampleCall 3 [sampleCall 4 []]]) 0).runFrom [] =
          some (.ok (json, 4), last) := ⟨_, _, rfl⟩
  have small : Small (sampleCall 1 [sampleCall 2 [], sampleCall 3 [sampleCall 4 []]]) := by
    simp [Small, SmallAll, sampleCall]
  exact ⟨json, last, ended, (kernel_proof_call_json_read_back small ended).2.2⟩

end Sample

end KernelRequest
end AztecPxe
