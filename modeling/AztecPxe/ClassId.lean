import AztecPxe.FunctionTree

/-! The class id of a contract artifact, `core/src/hash.rs`: what is hashed of the
functions' bytecode and return types, of the artifact's name and outputs, of the
private function tree and of the packed public bytecode. SHA-256 and base64 are
parameters beside Poseidon2. -/
namespace AztecPxe.ClassId
open AztecPxe Abi FunctionTree

/-- `serde_json::to_string` of a string. -/
def jsonString (text : String) : String :=
  let escape (c : Char) : String :=
    if c = '"' then "\\\"" else if c = '\\' then "\\\\"
    else if c.toNat = 8 then "\\b" else if c.toNat = 9 then "\\t" else if c.toNat = 10 then "\\n"
    else if c.toNat = 12 then "\\f" else if c.toNat = 13 then "\\r"
    else if c.toNat < 32 then "\\u" ++ String.ofList ((hexDigits 4 c.toNat).toList.drop 2)
    else String.singleton c
  "\"" ++ String.join (text.toList.map escape) ++ "\""

/-- The members of an object, by name. -/
def sortByName (members : List (String × String)) : List (String × String) :=
  members.mergeSort (fun a b => decide (a.1 ≤ b.1))

mutual

/-- `canonical_json_string`. -/
def canonicalJsonString : Json → String
  | .null => "null"
  | .bool flag => toString flag
  | .posInt n => toString n.toNat
  | .negInt n => toString n
  | .float text => text
  | .str text => jsonString text
  | .arr items => "[" ++ ",".intercalate (canonicalItems items) ++ "]"
  | .obj members =>
    let inner := (sortByName (canonicalMembers members)).map (fun entry =>
      jsonString entry.1 ++ ":" ++ entry.2)
    "\x7b" ++ ",".intercalate inner ++ "\x7d"

/-- The texts of the items of an array. -/
def canonicalItems : List Json → List String
  | [] => []
  | item :: rest => canonicalJsonString item :: canonicalItems rest

/-- The names and texts of the members of an object. -/
def canonicalMembers : List (String × Json) → List (String × String)
  | [] => []
  | (name, value) :: rest => (name, canonicalJsonString value) :: canonicalMembers rest

end

mutual

/-- `AbiType` as `serde` writes it. -/
def typeToJson : AbiType → Json
  | .field => .obj [("kind", .str "field")]
  | .boolean => .obj [("kind", .str "boolean")]
  | .integer sign width =>
    .obj [("kind", .str "integer"), ("sign", .str sign), ("width", .posInt (UInt64.ofNat width))]
  | .array element length => .obj [("kind", .str "array"), ("type", typeToJson element),
      ("length", .posInt (UInt64.ofNat length))]
  | .string length => .obj [("kind", .str "string"), ("length", .posInt (UInt64.ofNat length))]
  | .struct name fields =>
    .obj [("kind", .str "struct"), ("name", .str name), ("fields", .arr (parametersToJson fields))]
  | .tuple elements => .obj [("kind", .str "tuple"), ("elements", .arr (typesToJson elements))]

/-- A list of types as `serde` writes it. -/
def typesToJson : List AbiType → List Json
  | [] => []
  | t :: rest => typeToJson t :: typesToJson rest

/-- A list of `AbiParameter`s as `serde` writes it. -/
def parametersToJson : List (Parameter AbiType) → List Json
  | [] => []
  | ⟨name, t, visibility⟩ :: rest =>
    .obj [("name", .str name), ("type", typeToJson t),
      ("visibility", (visibility.map Json.str).getD .null)] :: parametersToJson rest

end

/-- `hex::decode`. -/
def hexDecode : List Char → Option (List UInt8)
  | [] => some []
  | [_] => none
  | high :: low :: rest => do
    let high ← toDigit high 16
    let low ← toDigit low 16
    let bytes ← hexDecode rest
    return UInt8.ofNat (high * 16 + low) :: bytes

/-- Bytes read as one number, the first the highest. -/
def fromBeBytes (bytes : List UInt8) : Nat := bytes.foldl (fun value byte => value * 256 + byte.toNat) 0

/-- `Fr::to_be_bytes`. -/
def toBeBytes (value : Fr) : List UInt8 :=
  (List.range 32).reverse.map (fun i => UInt8.ofNat (value.val / 256 ^ i))

/-- The hashes an artifact goes through and the base64 decoder. -/
structure Digests where
  poseidon2 : List Fr → Fr
  sha256 : List UInt8 → Fin (2 ^ 256)
  base64 : String → Option (List UInt8)

section Hashes
variable (digests : Digests)

/-- `sha256_to_field`: the first thirty-one bytes. -/
def sha256ToField (data : List UInt8) : Fr := Fin.ofNat frModulus ((digests.sha256 data).val / 256)

/-- `sha256_merkle_root`. -/
def sha256MerkleRoot (leaves : List Fr) : Fr :=
  MerkleTree.root (fun left right => sha256ToField digests (toBeBytes left ++ toBeBytes right)) 0
    leaves

/-- `decode_artifact_bytes`. -/
def decodeArtifactBytes (encoded : String) : List UInt8 :=
  let decoded := match encoded.toList with
    | '0' :: 'x' :: hex => hexDecode hex
    | _ => digests.base64 encoded
  decoded.getD encoded.toUTF8.toList

/-- `compute_function_metadata_hash`. -/
def computeFunctionMetadataHash (function : FunctionArtifact) : Fr :=
  sha256ToField digests
    (canonicalJsonString (.arr (typesToJson function.returnTypes))).toUTF8.toList

/-- `compute_function_bytecode_hash`. -/
def computeFunctionBytecodeHash (function : FunctionArtifact) : Fr :=
  match function.bytecode with
  | some bytecode =>
    if bytecode = "" then 0 else sha256ToField digests (decodeArtifactBytes digests bytecode)
  | none => 0

/-- The leaf of a function in the artifact tree. -/
def artifactFunctionLeaf (function : FunctionArtifact) : Fr :=
  let selector := function.selectorOr digests.poseidon2
  sha256ToField digests ([1] ++
    (List.range 4).reverse.map (fun i => UInt8.ofNat (selector.bytes.val / 256 ^ i)) ++
    toBeBytes (computeFunctionMetadataHash digests function) ++
    toBeBytes (computeFunctionBytecodeHash digests function))

/-- `compute_artifact_function_tree_root`. -/
def computeArtifactFunctionTreeRoot (artifact : ContractArtifact) (unconstrained : Bool) : Fr :=
  let functions := artifact.functions.filter (fun function =>
    if unconstrained then
      function.functionType = .utility || function.isUnconstrained = some true
    else function.functionType = .privateFunction)
  if functions.isEmpty then 0
  else
    let leaves := functions.map (artifactFunctionLeaf digests)
    sha256MerkleRoot digests (resize leaves (2 ^ Nat.clog 2 leaves.length) 0)

/-- `compute_artifact_metadata_hash`. -/
def computeArtifactMetadataHash (artifact : ContractArtifact) : Fr :=
  let outputs := artifact.outputs.toList.map (fun outputs => ("outputs", outputs))
  sha256ToField digests
    (canonicalJsonString (.obj (("name", .str artifact.name) :: outputs))).toUTF8.toList

/-- `compute_artifact_hash`. -/
def computeArtifactHash (artifact : ContractArtifact) : Fr :=
  sha256ToField digests ([1] ++
    toBeBytes (computeArtifactFunctionTreeRoot digests artifact false) ++
    toBeBytes (computeArtifactFunctionTreeRoot digests artifact true) ++
    toBeBytes (computeArtifactMetadataHash digests artifact))

/-- `extract_packed_public_bytecode`. -/
def extractPackedPublicBytecode (artifact : ContractArtifact) : List UInt8 :=
  ((artifact.functions.find? (fun function =>
    function.functionType = .publicFunction && function.name = "public_dispatch")).bind
      (·.bytecode)).elim [] (decodeArtifactBytes digests)

/-- `compute_public_bytecode_commitment`, with `domain_separator::PUBLIC_BYTECODE`, or
nothing where the bytecode fails the assertion on its size. -/
def computePublicBytecodeCommitment (packedBytecode : List UInt8) : Option Fr :=
  let chunks := packedBytecode.toChunks 31
  if chunks.length < 3000 then
    let fields := chunks.map (fun chunk =>
      Fin.ofNat frModulus (fromBeBytes chunk * 256 ^ (31 - chunk.length)))
    let separator := Fr.ofU64 (260313585 + packedBytecode.length * 2 ^ 32)
    some (Hash.poseidon2HashWithSeparator digests.poseidon2 fields separator)
  else none

/-- `compute_contract_class_id_from_artifact`, or nothing where it panics; there is
no other way it fails. -/
def computeContractClassIdFromArtifact (artifact : ContractArtifact) : Option Fr := do
  let commitment ← computePublicBytecodeCommitment digests
    (extractPackedPublicBytecode digests artifact)
  return Hash.computeContractClassId digests.poseidon2 (computeArtifactHash digests artifact)
    (computePrivateFunctionsRoot digests.poseidon2 (privateFns digests.poseidon2 artifact)) commitment

end Hashes
end AztecPxe.ClassId
