import AztecPxe.ExecutionPayload
import AztecPxe.Json

/-! The types and artifacts of `abi/types.rs` and the recursions of
`abi/checkers.rs` over them: which structs the codec treats as special, how many
fields a type takes, and which types are well formed. -/
namespace AztecPxe

/-- `AbiParameter`, over the type of its own kind of types. -/
structure Parameter (τ : Type) where
  name : String
  typ : τ
  visibility : Option String := none

/-- `abi/types.rs::AbiType`. -/
inductive AbiType where
  | field
  | boolean
  | integer (sign : String) (width : Nat)
  | array (element : AbiType) (length : Nat)
  | string (length : Nat)
  | struct (name : String) (fields : List (Parameter AbiType))
  | tuple (elements : List AbiType)

/-- `abi/types.rs::AbiParameter`. -/
abbrev AbiParameter := Parameter AbiType

namespace AbiType

/-- Induction over types, with every member of a struct or tuple at once. -/
theorem memberInduction {P : AbiType → Prop} (field : P .field) (boolean : P .boolean)
    (integer : ∀ sign width, P (.integer sign width))
    (array : ∀ element length, P element → P (.array element length))
    (string : ∀ length, P (.string length))
    (struct : ∀ name fields, (∀ p ∈ fields, P p.typ) → P (.struct name fields))
    (tuple : ∀ elements, (∀ t ∈ elements, P t) → P (.tuple elements)) (t : AbiType) : P t :=
  @AbiType.rec P (fun fields => ∀ p ∈ fields, P p.typ) (fun elements => ∀ t ∈ elements, P t)
    (fun p => P p.typ) field boolean integer array string struct tuple
    (fun _ inside => nomatch inside)
    (fun _ _ first rest p inside => (List.mem_cons.mp inside).elim (fun same => same ▸ first) (rest p))
    (fun _ inside => nomatch inside)
    (fun _ _ first rest t inside => (List.mem_cons.mp inside).elim (fun same => same ▸ first) (rest t))
    (fun _ _ _ held => held) t

/-- Induction over types, where a struct also has the elements of the arrays among its
members: a bounded vector is encoded by the elements of its storage. -/
@[induction_eliminator]
theorem storageInduction {P : AbiType → Prop} (field : P .field) (boolean : P .boolean)
    (integer : ∀ sign width, P (.integer sign width))
    (array : ∀ element length, P element → P (.array element length))
    (string : ∀ length, P (.string length))
    (struct : ∀ name fields, (∀ p ∈ fields, P p.typ) →
      (∀ p ∈ fields, ∀ element length, p.typ = .array element length → P element) →
      P (.struct name fields))
    (tuple : ∀ elements, (∀ t ∈ elements, P t) → P (.tuple elements)) (t : AbiType) : P t := by
  have both : P t ∧ ∀ element length, t = .array element length → P element := by
    induction t using memberInduction with
    | field => exact ⟨field, fun _ _ same => nomatch same⟩
    | boolean => exact ⟨boolean, fun _ _ same => nomatch same⟩
    | integer sign width => exact ⟨integer sign width, fun _ _ same => nomatch same⟩
    | string length => exact ⟨string length, fun _ _ same => nomatch same⟩
    | array element length ih =>
      refine ⟨array element length ih.1, fun element' length' same => ?_⟩
      cases same
      exact ih.1
    | struct name fields ih =>
      exact ⟨struct name fields (fun p inside => (ih p inside).1) (fun p inside => (ih p inside).2),
        fun _ _ same => nomatch same⟩
    | tuple elements ih =>
      exact ⟨tuple elements (fun t inside => (ih t inside).1), fun _ _ same => nomatch same⟩
  exact both.1

mutual

/-- `types.rs::abi_type_signature`. -/
def signature : AbiType → String
  | .field => "Field"
  | .boolean => "bool"
  | .integer sign width => (if sign = "signed" then "i" else "u") ++ toString width
  | .array element length => "[" ++ signature element ++ ";" ++ toString length ++ "]"
  | .string length => "str<" ++ toString length ++ ">"
  | .struct _ fields => "(" ++ ",".intercalate (memberSignatures fields) ++ ")"
  | .tuple elements => "(" ++ ",".intercalate (signatures elements) ++ ")"

/-- The signatures of a list of types. -/
def signatures : List AbiType → List String
  | [] => []
  | t :: rest => signature t :: signatures rest

/-- The signatures of the members of a struct. -/
def memberSignatures : List (Parameter AbiType) → List String
  | [] => []
  | ⟨_, t, _⟩ :: rest => signature t :: memberSignatures rest

end

/-- `str::ends_with`. -/
def endsWith (name tail : String) : Bool := tail.toList.isSuffixOf name.toList

/-- `is_aztec_address_struct`. -/
def isAztecAddressStruct : AbiType → Bool
  | .struct name _ => endsWith name "address::AztecAddress"
  | _ => false

/-- `is_eth_address_struct`. -/
def isEthAddressStruct : AbiType → Bool
  | .struct name _ => endsWith name "address::EthAddress"
  | _ => false

/-- `is_address_struct`. -/
def isAddressStruct (typ : AbiType) : Bool := typ.isAztecAddressStruct || typ.isEthAddressStruct

/-- `is_function_selector_struct`. -/
def isFunctionSelectorStruct : AbiType → Bool
  | .struct name _ => endsWith name "function_selector::FunctionSelector"
  | _ => false

/-- `is_wrapped_field_struct`. -/
def isWrappedFieldStruct : AbiType → Bool
  | .struct _ [⟨"inner", .field, _⟩] => true
  | _ => false

/-- `is_bounded_vec_struct`. -/
def isBoundedVecStruct : AbiType → Bool
  | .struct name [⟨"storage", _, _⟩, ⟨"len", _, _⟩] => endsWith name "bounded_vec::BoundedVec"
  | _ => false

/-- `is_option_struct`. -/
def isOptionStruct : AbiType → Bool
  | .struct name [⟨"_is_some", _, _⟩, ⟨"_value", _, _⟩] => endsWith name "option::Option"
  | _ => false

mutual

/-- `abi_type_size`, in the arithmetic of `usize`. -/
def size : AbiType → Nat
  | .field | .boolean | .integer _ _ => 1
  | .string length => length % 2 ^ 64
  | .array element length => length * size element % 2 ^ 64
  | .struct _ fields => memberSizes fields
  | .tuple elements => sizes elements

/-- The sum of the sizes of a list of types. -/
def sizes : List AbiType → Nat
  | [] => 0
  | t :: rest => (size t + sizes rest) % 2 ^ 64

/-- The sum of the sizes of the members of a struct. -/
def memberSizes : List (Parameter AbiType) → Nat
  | [] => 0
  | ⟨_, t, _⟩ :: rest => (size t + memberSizes rest) % 2 ^ 64

end

theorem sizes_lt (elements : List AbiType) : sizes elements < 2 ^ 64 := by
  cases elements with
  | nil => decide
  | cons t rest => exact Nat.mod_lt _ (by decide)

theorem memberSizes_eq (members : List AbiParameter) :
    memberSizes members = sizes (members.map (·.typ)) := by
  induction members with
  | nil => rfl
  | cons p rest ih =>
    rw [List.map_cons, sizes, ← ih]
    rfl

theorem size_lt (t : AbiType) : t.size < 2 ^ 64 := by
  cases t with
  | field => decide
  | boolean => decide
  | integer sign width => exact (by decide : 1 < 2 ^ 64)
  | array element length => exact Nat.mod_lt _ (by decide)
  | string length => exact Nat.mod_lt _ (by decide)
  | struct name members =>
    rw [size, memberSizes_eq]
    exact sizes_lt _
  | tuple elements => exact sizes_lt _

mutual

/-- `validate_abi_type`: what is wrong with a type, each under its path. -/
def validate : AbiType → String → List String
  | .field, _ | .boolean, _ => []
  | .integer _ width, path => if width = 0 then [path ++ ": integer width must be > 0"] else []
  | .string length, path => if length = 0 then [path ++ ": string length must be > 0"] else []
  | .array element length, path =>
    (if length = 0 then [path ++ ": array length must be > 0"] else []) ++
      validate element (path ++ "[]")
  | .struct name fields, path =>
    (if name = "" then [path ++ ": struct name must not be empty"] else []) ++
      (if fields.isEmpty then [path ++ ": struct '" ++ name ++ "' must have at least one field"]
        else []) ++
      validateMembers fields path
  | .tuple elements, path =>
    (if elements.isEmpty then [path ++ ": tuple must have at least one element"] else []) ++
      validateElements elements path 0

/-- What is wrong with the members of a struct. -/
def validateMembers : List (Parameter AbiType) → String → List String
  | [], _ => []
  | ⟨name, t, _⟩ :: rest, path => validate t (path ++ "." ++ name) ++ validateMembers rest path

/-- What is wrong with the elements of a tuple, from this position on. -/
def validateElements : List AbiType → String → Nat → List String
  | [], _, _ => []
  | t :: rest, path, i =>
    validate t (path ++ "." ++ toString i) ++ validateElements rest path (i + 1)

end

end AbiType

namespace Abi

/-- `abi/types.rs::FunctionArtifact`, as far as the codec, the hashes and the stores
read it. -/
structure FunctionArtifact where
  name : String
  functionType : FunctionType
  parameters : List AbiParameter := []
  returnTypes : List AbiType := []
  selector : Option FunctionSelector := none
  bytecode : Option String := none
  verificationKeyHash : Option Fr := none
  isUnconstrained : Option Bool := none

/-- `abi/types.rs::ContractArtifact`, as far as the hashes and the stores read it. -/
structure ContractArtifact where
  name : String
  functions : List FunctionArtifact := []
  outputs : Option Json := none

namespace FunctionArtifact

/-- `count_arguments_size`. -/
def countArgumentsSize (function : FunctionArtifact) : Nat := AbiType.memberSizes function.parameters

variable (poseidon2 : List Fr → Fr)

/-- `FunctionSelector::from_name_and_parameters`. -/
def selectorFromNameAndParameters (name : String) (params : List AbiParameter) : FunctionSelector :=
  Hash.selectorFromSignature poseidon2
    (name ++ "(" ++ ",".intercalate (AbiType.memberSignatures params) ++ ")")

/-- The selector a function carries, or else the one of its signature. -/
def selectorOr (function : FunctionArtifact) : FunctionSelector :=
  function.selector.getD (selectorFromNameAndParameters poseidon2 function.name function.parameters)

end FunctionArtifact
end Abi
end AztecPxe
