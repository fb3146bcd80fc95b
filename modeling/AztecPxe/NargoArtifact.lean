import AztecPxe.AbiRoundTrip
import AztecPxe.OracleExecution
import AztecPxe.TxConstants

/-! Artifacts as the compiler writes them, read by `from_nargo_json` of `abi/types.rs`. A
parameter or member that cannot be read is left out, and a private function's context
inputs are counted and dropped; of what the compiler writes nothing else is lost, and the
fields of all parameters are those of the context and of the arguments. -/
namespace AztecPxe

namespace Json

mutual

/-- How deep a value is nested. -/
def depth : Json → Nat
  | .arr items => itemsDepth items + 1
  | .obj members => membersDepth members + 1
  | _ => 1

/-- The depth of the deepest item. -/
def itemsDepth : List Json → Nat
  | [] => 0
  | item :: rest => max (depth item) (itemsDepth rest)

/-- The depth of the deepest member. -/
def membersDepth : List (String × Json) → Nat
  | [] => 0
  | (_, value) :: rest => max (depth value) (membersDepth rest)

end

theorem depth_le_itemsDepth {items : List Json} {item : Json} (inside : item ∈ items) :
    depth item ≤ itemsDepth items := by
  induction items with
  | nil => cases inside
  | cons first rest ih =>
    rcases List.mem_cons.mp inside with rfl | later
    · exact Nat.le_max_left _ _
    · exact Nat.le_trans (ih later) (Nat.le_max_right _ _)

theorem depth_le_membersDepth {members : List (String × Json)} {name : String} {value : Json}
    (found : members.lookup name = some value) : depth value ≤ membersDepth members := by
  induction members with
  | nil => cases found
  | cons first rest ih =>
    obtain ⟨other, inner⟩ := first
    rw [List.lookup_cons] at found
    split at found
    · cases found
      exact Nat.le_max_left _ _
    · exact Nat.le_trans (ih found) (Nat.le_max_right _ _)

theorem depth_lt_of_get {value inner : Json} {name : String}
    (found : value.get name = some inner) : depth inner < depth value := by
  cases value with
  | obj members => exact Nat.lt_succ_of_le (depth_le_membersDepth found)
  | _ => cases found

theorem depth_lt_of_item {value item : Json} {items : List Json}
    (isArray : value.asArray = some items) (inside : item ∈ items) : depth item < depth value := by
  cases value with
  | arr all =>
    cases isArray
    exact Nat.lt_succ_of_le (depth_le_itemsDepth inside)
  | _ => cases isArray

end Json

namespace NargoArtifact
open AbiType

/-! ## Types and parameters -/

section Types
variable (parseType : Json → Option AbiType)

/-- `parse_nargo_parameter`, over the reading of its type. -/
def parameterOf (raw : Json) : Option AbiParameter := do
  let name ← (← raw.get "name").asStr
  let typ ← (raw.get "type").bind parseType
  some ⟨name, typ, (raw.get "visibility").bind Json.asStr⟩

/-- The `length` of an array or a string. -/
def lengthOf (raw : Json) : Nat := ((raw.get "length").bind Json.asU64).getD 0

/-- The element of an array. -/
def elementOf (raw : Json) : Option AbiType :=
  ((raw.get "type").or (raw.get "element")).bind parseType

/-- The members of a struct that can be read. -/
def fieldsOf (raw : Json) : Option (List AbiParameter) :=
  ((raw.get "fields").bind Json.asArray).map (List.filterMap (parameterOf parseType))

/-- The elements of a tuple that can be read. -/
def elementsOf (raw : Json) : Option (List AbiType) :=
  (((raw.get "fields").or (raw.get "elements")).bind Json.asArray).map (List.filterMap parseType)

/-- `parse_nargo_type`, over the reading of the types inside. -/
def typeOf (raw : Json) : Option AbiType := do
  let kind ← (← raw.get "kind").asStr
  if kind = "field" then some .field
  else if kind = "boolean" then some .boolean
  else if kind = "integer" then
    some (.integer (((raw.get "sign").bind Json.asStr).getD "unsigned")
      (((raw.get "width").bind Json.asU64).getD 32 % 2 ^ 16))
  else if kind = "array" then
    (elementOf parseType raw).map fun element => .array element (lengthOf raw)
  else if kind = "string" then some (.string (lengthOf raw))
  else if kind = "struct" then
    (fieldsOf parseType raw).map (.struct (((raw.get "path").bind Json.asStr).getD "Unknown"))
  else if kind = "tuple" then (elementsOf parseType raw).map .tuple
  else some .field

end Types

/-- `parse_nargo_type`, on values of at most this depth. -/
def parseNargoTypeWithin : Nat → Json → Option AbiType
  | 0, _ => none
  | depth + 1, raw => typeOf (parseNargoTypeWithin depth) raw

/-- `parse_nargo_type`. -/
def parseNargoType (raw : Json) : Option AbiType := parseNargoTypeWithin raw.depth raw

/-- `parse_nargo_parameter`. -/
def parseNargoParameter : Json → Option AbiParameter := parameterOf parseNargoType

theorem parameterOf_congr {f g : Json → Option AbiType} {raw : Json}
    (same : ∀ inner, inner.depth < raw.depth → f inner = g inner) :
    parameterOf f raw = parameterOf g raw := by
  unfold parameterOf
  cases typ : raw.get "type" with
  | none => rfl
  | some inner => simp only [Option.bind_some, same inner (Json.depth_lt_of_get typ)]

theorem depth_lt_of_found {raw field item : Json} {name : String} {items : List Json}
    (found : raw.get name = some field) (isArray : field.asArray = some items)
    (inside : item ∈ items) : item.depth < raw.depth :=
  (Json.depth_lt_of_item isArray inside).trans (Json.depth_lt_of_get found)

/-- The items of an array found under a name are read alike by readers that agree on what
is less deep. -/
theorem readItems_congr {α : Type} {f g : Json → Option α} {raw : Json} {name : String}
    (same : ∀ inner, inner.depth < raw.depth → f inner = g inner) :
    ((raw.get name).bind Json.asArray).map (List.filterMap f) =
      ((raw.get name).bind Json.asArray).map (List.filterMap g) := by
  cases found : raw.get name with
  | none => rfl
  | some field =>
    cases isArray : field.asArray with
    | none => simp [isArray]
    | some items =>
      simp only [Option.bind_some, isArray, Option.map_some, Option.some.injEq]
      exact List.filterMap_congr fun item inside =>
        same item (depth_lt_of_found found isArray inside)

/-- A type is read off values that are less deep only. -/
theorem typeOf_congr {f g : Json → Option AbiType} {raw : Json}
    (same : ∀ inner, inner.depth < raw.depth → f inner = g inner) :
    typeOf f raw = typeOf g raw := by
  have element : elementOf f raw = elementOf g raw := by
    unfold elementOf
    cases typ : raw.get "type" with
    | some inner => exact same inner (Json.depth_lt_of_get typ)
    | none =>
      cases elem : raw.get "element" with
      | some inner => exact same inner (Json.depth_lt_of_get elem)
      | none => rfl
  have fields : fieldsOf f raw = fieldsOf g raw :=
    readItems_congr fun inner smaller =>
      parameterOf_congr fun typ deeper => same typ (deeper.trans smaller)
  have elements : elementsOf f raw = elementsOf g raw := by
    unfold elementsOf
    cases found : raw.get "fields" with
    | none => exact readItems_congr same
    | some field =>
      have read := @readItems_congr _ f g raw "fields" same
      rw [found] at read
      exact read
  unfold typeOf
  rw [element, fields, elements]

theorem parseNargoTypeWithin_eq {depth : Nat} {raw : Json} (enough : raw.depth ≤ depth) :
    parseNargoTypeWithin depth raw = parseNargoType raw := by
  have agree (n m : Nat) : ∀ raw : Json, raw.depth ≤ n → raw.depth ≤ m →
      parseNargoTypeWithin n raw = parseNargoTypeWithin m raw := by
    induction n generalizing m with
    | zero =>
      intro raw shallow _
      cases raw <;> simp [Json.depth] at shallow
    | succ n ih =>
      intro raw shallow enough
      cases m with
      | zero => cases raw <;> simp [Json.depth] at enough
      | succ m =>
        exact typeOf_congr fun inner smaller => ih m inner (by omega) (by omega)
  exact agree _ _ raw enough (Nat.le_refl _)

/-- The recursion of `parse_nargo_type`. -/
theorem parseNargoType_eq (raw : Json) : parseNargoType raw = typeOf parseNargoType raw := by
  have unrolled : parseNargoTypeWithin (raw.depth + 1) raw = typeOf parseNargoType raw :=
    typeOf_congr fun inner smaller => parseNargoTypeWithin_eq (Nat.le_of_lt smaller)
  rw [← unrolled, parseNargoTypeWithin_eq (Nat.le_succ _)]

/-! ## What the compiler writes -/

/-- A number as the compiler writes it. -/
def number (n : Nat) : Json := .posInt (UInt64.ofNat n)

/-- A member that is written where there is a value for it. -/
def shown (name : String) : Option Json → List (String × Json)
  | some value => [(name, value)]
  | none => []

@[simp] theorem lookup_shown_append (name other : String) (value : Option Json)
    (rest : List (String × Json)) :
    (shown name value ++ rest).lookup other =
      if other = name then value.or (rest.lookup other) else rest.lookup other := by
  cases value with
  | none => simp [shown]
  | some inner =>
    by_cases same : other = name
    · simp [shown, same]
    · have differs : (other == name) = false := beq_eq_false_iff_ne.mpr same
      simp [shown, List.lookup, differs, same]

@[simp] theorem lookup_shown (name other : String) (value : Option Json) :
    (shown name value).lookup other = if other = name then value else none := by
  have alone := lookup_shown_append name other value []
  rw [List.append_nil] at alone
  rw [alone]
  cases value <;> rfl

mutual

/-- A type as the compiler writes it. -/
def nargoType : AbiType → Json
  | .field => .obj [("kind", .str "field")]
  | .boolean => .obj [("kind", .str "boolean")]
  | .integer sign width =>
    .obj [("kind", .str "integer"), ("sign", .str sign), ("width", number width)]
  | .array element length =>
    .obj [("kind", .str "array"), ("length", number length), ("type", nargoType element)]
  | .string length => .obj [("kind", .str "string"), ("length", number length)]
  | .struct name fields =>
    .obj [("kind", .str "struct"), ("path", .str name), ("fields", .arr (nargoMembers fields))]
  | .tuple elements => .obj [("kind", .str "tuple"), ("fields", .arr (nargoElements elements))]

/-- Members or parameters as the compiler writes them. -/
def nargoMembers : List (Parameter AbiType) → List Json
  | [] => []
  | ⟨name, t, visibility⟩ :: rest =>
    .obj (("name", .str name) :: ("type", nargoType t) ::
      shown "visibility" (visibility.map .str)) :: nargoMembers rest

/-- The elements of a tuple as the compiler writes them. -/
def nargoElements : List AbiType → List Json
  | [] => []
  | t :: rest => nargoType t :: nargoElements rest

end

mutual

/-- The widths and lengths are those of the program's own types. -/
def Fits : AbiType → Prop
  | .field | .boolean => True
  | .integer _ width => width < 2 ^ 16
  | .array element length => Fits element ∧ length < 2 ^ 64
  | .string length => length < 2 ^ 64
  | .struct _ fields => FitsMembers fields
  | .tuple elements => FitsElements elements

/-- Those of every member are. -/
def FitsMembers : List (Parameter AbiType) → Prop
  | [] => True
  | ⟨_, t, _⟩ :: rest => Fits t ∧ FitsMembers rest

/-- Those of every element are. -/
def FitsElements : List AbiType → Prop
  | [] => True
  | t :: rest => Fits t ∧ FitsElements rest

end

theorem asU64_number {n : Nat} (small : n < 2 ^ 64) : (number n).asU64 = some n := by
  simpa [number, Json.asU64] using small

theorem lengthOf_number {members : List (String × Json)} {length : Nat}
    (found : members.lookup "length" = some (number length)) (small : length < 2 ^ 64) :
    lengthOf (.obj members) = length := by
  simp [lengthOf, Json.get, found, asU64_number small]

theorem parameterOf_member {t : AbiType} (read : parseNargoType (nargoType t) = some t)
    (name : String) (visibility : Option String) :
    parseNargoParameter (.obj
      (("name", .str name) :: ("type", nargoType t) :: shown "visibility" (visibility.map .str))) =
      some ⟨name, t, visibility⟩ := by
  have shown : ((Json.obj (("name", .str name) :: ("type", nargoType t) ::
      shown "visibility" (visibility.map .str))).get "visibility").bind Json.asStr =
        visibility := by
    cases visibility <;> simp [Json.get, List.lookup, Json.asStr]
  unfold parseNargoParameter parameterOf
  rw [shown]
  simp [Json.get, List.lookup, Json.asStr, read]

theorem readMembers {fields : List AbiParameter}
    (read : ∀ p ∈ fields, parseNargoType (nargoType p.typ) = some p.typ) :
    (nargoMembers fields).filterMap parseNargoParameter = fields := by
  induction fields with
  | nil => rfl
  | cons p rest ih =>
    rw [nargoMembers, List.filterMap_cons,
      parameterOf_member (read p List.mem_cons_self) p.name p.visibility,
      ih fun q inside => read q (List.mem_cons_of_mem _ inside)]

theorem readElements {elements : List AbiType}
    (read : ∀ t ∈ elements, parseNargoType (nargoType t) = some t) :
    (nargoElements elements).filterMap parseNargoType = elements := by
  induction elements with
  | nil => rfl
  | cons t rest ih =>
    rw [nargoElements, List.filterMap_cons, read t List.mem_cons_self,
      ih fun u inside => read u (List.mem_cons_of_mem _ inside)]

theorem fits_of_member {fields : List AbiParameter} (fits : FitsMembers fields) {p : AbiParameter}
    (inside : p ∈ fields) : Fits p.typ := by
  induction fields with
  | nil => cases inside
  | cons first rest ih =>
    rcases List.mem_cons.mp inside with rfl | later
    · exact fits.1
    · exact ih fits.2 later

theorem fits_of_element {elements : List AbiType} (fits : FitsElements elements) {t : AbiType}
    (inside : t ∈ elements) : Fits t := by
  induction elements with
  | nil => cases inside
  | cons first rest ih =>
    rcases List.mem_cons.mp inside with rfl | later
    · exact fits.1
    · exact ih fits.2 later

/-- What the compiler writes of a type is read back. -/
theorem parseNargoType_nargoType {t : AbiType} (fits : Fits t) :
    parseNargoType (nargoType t) = some t := by
  induction t using AbiType.memberInduction with
  | field => rfl
  | boolean => rfl
  | integer sign width =>
    have narrow : width < 2 ^ 16 := fits
    have small : width < 2 ^ 64 := Nat.lt_trans narrow (by decide)
    rw [parseNargoType_eq]
    simpa [typeOf, nargoType, Json.get, List.lookup, Json.asStr, asU64_number small] using narrow
  | array element length ih =>
    rw [parseNargoType_eq]
    simp [typeOf, nargoType, elementOf, Json.get, List.lookup, Json.asStr, ih fits.1,
      lengthOf_number _ fits.2]
  | string length =>
    rw [parseNargoType_eq]
    simp [typeOf, nargoType, Json.get, List.lookup, Json.asStr, lengthOf_number _ fits]
  | struct name fields ih =>
    have read := readMembers fun p inside => ih p inside (fits_of_member fits inside)
    rw [parseNargoType_eq]
    simp [typeOf, nargoType, fieldsOf, Json.get, List.lookup, Json.asStr, Json.asArray]
    exact read
  | tuple elements ih =>
    have read := readElements fun t inside => ih t inside (fits_of_element fits inside)
    rw [parseNargoType_eq]
    simp [typeOf, nargoType, elementsOf, Json.get, List.lookup, Json.asStr, Json.asArray, read]

/-! ## Functions and contracts -/

/-- `abi/types.rs::FunctionArtifact`, whole. -/
structure FunctionArtifact extends Abi.FunctionArtifact where
  isInitializer : Bool := false
  isStatic : Bool := false
  isOnlySelf : Option Bool := none
  errorTypes : Option Json := none
  verificationKey : Option String := none
  customAttributes : Option (List String) := none
  debugSymbols : Option Json := none

/-- `abi/types.rs::ContractArtifact`, whole. -/
structure ContractArtifact where
  name : String
  functions : List FunctionArtifact
  outputs : Option Json := none
  fileMap : Option Json := none
  contextInputsSizes : List (String × Nat) := []

namespace ContractArtifact

/-- `private_context_inputs_size`. -/
def privateContextInputsSize (artifact : ContractArtifact) (functionName : String) : Nat :=
  (artifact.contextInputsSizes.lookup functionName).getD 0

end ContractArtifact

/-- The type of a function by its attributes. -/
def functionTypeOf (attrs : List String) (isUnconstrained : Bool) : FunctionType :=
  if "abi_private" ∈ attrs then .privateFunction
  else if "abi_utility" ∈ attrs then .utility
  else if "abi_public" ∈ attrs then .publicFunction
  else if isUnconstrained then .utility
  else .privateFunction

/-- A name without the prefix of the internals; the longer prefix is never the one taken. -/
def publishedName (rawName : String) : String :=
  ((Route.stripPrefix rawName "__aztec_nr_internals__").or
    (Route.stripPrefix rawName "__aztec_nr_internals___")).getD rawName

/-- The parameter of a private function that holds its context. -/
def isContextInputs (raw : Json) : Bool :=
  ((raw.get "name").bind Json.asStr).getD "" = "inputs" &&
    decide ("PrivateContextInputs".toList <:+:
      (((raw.pointer ["type", "path"]).bind Json.asStr).getD "").toList)

/-- The parameters of a function, as they are written. -/
def rawParameters (raw : Json) : List Json :=
  (((raw.get "abi").bind (·.get "parameters")).bind Json.asArray).getD []

/-- The parameters kept of those written: a private function's context is not. -/
def keptParameters (functionType : FunctionType) (params : List Json) : List AbiParameter :=
  (params.filter fun p =>
    !(functionType = .privateFunction && isContextInputs p)).filterMap parseNargoParameter

section Functions
variable (poseidon2 : List Fr → Fr)

/-- `parse_nargo_function`. -/
def parseNargoFunction (raw : Json) : Option FunctionArtifact := do
  let rawName ← (← raw.get "name").asStr
  let attrs := ((raw.get "custom_attributes").bind (deserializeVec Json.asStr)).getD []
  let isUnconstrained := ((raw.get "is_unconstrained").bind Json.asBool).getD false
  let functionType := functionTypeOf attrs isUnconstrained
  let name := publishedName rawName
  let abi := raw.get "abi"
  let parameters := keptParameters functionType (rawParameters raw)
  some
    { name := name
      functionType := functionType
      isInitializer := "abi_initializer" ∈ attrs
      isStatic := "abi_view" ∈ attrs
      isOnlySelf := if "abi_only_self" ∈ attrs then some true else none
      parameters := parameters
      returnTypes := (((abi.bind (·.get "return_type")).bind (·.get "abi_type")).bind
        parseNargoType).toList
      errorTypes := abi.bind (·.get "error_types")
      selector := some
        (Abi.FunctionArtifact.selectorFromNameAndParameters poseidon2 name parameters)
      bytecode := (raw.get "bytecode").bind Json.asStr
      verificationKeyHash := ((raw.get "verification_key_hash").or
        (raw.get "verificationKeyHash")).bind Fr.deserialize
      verificationKey := ((raw.get "verification_key").or
        (raw.get "verificationKey")).bind Json.asStr
      customAttributes := some attrs
      isUnconstrained := some isUnconstrained
      debugSymbols := raw.get "debug_symbols" }

/-- The size of a parameter, if it is a context that can be read. -/
def contextSizeOf (raw : Json) : Option Nat :=
  if isContextInputs raw then ((raw.get "type").bind parseNargoType).map AbiType.size else none

/-- `HashMap::insert`. -/
def insertSize (sizes : List (String × Nat)) (name : String) (size : Nat) : List (String × Nat) :=
  (name, size) :: sizes.filter (·.1 ≠ name)

/-- One turn of the loop over a private function's parameters. -/
def recordSize (name : String) (sizes : List (String × Nat)) (raw : Json) :
    List (String × Nat) :=
  match contextSizeOf raw with
  | some size => insertSize sizes name size
  | none => sizes

/-- The functions read so far and the sizes of their contexts. -/
structure Reading where
  functions : List FunctionArtifact
  sizes : List (String × Nat)

/-- One turn of the loop over the functions. -/
def readFunction (reading : Reading) (raw : Json) : Reading :=
  match parseNargoFunction poseidon2 raw with
  | none => reading
  | some function =>
    { functions := reading.functions ++ [function]
      sizes := if function.functionType = .privateFunction then
          (rawParameters raw).foldl (recordSize function.name) reading.sizes
        else reading.sizes }

/-- The functions of a contract, as they are written. -/
def rawFunctions (raw : Json) : List Json := ((raw.get "functions").bind Json.asArray).getD []

/-- `from_nargo_json`, from the value its text holds. -/
def fromNargoJson (raw : Json) : ContractArtifact :=
  let reading := (rawFunctions raw).foldl (readFunction poseidon2) ⟨[], []⟩
  { name := ((raw.get "name").bind Json.asStr).getD "Unknown"
    functions := reading.functions
    outputs := raw.get "outputs"
    fileMap := raw.get "file_map"
    contextInputsSizes := reading.sizes }

/-! ## The sizes of contexts -/

theorem lookup_filter_of_ne {name other : String} (different : other ≠ name)
    (sizes : List (String × Nat)) :
    (sizes.filter (·.1 ≠ name)).lookup other = sizes.lookup other := by
  induction sizes with
  | nil => rfl
  | cons first rest ih =>
    obtain ⟨found, size⟩ := first
    by_cases same : found = name
    · have differs : (other == found) = false := by simpa [same] using different
      rw [List.filter_cons_of_neg (by simpa using same), ih, List.lookup_cons, differs]
    · rw [List.filter_cons_of_pos (by simpa using same), List.lookup_cons, List.lookup_cons, ih]

theorem lookup_insertSize_of_ne {name other : String} (different : other ≠ name)
    (sizes : List (String × Nat)) (size : Nat) :
    (insertSize sizes name size).lookup other = sizes.lookup other := by
  have differs : (other == name) = false := beq_eq_false_iff_ne.mpr different
  rw [insertSize, List.lookup_cons, differs]
  exact lookup_filter_of_ne different sizes

theorem lookup_recordSizes_of_ne {name other : String} (different : other ≠ name)
    (params : List Json) (sizes : List (String × Nat)) :
    (params.foldl (recordSize name) sizes).lookup other = sizes.lookup other := by
  induction params generalizing sizes with
  | nil => rfl
  | cons raw rest ih =>
    rw [List.foldl_cons, ih, recordSize]
    split
    · exact lookup_insertSize_of_ne different sizes _
    · rfl

/-- The last context that can be read is the one whose size is kept. -/
theorem lookup_recordSizes (name : String) (params : List Json) (sizes : List (String × Nat)) :
    (params.foldl (recordSize name) sizes).lookup name =
      (params.filterMap contextSizeOf).getLast?.or (sizes.lookup name) := by
  induction params generalizing sizes with
  | nil => rfl
  | cons raw rest ih =>
    rw [List.foldl_cons, ih, recordSize, List.filterMap_cons]
    cases contextSizeOf raw with
    | none => rfl
    | some size =>
      cases later : rest.filterMap contextSizeOf with
      | nil => simp [insertSize]
      | cons next others =>
        rw [List.getLast?_cons_cons, List.getLast?_eq_some_getLast (List.cons_ne_nil _ _)]
        rfl

theorem readFunctions_functions (raws : List Json) (reading : Reading) :
    (raws.foldl (readFunction poseidon2) reading).functions =
      reading.functions ++ raws.filterMap (parseNargoFunction poseidon2) := by
  induction raws generalizing reading with
  | nil => simp
  | cons raw rest ih =>
    rw [List.foldl_cons, ih, readFunction, List.filterMap_cons]
    cases parseNargoFunction poseidon2 raw with
    | none => rfl
    | some function => simp

theorem readFunctions_other {name : String} {raws : List Json}
    (others : ∀ function ∈ raws.filterMap (parseNargoFunction poseidon2), function.name ≠ name)
    (reading : Reading) :
    (raws.foldl (readFunction poseidon2) reading).sizes.lookup name =
      reading.sizes.lookup name := by
  induction raws generalizing reading with
  | nil => rfl
  | cons raw rest ih =>
    rw [List.filterMap_cons] at others
    rw [List.foldl_cons, readFunction]
    cases parsed : parseNargoFunction poseidon2 raw with
    | none =>
      rw [parsed] at others
      exact ih others reading
    | some function =>
      rw [parsed] at others
      have different : name ≠ function.name := (others function List.mem_cons_self).symm
      rw [ih fun later inside => others later (List.mem_cons_of_mem _ inside)]
      dsimp only
      split
      · exact lookup_recordSizes_of_ne different _ _
      · rfl

/-- Where the names of functions differ, the size found under a private function's name is
that of its own context. -/
theorem contextSize_of_function {raw rawFn : Json} {function : FunctionArtifact}
    (names : ((fromNargoJson poseidon2 raw).functions.map (·.name)).Nodup)
    (inside : rawFn ∈ rawFunctions raw)
    (parsed : parseNargoFunction poseidon2 rawFn = some function)
    (private_ : function.functionType = .privateFunction) :
    (fromNargoJson poseidon2 raw).privateContextInputsSize function.name =
      ((rawParameters rawFn).filterMap contextSizeOf).getLast?.getD 0 := by
  obtain ⟨before, after, split⟩ := List.append_of_mem inside
  have functions := readFunctions_functions poseidon2 (rawFunctions raw) ⟨[], []⟩
  rw [split, List.nil_append, List.filterMap_append, List.filterMap_cons, parsed] at functions
  change (List.map _ ((rawFunctions raw).foldl (readFunction poseidon2) ⟨[], []⟩).functions).Nodup
    at names
  rw [split, functions, List.map_append, List.map_cons] at names
  obtain ⟨-, fromHere, apart⟩ := List.nodup_append.mp names
  have earlier : ∀ other ∈ before.filterMap (parseNargoFunction poseidon2),
      other.name ≠ function.name := fun other found =>
    apart _ (List.mem_map_of_mem found) _ List.mem_cons_self
  have later : ∀ other ∈ after.filterMap (parseNargoFunction poseidon2),
      other.name ≠ function.name := fun other found same =>
    (List.nodup_cons.mp fromHere).1 (same ▸ List.mem_map_of_mem found)
  change (List.lookup _
    ((rawFunctions raw).foldl (readFunction poseidon2) ⟨[], []⟩).sizes).getD 0 = _
  rw [split, List.foldl_append, List.foldl_cons, readFunctions_other poseidon2 later, readFunction,
    parsed]
  dsimp only
  rw [if_pos private_, lookup_recordSizes, readFunctions_other poseidon2 earlier]
  simp

end Functions

theorem memberSizes_eq_memberCounts {members : List AbiParameter}
    (fits : AbiCodec.memberCounts members < 2 ^ 64) :
    memberSizes members = AbiCodec.memberCounts members :=
  @AbiCodec.size_eq_fieldCount (.struct "" members) fits

theorem name_of_context {raw : Json} (isContext : isContextInputs raw = true) :
    (raw.get "name").bind Json.asStr = some "inputs" := by
  have same : ((raw.get "name").bind Json.asStr).getD "" = "inputs" :=
    of_decide_eq_true (Bool.and_eq_true_iff.mp isContext).1
  generalize (raw.get "name").bind Json.asStr = name at same ⊢
  cases name with
  | none => exact absurd same (by decide)
  | some name => exact congrArg some same

/-- A context can be read as a parameter wherever its type can be read. -/
theorem contextSizeOf_eq {raw : Json} (isContext : isContextInputs raw = true) :
    contextSizeOf raw = (parseNargoParameter raw).map (·.typ.size) := by
  have named := name_of_context isContext
  rw [contextSizeOf, if_pos isContext, parseNargoParameter, parameterOf]
  cases field : raw.get "name" with
  | none =>
    rw [field] at named
    cases named
  | some value =>
    rw [field, Option.bind_some] at named
    simp only [Option.bind_eq_bind, Option.bind_some, named]
    cases (raw.get "type").bind parseNargoType <;> rfl

theorem contextSizeOf_other {raw : Json} (other : isContextInputs raw = false) :
    contextSizeOf raw = none := by
  rw [contextSizeOf, other]
  rfl

/-- Parameters without a context are all kept. -/
theorem without_context {params : List Json} (none_ : params.filter isContextInputs = []) :
    params.filterMap contextSizeOf = [] ∧
      keptParameters .privateFunction params = params.filterMap parseNargoParameter := by
  have others : ∀ raw ∈ params, isContextInputs raw = false := by
    simpa [List.filter_eq_nil_iff] using none_
  refine ⟨List.filterMap_eq_nil_iff.mpr fun raw inside =>
    contextSizeOf_other (others raw inside), ?_⟩
  rw [keptParameters, List.filter_eq_self.mpr]
  intro raw inside
  simp [others raw inside]

/-- The fields of a context and of the arguments are those of all parameters that can be
read. -/
theorem context_and_arguments {params : List Json}
    (single : (params.filter isContextInputs).length ≤ 1)
    (fits : AbiCodec.memberCounts (params.filterMap parseNargoParameter) < 2 ^ 64) :
    (params.filterMap contextSizeOf).getLast?.getD 0 +
        AbiCodec.memberCounts (keptParameters .privateFunction params) =
      AbiCodec.memberCounts (params.filterMap parseNargoParameter) := by
  induction params with
  | nil => rfl
  | cons raw rest ih =>
    cases isContext : isContextInputs raw with
    | true =>
      rw [List.filter_cons_of_pos isContext] at single
      obtain ⟨noSizes, allKept⟩ := without_context
        (List.length_eq_zero_iff.mp (Nat.le_zero.mp (Nat.le_of_succ_le_succ single)))
      have kept : keptParameters .privateFunction (raw :: rest) =
          rest.filterMap parseNargoParameter := by
        rw [← allKept, keptParameters, keptParameters,
          List.filter_cons_of_neg (by simp [isContext])]
      rw [List.filterMap_cons] at fits ⊢
      rw [kept, List.filterMap_cons, contextSizeOf_eq isContext, noSizes]
      cases read : parseNargoParameter raw with
      | none => simp
      | some p =>
        rw [read] at fits
        have own : p.typ.size = AbiCodec.fieldCount p.typ :=
          AbiCodec.size_eq_fieldCount (Nat.lt_of_le_of_lt (Nat.le_add_right _ _) fits)
        exact congrArg (· + _) own
    | false =>
      rw [List.filter_cons_of_neg (by simp [isContext])] at single
      have kept : keptParameters .privateFunction (raw :: rest) =
          (parseNargoParameter raw).toList ++ keptParameters .privateFunction rest := by
        rw [keptParameters, List.filter_cons_of_pos (by simp [isContext]), List.filterMap_cons]
        cases parseNargoParameter raw <;> rfl
      rw [List.filterMap_cons] at fits ⊢
      rw [List.filterMap_cons, contextSizeOf_other isContext, kept]
      cases read : parseNargoParameter raw with
      | none =>
        rw [read] at fits
        exact ih single fits
      | some p =>
        rw [read] at fits
        have later := ih single (Nat.lt_of_le_of_lt (Nat.le_add_left _ _) fits)
        change _ + (AbiCodec.fieldCount p.typ + _) = AbiCodec.fieldCount p.typ + _
        rw [← later, Nat.add_left_comm]
        rfl

/-! ## Contracts as the compiler writes them -/

/-- A function, as the compiler has it. -/
structure NoirFunction where
  name : String
  attributes : List String := []
  isUnconstrained : Bool := false
  parameters : List AbiParameter := []
  returnType : Option AbiType := none
  errorTypes : Option Json := none
  bytecode : Option String := none
  verificationKey : Option String := none
  verificationKeyHash : Option Fr := none
  debugSymbols : Option Json := none

/-- A contract, as the compiler has it. -/
structure NoirContract where
  name : String
  functions : List NoirFunction
  outputs : Option Json := none
  fileMap : Option Json := none

/-- The context of a private function among its parameters. -/
def isContext (p : AbiParameter) : Bool :=
  p.name = "inputs" && match p.typ with
    | .struct path _ => decide ("PrivateContextInputs".toList <:+: path.toList)
    | _ => false

namespace NoirFunction
variable (function : NoirFunction)

/-- The private, public or utility function it becomes. -/
def functionType : FunctionType := functionTypeOf function.attributes function.isUnconstrained

/-- The parameters a caller gives. -/
def arguments : List AbiParameter :=
  function.parameters.filter fun p => !(function.functionType = .privateFunction && isContext p)

/-- The result of a function as the compiler writes it. -/
def writtenReturn : Json :=
  match function.returnType with
  | some t => .obj [("abi_type", nargoType t), ("visibility", .str "databus")]
  | none => .null

/-- A function as the compiler writes it. -/
def written : Json :=
  .obj ([("name", .str function.name),
      ("custom_attributes", .arr (function.attributes.map .str)),
      ("is_unconstrained", .bool function.isUnconstrained),
      ("abi", .obj ([("parameters", .arr (nargoMembers function.parameters)),
        ("return_type", function.writtenReturn)] ++ shown "error_types" function.errorTypes))] ++
    (shown "bytecode" (function.bytecode.map .str) ++
      (shown "verification_key" (function.verificationKey.map .str) ++
        (shown "verification_key_hash"
            (function.verificationKeyHash.map fun hash => .str (hex32 hash.val)) ++
          shown "debug_symbols" function.debugSymbols))))

/-- The artifact of a function: its own data, under the name it is published by. -/
def published (poseidon2 : List Fr → Fr) : FunctionArtifact where
  name := publishedName function.name
  functionType := function.functionType
  isInitializer := "abi_initializer" ∈ function.attributes
  isStatic := "abi_view" ∈ function.attributes
  isOnlySelf := if "abi_only_self" ∈ function.attributes then some true else none
  parameters := function.arguments
  returnTypes := function.returnType.toList
  errorTypes := function.errorTypes
  selector := some (Abi.FunctionArtifact.selectorFromNameAndParameters poseidon2
    (publishedName function.name) function.arguments)
  bytecode := function.bytecode
  verificationKeyHash := function.verificationKeyHash
  verificationKey := function.verificationKey
  customAttributes := some function.attributes
  isUnconstrained := some function.isUnconstrained
  debugSymbols := function.debugSymbols

/-- The types of a function are those of the program's own types. -/
structure WellTyped : Prop where
  parameters : FitsMembers function.parameters
  returnType : ∀ t ∈ function.returnType, Fits t

end NoirFunction

/-- A contract as the compiler writes it. -/
def NoirContract.written (contract : NoirContract) : Json :=
  .obj ([("name", .str contract.name),
      ("functions", .arr (contract.functions.map (·.written)))] ++
    (shown "outputs" contract.outputs ++ shown "file_map" contract.fileMap))

theorem deserializeVec_strings (texts : List String) :
    deserializeVec Json.asStr (.arr (texts.map .str)) = some texts := by
  induction texts with
  | nil => rfl
  | cons text rest ih =>
    change List.mapM _ _ = _ at ih
    change List.mapM _ _ = _
    simp [ih, Json.asStr]

theorem rawParameters_written (function : NoirFunction) :
    rawParameters function.written = nargoMembers function.parameters := by
  simp [rawParameters, NoirFunction.written, Json.get, List.lookup, Json.asArray]

/-- A type has a path if it is a struct only. -/
theorem isContextInputs_member (p : AbiParameter) :
    isContextInputs (.obj (("name", .str p.name) :: ("type", nargoType p.typ) ::
      shown "visibility" (p.visibility.map .str))) = isContext p := by
  obtain ⟨name, t, visibility⟩ := p
  cases t <;>
    simp only [isContextInputs, isContext, Json.get, Json.pointer, List.foldlM, nargoType,
      List.lookup, Option.bind_some, Option.getD_some, Json.asStr, Option.bind_eq_bind,
      beq_self_eq_true]
  all_goals rfl

/-- The parameters kept are the arguments. -/
theorem keptParameters_members {functionType : FunctionType} {params : List AbiParameter}
    (fits : FitsMembers params) :
    keptParameters functionType (nargoMembers params) =
      params.filter fun p => !(functionType = .privateFunction && isContext p) := by
  induction params with
  | nil => rfl
  | cons p rest ih =>
    have later : keptParameters functionType (nargoMembers rest) = _ := ih fits.2
    have read := parameterOf_member (parseNargoType_nargoType fits.1) p.name p.visibility
    rw [keptParameters] at later ⊢
    rw [nargoMembers, List.filter_cons, isContextInputs_member, List.filter_cons]
    split
    · rw [List.filterMap_cons, read, later]
    · exact later

/-- The members of a function that may be missing. -/
theorem optional_members (function : NoirFunction) :
    function.written.get "bytecode" = function.bytecode.map .str ∧
      (function.written.get "verification_key").or (function.written.get "verificationKey") =
        function.verificationKey.map .str ∧
      (function.written.get "verification_key_hash").or
          (function.written.get "verificationKeyHash") =
        function.verificationKeyHash.map (fun hash => .str (hex32 hash.val)) ∧
      function.written.get "debug_symbols" = function.debugSymbols := by
  refine ⟨?_, ?_, ?_, ?_⟩ <;> simp [NoirFunction.written, Json.get, List.lookup]

/-- The result and the error types of a function. -/
theorem abi_members {function : NoirFunction} (typed : function.WellTyped) :
    ((((function.written.get "abi").bind (·.get "return_type")).bind (·.get "abi_type")).bind
        parseNargoType) = function.returnType ∧
      (function.written.get "abi").bind (·.get "error_types") = function.errorTypes := by
  have result : (function.writtenReturn.get "abi_type").bind parseNargoType =
      function.returnType := by
    unfold NoirFunction.writtenReturn
    cases returned : function.returnType with
    | none => rfl
    | some t => exact parseNargoType_nargoType (typed.returnType t returned)
  constructor
  · simpa [NoirFunction.written, Json.get, List.lookup] using result
  · simp [NoirFunction.written, Json.get, List.lookup]

theorem bind_asStr (text : Option String) : (text.map Json.str).bind Json.asStr = text := by
  cases text <;> rfl

theorem bind_deserialize (hash : Option Fr) :
    (hash.map fun value => Json.str (hex32 value.val)).bind Fr.deserialize = hash := by
  cases hash with
  | none => rfl
  | some value =>
    change (Fr.fromHex (hex32 value.val)).toOption = some value
    rw [HexText.fromHex_hex32]
    rfl

/-- What the compiler writes of a function is read as its artifact. -/
theorem parseNargoFunction_written (poseidon2 : List Fr → Fr) {function : NoirFunction}
    (typed : function.WellTyped) :
    parseNargoFunction poseidon2 function.written = some (function.published poseidon2) := by
  obtain ⟨bytecode, key, hash, symbols⟩ := optional_members function
  obtain ⟨result, errors⟩ := abi_members typed
  have name : (function.written.get "name") = some (.str function.name) := rfl
  have attrs : (function.written.get "custom_attributes").bind (deserializeVec Json.asStr) =
      some function.attributes := deserializeVec_strings _
  have flag : (function.written.get "is_unconstrained").bind Json.asBool =
      some function.isUnconstrained := rfl
  simp only [parseNargoFunction, rawParameters_written, keptParameters_members typed.parameters,
    name, attrs, flag, result, errors, bytecode, key, hash, symbols, bind_asStr, bind_deserialize,
    Option.bind_eq_bind, Option.bind_some, Json.asStr, Option.getD_some]
  rfl

/-- What an artifact keeps of the contract it was compiled from. -/
structure Published (poseidon2 : List Fr → Fr) (contract : NoirContract)
    (artifact : ContractArtifact) : Prop where
  name : artifact.name = contract.name
  functions : artifact.functions = contract.functions.map (·.published poseidon2)
  outputs : artifact.outputs = contract.outputs
  fileMap : artifact.fileMap = contract.fileMap
  /-- The context and the arguments of a private function are all its parameters. -/
  sizes : (contract.functions.map (publishedName ·.name)).Nodup →
    ∀ function ∈ contract.functions, function.functionType = .privateFunction →
      (function.parameters.map (·.name)).Nodup →
      AbiCodec.memberCounts function.parameters < 2 ^ 64 →
      artifact.privateContextInputsSize (publishedName function.name) +
          (function.published poseidon2).countArgumentsSize =
        AbiCodec.memberCounts function.parameters

theorem rawFunctions_written (contract : NoirContract) :
    rawFunctions contract.written = contract.functions.map (·.written) := rfl

theorem functions_written (poseidon2 : List Fr → Fr) {contract : NoirContract}
    (typed : ∀ function ∈ contract.functions, function.WellTyped) :
    (fromNargoJson poseidon2 contract.written).functions =
      contract.functions.map (·.published poseidon2) := by
  have read := readFunctions_functions poseidon2 (rawFunctions contract.written) ⟨[], []⟩
  rw [List.nil_append, rawFunctions_written, List.filterMap_map] at read
  refine read.trans ?_
  rw [← List.filterMap_eq_map]
  exact List.filterMap_congr fun function inside =>
    parseNargoFunction_written poseidon2 (typed function inside)

theorem contexts_le_count (params : List AbiParameter) :
    ((nargoMembers params).filter isContextInputs).length ≤
      (params.map (·.name)).count "inputs" := by
  induction params with
  | nil => exact Nat.le_refl _
  | cons p rest ih =>
    rw [nargoMembers, List.filter_cons, isContextInputs_member, List.map_cons, List.count_cons]
    split
    · rename_i context
      have named : p.name = "inputs" := of_decide_eq_true (Bool.and_eq_true_iff.mp context).1
      rw [named, if_pos (beq_self_eq_true _), List.length_cons]
      exact Nat.succ_le_succ ih
    · exact ih.trans (Nat.le_add_right _ _)

/-- Of parameters with names of their own one is a context at most. -/
theorem single_context {params : List AbiParameter} (names : (params.map (·.name)).Nodup) :
    ((nargoMembers params).filter isContextInputs).length ≤ 1 :=
  (contexts_le_count params).trans (List.nodup_iff_count_le_one.mp names _)

/-- All parameters of a private function are its context and its arguments. -/
theorem sizes_written (poseidon2 : List Fr → Fr) {contract : NoirContract}
    (typed : ∀ function ∈ contract.functions, function.WellTyped)
    (names : (contract.functions.map (publishedName ·.name)).Nodup) {function : NoirFunction}
    (inside : function ∈ contract.functions) (isPrivate : function.functionType = .privateFunction)
    (params : (function.parameters.map (·.name)).Nodup)
    (fits : AbiCodec.memberCounts function.parameters < 2 ^ 64) :
    (fromNargoJson poseidon2 contract.written).privateContextInputsSize
          (publishedName function.name) +
        (function.published poseidon2).countArgumentsSize =
      AbiCodec.memberCounts function.parameters := by
  have published : ((fromNargoJson poseidon2 contract.written).functions.map (·.name)).Nodup := by
    rw [functions_written poseidon2 typed, List.map_map]
    exact names
  have own := contextSize_of_function poseidon2 published (List.mem_map_of_mem inside)
    (parseNargoFunction_written poseidon2 (typed function inside)) isPrivate
  rw [rawParameters_written] at own
  have fitting := (typed function inside).parameters
  have read : (nargoMembers function.parameters).filterMap parseNargoParameter =
      function.parameters :=
    readMembers fun p found => parseNargoType_nargoType (fits_of_member fitting found)
  have all := context_and_arguments (single_context params) (by rwa [read])
  rw [read, keptParameters_members fitting] at all
  have arguments : function.arguments = function.parameters.filter fun p =>
      !(FunctionType.privateFunction = .privateFunction && isContext p) := by
    rw [NoirFunction.arguments, isPrivate]
  rw [← arguments] at all
  have counted : (function.published poseidon2).countArgumentsSize =
      AbiCodec.memberCounts function.arguments :=
    memberSizes_eq_memberCounts
      (Nat.lt_of_le_of_lt (Nat.le.intro ((Nat.add_comm _ _).trans all)) fits)
  rw [counted, ← all]
  exact congrArg (· + _) own

/-- An artifact read of what the compiler wrote has all functions of the contract in their order,
each with its arguments and its own data. -/
theorem from_nargo_json_written (poseidon2 : List Fr → Fr) {contract : NoirContract}
    (typed : ∀ function ∈ contract.functions, function.WellTyped) :
    Published poseidon2 contract (fromNargoJson poseidon2 contract.written) where
  name := rfl
  functions := functions_written poseidon2 typed
  outputs := by simp [fromNargoJson, NoirContract.written, Json.get, List.lookup]
  fileMap := by simp [fromNargoJson, NoirContract.written, Json.get, List.lookup]
  sizes := fun names _ inside => sizes_written poseidon2 typed names inside

/-- A private function with a context and a public one behind the prefix of the internals. -/
def sampleContract : NoirContract where
  name := "Token"
  functions :=
    [{ name := "transfer", attributes := ["abi_private"],
       parameters :=
        [⟨"inputs", .struct "aztec::PrivateContextInputs"
          [⟨"counter", .integer "unsigned" 32, none⟩, ⟨"header", .array .field 22, none⟩],
          some "private"⟩, ⟨"amount", .field, none⟩] },
     { name := "__aztec_nr_internals__mint", attributes := ["abi_public"],
       parameters := [⟨"inputs", .field, none⟩], returnType := some (.tuple [.boolean, .field]) }]

theorem sample_written_published :
    Published (fun _ => 0) sampleContract (fromNargoJson (fun _ => 0) sampleContract.written) :=
  from_nargo_json_written _ (by
    intro function inside
    simp only [sampleContract, List.mem_cons, List.not_mem_nil, or_false] at inside
    rcases inside with rfl | rfl <;>
      exact ⟨by simp [FitsMembers, Fits], by simp [Fits, FitsElements]⟩)

end NargoArtifact
end AztecPxe
