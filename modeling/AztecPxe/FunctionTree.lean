import AztecPxe.AbiTypes
import AztecPxe.MerkleTree

/-! The tree of an artifact's private functions. `core/src/hash.rs` computes its
root for the class id and `pxe/src/kernel/oracle.rs` the sibling path of one
function for the kernel; each sorts, hashes and pads the functions on its own. -/
namespace AztecPxe.FunctionTree
open AztecPxe Abi

/-- `constants.rs::FUNCTION_TREE_HEIGHT`. -/
def functionTreeHeight : Nat := 7

/-- `Vec::resize`. -/
def resize {α : Type} (items : List α) (newLen : Nat) (filler : α) : List α :=
  items.take newLen ++ List.replicate (newLen - items.length) filler

/-- `sort_by_key` on the selectors, a stable sort. -/
def sortBySelector (functions : List (FunctionSelector × Fr)) : List (FunctionSelector × Fr) :=
  functions.mergeSort (fun a b => decide (a.1.bytes ≤ b.1.bytes))

section Hashes
variable (poseidon2 : List Fr → Fr)

/-- The private functions of an artifact, each with its verification key hash. -/
def privateFns (artifact : ContractArtifact) : List (FunctionSelector × Fr) :=
  (artifact.functions.filter (fun function => function.functionType = .privateFunction)).map
    (fun function => (function.selectorOr poseidon2, function.verificationKeyHash.getD 0))

/-- The leaf of a private function, with `domain_separator::PRIVATE_FUNCTION_LEAF`. -/
def functionLeaf (function : FunctionSelector × Fr) : Fr :=
  Hash.poseidon2HashWithSeparator poseidon2 [function.1.toField, function.2] 1389398688

/-- The leaf of a place without a function. -/
def zeroLeaf : Fr := poseidon2 [0, 0]

/-- A node of the tree. -/
def nodeHash (left right : Fr) : Fr := poseidon2 [left, right]

/-- `poseidon_merkle_root`. -/
def poseidonMerkleRoot (leaves : List Fr) : Fr := MerkleTree.root (nodeHash poseidon2) 0 leaves

/-- `compute_private_functions_root`. -/
def computePrivateFunctionsRoot (privateFunctions : List (FunctionSelector × Fr)) : Fr :=
  let numLeaves := 2 ^ functionTreeHeight
  if privateFunctions.isEmpty then
    poseidonMerkleRoot poseidon2 (List.replicate numLeaves (zeroLeaf poseidon2))
  else
    let leaves := (sortBySelector privateFunctions).map (functionLeaf poseidon2)
    poseidonMerkleRoot poseidon2 (resize leaves numLeaves (zeroLeaf poseidon2))

/-- `compute_private_functions_root_from_artifact`. -/
def computePrivateFunctionsRootFromArtifact (artifact : ContractArtifact) : Except Error Fr :=
  .ok (computePrivateFunctionsRoot poseidon2 (privateFns poseidon2 artifact))

/-- `sibling_path_from_leaves`. -/
def siblingPathFromLeaves (level : List Fr) (leafIndex : Nat) : Except Error (List Fr) :=
  if level.isEmpty ∨ level.length ≤ leafIndex then
    .error (.invalidData ("invalid leaf index " ++ toString leafIndex ++ " for tree with " ++
      toString level.length ++ " leaves"))
  else .ok (MerkleTree.siblings (nodeHash poseidon2) 0 level leafIndex)

/-- `private_function_membership_witness`. -/
def privateFunctionMembershipWitness (artifact : ContractArtifact) (selector : FunctionSelector) :
    Except Error (Nat × List Fr) :=
  let privateFns := sortBySelector (privateFns poseidon2 artifact)
  match privateFns.findIdx? (fun function => function.1 = selector) with
  | none => .error (.invalidData ("private function selector " ++
      hexDigits 8 selector.bytes.val ++ " not found in artifact " ++ artifact.name))
  | some leafIndex => do
    let leaves := privateFns.map (functionLeaf poseidon2)
    let path ← siblingPathFromLeaves poseidon2
      (resize leaves (2 ^ functionTreeHeight) (zeroLeaf poseidon2)) leafIndex
    return (leafIndex, path)

end Hashes

theorem length_resize {α : Type} (items : List α) (newLen : Nat) (filler : α) :
    (resize items newLen filler).length = newLen := by
  unfold resize
  rw [List.length_append, List.length_take, List.length_replicate]
  omega

theorem resize_getElem? {α : Type} {items : List α} {newLen : Nat} (filler : α) {i : Nat} {item : α}
    (small : i < newLen) (held : items[i]? = some item) :
    (resize items newLen filler)[i]? = some item := by
  have inside := (List.getElem?_eq_some_iff.mp held).1
  unfold resize
  rw [List.getElem?_append_left (by rw [List.length_take]; omega), List.getElem?_take_of_lt small]
  exact held

/-- With distinct selectors the order of the functions does not show once they are
sorted. -/
theorem sortBySelector_perm {functions others : List (FunctionSelector × Fr)}
    (distinct : (functions.map (·.1)).Nodup) (perm : others.Perm functions) :
    sortBySelector others = sortBySelector functions := by
  have sorted : ∀ fns : List (FunctionSelector × Fr),
      (sortBySelector fns).Pairwise (fun a b => decide (a.1.bytes ≤ b.1.bytes) = true) := by
    intro fns
    apply List.pairwise_mergeSort
    · intro a b c ab bc
      exact decide_eq_true ((of_decide_eq_true ab).trans (of_decide_eq_true bc))
    · intro a b
      simpa using le_total a.1.bytes b.1.bytes
  have same : (sortBySelector others).Perm (sortBySelector functions) :=
    (List.mergeSort_perm others _).trans (perm.trans (List.mergeSort_perm functions _).symm)
  refine List.Perm.eq_of_pairwise ?_ (sorted others) (sorted functions) same
  intro a b inOthers inFunctions ab ba
  have insideA : a ∈ functions := perm.mem_iff.mp (List.mem_mergeSort.mp inOthers)
  have insideB : b ∈ functions := List.mem_mergeSort.mp inFunctions
  have selectors : a.1 = b.1 := by
    have bytes := le_antisymm (of_decide_eq_true ab) (of_decide_eq_true ba)
    exact congrArg FunctionSelector.mk bytes
  exact List.inj_on_of_nodup_map distinct insideA insideB selectors

section Witness
variable (poseidon2 : List Fr → Fr)

theorem siblingPathFromLeaves_eq_ok_iff {level path : List Fr} {leafIndex : Nat} :
    siblingPathFromLeaves poseidon2 level leafIndex = .ok path ↔
      leafIndex < level.length ∧ path = MerkleTree.siblings (nodeHash poseidon2) 0 level leafIndex := by
  unfold siblingPathFromLeaves
  constructor
  · intro done
    split at done
    next => cases done
    next inside =>
      cases done
      exact ⟨not_le.mp (fun outside => inside (.inr outside)), rfl⟩
  · rintro ⟨inside, rfl⟩
    rw [if_neg]
    rintro (empty | outside)
    · rw [List.isEmpty_iff.mp empty] at inside
      cases inside
    · exact absurd inside (not_lt.mpr outside)

/-- The path a function is opened with leads from its leaf to the root. -/
theorem climb_of_witness {artifact : ContractArtifact} {selector : FunctionSelector} {i : Nat}
    {path : List Fr}
    (opened : privateFunctionMembershipWitness poseidon2 artifact selector = .ok (i, path)) :
    path.length = functionTreeHeight ∧ i < 2 ^ functionTreeHeight ∧
      ∃ vkHash, (selector, vkHash) ∈ privateFns poseidon2 artifact ∧
        computePrivateFunctionsRootFromArtifact poseidon2 artifact =
          .ok (MerkleTree.climb (nodeHash poseidon2) (functionLeaf poseidon2 (selector, vkHash)) i
            path) := by
  unfold privateFunctionMembershipWitness at opened
  dsimp only at opened
  split at opened
  next => cases opened
  next leafIndex found =>
    obtain ⟨path', done, same⟩ := bind_eq_ok.mp opened
    cases same
    obtain ⟨room, rfl⟩ := (siblingPathFromLeaves_eq_ok_iff poseidon2).mp done
    rw [length_resize] at room
    obtain ⟨inside, named, -⟩ := List.findIdx?_eq_some_iff_getElem.mp found
    generalize held : (sortBySelector (privateFns poseidon2 artifact))[i] = entry at named
    obtain ⟨selector', vkHash⟩ := entry
    have selectors : selector' = selector := of_decide_eq_true named
    subst selectors
    have leaf : ((sortBySelector (privateFns poseidon2 artifact)).map (functionLeaf poseidon2))[i]? =
        some (functionLeaf poseidon2 (selector', vkHash)) := by
      rw [List.getElem?_map, List.getElem?_eq_getElem inside, held]
      rfl
    obtain ⟨length, top⟩ := @MerkleTree.climb_siblings _ (nodeHash poseidon2) 0 functionTreeHeight _
      (length_resize _ _ _) _ _ (resize_getElem? (zeroLeaf poseidon2) room leaf)
    have member : (selector', vkHash) ∈ privateFns poseidon2 artifact :=
      List.mem_mergeSort.mp (held ▸ List.getElem_mem inside)
    have some_function : (privateFns poseidon2 artifact).isEmpty = false :=
      List.isEmpty_eq_false_iff.mpr (List.ne_nil_of_mem member)
    refine ⟨length, room, vkHash, member, ?_⟩
    unfold computePrivateFunctionsRootFromArtifact computePrivateFunctionsRoot poseidonMerkleRoot
    rw [top, some_function]
    rfl

theorem root_of_perm {artifact : ContractArtifact} {functions : List FunctionArtifact}
    (distinct : ((privateFns poseidon2 artifact).map (·.1)).Nodup)
    (perm : functions.Perm artifact.functions) :
    computePrivateFunctionsRootFromArtifact poseidon2 { artifact with functions := functions } =
      computePrivateFunctionsRootFromArtifact poseidon2 artifact := by
  have permuted : (privateFns poseidon2 { artifact with functions := functions }).Perm
      (privateFns poseidon2 artifact) := (perm.filter _).map _
  have sorted := sortBySelector_perm distinct permuted
  have empty : (privateFns poseidon2 { artifact with functions := functions }).isEmpty =
      (privateFns poseidon2 artifact).isEmpty := permuted.isEmpty_eq
  unfold computePrivateFunctionsRootFromArtifact computePrivateFunctionsRoot
  rw [sorted, empty]

/-- A function that can be opened is at a place of the tree from which its path
leads to the artifact's root, and the root is the same for any order of the
functions. -/
theorem membership_witness_verifies (artifact : ContractArtifact)
    (distinct : ((privateFns poseidon2 artifact).map (·.1)).Nodup) :
    (∀ selector i path,
      privateFunctionMembershipWitness poseidon2 artifact selector = .ok (i, path) →
      path.length = functionTreeHeight ∧ i < 2 ^ functionTreeHeight ∧
      (∃ function ∈ artifact.functions, function.functionType = .privateFunction ∧
        function.selectorOr poseidon2 = selector) ∧
      ∀ function ∈ artifact.functions, function.functionType = .privateFunction →
        function.selectorOr poseidon2 = selector →
        computePrivateFunctionsRootFromArtifact poseidon2 artifact =
          .ok (MerkleTree.climb (nodeHash poseidon2)
            (functionLeaf poseidon2 (selector, function.verificationKeyHash.getD 0)) i path)) ∧
    ∀ functions : List FunctionArtifact, functions.Perm artifact.functions →
      computePrivateFunctionsRootFromArtifact poseidon2 { artifact with functions := functions } =
        computePrivateFunctionsRootFromArtifact poseidon2 artifact := by
  refine ⟨?_, fun functions perm => root_of_perm poseidon2 distinct perm⟩
  intro selector i path opened
  obtain ⟨length, small, vkHash, member, top⟩ := climb_of_witness poseidon2 opened
  refine ⟨length, small, ?_, ?_⟩
  · obtain ⟨function, inside, same⟩ := List.mem_map.mp member
    obtain ⟨inside, kind⟩ := List.mem_filter.mp inside
    exact ⟨function, inside, of_decide_eq_true kind, congrArg Prod.fst same⟩
  · intro function inside kind named
    have listed : (function.selectorOr poseidon2, function.verificationKeyHash.getD 0) ∈
        privateFns poseidon2 artifact :=
      List.mem_map.mpr ⟨function, List.mem_filter.mpr ⟨inside, decide_eq_true kind⟩, rfl⟩
    have only := List.inj_on_of_nodup_map distinct listed member named
    rw [top, ← only, named]

end Witness

/-- An artifact with two private functions and a public one. -/
def twoFunctions : ContractArtifact where
  name := "Counter"
  functions := [
    { name := "increment", functionType := .privateFunction, selector := some ⟨9⟩,
      verificationKeyHash := some 4 },
    { name := "public_dispatch", functionType := .publicFunction },
    { name := "decrement", functionType := .privateFunction, selector := some ⟨2⟩ }]

/-- The function declared last is opened at the first place. -/
theorem decrement_witness_verifies : ∃ path,
    privateFunctionMembershipWitness Crypto.summed.poseidon2 twoFunctions ⟨2⟩ = .ok (0, path) ∧
      path.length = functionTreeHeight := by
  have sorted : sortBySelector (privateFns Crypto.summed.poseidon2 twoFunctions) =
      [(⟨2⟩, 0), (⟨9⟩, 4)] := by
    have listed : privateFns Crypto.summed.poseidon2 twoFunctions = [(⟨9⟩, 4), (⟨2⟩, 0)] := rfl
    rw [listed, sortBySelector_perm (by decide) (List.Perm.swap (⟨2⟩, 0) (⟨9⟩, 4) [])]
    exact List.mergeSort_of_pairwise (by decide)
  have opened : privateFunctionMembershipWitness Crypto.summed.poseidon2 twoFunctions ⟨2⟩ =
      .ok (0, MerkleTree.siblings (nodeHash Crypto.summed.poseidon2) 0
        (resize ([(⟨2⟩, 0), (⟨9⟩, 4)].map (functionLeaf Crypto.summed.poseidon2))
          (2 ^ functionTreeHeight) (zeroLeaf Crypto.summed.poseidon2)) 0) := by
    unfold privateFunctionMembershipWitness
    rw [sorted]
    refine bind_eq_ok.mpr ⟨_, (siblingPathFromLeaves_eq_ok_iff _).mpr ⟨?_, rfl⟩, rfl⟩
    rw [length_resize]
    decide
  exact ⟨_, opened, ((membership_witness_verifies Crypto.summed.poseidon2 twoFunctions (by decide)).1
    _ _ _ opened).1⟩

end AztecPxe.FunctionTree
