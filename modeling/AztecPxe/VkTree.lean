import AztecPxe.Json
import AztecPxe.MerkleTree

/-! Membership paths of the tree of protocol verification keys, `kernel/oracle.rs`. The tree is
read from the text of a source file as one flat array: the leaves, then each row above, the root
last. Twice a node's place, past the leaves halved, is where its children are. -/
namespace AztecPxe.VkTree
open MerkleTree

/-! ## Reading the nodes -/

/-- `u8::is_ascii_hexdigit`. -/
def isAsciiHexdigit (byte : UInt8) : Bool :=
  (48 ≤ byte && byte ≤ 57) || (65 ≤ byte && byte ≤ 70) || (97 ≤ byte && byte ≤ 102)

/-- The sixty-four digits between two single quotes the text starts with. -/
def quotedDigits (bytes : List UInt8) : Option (List UInt8) :=
  let digits := (bytes.drop 1).take 64
  if bytes[0]? = some 39 ∧ bytes[65]? = some 39 ∧ digits.all isAsciiHexdigit then some digits
  else none

/-- The loop of `parse_vk_tree_nodes`, over the bytes from `i` on. -/
def scanNodes (bytes : List UInt8) : Except Error (List Fr) :=
  if 66 ≤ bytes.length then
    match quotedDigits bytes with
    | some digits => do
      let hex := String.ofList (digits.map (fun byte => Char.ofNat byte.toNat))
      let node ← Fr.fromHex ("0x" ++ hex)
      return node :: (← scanNodes (bytes.drop 66))
    | none => scanNodes (bytes.drop 1)
  else .ok []
termination_by bytes.length
decreasing_by all_goals rw [List.length_drop]; omega

/-- `parse_vk_tree_nodes`. -/
def parseVkTreeNodes (contents : String) : Except Error (List Fr) :=
  match scanNodes contents.toUTF8.toList with
  | .error e => .error e
  | .ok nodes =>
    if nodes.isEmpty then .error (.invalidData "VK tree contains no nodes")
    else if ¬ nodes.length.isPowerOfTwo ∧ (nodes.length + 1).isPowerOfTwo then .ok nodes
    else .error (.invalidData ("VK tree has invalid flat node count " ++ toString nodes.length ++
      "; expected 2^(height + 1) - 1"))

/-! ## Paths -/

/-- The loop of `sibling_path_from_flat_tree`; nothing where an index is out of bounds. -/
def siblingsFrom (nodes : List Fr) (rowSize rowOffset index : Nat) : Option (List Fr) :=
  if 1 < rowSize then do
    let siblingIndex := if index &&& 1 = 1 then index - 1 else index + 1
    let sibling ← nodes[rowOffset + siblingIndex]?
    return sibling :: (← siblingsFrom nodes (rowSize >>> 1) (rowOffset + rowSize) (index >>> 1))
  else some []
termination_by rowSize
decreasing_by rw [Nat.shiftRight_eq_div_pow]; omega

/-- `sibling_path_from_flat_tree`, or nothing where it panics. -/
def siblingPathFromFlatTree (nodes : List Fr) (leafIndex : Nat) :
    Option (Except Error (List Fr)) :=
  let leafCount := (nodes.length + 1) / 2
  if leafCount ≤ leafIndex then
    some (.error (.invalidData ("invalid VK leaf index " ++ toString leafIndex ++ " for " ++
      toString leafCount ++ " leaves")))
  else (siblingsFrom nodes leafCount 0 leafIndex).map .ok

/-- Each node above the leaves is the hash of the two below it. -/
def LevelByLevel (hash : Fr → Fr → Fr) (nodes : List Fr) : Prop :=
  ∀ k left right parent, nodes[2 * k]? = some left → nodes[2 * k + 1]? = some right →
    nodes[(nodes.length + 1) / 2 + k]? = some parent → parent = hash left right

/-! ## What is accepted -/

/-- The nodes that were read fill every row, from more than one leaf on. -/
theorem length_of_parsed {contents : String} {nodes : List Fr}
    (parsed : parseVkTreeNodes contents = .ok nodes) :
    ∃ height, nodes.length + 1 = 2 ^ (height + 1) := by
  unfold parseVkTreeNodes at parsed
  cases scanned : scanNodes contents.toUTF8.toList with
  | error e =>
    rw [scanned] at parsed
    exact nomatch parsed
  | ok found =>
    rw [scanned] at parsed
    dsimp only at parsed
    split at parsed
    · exact nomatch parsed
    next some_node =>
      split at parsed
      next full =>
        cases parsed
        obtain ⟨height, size⟩ := full.2
        cases height with
        | zero =>
          refine absurd ?_ some_node
          rw [List.isEmpty_iff_length_eq_zero]
          omega
        | succ height => exact ⟨height, size⟩
      · exact nomatch parsed

/-! ## The climb -/

section Climb
variable {nodes : List Fr} {rowSize rowOffset index : Nat}

theorem and_one (n : Nat) : n &&& 1 = n % 2 := Nat.and_two_pow_sub_one_eq_mod n 1

theorem shift_one (n : Nat) : n >>> 1 = n / 2 := Nat.shiftRight_eq_div_pow n 1

/-- The node above one in a row, whichever side it is on. -/
theorem parent_eq {hash : Fr → Fr → Fr} (tree : LevelByLevel hash nodes) (even : rowSize % 2 = 0)
    (above : (nodes.length + 1) % 2 = 0) (place : rowOffset + 2 * rowSize = nodes.length + 1)
    {node sibling parent : Fr} (held : nodes[rowOffset + index]? = some node)
    (beside : nodes[rowOffset + if index % 2 = 1 then index - 1 else index + 1]? = some sibling)
    (next_row : nodes[rowOffset + rowSize + index / 2]? = some parent) :
    parent = if index % 2 = 1 then hash sibling node else hash node sibling := by
  have up : (nodes.length + 1) / 2 + (rowOffset + index) / 2 =
      rowOffset + rowSize + index / 2 := by omega
  rw [← up] at next_row
  split at beside
  next odd =>
    rw [if_pos odd]
    refine tree ((rowOffset + index) / 2) sibling node parent ?_ ?_ next_row
    · rw [← beside]
      congr 1
      omega
    · rw [← held]
      congr 1
      omega
  next left =>
    rw [if_neg left]
    refine tree ((rowOffset + index) / 2) node sibling parent ?_ ?_ next_row
    · rw [← held]
      congr 1
      omega
    · rw [← beside]
      congr 1
      omega

/-- From a row of the flat tree the loop finds a sibling in each row below the root, and the climb
from the node at the index over them ends at the last node. By induction on the rows left: each
starts where all rows from it on, twice its size less one, end the array. -/
theorem siblingsFrom_climbs {height : Nat} (size : rowSize = 2 ^ height)
    (above : (nodes.length + 1) % 2 = 0) (place : rowOffset + 2 * rowSize = nodes.length + 1)
    (inside : index < rowSize) :
    ∃ path, siblingsFrom nodes rowSize rowOffset index = some path ∧
      ∀ hash, LevelByLevel hash nodes → ∀ node, nodes[rowOffset + index]? = some node →
        nodes.getLast? = some (climb hash node index path) := by
  induction height generalizing rowSize rowOffset index with
  | zero =>
    have one : rowSize = 1 := size
    refine ⟨[], ?_, fun hash tree node held => ?_⟩
    · rw [siblingsFrom, if_neg (by omega)]
    · rw [List.getLast?_eq_getElem?, climb, ← held]
      congr 1
      omega
  | succ height ih =>
    have wide : 1 < rowSize := by
      rw [size]
      exact Nat.one_lt_two_pow (Nat.succ_ne_zero height)
    have half : rowSize / 2 = 2 ^ height := by
      rw [size, Nat.pow_succ]
      omega
    have even : rowSize % 2 = 0 := by
      rw [size, Nat.pow_succ]
      omega
    have above_row : rowOffset + rowSize + 2 * (rowSize / 2) = nodes.length + 1 := by omega
    have parent_inside : index / 2 < rowSize / 2 := by omega
    obtain ⟨path, rest, climbs⟩ := ih half above_row parent_inside
    obtain ⟨sibling, beside⟩ : ∃ sibling,
        nodes[rowOffset + if index % 2 = 1 then index - 1 else index + 1]? = some sibling :=
      ⟨_, List.getElem?_eq_getElem (by split <;> omega)⟩
    obtain ⟨parent, next_row⟩ : ∃ parent, nodes[rowOffset + rowSize + index / 2]? = some parent :=
      ⟨_, List.getElem?_eq_getElem (by omega)⟩
    refine ⟨sibling :: path, ?_, fun hash tree node held => ?_⟩
    · rw [siblingsFrom, if_pos wide]
      simp only [and_one, shift_one, beside, rest]
      rfl
    · rw [climb, climbs hash tree parent next_row,
        parent_eq tree even above place held beside next_row]

end Climb

/-- Over the nodes of a text that was accepted every leaf has a path and no other index has one,
and nothing is read out of bounds. In a tree the path takes the leaf to the root. -/
theorem paths_of_parsed_tree {contents : String} {nodes : List Fr}
    (parsed : parseVkTreeNodes contents = .ok nodes) (leafIndex : Nat) :
    siblingPathFromFlatTree nodes leafIndex ≠ none ∧
      ((∃ e, siblingPathFromFlatTree nodes leafIndex = some (.error e)) ↔
        ¬ leafIndex < (nodes.length + 1) / 2) ∧
      (leafIndex < (nodes.length + 1) / 2 →
        ∃ path leaf, siblingPathFromFlatTree nodes leafIndex = some (.ok path) ∧
          nodes[leafIndex]? = some leaf ∧
          ∀ hash, LevelByLevel hash nodes →
            nodes.getLast? = some (climb hash leaf leafIndex path)) := by
  obtain ⟨height, full⟩ := length_of_parsed parsed
  have leaves : (nodes.length + 1) / 2 = 2 ^ height := by
    rw [full, Nat.pow_succ]
    omega
  have above : (nodes.length + 1) % 2 = 0 := by
    rw [full, Nat.pow_succ]
    omega
  unfold siblingPathFromFlatTree
  by_cases inside : leafIndex < (nodes.length + 1) / 2
  · have whole : 0 + 2 * ((nodes.length + 1) / 2) = nodes.length + 1 := by omega
    obtain ⟨path, found, climbs⟩ := siblingsFrom_climbs leaves above whole inside
    rw [if_neg (Nat.not_le.mpr inside), found]
    have held : leafIndex < nodes.length := by omega
    refine ⟨nofun, ⟨fun refused => ?_, fun outside => absurd inside outside⟩, fun _ =>
      ⟨path, nodes[leafIndex], rfl, List.getElem?_eq_getElem held, fun hash tree => ?_⟩⟩
    · obtain ⟨e, refused⟩ := refused
      exact nomatch refused
    · refine climbs hash tree _ ?_
      rw [Nat.zero_add]
      exact List.getElem?_eq_getElem held
  · rw [if_pos (Nat.not_lt.mp inside)]
    exact ⟨nofun, ⟨fun _ => inside, fun _ => ⟨_, rfl⟩⟩, fun within => absurd within inside⟩

/-- Two leaves and their sum, as the source file lists nodes. -/
def threeNodes : String :=
  "['0000000000000000000000000000000000000000000000000000000000000001'," ++
  " '0000000000000000000000000000000000000000000000000000000000000002'," ++
  " '0000000000000000000000000000000000000000000000000000000000000003']"

theorem parse_threeNodes : parseVkTreeNodes threeNodes = .ok [1, 2, 3] := by decide +kernel

theorem sum_levelByLevel : LevelByLevel (· + ·) [1, 2, 3] := by
  intro k left right parent leftAt rightAt parentAt
  cases k with
  | zero =>
    cases leftAt
    cases rightAt
    cases parentAt
    decide
  | succ k =>
    have past : ([1, 2, 3] : List Fr)[2 + (k + 1)]? = none :=
      List.getElem?_eq_none (by rw [Nat.add_left_comm]; exact Nat.le_add_left 3 k)
    exact nomatch past.symm.trans parentAt

theorem path_of_second_leaf :
    ∃ path leaf, siblingPathFromFlatTree [1, 2, 3] 1 = some (.ok path) ∧
      ([1, 2, 3] : List Fr)[1]? = some leaf ∧
      ([1, 2, 3] : List Fr).getLast? = some (climb (· + ·) leaf 1 path) := by
  obtain ⟨path, leaf, found, held, climbs⟩ :=
    (paths_of_parsed_tree parse_threeNodes 1).2.2 (by decide)
  exact ⟨path, leaf, found, held, climbs _ sum_levelByLevel⟩

end AztecPxe.VkTree
