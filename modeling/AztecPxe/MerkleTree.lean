import Mathlib.Algebra.Ring.Nat
import Mathlib.Data.List.Basic

/-! Binary Merkle trees over any hash of two nodes: the root of a list of leaves,
level by level, the siblings on the way up from one leaf, and the climb that takes
the leaf back to the root. A node without a right sibling gets a filler. -/
namespace AztecPxe.MerkleTree

variable {α : Type} (hash : α → α → α) (filler : α)

/-- The level above: each pair of neighbours under one node. -/
def parents : List α → List α
  | [] => []
  | [left] => [hash left filler]
  | left :: right :: rest => hash left right :: parents rest

@[simp] theorem length_parents (level : List α) :
    (parents hash filler level).length = (level.length + 1) / 2 := by
  induction level using parents.induct with
  | case1 => simp [parents]
  | case2 => simp [parents]
  | case3 left right rest ih =>
    rw [parents, List.length_cons, ih, List.length_cons, List.length_cons]
    omega

/-- The one node that is left at the top, or the filler where there is no leaf. -/
def root (level : List α) : α :=
  if 1 < level.length then root (parents hash filler level)
  else level.headD filler
termination_by level.length
decreasing_by
  rw [length_parents]
  omega

/-- The sibling of each node on the way up, from the leaf's own level on. -/
def siblings (level : List α) (index : Nat) : List α :=
  if 1 < level.length then
    level.getD (if index % 2 = 1 then index - 1 else index + 1) filler ::
      siblings (parents hash filler level) (index / 2)
  else []
termination_by level.length
decreasing_by
  rw [length_parents]
  omega

/-- The way up: at each level the node stands on the side its index says. -/
def climb (node : α) (index : Nat) : List α → α
  | [] => node
  | sibling :: path =>
    climb (if index % 2 = 1 then hash sibling node else hash node sibling) (index / 2) path

variable {hash filler}

/-- Each node of the level above hashes the two below it. -/
theorem parents_getElem? {level : List α} {k : Nat} {left right : α}
    (leftAt : level[2 * k]? = some left) (rightAt : level[2 * k + 1]? = some right) :
    (parents hash filler level)[k]? = some (hash left right) := by
  induction level using parents.induct generalizing k with
  | case1 => cases leftAt
  | case2 => cases k <;> cases rightAt
  | case3 first second rest ih =>
    cases k with
    | zero =>
      cases leftAt
      cases rightAt
      rfl
    | succ k =>
      rw [parents, List.getElem?_cons_succ]
      exact ih leftAt rightAt

/-- In a level of even length a node and its sibling are under their parent. -/
theorem parent_of_sibling {level : List α} {index : Nat} {node : α} (even : level.length % 2 = 0)
    (held : level[index]? = some node) :
    (parents hash filler level)[index / 2]? =
      some (if index % 2 = 1 then
        hash (level.getD (if index % 2 = 1 then index - 1 else index + 1) filler) node
      else hash node (level.getD (if index % 2 = 1 then index - 1 else index + 1) filler)) := by
  have inside := (List.getElem?_eq_some_iff.mp held).1
  split
  next odd =>
    have below : level[index - 1]? = some (level.getD (index - 1) filler) := by
      rw [List.getD_eq_getElem?_getD, List.getElem?_eq_getElem (by omega)]
      rfl
    have position : index = 2 * (index / 2) + 1 := by omega
    apply parents_getElem?
    · rw [← below]
      congr 1
      omega
    · rw [← position]
      exact held
  next right =>
    have above : level[index + 1]? = some (level.getD (index + 1) filler) := by
      rw [List.getD_eq_getElem?_getD, List.getElem?_eq_getElem (by omega)]
      rfl
    have position : index = 2 * (index / 2) := by omega
    apply parents_getElem?
    · rw [← position]
      exact held
    · rw [← above]
      congr 1
      omega

/-- Over a full level the siblings are one for each level below the root, and the
climb from any node over them ends at the root. -/
theorem climb_siblings {height : Nat} {level : List α} (full : level.length = 2 ^ height)
    {index : Nat} {node : α} (held : level[index]? = some node) :
    (siblings hash filler level index).length = height ∧
      climb hash node index (siblings hash filler level index) = root hash filler level := by
  induction height generalizing level index node with
  | zero =>
    obtain ⟨leaf, rfl⟩ := List.length_eq_one_iff.mp full
    have first : index = 0 := by
      have inside := (List.getElem?_eq_some_iff.mp held).1
      rw [List.length_singleton] at inside
      omega
    subst first
    cases held
    rw [siblings, root]
    exact ⟨rfl, rfl⟩
  | succ height ih =>
    have wide : 1 < level.length := by
      rw [full]
      exact Nat.one_lt_two_pow (Nat.succ_ne_zero height)
    have even : level.length % 2 = 0 := by
      rw [full, Nat.pow_succ]
      omega
    have above : (parents hash filler level).length = 2 ^ height := by
      rw [length_parents, full, Nat.pow_succ]
      omega
    obtain ⟨length, top⟩ := ih above (parent_of_sibling even held)
    rw [siblings, root, if_pos wide, if_pos wide]
    refine ⟨?_, ?_⟩
    · rw [List.length_cons, length]
    · rw [climb]
      exact top

end AztecPxe.MerkleTree
