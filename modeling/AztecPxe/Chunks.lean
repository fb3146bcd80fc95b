import Mathlib.Data.List.Basic

/-! A list in chunks of one length, the last of which may be shorter. -/
namespace AztecPxe.Chunks

variable {α : Type} {n : Nat}

/-- Chunks that are done stand before those that follow. -/
theorem toChunks_go_acc (xs : List α) (chunk : Array α) (chunks : Array (List α)) :
    List.toChunks.go n xs chunk chunks = chunks.toList ++ List.toChunks.go n xs chunk #[] := by
  induction xs generalizing chunk chunks with
  | nil => simp [List.toChunks.go]
  | cons x xs ih =>
    unfold List.toChunks.go
    split
    · rw [ih, ih _ (#[].push chunk.toList)]
      simp
    · exact ih _ _

/-- What fits is added to the chunk at hand. -/
theorem toChunks_go_append (front rest : List α) (chunk : Array α) (chunks : Array (List α))
    (fits : chunk.size + front.length ≤ n) :
    List.toChunks.go n (front ++ rest) chunk chunks =
      List.toChunks.go n rest (chunk ++ front.toArray) chunks := by
  induction front generalizing chunk with
  | nil => simp
  | cons x front ih =>
    rw [List.length_cons] at fits
    have room : (chunk.size == n) = false := by
      simp only [beq_eq_false_iff_ne, ne_eq]
      omega
    rw [List.cons_append, List.toChunks.go, room, if_neg (by simp), ih _ (by simp; omega)]
    congr 1
    simp

theorem toChunks_append {front : List α} (rest : List α) (full : front.length = n + 1) :
    (front ++ rest).toChunks (n + 1) = front :: rest.toChunks (n + 1) := by
  cases front with
  | nil => exact nomatch full
  | cons x front =>
    rw [List.length_cons, Nat.add_right_cancel_iff] at full
    have filled : (x :: front ++ rest).toChunks (n + 1) =
        List.toChunks.go (n + 1) rest (#[x] ++ front.toArray) #[] :=
      toChunks_go_append front rest #[x] #[] (by simp; omega)
    have size : (#[x] ++ front.toArray).size = n + 1 := by
      simp
      omega
    rw [filled]
    cases rest with
    | nil => simp [List.toChunks.go, List.toChunks]
    | cons y rest =>
      rw [List.toChunks.go, size, if_pos (by simp), toChunks_go_acc]
      simp [List.toChunks]

/-- What fits into one chunk is one. -/
theorem toChunks_of_length_le {xs : List α} (asked : xs ≠ []) (fits : xs.length ≤ n + 1) :
    xs.toChunks (n + 1) = [xs] := by
  cases xs with
  | nil => exact absurd rfl asked
  | cons x xs =>
    rw [List.length_cons] at fits
    have filled : (x :: xs).toChunks (n + 1) =
        List.toChunks.go (n + 1) [] (#[x] ++ xs.toArray) #[] := by
      have one := toChunks_go_append xs [] #[x] #[] (n := n + 1) (by simp; omega)
      rwa [List.append_nil] at one
    rw [filled]
    simp [List.toChunks.go]

/-- The first chunk is as much as there is of its length. -/
theorem toChunks_eq {xs : List α} (some_item : xs ≠ []) :
    xs.toChunks (n + 1) = xs.take (n + 1) :: (xs.drop (n + 1)).toChunks (n + 1) := by
  by_cases fits : xs.length ≤ n + 1
  · rw [toChunks_of_length_le some_item fits, List.take_of_length_le fits,
      List.drop_of_length_le fits]
    rfl
  · have full : (xs.take (n + 1)).length = n + 1 := by
      rw [List.length_take]
      omega
    have whole := toChunks_append (xs.drop (n + 1)) full
    rwa [List.take_append_drop] at whole

/-- By chunks: what holds of no items, and of items if it does after their first chunk. -/
theorem chunk_induction {P : List α → Prop} (n : Nat) (nil : P [])
    (chunk : ∀ xs, xs ≠ [] → P (xs.drop (n + 1)) → P xs) (xs : List α) : P xs := by
  induction size : xs.length using Nat.strongRecOn generalizing xs with
  | ind length ih =>
    by_cases none : xs = []
    · rw [none]
      exact nil
    · refine chunk xs none (ih _ ?_ _ rfl)
      have some_item := List.length_pos_iff.mpr none
      rw [List.length_drop]
      omega

theorem length_toChunks (xs : List α) :
    (xs.toChunks (n + 1)).length = (xs.length + n) / (n + 1) := by
  induction xs using chunk_induction n with
  | nil =>
    symm
    exact Nat.div_eq_of_lt (by simp)
  | chunk xs some_item ih =>
    have some_length := List.length_pos_iff.mpr some_item
    rw [toChunks_eq some_item, List.length_cons, ih, List.length_drop]
    by_cases fits : xs.length ≤ n + 1
    · have before : (xs.length - (n + 1) + n) / (n + 1) = 0 := Nat.div_eq_of_lt (by omega)
      have one : (xs.length + n) / (n + 1) = 1 := Nat.div_eq_of_lt_le (by omega) (by omega)
      rw [before, one]
    · have whole : xs.length + n = xs.length - (n + 1) + n + (n + 1) := by omega
      rw [whole, Nat.add_div_right _ (Nat.succ_pos n)]

theorem length_le_of_mem_toChunks {xs chunk : List α} (inside : chunk ∈ xs.toChunks (n + 1)) :
    chunk.length ≤ n + 1 := by
  induction xs using chunk_induction n with
  | nil => cases inside
  | chunk xs some_item ih =>
    rw [toChunks_eq some_item] at inside
    cases inside with
    | head => exact List.length_take_le (n + 1) xs
    | tail _ later => exact ih later

/-- Chunks filled up are the items filled up. -/
theorem flatMap_fill_toChunks (filler : α) (xs : List α) :
    (xs.toChunks (n + 1)).flatMap
        (fun chunk => chunk ++ List.replicate (n + 1 - chunk.length) filler) =
      xs ++ List.replicate ((xs.toChunks (n + 1)).length * (n + 1) - xs.length) filler := by
  induction xs using chunk_induction n with
  | nil => simp [List.toChunks]
  | chunk xs some_item ih =>
    rw [toChunks_eq some_item, List.flatMap_cons, ih, List.length_cons, List.length_take,
      List.length_drop]
    by_cases fits : xs.length ≤ n + 1
    · rw [List.take_of_length_le fits, List.drop_of_length_le fits, Nat.min_eq_right fits]
      simp [List.toChunks]
    · rw [Nat.min_eq_left (by omega), Nat.sub_self, List.replicate_zero, List.append_nil,
        ← List.append_assoc, List.take_append_drop]
      congr 2
      rw [Nat.succ_mul]
      omega

/-- Pieces of the length of a chunk are the chunks of what they form together. -/
theorem toChunks_flatMap {β : Type} (piece : β → List α) (full : ∀ b, (piece b).length = n + 1)
    (bs : List β) : (bs.flatMap piece).toChunks (n + 1) = bs.map piece := by
  induction bs with
  | nil => rfl
  | cons b bs ih => rw [List.flatMap_cons, toChunks_append _ (full b), ih, List.map_cons]

end AztecPxe.Chunks
