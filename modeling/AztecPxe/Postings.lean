import Std.Data.ExtTreeMap
import Mathlib.Data.List.Basic
import Mathlib.Data.List.Nodup

/-! Posting lists: a table from keys to lists of members, in which a member is
appended at most once and a key disappears together with its last member. The
table is read through `listed`; two compact tables that list the same members
are the same table. A sweep walks a snapshot of the table and treats every
member under the selected keys, and the rules for `selected` and `cut` say what
a whole sweep visits and leaves behind. -/
namespace AztecPxe

/-- A table of posting lists. -/
abbrev Postings (κ α : Type) [Ord κ] [Std.TransOrd κ] := Std.ExtTreeMap κ (List α)

namespace Postings

variable {κ α : Type} [Ord κ] [Std.TransOrd κ]

/-- The members under a key. -/
def listed (idx : Postings κ α) (key : κ) : List α := idx[key]?.getD []

/-- No key stands for an empty list. -/
def Compact (idx : Postings κ α) : Prop := ∀ key : κ, idx[key]? ≠ some []

@[simp] theorem listed_empty (key : κ) : listed (∅ : Postings κ α) key = [] := by
  simp [listed]

theorem compact_empty : Compact (∅ : Postings κ α) := by
  intro key
  simp

theorem getElem?_of_compact {idx : Postings κ α} (compact : Compact idx) (key : κ) :
    idx[key]? = if listed idx key = [] then none else some (listed idx key) := by
  unfold listed
  cases held : idx[key]? with
  | none => simp
  | some list =>
    have nonempty : list ≠ [] := fun empty => compact key (empty ▸ held)
    simp [nonempty]

theorem compact_insert {idx : Postings κ α} (compact : Compact idx) {list : List α}
    (nonempty : list ≠ []) (key : κ) : Compact (idx.insert key list) := by
  intro other
  rw [Std.ExtTreeMap.getElem?_insert]
  split
  · simpa using nonempty
  · exact compact other

theorem compact_erase {idx : Postings κ α} (compact : Compact idx) (key : κ) :
    Compact (idx.erase key) := by
  intro other
  rw [Std.ExtTreeMap.getElem?_erase]
  split
  · simp
  · exact compact other

/-! ## Adding and removing one member -/

section Members
variable [DecidableEq α]

/-- Append a member unless its list has it. -/
def add (idx : Postings κ α) (key : κ) (member : α) : Postings κ α :=
  let list := idx[key]?.getD []
  if member ∈ list then idx else idx.insert key (list ++ [member])

/-- Drop a member; an emptied list goes with its key. -/
def remove (idx : Postings κ α) (key : κ) (member : α) : Postings κ α :=
  match idx[key]? with
  | none => idx
  | some list =>
    let list := list.filter (· ≠ member)
    if list.isEmpty then idx.erase key else idx.insert key list

theorem compact_add {idx : Postings κ α} (compact : Compact idx) (key : κ) (member : α) :
    Compact (add idx key member) := by
  unfold add
  dsimp only
  split
  · exact compact
  · exact compact_insert compact (by simp) key

theorem compact_remove {idx : Postings κ α} (compact : Compact idx) (key : κ) (member : α) :
    Compact (remove idx key member) := by
  unfold remove
  split
  · exact compact
  · dsimp only
    split
    · exact compact_erase compact key
    · rename_i nonempty
      exact compact_insert compact (by simpa using nonempty) key

end Members

section Lawful
variable [Std.LawfulEqOrd κ]

/-- Compact tables are determined by the members they list. -/
theorem ext_listed {first second : Postings κ α} (compactFirst : Compact first)
    (compactSecond : Compact second) (same : ∀ key, listed first key = listed second key) :
    first = second := by
  apply Std.ExtTreeMap.ext_getElem?
  intro key
  rw [getElem?_of_compact compactFirst, getElem?_of_compact compactSecond, same key]

variable [DecidableEq κ]

@[simp] theorem listed_insert (idx : Postings κ α) (key other : κ) (list : List α) :
    listed (idx.insert key list) other = if key = other then list else listed idx other := by
  unfold listed
  rw [Std.ExtTreeMap.getElem?_insert]
  by_cases same : key = other
  · simp [same]
  · simp [same]

@[simp] theorem listed_erase (idx : Postings κ α) (key other : κ) :
    listed (idx.erase key) other = if key = other then [] else listed idx other := by
  unfold listed
  rw [Std.ExtTreeMap.getElem?_erase]
  by_cases same : key = other
  · simp [same]
  · simp [same]

theorem listed_add [DecidableEq α] (idx : Postings κ α) (key other : κ) (member : α) :
    listed (add idx key member) other =
      if key = other ∧ member ∉ listed idx key then listed idx other ++ [member]
      else listed idx other := by
  unfold add
  change listed (if member ∈ listed idx key then idx else
    idx.insert key (listed idx key ++ [member])) other = _
  by_cases held : member ∈ listed idx key
  · simp [held]
  · simp only [held, ↓reduceIte, listed_insert, not_false_eq_true, and_true]
    by_cases same : key = other
    · subst other
      simp
    · simp [same]

theorem listed_remove [DecidableEq α] (idx : Postings κ α) (key other : κ) (member : α) :
    listed (remove idx key member) other =
      if key = other then (listed idx other).filter (· ≠ member) else listed idx other := by
  unfold remove
  cases held : idx[key]? with
  | none =>
    by_cases same : key = other
    · subst other
      simp [listed, held]
    · simp [same]
  | some list =>
    have view : listed idx key = list := by simp [listed, held]
    by_cases same : key = other
    · subst other
      by_cases empty : (list.filter (· ≠ member)).isEmpty
      · simp only [empty, ↓reduceIte, listed_erase, view]
        exact (List.isEmpty_iff.mp empty).symm
      · simp only [empty, Bool.false_eq_true, ↓reduceIte, listed_insert, view]
    · dsimp only
      split <;> simp [same]

theorem mem_listed_add [DecidableEq α] {idx : Postings κ α} {key other : κ} {member probe : α} :
    probe ∈ listed (add idx key member) other ↔
      probe ∈ listed idx other ∨ (key = other ∧ probe = member) := by
  rw [listed_add]
  by_cases same : key = other
  · subst other
    by_cases held : member ∈ listed idx key
    · simp only [held, not_true_eq_false, and_false, ↓reduceIte, true_and]
      exact ⟨.inl, fun either => either.elim id (fun eq => eq ▸ held)⟩
    · simp [held]
  · simp [same]

theorem nodup_add [DecidableEq α] {idx : Postings κ α} {other : κ}
    (nodup : (listed idx other).Nodup) (key : κ) (member : α) :
    (listed (add idx key member) other).Nodup := by
  rw [listed_add]
  split
  · rename_i fresh
    rw [fresh.1] at fresh
    exact nodup.append (List.nodup_singleton member) (by simpa using fresh.2)
  · exact nodup

end Lawful

/-! ## Sweeping the selected keys -/

/-- The members under the keys a sweep selects, in key order. -/
def selected (idx : Postings κ α) (select : κ → Bool) : List α :=
  (idx.toList.filter (fun entry => select entry.1)).flatMap Prod.snd

/-- The table after a sweep has deleted each key it selected from a snapshot. -/
def cut (idx : Postings κ α) (select : κ → Bool) : Postings κ α :=
  idx.toList.foldl (fun table entry => if select entry.1 then table.erase entry.1 else table) idx

section Sweep
variable [Std.LawfulEqOrd κ]

theorem mem_selected {idx : Postings κ α} {select : κ → Bool} {member : α} :
    member ∈ selected idx select ↔ ∃ key, select key = true ∧ member ∈ listed idx key := by
  unfold selected listed
  simp only [List.mem_flatMap, List.mem_filter, Prod.exists]
  constructor
  · rintro ⟨key, list, ⟨held, chosen⟩, inside⟩
    rw [Std.ExtTreeMap.mem_toList_iff_getElem?_eq_some] at held
    exact ⟨key, chosen, by simpa [held] using inside⟩
  · rintro ⟨key, chosen, inside⟩
    cases held : idx[key]? with
    | none => simp [held] at inside
    | some list =>
      rw [← Std.ExtTreeMap.mem_toList_iff_getElem?_eq_some] at held
      refine ⟨key, list, ⟨held, chosen⟩, ?_⟩
      rw [Std.ExtTreeMap.mem_toList_iff_getElem?_eq_some] at held
      simpa [held] using inside

theorem getElem?_foldl_erase [DecidableEq κ] (entries : List (κ × List α)) (select : κ → Bool)
    (table : Postings κ α) (key : κ) :
    (entries.foldl (fun table entry =>
        if select entry.1 then table.erase entry.1 else table) table)[key]? =
      if select key = true ∧ key ∈ entries.map Prod.fst then none else table[key]? := by
  induction entries generalizing table with
  | nil => simp
  | cons entry rest ih =>
    rw [List.foldl_cons, ih]
    by_cases chosen : select key = true ∧ key ∈ rest.map Prod.fst
    · simp [chosen.1, chosen.2]
    · rw [if_neg chosen]
      by_cases same : entry.1 = key
      · subst key
        by_cases sel : select entry.1 = true
        · simp [sel]
        · simp [sel]
      · have unchanged : (if select entry.1 = true then table.erase entry.1 else table)[key]? =
            table[key]? := by
          split
          · rw [Std.ExtTreeMap.getElem?_erase]
            simp [same]
          · rfl
        have other : ¬ (select key = true ∧ key ∈ (entry :: rest).map Prod.fst) := by
          rintro ⟨sel, inside⟩
          rcases List.mem_cons.mp inside with eq | inside
          · exact same eq.symm
          · exact chosen ⟨sel, inside⟩
        rw [unchanged, if_neg other]

theorem getElem?_cut (idx : Postings κ α) (select : κ → Bool) (key : κ) :
    (cut idx select)[key]? = if select key = true then none else idx[key]? := by
  classical
  unfold cut
  rw [getElem?_foldl_erase]
  by_cases sel : select key = true
  · by_cases held : key ∈ idx.toList.map Prod.fst
    · rw [if_pos ⟨sel, held⟩, if_pos sel]
    · have absent : idx[key]? = none := by
        apply Std.ExtTreeMap.getElem?_eq_none
        simpa using held
      simp [sel, absent]
  · simp [sel]

theorem listed_cut (idx : Postings κ α) (select : κ → Bool) (key : κ) :
    listed (cut idx select) key = if select key = true then [] else listed idx key := by
  unfold listed
  rw [getElem?_cut]
  split <;> simp

/-- A sweep over keys that list nothing visits nothing. -/
theorem selected_eq_nil {idx : Postings κ α} {select : κ → Bool}
    (nothing : ∀ key, select key = true → listed idx key = []) : selected idx select = [] := by
  apply List.eq_nil_iff_forall_not_mem.mpr
  intro member inside
  obtain ⟨key, chosen, listedThere⟩ := mem_selected.mp inside
  rw [nothing key chosen] at listedThere
  cases listedThere

theorem cut_eq_self {idx : Postings κ α} (compact : Compact idx) {select : κ → Bool}
    (nothing : ∀ key, select key = true → listed idx key = []) : cut idx select = idx := by
  apply Std.ExtTreeMap.ext_getElem?
  intro key
  rw [getElem?_cut]
  split
  · rename_i chosen
    rw [getElem?_of_compact compact, if_pos (nothing key chosen)]
  · rfl

theorem compact_cut {idx : Postings κ α} (compact : Compact idx) (select : κ → Bool) :
    Compact (cut idx select) := by
  intro key
  rw [getElem?_cut]
  split
  · simp
  · exact compact key

/-- A swept table has nothing left to sweep. -/
theorem selected_cut (idx : Postings κ α) (select : κ → Bool) : selected (cut idx select) select = [] := by
  apply selected_eq_nil
  intro key chosen
  rw [listed_cut, if_pos chosen]

theorem cut_cut (idx : Postings κ α) (select : κ → Bool) :
    cut (cut idx select) select = cut idx select := by
  apply Std.ExtTreeMap.ext_getElem?
  intro key
  rw [getElem?_cut, getElem?_cut]
  split <;> rfl

/-- Deleting a selected key ahead of the sweep changes nothing for the sweep. -/
theorem cut_erase {idx : Postings κ α} {select : κ → Bool} {key : κ} (chosen : select key = true) :
    cut (idx.erase key) select = cut idx select := by
  apply Std.ExtTreeMap.ext_getElem?
  intro other
  rw [getElem?_cut, getElem?_cut]
  split
  · rfl
  · rename_i spared
    rw [Std.ExtTreeMap.getElem?_erase, if_neg]
    intro same
    rw [Std.LawfulEqOrd.eq_of_compare same] at chosen
    exact spared chosen

/-- Only the members of a deleted key can drop out of the sweep. -/
theorem mem_selected_erase {idx : Postings κ α} {select : κ → Bool} {key : κ} {member : α}
    (elsewhere : member ∉ listed idx key) :
    member ∈ selected (idx.erase key) select ↔ member ∈ selected idx select := by
  classical
  rw [mem_selected, mem_selected]
  apply exists_congr
  intro other
  rw [listed_erase]
  by_cases same : key = other
  · subst other
    simp [elsewhere]
  · rw [if_neg same]

end Sweep
end Postings
end AztecPxe
