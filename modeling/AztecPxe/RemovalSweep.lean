import AztecPxe.IndexedTable
import AztecPxe.Sweep

/-! Removing records by a sweep. A table of records has one index by owner and
one by the key that is swept; a visit takes the record off its owner's list and
then erases it. However far the sweep got, sweeping again ends in the table a
single sweep would have left. -/
namespace AztecPxe.WriteTrace
open Postings IndexedTable

set_option linter.unusedSectionVars false

/-- A table of records with its two indexes. -/
structure Shelf (ι ρ κ β : Type) [Ord ι] [Std.TransOrd ι] [Ord κ] [Std.TransOrd κ] [Ord β]
    [Std.TransOrd β] where
  table : Std.ExtTreeMap ι ρ
  byOwner : Postings κ ι
  byKey : Postings β ι

namespace Shelf
variable {ι ρ κ β : Type} [Ord ι] [Std.TransOrd ι] [Std.LawfulEqOrd ι] [DecidableEq ι]
  [Ord κ] [Std.TransOrd κ] [Std.LawfulEqOrd κ] [DecidableEq κ]
  [Ord β] [Std.TransOrd β] [Std.LawfulEqOrd β] [DecidableEq β]

/-- Take the record off its owner's list. -/
def unlist (owner : ρ → κ) (id : ι) (shelf : Shelf ι ρ κ β) : List (Shelf ι ρ κ β) :=
  match shelf.table[id]? with
  | none => []
  | some r => unlistMember Shelf.byOwner (fun idx shelf => { shelf with byOwner := idx })
      (owner r) id shelf

/-- The writes that remove one record; the erasure is issued even when the
record is gone. -/
def remove (owner : ρ → κ) (id : ι) : Shelf ι ρ κ β → List (Shelf ι ρ κ β) :=
  andThen (unlist owner id) (fun shelf => [{ shelf with table := shelf.table.erase id }])

/-- The sweep that removes the records under the selected keys. -/
def removal (owner : ρ → κ) (select : β → Bool) : Sweep (Shelf ι ρ κ β) β ι where
  index := Shelf.byKey
  visit := remove owner
  dropKey key shelf := { shelf with byKey := shelf.byKey.erase key }
  select := select

/-- What one undisturbed sweep leaves. -/
def removed (owner : ρ → κ) (select : β → Bool) (shelf : Shelf ι ρ κ β) : Shelf ι ρ κ β where
  table := eraseAll shelf.table (selected shelf.byKey select)
  byOwner := unlistAll owner shelf.table shelf.byOwner (selected shelf.byKey select)
  byKey := cut shelf.byKey select

variable {owner : ρ → κ} {select : β → Bool} {shelf mid : Shelf ι ρ κ β} {id : ι}

/-- A visit passes the state where the record is off its list, if it was on
one, and ends in the state where the record is gone as well. -/
theorem mem_remove (passed : mid ∈ remove owner id shelf) :
    (∃ r, shelf.table[id]? = some r ∧
      mid = { shelf with byOwner := shelf.byOwner.remove (owner r) id }) ∨
    mid = final (remove owner id) shelf := by
  rcases mem_andThen.mp passed with here | last
  · left
    unfold unlist at here
    cases held : shelf.table[id]? with
    | none =>
      rw [held] at here
      cases here
    | some r =>
      rw [held] at here
      exact ⟨r, rfl, (mem_unlistMember.mp here).2⟩
  · right
    unfold remove
    rw [final_andThen]
    exact List.mem_singleton.mp last

theorem final_unlist (owner : ρ → κ) (id : ι) (shelf : Shelf ι ρ κ β) :
    final (unlist owner id) shelf = { shelf with
      byOwner := match shelf.table[id]? with
        | none => shelf.byOwner
        | some r => shelf.byOwner.remove (owner r) id } := by
  cases held : shelf.table[id]? with
  | none => simp only [final, unlist, held, List.getLastD_nil]
  | some r =>
    have trace : unlist owner id shelf = unlistMember Shelf.byOwner
        (fun idx shelf => { shelf with byOwner := idx }) (owner r) id shelf := by
      simp only [unlist, held]
    rw [final_congr trace, final_unlistMember rfl]

theorem final_remove (owner : ρ → κ) (id : ι) (shelf : Shelf ι ρ κ β) :
    final (remove owner id) shelf = { shelf with
      table := shelf.table.erase id
      byOwner := match shelf.table[id]? with
        | none => shelf.byOwner
        | some r => shelf.byOwner.remove (owner r) id } := by
  unfold remove
  rw [final_andThen, final_unlist]
  rfl

/-- The state leads to this result. -/
def LeadsTo (owner : ρ → κ) (select : β → Bool) (result shelf : Shelf ι ρ κ β) : Prop :=
  Compact shelf.byOwner ∧ removed owner select shelf = result

private theorem leadsTo_unlist {result : Shelf ι ρ κ β}
    (leads : LeadsTo owner select result shelf) (inside : id ∈ selected shelf.byKey select) {r : ρ}
    (held : shelf.table[id]? = some r) : LeadsTo owner select result
      { shelf with byOwner := shelf.byOwner.remove (owner r) id } := by
  obtain ⟨compact, ends⟩ := leads
  refine ⟨compact_remove compact _ _, ?_⟩
  rw [← ends]
  unfold removed
  rw [unlistAll_remove compact inside held]

private theorem leadsTo_erase {result : Shelf ι ρ κ β}
    (leads : LeadsTo owner select result shelf) (inside : id ∈ selected shelf.byKey select)
    (unlisted : ∀ r : ρ, shelf.table[id]? = some r → id ∉ listed shelf.byOwner (owner r)) :
    LeadsTo owner select result { shelf with table := shelf.table.erase id } := by
  obtain ⟨compact, ends⟩ := leads
  refine ⟨compact, ?_⟩
  rw [← ends]
  unfold removed
  rw [eraseAll_erase inside, unlistAll_erase compact unlisted]

theorem leadsTo_remove {result : Shelf ι ρ κ β} (leads : LeadsTo owner select result shelf)
    (inside : id ∈ selected shelf.byKey select) :
    ∀ mid ∈ remove owner id shelf, LeadsTo owner select result mid := by
  intro mid passed
  rcases mem_remove passed with ⟨r, held, rfl⟩ | rfl
  · exact leadsTo_unlist leads inside held
  · rw [final_remove]
    cases held : shelf.table[id]? with
    | none =>
      apply leadsTo_erase leads inside
      intro r present
      rw [held] at present
      cases present
    | some r =>
      apply leadsTo_erase (leadsTo_unlist leads inside held) inside
      intro s present
      rw [held, Option.some.injEq] at present
      subst s
      simp [listed_remove]

/-- A removal can be restarted: a visited record is gone and stays gone. -/
theorem restartable_removal (owner : ρ → κ) (select : β → Bool) (result : Shelf ι ρ κ β) :
    Sweep.Restartable (removal owner select) (LeadsTo owner select result)
      (fun id shelf => shelf.table[id]? = none) := by
  have table_kept : ∀ {id m : ι} {shelf mid : Shelf ι ρ κ β}, shelf.table[id]? = none →
      mid ∈ remove owner m shelf → mid.table[id]? = none := by
    intro id m shelf mid gone passed
    rcases mem_remove passed with ⟨r, -, rfl⟩ | rfl
    · exact gone
    · rw [final_remove]
      dsimp only
      rw [Std.ExtTreeMap.getElem?_erase]
      split
      · rfl
      · exact gone
  constructor
  case index_visit =>
    intro id shelf mid passed
    rcases mem_remove passed with ⟨r, -, rfl⟩ | rfl
    · rfl
    · change (final (remove owner id) shelf).byKey = shelf.byKey
      rw [final_remove]
  case index_dropKey =>
    intro key shelf
    rfl
  case treats =>
    intro id shelf
    change (final (remove owner id) shelf).table[id]? = none
    rw [final_remove]
    simp
  case stays =>
    intro id shelf gone m mid passed
    exact table_kept gone passed
  case visits =>
    intro id key shelf leads chosen inside
    exact leadsTo_remove leads (mem_selected.mpr ⟨key, chosen, inside⟩)
  case drops =>
    rintro key shelf ⟨compact, ends⟩ chosen gone
    refine ⟨compact, ?_⟩
    rw [← ends]
    -- Whoever drops out of the sweep with the key has no record any more.
    have same : ∀ n, shelf.table[n]? ≠ none →
        (n ∈ selected (shelf.byKey.erase key) select ↔ n ∈ selected shelf.byKey select) := by
      intro n present
      exact mem_selected_erase (fun inside => present (gone n inside))
    have keys : cut (shelf.byKey.erase key) select = cut shelf.byKey select := cut_erase chosen
    unfold removed removal
    dsimp only
    rw [keys, eraseAll_congr same, unlistAll_congr compact same]

/-- Nothing is left to remove once nothing is listed. -/
theorem removed_of_cut (nothing : selected shelf.byKey select = [])
    (swept : cut shelf.byKey select = shelf.byKey) : removed owner select shelf = shelf := by
  unfold removed
  rw [nothing, swept]
  rfl

/-- A whole removal reaches that result, whatever the order of the listing. -/
theorem final_removal (compact : Compact shelf.byOwner) (listing : Listing β ι) :
    final ((removal owner select).writes listing) shelf = removed owner select shelf := by
  have restartable := restartable_removal owner select (removed owner select shelf)
  have ends := (Sweep.good_final restartable listing ⟨compact, rfl⟩).2
  have swept : (final ((removal owner select).writes listing) shelf).byKey =
      cut shelf.byKey select := Sweep.index_final restartable listing ⟨compact, rfl⟩
  rw [← ends, removed_of_cut]
  · rw [swept, selected_cut]
  · rw [swept, cut_cut]

end Shelf
end AztecPxe.WriteTrace
