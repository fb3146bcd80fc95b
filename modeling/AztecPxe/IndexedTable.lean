import AztecPxe.Postings

/-! A table of records together with indexes that list record ids by key. The
stores keep such tables consistent by hand, one write at a time; `Lists` says
what consistent means for one index, and the lemmas follow it through a new
record, a rewritten record and the removal of a batch of records. -/
namespace AztecPxe.IndexedTable
open AztecPxe Postings

set_option linter.unusedSectionVars false

variable {ι ρ κ : Type} [Ord ι] [Std.TransOrd ι] [Std.LawfulEqOrd ι] [DecidableEq ι]
  [Ord κ] [Std.TransOrd κ] [Std.LawfulEqOrd κ] [DecidableEq κ]

/-- The table without these records. -/
def eraseAll (table : Std.ExtTreeMap ι ρ) (ids : List ι) : Std.ExtTreeMap ι ρ :=
  ids.foldl (fun table id => table.erase id) table

theorem getElem?_eraseAll (table : Std.ExtTreeMap ι ρ) (ids : List ι) (n : ι) :
    (eraseAll table ids)[n]? = if n ∈ ids then none else table[n]? := by
  induction ids generalizing table with
  | nil => simp [eraseAll]
  | cons head rest ih =>
    unfold eraseAll at ih ⊢
    rw [List.foldl_cons, ih]
    by_cases same : n = head
    · subst n
      simp
    · simp [Std.ExtTreeMap.getElem?_erase, same, Ne.symm same]

theorem getElem?_eraseAll_eq_some {table : Std.ExtTreeMap ι ρ} {ids : List ι} {n : ι} {r : ρ} :
    (eraseAll table ids)[n]? = some r ↔ table[n]? = some r ∧ n ∉ ids := by
  rw [getElem?_eraseAll]
  split
  · rename_i inside
    simp [inside]
  · rename_i outside
    simp [outside]

/-- The index after these records are erased one by one, each taken off the
list of the key its record still named. -/
def unlistAll (owner : ρ → κ) : Std.ExtTreeMap ι ρ → Postings κ ι → List ι → Postings κ ι
  | _, idx, [] => idx
  | table, idx, id :: rest =>
    unlistAll owner (table.erase id) (match table[id]? with
      | none => idx
      | some r => idx.remove (owner r) id) rest

/-- Taking one record off the list of its owner. -/
private theorem listed_unlist (owner : ρ → κ) (head : ι) (table : Std.ExtTreeMap ι ρ)
    (idx : Postings κ ι) (key : κ) :
    listed (match table[head]? with
      | none => idx
      | some r => idx.remove (owner r) head) key =
      (listed idx key).filter (fun n =>
        !(decide (n = head) && table[n]?.any (fun r : ρ => owner r = key))) := by
  cases held : table[head]? with
  | none =>
    symm
    apply List.filter_eq_self.mpr
    intro n _
    by_cases same : n = head
    · subst n
      simp [held]
    · simp [same]
  | some r =>
    dsimp only
    rw [listed_remove]
    by_cases owned : owner r = key
    · rw [if_pos owned]
      apply List.filter_congr
      intro n _
      by_cases same : n = head
      · subst n
        simp [held, owned]
      · simp [same]
    · rw [if_neg owned]
      symm
      apply List.filter_eq_self.mpr
      intro n _
      by_cases same : n = head
      · subst n
        simp [held, owned]
      · simp [same]

theorem listed_unlistAll (owner : ρ → κ) (ids : List ι) (table : Std.ExtTreeMap ι ρ)
    (idx : Postings κ ι) (key : κ) :
    listed (unlistAll owner table idx ids) key =
      (listed idx key).filter (fun n =>
        !(decide (n ∈ ids) && table[n]?.any (fun r : ρ => owner r = key))) := by
  induction ids generalizing table idx with
  | nil => simp [unlistAll]
  | cons head rest ih =>
    rw [unlistAll, ih, listed_unlist, List.filter_filter]
    apply List.filter_congr
    intro n _
    by_cases same : n = head
    · subst n
      simp
    · have kept : (table.erase head)[n]? = table[n]? := by
        simp [Std.ExtTreeMap.getElem?_erase, Ne.symm same]
      simp [same, kept]

theorem compact_unlistAll (owner : ρ → κ) (ids : List ι) (table : Std.ExtTreeMap ι ρ)
    {idx : Postings κ ι} (compact : Compact idx) : Compact (unlistAll owner table idx ids) := by
  induction ids generalizing table idx with
  | nil => exact compact
  | cons head rest ih =>
    apply ih
    split
    · exact compact
    · exact compact_remove compact _ _

/-! ## What a removal does not depend on -/

/-- Only the ids that have a record count. -/
theorem eraseAll_congr {table : Std.ExtTreeMap ι ρ} {ids others : List ι}
    (same : ∀ n, table[n]? ≠ none → (n ∈ ids ↔ n ∈ others)) :
    eraseAll table ids = eraseAll table others := by
  apply Std.ExtTreeMap.ext_getElem?
  intro n
  rw [getElem?_eraseAll, getElem?_eraseAll]
  cases held : table[n]? with
  | none => simp
  | some r =>
    have both := same n (by simp [held])
    by_cases inside : n ∈ ids
    · rw [if_pos inside, if_pos (both.mp inside)]
    · rw [if_neg inside, if_neg (fun there => inside (both.mpr there))]

/-- A record that will be erased may be erased ahead of time. -/
theorem eraseAll_erase {table : Std.ExtTreeMap ι ρ} {ids : List ι} {n : ι} (inside : n ∈ ids) :
    eraseAll (table.erase n) ids = eraseAll table ids := by
  apply Std.ExtTreeMap.ext_getElem?
  intro m
  rw [getElem?_eraseAll, getElem?_eraseAll]
  split
  · rfl
  · rename_i outside
    rw [Std.ExtTreeMap.getElem?_erase, if_neg]
    intro same
    exact outside (Std.LawfulEqOrd.eq_of_compare same ▸ inside)

section Unlist
variable {owner : ρ → κ} {table : Std.ExtTreeMap ι ρ} {idx : Postings κ ι} {ids : List ι} {n : ι}

theorem unlistAll_congr (compact : Compact idx) {others : List ι}
    (same : ∀ n, table[n]? ≠ none → (n ∈ ids ↔ n ∈ others)) :
    unlistAll owner table idx ids = unlistAll owner table idx others := by
  apply ext_listed (compact_unlistAll owner ids table compact)
    (compact_unlistAll owner others table compact)
  intro key
  rw [listed_unlistAll, listed_unlistAll]
  apply List.filter_congr
  intro n _
  cases held : table[n]? with
  | none => simp
  | some r => simp [same n (by simp [held])]

/-- A record may be taken off its list ahead of time. -/
theorem unlistAll_remove (compact : Compact idx) (inside : n ∈ ids) {r : ρ}
    (held : table[n]? = some r) :
    unlistAll owner table (idx.remove (owner r) n) ids = unlistAll owner table idx ids := by
  apply ext_listed (compact_unlistAll owner ids table (compact_remove compact _ _))
    (compact_unlistAll owner ids table compact)
  intro key
  rw [listed_unlistAll, listed_unlistAll, listed_remove]
  split
  · rename_i owned
    rw [List.filter_filter]
    apply List.filter_congr
    intro m _
    by_cases same : m = n
    · subst m
      simp [inside, held, owned]
    · simp [same]
  · rfl

/-- A record that is on no list of its owner may be erased ahead of time. -/
theorem unlistAll_erase (compact : Compact idx)
    (unlisted : ∀ r : ρ, table[n]? = some r → n ∉ listed idx (owner r)) :
    unlistAll owner (table.erase n) idx ids = unlistAll owner table idx ids := by
  apply ext_listed (compact_unlistAll owner ids _ compact) (compact_unlistAll owner ids _ compact)
  intro key
  rw [listed_unlistAll, listed_unlistAll]
  apply List.filter_congr
  intro m there
  by_cases same : m = n
  · subst m
    cases held : table[n]? with
    | none => simp
    | some r =>
      have elsewhere : owner r ≠ key := by
        rintro rfl
        exact unlisted r held there
      simp [elsewhere]
  · simp [Std.ExtTreeMap.getElem?_erase, Ne.symm same]

end Unlist

/-- The index lists exactly the records that belong under each key. -/
structure Lists (idx : Postings κ ι) (table : Std.ExtTreeMap ι ρ) (belongs : ρ → κ → Prop) :
    Prop where
  mem_iff : ∀ {key : κ} {n : ι}, n ∈ listed idx key ↔ ∃ r : ρ, table[n]? = some r ∧ belongs r key

variable {idx : Postings κ ι} {table : Std.ExtTreeMap ι ρ} {belongs : ρ → κ → Prop}

theorem lists_empty : Lists (∅ : Postings κ ι) (∅ : Std.ExtTreeMap ι ρ) belongs := by
  constructor
  intro key n
  simp

/-- A new record enters the table and the list of its key. -/
theorem lists_new (lists : Lists idx table belongs) {n : ι} {r : ρ} {key : κ}
    (absent : table[n]? = none) (owned : ∀ other, belongs r other ↔ key = other) :
    Lists (idx.add key n) (table.insert n r) belongs := by
  constructor
  intro other m
  rw [mem_listed_add, lists.mem_iff, Std.ExtTreeMap.getElem?_insert]
  by_cases same : n = m
  · subst m
    simp [absent, owned]
  · simp [same, Ne.symm same]

/-- A new record that belongs nowhere enters the table only. -/
theorem lists_unowned (lists : Lists idx table belongs) {n : ι} {r : ρ}
    (absent : table[n]? = none) (unowned : ∀ other, ¬ belongs r other) :
    Lists idx (table.insert n r) belongs := by
  constructor
  intro other m
  rw [lists.mem_iff, Std.ExtTreeMap.getElem?_insert]
  by_cases same : n = m
  · subst m
    simp [absent, unowned]
  · simp [same]

/-- Rewriting records without moving them between keys keeps the index. -/
theorem lists_of_same_shape (lists : Lists idx table belongs) {after : Std.ExtTreeMap ι ρ}
    {β : Type} (shape : ρ → β) (decides : ∀ {r s key}, shape r = shape s →
      (belongs r key ↔ belongs s key))
    (same : ∀ n : ι, after[n]?.map shape = table[n]?.map shape) : Lists idx after belongs := by
  constructor
  intro key n
  rw [lists.mem_iff]
  have here := same n
  constructor
  · rintro ⟨r, held, owned⟩
    rw [held, Option.map_some] at here
    obtain ⟨s, stored, alike⟩ := Option.map_eq_some_iff.mp here
    exact ⟨s, stored, (decides alike).mpr owned⟩
  · rintro ⟨s, stored, owned⟩
    rw [stored, Option.map_some] at here
    obtain ⟨r, held, alike⟩ := Option.map_eq_some_iff.mp here.symm
    exact ⟨r, held, (decides alike).mpr owned⟩

/-- A listed record is selected exactly when its own key is. -/
theorem mem_selected_iff (lists : Lists idx table belongs) {select : κ → Bool} {n : ι} {r : ρ}
    (held : table[n]? = some r) :
    n ∈ selected idx select ↔ ∃ key, belongs r key ∧ select key = true := by
  rw [mem_selected]
  constructor
  · rintro ⟨key, chosen, inside⟩
    obtain ⟨s, stored, owned⟩ := lists.mem_iff.mp inside
    rw [held, Option.some.injEq] at stored
    subst s
    exact ⟨key, owned, chosen⟩
  · rintro ⟨key, owned, chosen⟩
    exact ⟨key, chosen, lists.mem_iff.mpr ⟨r, held, owned⟩⟩

/-- Cutting an index and erasing what it listed there keeps it exact. -/
theorem lists_cut (lists : Lists idx table belongs)
    (functional : ∀ {r key other}, belongs r key → belongs r other → key = other)
    (select : κ → Bool) :
    Lists (cut idx select) (eraseAll table (selected idx select)) belongs := by
  constructor
  intro key n
  rw [listed_cut]
  constructor
  · intro inside
    split at inside
    · simp at inside
    · rename_i spared
      obtain ⟨r, held, owned⟩ := lists.mem_iff.mp inside
      refine ⟨r, getElem?_eraseAll_eq_some.mpr ⟨held, ?_⟩, owned⟩
      rw [mem_selected_iff lists held]
      rintro ⟨other, owned', chosen⟩
      exact spared (functional owned' owned ▸ chosen)
  · rintro ⟨r, held, owned⟩
    obtain ⟨stored, outside⟩ := getElem?_eraseAll_eq_some.mp held
    rw [if_neg (fun chosen => outside ((mem_selected_iff lists stored).mpr ⟨key, owned, chosen⟩))]
    exact lists.mem_iff.mpr ⟨r, stored, owned⟩

/-- Erasing records and taking each off its list keeps the index exact. -/
theorem lists_unlistAll {owner : ρ → κ} (lists : Lists idx table (fun r key => owner r = key))
    (ids : List ι) :
    Lists (unlistAll owner table idx ids) (eraseAll table ids) (fun r key => owner r = key) := by
  constructor
  intro key n
  rw [listed_unlistAll, List.mem_filter, lists.mem_iff]
  constructor
  · rintro ⟨⟨r, held, owned⟩, kept⟩
    refine ⟨r, getElem?_eraseAll_eq_some.mpr ⟨held, ?_⟩, owned⟩
    intro inside
    simp [inside, held, owned] at kept
  · rintro ⟨r, held, owned⟩
    obtain ⟨stored, outside⟩ := getElem?_eraseAll_eq_some.mp held
    exact ⟨⟨r, stored, owned⟩, by simp [outside]⟩

end AztecPxe.IndexedTable
