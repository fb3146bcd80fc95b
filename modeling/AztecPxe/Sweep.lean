import AztecPxe.WriteTrace

/-! A sweep that can be restarted. It lists a table of posting lists once and,
for every selected key, treats the members one by one and deletes the key after
the last of them. Whatever property lets a state lead to the result is kept by
each of those writes: by a visit, because the member is still listed for the
next sweep, and by a deletion, because its members are treated. -/
namespace AztecPxe.WriteTrace
open Postings

/-- The entries of a table of posting lists, in an order of the lister's choice. -/
structure Listing (κ ι : Type) [Ord κ] [Std.TransOrd κ] where
  entries : Postings κ ι → List (κ × List ι)
  perm : ∀ idx, (entries idx).Perm idx.toList

/-- The parts of a sweep: the index it lists, the writes that treat a member,
the write that deletes a key, and the keys it selects. -/
structure Sweep (σ κ ι : Type) [Ord κ] [Std.TransOrd κ] where
  index : σ → Postings κ ι
  visit : ι → σ → List σ
  dropKey : κ → σ → σ
  select : κ → Bool

namespace Sweep
variable {σ κ ι : Type} [Ord κ] [Std.TransOrd κ]

/-- The writes of one turn. -/
def turn (sweep : Sweep σ κ ι) (entry : κ × List ι) : σ → List σ :=
  if sweep.select entry.1 then
    andThen (each sweep.visit entry.2) (fun s => [sweep.dropKey entry.1 s])
  else fun _ => []

/-- The writes of a whole sweep. -/
def writes (sweep : Sweep σ κ ι) (listing : Listing κ ι) (s : σ) : List σ :=
  each sweep.turn (listing.entries (sweep.index s)) s

/-- What makes a property of states survive every write of a sweep. -/
structure Restartable (sweep : Sweep σ κ ι) (Good : σ → Prop) (Treated : ι → σ → Prop) : Prop where
  index_visit : ∀ n s, ∀ mid ∈ sweep.visit n s, sweep.index mid = sweep.index s
  index_dropKey : ∀ key s, sweep.index (sweep.dropKey key s) = (sweep.index s).erase key
  treats : ∀ n s, Treated n (final (sweep.visit n) s)
  stays : ∀ {n s}, Treated n s → ∀ m, ∀ mid ∈ sweep.visit m s, Treated n mid
  visits : ∀ {n key s}, Good s → sweep.select key = true → n ∈ listed (sweep.index s) key →
    ∀ mid ∈ sweep.visit n s, Good mid
  drops : ∀ {key s}, Good s → sweep.select key = true →
    (∀ n ∈ listed (sweep.index s) key, Treated n s) → Good (sweep.dropKey key s)

section Rules
variable {sweep : Sweep σ κ ι} {Good : σ → Prop} {Treated : ι → σ → Prop}

/-- The index is read once and only loses the keys of finished turns. -/
private theorem visits_keep (restartable : Restartable sweep Good Treated) {key : κ}
    (chosen : sweep.select key = true) {idx : Postings κ ι} {members : List ι}
    (inside : ∀ n ∈ members, n ∈ listed idx key) {s : σ} (good : Good s) (same : sweep.index s = idx) :
    ∀ mid ∈ each sweep.visit members s, Good mid ∧ sweep.index mid = idx := by
  refine each_keeps (P := fun t => Good t ∧ sweep.index t = idx) ⟨good, same⟩ ?_
  rintro n member t ⟨held, there⟩ mid passed
  refine ⟨restartable.visits held chosen ?_ mid passed, ?_⟩
  · rw [there]
    exact inside n member
  · rw [restartable.index_visit n t mid passed, there]

private theorem visits_treat (restartable : Restartable sweep Good Treated) (members : List ι)
    (s : σ) : ∀ n ∈ members, Treated n (final (each sweep.visit members) s) := by
  induction members generalizing s with
  | nil =>
    intro n inside
    cases inside
  | cons head rest ih =>
    intro n inside
    rw [show final (each sweep.visit (head :: rest)) s =
      final (each sweep.visit rest) (final (sweep.visit head) s) from final_andThen _ _ _]
    rcases List.mem_cons.mp inside with rfl | later
    · exact final_keeps (restartable.treats n s)
        (each_keeps (restartable.treats n s) (fun m _ t held => restartable.stays held m))
    · exact ih _ n later

private theorem listing_fits [Std.LawfulEqOrd κ] (listing : Listing κ ι) (idx : Postings κ ι) :
    (listing.entries idx).Pairwise (fun a b => a.1 ≠ b.1) ∧
      ∀ entry ∈ listing.entries idx, idx[entry.1]? = some entry.2 := by
  constructor
  · apply (listing.perm idx).symm.pairwise
      (List.Pairwise.imp _ (Std.ExtTreeMap.distinct_keys_toList (t := idx)))
    · intro a b apart same
      exact apart same.symm
    · intro a b apart same
      rw [same] at apart
      exact apart Std.ReflCmp.compare_self
  · intro entry inside
    exact Std.ExtTreeMap.mem_toList_iff_getElem?_eq_some.mp ((listing.perm idx).mem_iff.mp inside)

/-- One turn keeps the property and deletes its key at most. -/
private theorem turn_keeps (restartable : Restartable sweep Good Treated) {entry : κ × List ι} {s : σ}
    (held : (sweep.index s)[entry.1]? = some entry.2) (good : Good s) :
    (∀ mid ∈ sweep.turn entry s, Good mid) ∧ sweep.index (final (sweep.turn entry) s) =
      if sweep.select entry.1 then (sweep.index s).erase entry.1 else sweep.index s := by
  unfold turn
  by_cases chosen : sweep.select entry.1 = true
  · simp only [chosen, ↓reduceIte]
    have view : listed (sweep.index s) entry.1 = entry.2 := by simp [listed, held]
    have visited := visits_keep restartable chosen (fun n inside => view ▸ inside) good rfl
    have settled : Good (final (each sweep.visit entry.2) s) ∧
        sweep.index (final (each sweep.visit entry.2) s) = sweep.index s :=
      final_keeps (P := fun t => Good t ∧ sweep.index t = sweep.index s) ⟨good, rfl⟩ visited
    constructor
    · intro mid passed
      rcases mem_andThen.mp passed with here | last
      · exact (visited mid here).1
      · rw [List.mem_singleton.mp last]
        apply restartable.drops settled.1 chosen
        rw [settled.2, view]
        exact visits_treat restartable entry.2 s
    · rw [final_andThen]
      change sweep.index (sweep.dropKey _ _) = _
      rw [restartable.index_dropKey, settled.2]
  · simp only [chosen, Bool.false_eq_true, ↓reduceIte]
    exact ⟨fun mid passed => absurd passed List.not_mem_nil, rfl⟩

variable [Std.LawfulEqOrd κ]

private theorem turns_keep (restartable : Restartable sweep Good Treated)
    (entries : List (κ × List ι)) (distinct : entries.Pairwise (fun a b => a.1 ≠ b.1)) {s : σ}
    (held : ∀ entry ∈ entries, (sweep.index s)[entry.1]? = some entry.2) (good : Good s) :
    (∀ mid ∈ each sweep.turn entries s, Good mid) ∧
      sweep.index (final (each sweep.turn entries) s) = entries.foldl (fun table entry =>
        if sweep.select entry.1 then table.erase entry.1 else table) (sweep.index s) := by
  induction entries generalizing s with
  | nil => exact ⟨fun mid passed => absurd passed List.not_mem_nil, rfl⟩
  | cons entry rest ih =>
    obtain ⟨first, others⟩ := List.pairwise_cons.mp distinct
    obtain ⟨passes, reached⟩ := turn_keeps restartable (held entry List.mem_cons_self) good
    have still : ∀ other ∈ rest,
        (sweep.index (final (sweep.turn entry) s))[other.1]? = some other.2 := by
      intro other member
      rw [reached]
      split
      · rw [Std.ExtTreeMap.getElem?_erase, if_neg, held other (List.mem_cons_of_mem entry member)]
        intro same
        exact first other member (Std.LawfulEqOrd.eq_of_compare same)
      · exact held other (List.mem_cons_of_mem entry member)
    obtain ⟨later, ended⟩ := ih others still (final_keeps good passes)
    constructor
    · intro mid passed
      rcases mem_andThen.mp passed with here | after
      · exact passes mid here
      · exact later mid after
    · rw [List.foldl_cons, ← reached, ← ended]
      exact congrArg sweep.index (final_andThen _ _ _)

/-- Every state a restartable sweep passes keeps the property. -/
theorem good_of_passed (restartable : Restartable sweep Good Treated) (listing : Listing κ ι)
    {s : σ} (good : Good s) : ∀ mid ∈ sweep.writes listing s, Good mid := by
  obtain ⟨distinct, held⟩ := listing_fits listing (sweep.index s)
  exact (turns_keep restartable _ distinct held good).1

theorem good_final (restartable : Restartable sweep Good Treated) (listing : Listing κ ι)
    {s : σ} (good : Good s) : Good (final (sweep.writes listing) s) :=
  final_keeps good (good_of_passed restartable listing good)

variable [DecidableEq κ] in
/-- In whatever order the entries came, the sweep leaves no selected key. -/
theorem index_final (restartable : Restartable sweep Good Treated) (listing : Listing κ ι)
    {s : σ} (good : Good s) :
    sweep.index (final (sweep.writes listing) s) = cut (sweep.index s) sweep.select := by
  obtain ⟨distinct, held⟩ := listing_fits listing (sweep.index s)
  have ended := (turns_keep restartable _ distinct held good).2
  apply Std.ExtTreeMap.ext_getElem?
  intro key
  rw [show sweep.index (final (sweep.writes listing) s) = _ from ended, getElem?_cut,
    getElem?_foldl_erase]
  by_cases chosen : sweep.select key = true
  · by_cases there : key ∈ (listing.entries (sweep.index s)).map Prod.fst
    · rw [if_pos ⟨chosen, there⟩, if_pos chosen]
    · rw [if_neg (fun both => there both.2), if_pos chosen]
      apply Std.ExtTreeMap.getElem?_eq_none
      intro present
      apply there
      have listedKey : key ∈ (sweep.index s).toList.map Prod.fst := by simpa using present
      exact ((listing.perm _).map Prod.fst).mem_iff.mpr listedKey
  · rw [if_neg (fun both => chosen both.1), if_neg chosen]

end Rules
end Sweep
end AztecPxe.WriteTrace
