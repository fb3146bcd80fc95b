import Mathlib

/-! Collecting items in a map from their number, where the first item of a
number stays and the others are dropped, and reading the map in ascending
order. Nothing is lost when the numbers are distinct; when several collections
are renumbered and collected together, nothing is lost exactly when the new
numbers are distinct. -/
namespace AztecPxe.FirstWins

variable {α : Type}

/-- `entry(number).or_insert(item)` for every item in turn. -/
def table (number : α → Nat) (items : List α) : Std.ExtTreeMap Nat α :=
  items.foldl (fun table item => table.insertIfNew (number item) item) ∅

/-- The values of the table, by ascending number. -/
def collect (number : α → Nat) (items : List α) : List α :=
  (table number items).toList.map Prod.snd

variable {number : α → Nat}

private theorem getElem?_foldl (items : List α) (start : Std.ExtTreeMap Nat α) (k : Nat) :
    (items.foldl (fun table item => table.insertIfNew (number item) item) start)[k]? =
      start[k]?.or (items.find? (fun item => decide (number item = k))) := by
  induction items generalizing start with
  | nil => simp
  | cons item rest ih =>
    rw [List.foldl_cons, ih, Std.ExtTreeMap.getElem?_insertIfNew]
    by_cases same : number item = k
    · subst k
      by_cases held : number item ∈ start
      · obtain ⟨found, stored⟩ := Option.isSome_iff_exists.mp
          (Std.ExtTreeMap.mem_iff_isSome_getElem?.mp held)
        rw [stored, if_neg (fun fresh => fresh.2 held)]
        rfl
      · rw [if_pos ⟨Std.ReflCmp.compare_self, held⟩, Std.ExtTreeMap.getElem?_eq_none held, List.find?_cons]
        simp
    · simp [same]

/-- The table holds the first item of each number. -/
theorem getElem?_table (items : List α) (k : Nat) :
    (table number items)[k]? = items.find? (fun item => decide (number item = k)) := by
  unfold table
  rw [getElem?_foldl]
  simp

theorem mem_collect {items : List α} {item : α} :
    item ∈ collect number items ↔
      items.find? (fun other => decide (number other = number item)) = some item := by
  unfold collect
  rw [List.mem_map]
  constructor
  · rintro ⟨⟨k, found⟩, listed, rfl⟩
    have held := Std.ExtTreeMap.mem_toList_iff_getElem?_eq_some.mp listed
    rw [getElem?_table] at held
    have same : number found = k := by simpa using List.find?_some held
    rw [same]
    exact held
  · intro first
    refine ⟨(number item, item), ?_, rfl⟩
    rw [Std.ExtTreeMap.mem_toList_iff_getElem?_eq_some, getElem?_table]
    exact first

theorem mem_of_mem_collect {items : List α} {item : α} (kept : item ∈ collect number items) :
    item ∈ items :=
  List.mem_of_find?_eq_some (mem_collect.mp kept)

private theorem map_number_collect (items : List α) :
    (collect number items).map number = (table number items).toList.map Prod.fst := by
  unfold collect
  rw [List.map_map]
  apply List.map_congr_left
  rintro ⟨k, found⟩ listed
  have held := Std.ExtTreeMap.mem_toList_iff_getElem?_eq_some.mp listed
  rw [getElem?_table] at held
  simpa using List.find?_some held

/-- Collected numbers ascend, so none occurs twice. -/
theorem numbers_ascend (items : List α) :
    ((collect number items).map number).Pairwise (· < ·) := by
  rw [map_number_collect, Std.ExtTreeMap.map_fst_toList_eq_keys]
  apply (Std.ExtTreeMap.ordered_keys (t := table number items)).imp
  intro a b less
  exact compare_lt_iff_lt.mp less

/-- The items are collected by ascending number. -/
theorem ascends (number : α → Nat) (items : List α) :
    (collect number items).Pairwise (fun a b => number a < number b) :=
  List.pairwise_map.mp (numbers_ascend items)

theorem nodup_numbers (items : List α) : ((collect number items).map number).Nodup :=
  (numbers_ascend items).imp Nat.ne_of_lt

/-- A number is collected exactly when some item has it. -/
theorem mem_numbers {items : List α} {k : Nat} :
    k ∈ (collect number items).map number ↔ k ∈ items.map number := by
  constructor
  · intro inside
    obtain ⟨item, kept, rfl⟩ := List.mem_map.mp inside
    exact List.mem_map_of_mem (mem_of_mem_collect kept)
  · intro inside
    obtain ⟨item, held, rfl⟩ := List.mem_map.mp inside
    cases first : items.find? (fun other => decide (number other = number item)) with
    | none => simpa using List.find?_eq_none.mp first item held
    | some found =>
      have same : number found = number item := by simpa using List.find?_some first
      rw [← same] at first ⊢
      exact List.mem_map_of_mem (mem_collect.mpr first)

theorem length_collect (items : List α) :
    (collect number items).length = (items.map number).dedup.length := by
  rw [← List.length_map (f := number)]
  apply List.Perm.length_eq
  apply (List.perm_ext_iff_of_nodup (nodup_numbers items) (List.nodup_dedup _)).mpr
  intro k
  rw [mem_numbers, List.mem_dedup]

/-- The first item of its number. -/
def FirstIn (number : α → Nat) (item : α) (items : List α) : Prop :=
  items.find? (fun other => decide (number other = number item)) = some item

theorem FirstIn.mem {item : α} {items : List α} (first : FirstIn number item items) :
    item ∈ items :=
  List.mem_of_find?_eq_some first

theorem FirstIn.append {item : α} {items : List α} (first : FirstIn number item items)
    (more : List α) : FirstIn number item (items ++ more) := by
  unfold FirstIn
  rw [List.find?_append, first, Option.some_or]

/-- Items of other numbers in front change nothing. -/
theorem FirstIn.prepend {item : α} {items : List α} (first : FirstIn number item items)
    {before : List α} (fresh : number item ∉ before.map number) :
    FirstIn number item (before ++ items) := by
  unfold FirstIn
  rw [List.find?_append, List.find?_eq_none.mpr, Option.none_or, first]
  intro other inside same
  exact fresh (List.mem_map.mpr ⟨other, inside, by simpa using same⟩)

/-- An item that every item of its number equals comes first. -/
theorem FirstIn.of_unique {item : α} {items : List α} (held : item ∈ items)
    (unique : ∀ other ∈ items, number other = number item → other = item) :
    FirstIn number item items := by
  unfold FirstIn
  cases found : items.find? (fun other => decide (number other = number item)) with
  | none => simpa using List.find?_eq_none.mp found item held
  | some first =>
    have same : number first = number item := by simpa using List.find?_some found
    rw [unique first (List.mem_of_find?_eq_some found) same]

/-- What comes first among the items read first is collected. -/
theorem FirstIn.collected {item : α} {items : List α} (first : FirstIn number item items)
    (more : List α) : item ∈ collect number (items ++ more) :=
  mem_collect.mpr (first.append more)

/-- Items with distinct numbers are all kept, whatever follows them. -/
theorem mem_collect_append {items more : List α} (distinct : (items.map number).Nodup) {item : α}
    (held : item ∈ items) : item ∈ collect number (items ++ more) := by
  apply FirstIn.collected
  apply FirstIn.of_unique held
  intro other inside same
  exact List.inj_on_of_nodup_map distinct inside held same

/-- Copies of items with distinct numbers are dropped, and nothing else is. -/
theorem collect_perm {items copies : List α} (distinct : (items.map number).Nodup)
    (held : ∀ item ∈ copies, item ∈ items) : (collect number (items ++ copies)).Perm items := by
  have numbers : ((collect number (items ++ copies)).map number).Nodup := nodup_numbers _
  have once := List.Nodup.of_map number numbers
  apply (List.perm_ext_iff_of_nodup once (List.Nodup.of_map number distinct)).mpr
  intro item
  constructor
  · intro kept
    rcases List.mem_append.mp (mem_of_mem_collect kept) with first | copy
    · exact first
    · exact held item copy
  · exact mem_collect_append distinct

/-- A collection of items that already ascend is the list of them. -/
theorem collect_eq_of_ascending {items copies : List α}
    (ascending : items.Pairwise (fun a b => number a < number b))
    (perm : (collect number copies).Perm items) : collect number copies = items := by
  apply perm.eq_of_pairwise _ (ascends number copies) ascending
  intro a b _ _ less greater
  exact absurd greater (Nat.lt_asymm less)

/-- A collection out of a list that has the list's images, in order and each once, is the
list. -/
theorem collect_eq_of_images {β : Type} {f : α → β} {p : β → Bool} {items listed : List α}
    (inside : ∀ item ∈ collect number items, item ∈ listed) (distinct : (listed.map f).Nodup)
    (same : ((collect number items).map f).filter p = listed.map f) :
    collect number items = listed ∧ ∀ item ∈ listed, p (f item) = true := by
  have once : (collect number items).Nodup := List.Nodup.of_map number (nodup_numbers items)
  have atMost := (List.subperm_of_subset once inside).length_le
  have lengths := congrArg List.length same
  rw [List.length_map] at lengths
  have whole : ((collect number items).map f).filter p = (collect number items).map f := by
    apply List.filter_sublist.eq_of_length_le
    rw [List.length_map, lengths]
    exact atMost
  rw [whole] at same
  have equal : collect number items = listed := by
    refine List.ext_getElem ?_ (fun i first second => ?_)
    · simpa using congrArg List.length same
    · apply List.inj_on_of_nodup_map distinct (inside _ (List.getElem_mem first))
        (List.getElem_mem second)
      have images := List.getElem_of_eq same (i := i) (by simpa using first)
      rwa [List.getElem_map, List.getElem_map] at images
  refine ⟨equal, fun item held => ?_⟩
  rw [equal] at whole
  exact List.filter_eq_self.mp whole _ (List.mem_map_of_mem held)

/-- A collection whose items are to be renumbered. -/
structure Part (number : α → Nat) where
  items : List α
  shift : α → α
  renumber : Nat → Nat
  number_shift : ∀ item, number (shift item) = renumber (number item)

/-- The items of all parts, renumbered. -/
def shiftedItems (parts : List (Part number)) : List α :=
  parts.flatMap (fun part => part.items.map part.shift)

/-- The new numbers of what each part alone would collect. -/
def shiftedNumbers (parts : List (Part number)) : List Nat :=
  parts.flatMap (fun part => (collect number part.items).map (fun item =>
    part.renumber (number item)))

private theorem mem_shiftedNumbers {parts : List (Part number)} {k : Nat} :
    k ∈ shiftedNumbers parts ↔ k ∈ (shiftedItems parts).map number := by
  unfold shiftedNumbers shiftedItems
  rw [List.map_flatMap, List.mem_flatMap, List.mem_flatMap]
  apply exists_congr
  intro part
  apply and_congr_right
  intro _
  rw [List.map_map]
  constructor
  · intro inside
    obtain ⟨item, kept, rfl⟩ := List.mem_map.mp inside
    exact List.mem_map.mpr ⟨item, mem_of_mem_collect kept, part.number_shift item⟩
  · intro inside
    obtain ⟨item, held, rfl⟩ := List.mem_map.mp inside
    obtain ⟨kept, inside, same⟩ :=
      List.mem_map.mp (mem_numbers.mpr (List.mem_map_of_mem (f := number) held))
    refine List.mem_map.mpr ⟨kept, inside, ?_⟩
    rw [same]
    exact (part.number_shift item).symm

private theorem length_collect_shifted (parts : List (Part number)) :
    (collect number (shiftedItems parts)).length = (shiftedNumbers parts).dedup.length := by
  rw [length_collect]
  apply List.Perm.length_eq
  apply (List.perm_ext_iff_of_nodup (List.nodup_dedup _) (List.nodup_dedup _)).mpr
  intro k
  rw [List.mem_dedup, List.mem_dedup, mem_shiftedNumbers]

private theorem length_shiftedNumbers (parts : List (Part number)) :
    (shiftedNumbers parts).length =
      (parts.map (fun part => (collect number part.items).length)).sum := by
  unfold shiftedNumbers
  rw [List.length_flatMap]
  simp only [List.length_map]

/-- Within a part whose new numbers are distinct, the first item of a number is
still the first of its new number. -/
private theorem find?_shifted {part : Part number}
    (distinct : ((collect number part.items).map (fun item => part.renumber (number item))).Nodup)
    {item : α} (kept : item ∈ collect number part.items) :
    (part.items.map part.shift).find? (fun other =>
      decide (number other = part.renumber (number item))) = some (part.shift item) := by
  rw [List.find?_map]
  have agree : ∀ other ∈ part.items,
      ((fun other => decide (number other = part.renumber (number item))) ∘ part.shift) other =
        decide (number other = number item) := by
    intro other held
    simp only [Function.comp_apply, part.number_shift, decide_eq_decide]
    constructor
    · intro same
      obtain ⟨first, inside, firstSame⟩ :=
        List.mem_map.mp (mem_numbers.mpr (List.mem_map_of_mem (f := number) held))
      rw [← firstSame] at same ⊢
      rw [List.inj_on_of_nodup_map distinct inside kept same]
    · intro same
      rw [same]
  rw [List.find?_congr agree, mem_collect.mp kept, Option.map_some]

/-- Collecting renumbered parts together keeps everything each part alone
collects, and as many items, exactly when the new numbers are distinct. -/
theorem lossless_iff (parts : List (Part number)) :
    ((∀ part ∈ parts, ∀ item ∈ collect number part.items,
        part.shift item ∈ collect number (shiftedItems parts)) ∧
      (collect number (shiftedItems parts)).length =
        (parts.map (fun part => (collect number part.items).length)).sum) ↔
      (shiftedNumbers parts).Nodup := by
  rw [length_collect_shifted, ← length_shiftedNumbers]
  constructor
  · rintro ⟨-, same⟩
    rw [← List.dedup_eq_self]
    exact (List.dedup_sublist _).eq_of_length same
  · intro distinct
    refine ⟨?_, by rw [List.dedup_eq_self.mpr distinct]⟩
    intro part listed item kept
    obtain ⟨before, after, rfl⟩ := List.append_of_mem listed
    have numbers : shiftedNumbers (before ++ part :: after) = shiftedNumbers before ++
        ((collect number part.items).map (fun item => part.renumber (number item)) ++
          shiftedNumbers after) := by
      simp [shiftedNumbers]
    rw [numbers, List.nodup_append] at distinct
    obtain ⟨-, later, apart⟩ := distinct
    have earlier : part.renumber (number item) ∉ (shiftedItems before).map number := by
      intro inside
      exact apart _ (mem_shiftedNumbers.mpr inside) _
        (List.mem_append_left _ (List.mem_map_of_mem kept)) rfl
    have items : shiftedItems (before ++ part :: after) =
        shiftedItems before ++ (part.items.map part.shift ++ shiftedItems after) := by
      simp [shiftedItems]
    rw [items, mem_collect, part.number_shift, List.find?_append, List.find?_eq_none.mpr,
      Option.none_or, List.find?_append, find?_shifted (List.nodup_append.mp later).1 kept]
    · rfl
    · intro other inside same
      exact earlier (List.mem_map.mpr ⟨other, inside, by simpa using same⟩)

/-- What is collected of renumbered parts, some part alone collects. -/
theorem mem_collect_shifted {parts : List (Part number)} {item : α}
    (kept : item ∈ collect number (shiftedItems parts)) :
    item ∈ parts.flatMap (fun part => (collect number part.items).map part.shift) := by
  rw [mem_collect] at kept
  induction parts with
  | nil => cases kept
  | cons part rest ih =>
    have items : shiftedItems (part :: rest) = part.items.map part.shift ++ shiftedItems rest :=
      List.flatMap_cons
    rw [items, List.find?_append, Option.or_eq_some_iff] at kept
    rw [List.flatMap_cons, List.mem_append]
    rcases kept with here | ⟨-, later⟩
    · rw [List.find?_map, Option.map_eq_some_iff] at here
      obtain ⟨original, found, rfl⟩ := here
      refine .inl (List.mem_map_of_mem (mem_collect.mpr ?_))
      obtain ⟨own, before, after, split, earlier⟩ := List.find?_eq_some_iff_append.mp found
      refine List.find?_eq_some_iff_append.mpr ⟨by simp, before, after, split, ?_⟩
      intro other held
      have differs := earlier other held
      simp only [Function.comp_apply, part.number_shift, Bool.not_eq_true',
        decide_eq_false_iff_not] at differs ⊢
      exact fun same => differs (congrArg part.renumber same)
    · exact .inr (ih later)

end AztecPxe.FirstWins
