import Mathlib

/-! Stores whose keys are lists of symbols, read one key at a time or by everything that starts
alike. Programs that share such a store do not meet when each keeps to keys of its own: a region
is a set of keys, and a program is confined to a region when it writes nowhere else and, if it
only reads, when what the region holds is all it depends on. -/
namespace AztecPxe

/-- A store, with what a write leaves alone: every other key and every listing the key does not
belong to. A call may fail, and a write that fails may leave its key in any state. -/
structure PrefixStore (α ν ε : Type) where
  State : Type
  get : State → List α → Except ε (Option ν)
  put : State → List α → ν → Except ε Unit × State
  delete : State → List α → Except ε Unit × State
  listPrefix : State → List α → Except ε (List (List α × ν))
  get_put : ∀ {state : State} {key other : List α} {value : ν}, other ≠ key →
    get (put state key value).2 other = get state other
  get_delete : ∀ {state : State} {key other : List α}, other ≠ key →
    get (delete state key).2 other = get state other
  listPrefix_put : ∀ {state : State} {key start : List α} {value : ν}, ¬ start <+: key →
    listPrefix (put state key value).2 start = listPrefix state start
  listPrefix_delete : ∀ {state : State} {key start : List α}, ¬ start <+: key →
    listPrefix (delete state key).2 start = listPrefix state start
  mem_listPrefix : ∀ {state : State} {start : List α} {entries : List (List α × ν)},
    listPrefix state start = .ok entries → ∀ entry ∈ entries, start <+: entry.1

namespace PrefixStore
variable {α ν ε β γ : Type}

/-- Programs over a store: they keep what they have written when they fail. -/
abbrev Program (store : PrefixStore α ν ε) (β : Type) := ExceptT ε (StateM store.State) β

section Programs
variable (store : PrefixStore α ν ε)

/-- What a program returns and the state it leaves. -/
def exec {store : PrefixStore α ν ε} (program : store.Program β) (state : store.State) :
    Except ε β × store.State := (ExceptT.run program).run state

def read (key : List α) : store.Program (Option ν) :=
  ExceptT.mk (fun state => (store.get state key, state))

def write (key : List α) (value : ν) : store.Program Unit :=
  ExceptT.mk (fun state => store.put state key value)

def erase (key : List α) : store.Program Unit := ExceptT.mk (fun state => store.delete state key)

def scan (start : List α) : store.Program (List (List α × ν)) :=
  ExceptT.mk (fun state => (store.listPrefix state start, state))

end Programs

variable {store : PrefixStore α ν ε} {program : store.Program β} {next : β → store.Program γ}
  {region other : Set (List α)}

@[simp] theorem exec_pure (value : β) (state : store.State) :
    exec (pure value : store.Program β) state = (.ok value, state) := rfl

@[simp] theorem exec_throw (e : ε) (state : store.State) :
    exec (throw e : store.Program β) state = (.error e, state) := rfl

theorem exec_bind (state : store.State) :
    exec (program >>= next) state = match exec program state with
      | (.ok value, after) => exec (next value) after
      | (.error e, after) => (.error e, after) := by
  simp only [exec, ExceptT.run_bind, StateT.run_bind]
  rcases StateT.run (ExceptT.run program) state with ⟨_ | _, _⟩ <;> rfl

/-! ## Regions -/

/-- Two states agree on a region: on its keys, and on every listing of keys of it only. -/
structure SameOn (store : PrefixStore α ν ε) (region : Set (List α))
    (first second : store.State) : Prop where
  get : ∀ key ∈ region, store.get first key = store.get second key
  listPrefix : ∀ start, (∀ key, start <+: key → key ∈ region) →
    store.listPrefix first start = store.listPrefix second start

theorem SameOn.refl (state : store.State) : SameOn store region state state :=
  ⟨fun _ _ => rfl, fun _ _ => rfl⟩

theorem SameOn.trans {first second third : store.State} (left : SameOn store region first second)
    (right : SameOn store region second third) : SameOn store region first third where
  get key inside := (left.get key inside).trans (right.get key inside)
  listPrefix start inside := (left.listPrefix start inside).trans (right.listPrefix start inside)

/-- The program writes in the region only: no other region sees it, also when it fails. -/
def Writes (region : Set (List α)) (program : store.Program β) : Prop :=
  ∀ (state : store.State) (other : Set (List α)), Disjoint region other →
    SameOn store other state (exec program state).2

/-- The program writes nothing, and depends on the region only. -/
structure Reads (region : Set (List α)) (program : store.Program β) : Prop where
  keeps : ∀ state, (exec program state).2 = state
  same : ∀ first second, SameOn store region first second →
    (exec program first).1 = (exec program second).1

/-- What one program writes does not show in what another reads. -/
theorem Reads.frame {query : store.Program γ} (writes : Writes region program)
    (reads : Reads other query) (apart : Disjoint region other) (state : store.State) :
    (exec query (exec program state).2).1 = (exec query state).1 :=
  (reads.same _ _ (writes state other apart)).symm

theorem Reads.writes (reads : Reads region program) : Writes region program := by
  intro state outside _
  rw [reads.keeps]
  exact SameOn.refl state

/-! ## Programs that read -/

theorem reads_pure (value : β) : Reads region (pure value : store.Program β) :=
  ⟨fun _ => rfl, fun _ _ _ => rfl⟩

theorem reads_throw (e : ε) : Reads region (throw e : store.Program β) :=
  ⟨fun _ => rfl, fun _ _ _ => rfl⟩

theorem reads_read {key : List α} (inside : key ∈ region) : Reads region (store.read key) :=
  ⟨fun _ => rfl, fun _ _ agree => agree.get key inside⟩

theorem reads_scan {start : List α} (inside : ∀ key, start <+: key → key ∈ region) :
    Reads region (store.scan start) :=
  ⟨fun _ => rfl, fun _ _ agree => agree.listPrefix start inside⟩

theorem reads_bind (first : Reads region program) (later : ∀ value, Reads region (next value)) :
    Reads region (program >>= next) where
  keeps state := by
    have kept := first.keeps state
    rw [exec_bind]
    generalize exec program state = outcome at kept ⊢
    obtain ⟨e | value, after⟩ := outcome
    · exact kept
    · exact ((later value).keeps after).trans kept
  same one two agree := by
    have kept := first.keeps one
    have kept' := first.keeps two
    have same := first.same one two agree
    rw [exec_bind, exec_bind]
    generalize exec program one = outcome at kept same ⊢
    generalize exec program two = outcome' at kept' same ⊢
    obtain ⟨result, after⟩ := outcome
    obtain ⟨result', after'⟩ := outcome'
    subst kept kept' same
    cases result with
    | error e => rfl
    | ok value => exact (later value).same _ _ agree

/-- A loop that reads. -/
theorem reads_mapM {items : List β} {turn : β → store.Program γ}
    (each : ∀ item ∈ items, Reads region (turn item)) : Reads region (items.mapM turn) := by
  induction items with
  | nil => exact reads_pure []
  | cons item rest ih =>
    rw [List.mapM_cons]
    exact reads_bind (each item List.mem_cons_self) (fun _ =>
      reads_bind (ih (fun other held => each other (.tail _ held))) (fun _ => reads_pure _))

/-! ## Programs that write -/

theorem writes_put {key : List α} (inside : key ∈ region) (value : ν) :
    Writes region (store.write key value) := by
  intro state outside apart
  have absent : key ∉ outside := Set.disjoint_left.mp apart inside
  exact {
    get := fun other held => (store.get_put (ne_of_mem_of_not_mem held absent)).symm
    listPrefix := fun start held =>
      (store.listPrefix_put (fun under => absent (held key under))).symm }

theorem writes_delete {key : List α} (inside : key ∈ region) :
    Writes region (store.erase key) := by
  intro state outside apart
  have absent : key ∉ outside := Set.disjoint_left.mp apart inside
  exact {
    get := fun other held => (store.get_delete (ne_of_mem_of_not_mem held absent)).symm
    listPrefix := fun start held =>
      (store.listPrefix_delete (fun under => absent (held key under))).symm }

theorem writes_bind (first : Writes region program) (later : ∀ value, Writes region (next value)) :
    Writes region (program >>= next) := by
  intro state outside apart
  have before := first state outside apart
  rw [exec_bind]
  generalize exec program state = outcome at before ⊢
  obtain ⟨e | value, after⟩ := outcome
  · exact before
  · exact before.trans (later value after outside apart)

/-- After a listing, the program may write to the keys it has found. -/
theorem writes_scan {start : List α} {next : List (List α × ν) → store.Program γ}
    (later : ∀ entries, (∀ entry ∈ entries, start <+: entry.1) → Writes region (next entries)) :
    Writes region (store.scan start >>= next) := by
  intro state outside apart
  have scanned : exec (store.scan start) state = (store.listPrefix state start, state) := rfl
  rw [exec_bind, scanned]
  cases listed : store.listPrefix state start with
  | error e => exact SameOn.refl state
  | ok entries => exact later entries (store.mem_listPrefix listed) state outside apart

/-- A loop that writes. -/
theorem writes_forM {items : List β} {turn : β → store.Program PUnit}
    (each : ∀ item ∈ items, Writes region (turn item)) : Writes region (forM items turn) := by
  induction items with
  | nil => exact (reads_pure PUnit.unit : Reads region _).writes
  | cons item rest ih =>
    exact writes_bind (each item List.mem_cons_self) (fun _ =>
      ih (fun other held => each other (.tail _ held)))

/-! ## Regions of keys that start alike -/

/-- The keys that start with one of these. -/
def under (starts : List (List α)) : Set (List α) := {key | ∃ start ∈ starts, start <+: key}

theorem mem_under {starts : List (List α)} {start key : List α} (listed : start ∈ starts)
    (begins : start <+: key) : key ∈ under starts := ⟨start, listed, begins⟩

/-- Two starts of one key are starts of one another, so starts that are not keep apart. -/
theorem disjoint_under {first second : List (List α)}
    (apart : ∀ start ∈ first, ∀ start' ∈ second, ¬ start <+: start' ∧ ¬ start' <+: start) :
    Disjoint (under first) (under second) := by
  rw [Set.disjoint_left]
  rintro key ⟨start, listed, begins⟩ ⟨start', listed', begins'⟩
  obtain ⟨no, no'⟩ := apart start listed start' listed'
  exact (List.prefix_or_prefix_of_prefix begins begins').elim no no'

/-! ## Scanning an ordered map -/

section Ordered
variable [Ord α]

private theorem compare_cons (first second : α) (rest rest' : List α) :
    compare (first :: rest) (second :: rest') = (compare first second).then (compare rest rest') :=
  List.compareLex_cons_cons

variable [Std.LawfulEqOrd α]

/-- No key comes before a start of it. -/
theorem compare_start {start key : List α} (begins : start <+: key) :
    compare key start ≠ .lt := by
  obtain ⟨rest, rfl⟩ := begins
  induction start with
  | nil => cases rest <;> simp [compare, List.compareLex]
  | cons symbol start ih =>
    simpa [compare_cons, Std.ReflCmp.compare_self] using ih

/-- Between a start and a key that has it, every key has it. -/
theorem begins_of_between {start between key : List α} (begins : start <+: key)
    (above : compare between start ≠ .lt) (below : compare between key = .lt) :
    start <+: between := by
  induction start generalizing between key with
  | nil => exact List.nil_prefix
  | cons symbol start ih =>
    obtain ⟨rest, rfl⟩ := begins
    cases between with
    | nil => exact absurd rfl above
    | cons first others =>
      rw [compare_cons] at above
      rw [List.cons_append, compare_cons] at below
      cases order : compare first symbol with
      | lt =>
        rw [order] at above
        exact absurd rfl above
      | gt =>
        rw [order] at below
        cases below
      | eq =>
        rw [order] at above below
        obtain rfl : first = symbol := Std.LawfulEqOrd.eq_of_compare order
        exact List.cons_prefix_cons.mpr ⟨rfl, ih (List.prefix_append start rest) above below⟩

variable [DecidableEq α]

/-- In a sorted list nothing that starts alike comes after something that does not. -/
private theorem takeWhile_above {start : List α} {entries : List (List α × ν)}
    (sorted : entries.Pairwise (fun a b => compare a.1 b.1 = .lt))
    (above : ∀ entry ∈ entries, compare entry.1 start ≠ .lt) :
    entries.takeWhile (fun entry => start.isPrefixOf entry.1) =
      entries.filter (fun entry => start.isPrefixOf entry.1) := by
  induction entries with
  | nil => rfl
  | cons entry rest ih =>
    obtain ⟨first, later⟩ := List.pairwise_cons.mp sorted
    by_cases begins : start <+: entry.1
    · have held : start.isPrefixOf entry.1 = true := List.isPrefixOf_iff_prefix.mpr begins
      rw [List.takeWhile_cons, List.filter_cons, if_pos held, if_pos held,
        ih later (fun other inside => above other (.tail _ inside))]
    · have lacks : ¬ start.isPrefixOf entry.1 = true := fun held =>
        begins (List.isPrefixOf_iff_prefix.mp held)
      rw [List.takeWhile_cons, List.filter_cons, if_neg lacks, if_neg lacks, eq_comm,
        List.filter_eq_nil_iff]
      intro other inside held
      exact begins (begins_of_between (List.isPrefixOf_iff_prefix.mp held)
        (above entry List.mem_cons_self) (first other inside))

variable [Std.TransOrd α]

/-- From a start on, as long as it is there: that is everything in the map that has it. -/
theorem scan_sorted (start : List α) {entries : List (List α × ν)}
    (sorted : entries.Pairwise (fun a b => compare a.1 b.1 = .lt)) :
    (entries.dropWhile (fun entry => compare entry.1 start = .lt)).takeWhile
        (fun entry => start.isPrefixOf entry.1) =
      entries.filter (fun entry => start.isPrefixOf entry.1) := by
  induction entries with
  | nil => rfl
  | cons entry rest ih =>
    obtain ⟨first, later⟩ := List.pairwise_cons.mp sorted
    by_cases before : compare entry.1 start = .lt
    · have lacks : ¬ start.isPrefixOf entry.1 = true := fun held =>
        compare_start (List.isPrefixOf_iff_prefix.mp held) before
      rw [List.dropWhile_cons, if_pos (decide_eq_true before), ih later, List.filter_cons,
        if_neg lacks]
    · rw [List.dropWhile_cons, if_neg (by simpa using before)]
      refine takeWhile_above sorted (fun other inside => ?_)
      rcases List.mem_cons.mp inside with rfl | inside
      · exact before
      · exact fun below => before (Std.TransCmp.lt_trans (first other inside) below)

/-- Maps that agree on the keys that start alike list them alike. -/
theorem filter_toList_congr {start : List α} {first second : Std.ExtTreeMap (List α) ν}
    (same : ∀ key, start <+: key → first[key]? = second[key]?) :
    first.toList.filter (fun entry => start.isPrefixOf entry.1) =
      second.toList.filter (fun entry => start.isPrefixOf entry.1) := by
  have sorted (map : Std.ExtTreeMap (List α) ν) :
      (map.toList.filter (fun entry => start.isPrefixOf entry.1)).Pairwise
        (fun a b => compare a.1 b.1 = .lt) :=
    Std.ExtTreeMap.ordered_keys_toList.filter _
  have nodup (map : Std.ExtTreeMap (List α) ν) :
      (map.toList.filter (fun entry => start.isPrefixOf entry.1)).Nodup := by
    refine List.Pairwise.imp (fun {a b} before same => ?_) (sorted map)
    rw [same, Std.ReflOrd.compare_self] at before
    cases before
  refine List.Perm.eq_of_pairwise (fun a b _ _ before after => ?_) (sorted first) (sorted second) ?_
  · exact absurd after (Std.OrientedCmp.not_lt_of_lt before)
  · rw [List.perm_ext_iff_of_nodup (nodup first) (nodup second)]
    rintro ⟨key, value⟩
    rw [List.mem_filter, List.mem_filter, Std.ExtTreeMap.mem_toList_iff_getElem?_eq_some,
      Std.ExtTreeMap.mem_toList_iff_getElem?_eq_some, List.isPrefixOf_iff_prefix]
    exact and_congr_left (fun begins => by rw [same key begins])

end Ordered

end PrefixStore

end AztecPxe
