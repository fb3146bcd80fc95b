import AztecPxe.Chunks
import AztecPxe.LogService
import AztecPxe.Run

/-! Which tag indexes a run of fetches can lose. A fetch returns every exposed
log of its window and only then is the finalized index inside that window, so
fetching alone skips nothing; an index is lost when its log appears at or below
the finalized index, or when a fetch fails after it has moved the index. -/
namespace AztecPxe.TaggingSync
open AztecPxe Chunks LogService RecipientTaggingStore

/-! ## One window -/

section Window
variable {poseidon2 : List Fr → Fr} {contract : AztecAddress} {logs : Fr → List Json}

/-- The answer of a node that holds these logs for each tag. -/
def answer (logs : Fr → List Json) (fails : List Fr → Option Error) (tags : List Fr) :
    Except Error Json :=
  match fails tags with
  | some e => .error e
  | none => .ok (.arr (tags.map (fun tag => .arr (logs tag))))

/-- Every exposed entry can be read. -/
def Readable (logs : Fr → List Json) : Prop :=
  ∀ tag, ∀ entry ∈ logs tag, ∃ log, parseEntry tag entry = .ok log

/-- The logs a tag's entries are read as. -/
def parsed (logs : Fr → List Json) (tag : Fr) : List TaggedLog :=
  ((logs tag).mapM (parseEntry tag)).toOption.getD []

private theorem tag_of_parseEntry {tag : Fr} {entry : Json} {log : TaggedLog}
    (read : parseEntry tag entry = .ok log) : log.tag = tag := by
  unfold parseEntry at read
  obtain ⟨txHash, -, rest⟩ := bind_eq_ok.mp read
  obtain ⟨firstNullifier, -, done⟩ := bind_eq_ok.mp rest
  cases done
  rfl

/-- Where every entry can be read, a tag's logs are its entries read one by one. -/
private theorem mapM_parseEntry (readable : Readable logs) (tag : Fr) :
    ∃ read : Json → TaggedLog, (∀ entry ∈ logs tag, parseEntry tag entry = .ok (read entry)) ∧
      (logs tag).mapM (parseEntry tag) = .ok ((logs tag).map read) ∧
      parsed logs tag = (logs tag).map read := by
  -- The default is never used.
  have each : ∀ entry ∈ logs tag, parseEntry tag entry =
      .ok ((parseEntry tag entry).toOption.getD ⟨0, [], 0, false, ⟨0⟩, [], 0⟩) := by
    intro entry inside
    obtain ⟨log, read⟩ := readable tag entry inside
    rw [read]
    rfl
  have all := mapM_eq_ok each
  refine ⟨_, each, all, ?_⟩
  unfold parsed
  rw [all]
  rfl

private theorem mapM_entries (readable : Readable logs) (tag : Fr) :
    (logs tag).mapM (parseEntry tag) = .ok (parsed logs tag) := by
  obtain ⟨read, -, all, same⟩ := mapM_parseEntry readable tag
  rw [all, same]

private theorem parsed_eq_nil_iff (readable : Readable logs) (tag : Fr) :
    parsed logs tag = [] ↔ logs tag = [] := by
  obtain ⟨read, -, -, same⟩ := mapM_parseEntry readable tag
  rw [same]
  exact List.map_eq_nil_iff

private theorem tag_of_mem_parsed (readable : Readable logs) {tag : Fr} {log : TaggedLog}
    (inside : log ∈ parsed logs tag) : log.tag = tag := by
  obtain ⟨read, each, -, same⟩ := mapM_parseEntry readable tag
  rw [same] at inside
  obtain ⟨entry, held, rfl⟩ := List.mem_map.mp inside
  exact tag_of_parseEntry (each entry held)

/-- An answered query returns the parsed logs of each tag in turn. -/
private theorem getPrivateLogs_answered (readable : Readable logs) {fails : List Fr → Option Error}
    {tags : List Fr} (answered : fails tags = none) :
    getPrivateLogsByTags (answer logs fails) tags = .ok (tags.map (parsed logs)) := by
  unfold getPrivateLogsByTags
  cases tags with
  | nil => rfl
  | cons first rest =>
    rw [if_neg (by simp)]
    unfold answer
    simp only [answered, ok_bind]
    unfold parseAnswer
    have each : ∀ entry ∈ (first :: rest).zipIdx,
        parseTagLogs (.arr ((first :: rest).map (fun tag => .arr (logs tag)))) entry.1 entry.2 =
          .ok (parsed logs entry.1) := by
      rintro ⟨tag, i⟩ inside
      have here : (first :: rest)[i]? = some tag := List.mem_zipIdx_iff_getElem?.mp inside
      simp only [parseTagLogs, Json.asArray, Option.bind_some, List.getElem?_map, here,
        Option.map_some]
      exact mapM_entries readable tag
    rw [mapM_eq_ok each]
    congr 1
    conv_rhs => rw [← List.zipIdx_map_fst 0 (first :: rest), List.map_map]
    rfl

private theorem failed_answer {fails : List Fr → Option Error} {tags : List Fr} (asked : tags ≠ [])
    {e : Error} (failed : fails tags = some e) :
    getPrivateLogsByTags (answer logs fails) tags = .error e := by
  unfold getPrivateLogsByTags
  rw [if_neg (by simpa using asked)]
  unfold answer
  simp only [failed, error_bind]

private theorem foldl_highest (first k : Nat) (found : List (List TaggedLog)) (start : Option Nat) :
    (∀ h, (found.zipIdx k).foldl (fun highest entry =>
        if entry.1.isEmpty then highest else some ((first + entry.2) % 2 ^ 64)) start = some h →
      start = some h ∨ ∃ i, (∃ ls, found[i]? = some ls ∧ ls ≠ []) ∧ h = (first + (k + i)) % 2 ^ 64) ∧
    ((found.zipIdx k).foldl (fun highest entry =>
        if entry.1.isEmpty then highest else some ((first + entry.2) % 2 ^ 64)) start = none →
      start = none ∧ ∀ ls ∈ found, ls = []) := by
  induction found generalizing k start with
  | nil => simp
  | cons ls rest ih =>
    rw [List.zipIdx_cons, List.foldl_cons]
    obtain ⟨someCase, noneCase⟩ := ih (k + 1)
      (if ls.isEmpty then start else some ((first + k) % 2 ^ 64))
    constructor
    · intro h reached
      rcases someCase h reached with here | ⟨i, ⟨ls', held, nonempty⟩, same⟩
      · cases ls with
        | nil => exact .inl here
        | cons log logs =>
          simp only [List.isEmpty_cons, Bool.false_eq_true, ↓reduceIte, Option.some.injEq] at here
          exact .inr ⟨0, ⟨log :: logs, rfl, by simp⟩, by simpa using here.symm⟩
      · refine .inr ⟨i + 1, ⟨ls', by simpa using held, nonempty⟩, ?_⟩
        have shifted : k + 1 + i = k + (i + 1) := by omega
        rw [same, shifted]
    · intro reached
      obtain ⟨unset, empty⟩ := noneCase reached
      cases ls with
      | nil => exact ⟨unset, by simpa using empty⟩
      | cons log logs => simp at unset

private theorem highestFound_some {first h : Nat} {found : List (List TaggedLog)}
    (reached : highestFound first found = some h) :
    ∃ i, (∃ ls, found[i]? = some ls ∧ ls ≠ []) ∧ h = (first + i) % 2 ^ 64 := by
  rcases (foldl_highest first 0 found none).1 h reached with impossible | ⟨i, held, same⟩
  · cases impossible
  · exact ⟨i, held, by simpa using same⟩

private theorem highestFound_none {first : Nat} {found : List (List TaggedLog)}
    (reached : highestFound first found = none) : ∀ ls ∈ found, ls = [] :=
  ((foldl_highest first 0 found none).2 reached).2

/-- A range within one request is one query and one index update. -/
theorem load_one_request {node : List Fr → Except Error Json} {secret : Fr}
    {fromIndex count : Nat} (store : RecipientTaggingStore) (asked : 0 < count)
    (fits : count ≤ maxRpcLen) :
    loadLogsForRange poseidon2 node contract secret fromIndex (fromIndex + count - 1) store =
      match getPrivateLogsByTags node ((List.range' fromIndex count).map
          (fun i => computeSiloedTag poseidon2 secret i contract)) with
      | .error e => (.error e, store)
      | .ok found =>
        (.ok found.flatten, finalizeFound secret (highestFound fromIndex found) store) := by
  have size : fromIndex + count - 1 + 1 - fromIndex = count := by omega
  have limit : maxRpcLen = 127 + 1 := rfl
  unfold loadLogsForRange
  rw [size]
  dsimp only
  rw [limit, toChunks_of_length_le (by simp; omega) (by simpa [maxRpcLen] using fits)]
  unfold loadChunks
  cases getPrivateLogsByTags node ((List.range' fromIndex count).map
      (fun i => computeSiloedTag poseidon2 secret i contract)) with
  | error e => rfl
  | ok found =>
    simp only [loadChunks, Nat.zero_mul, Nat.add_zero, List.nil_append]

/-- The update never lowers an index and only touches its own secret. -/
theorem index_finalizeFound (store : RecipientTaggingStore) (secret other : Fr)
    (highest : Option Nat) :
    (finalizeFound secret highest store).getHighestFinalizedIndex other =
      if other = secret then max (store.getHighestFinalizedIndex secret) (highest.getD 0)
      else store.getHighestFinalizedIndex other := by
  cases highest with
  | none =>
    by_cases same : other = secret
    · subst other
      simp [finalizeFound]
    · simp [finalizeFound, same]
  | some idx =>
    unfold finalizeFound updateHighestFinalizedIndex
    dsimp only
    by_cases lower : idx < store.getHighestFinalizedIndex secret
    · rw [if_pos lower]
      by_cases same : other = secret
      · subst other
        simp only [Except.toOption, Option.getD_none, ↓reduceIte, Option.getD_some]
        omega
      · simp [Except.toOption, same]
    · rw [if_neg lower]
      by_cases higher : store.getHighestFinalizedIndex secret < idx
      · rw [if_pos higher]
        by_cases same : other = secret
        · subst other
          simp only [Except.toOption, Option.getD_some, getHighestFinalizedIndex,
            Std.ExtTreeMap.getElem?_insert_self, ↓reduceIte]
          unfold getHighestFinalizedIndex at higher
          omega
        · simp [Except.toOption, getHighestFinalizedIndex, Std.ExtTreeMap.getElem?_insert, same,
            Ne.symm same]
      · rw [if_neg higher]
        by_cases same : other = secret
        · subst other
          simp only [Except.toOption, Option.getD_some, ↓reduceIte]
          omega
        · simp [Except.toOption, same]

/-- What one secret's turn of a successful fetch does: the index of that secret
stays or moves to an exposed index of the window, and every exposed index up to
there is among the returned logs. -/
structure Visited (poseidon2 : List Fr → Fr) (contract : AztecAddress) (logs : Fr → List Json)
    (secret : Fr) (store : RecipientTaggingStore) (out : List TaggedLog)
    (after : RecipientTaggingStore) : Prop where
  others : ∀ other, other ≠ secret →
    after.getHighestFinalizedIndex other = store.getHighestFinalizedIndex other
  monotone : store.getHighestFinalizedIndex secret ≤ after.getHighestFinalizedIndex secret
  bounded : after.getHighestFinalizedIndex secret < 2 ^ 64
  within : after.getHighestFinalizedIndex secret ≤
    store.getHighestFinalizedIndex secret + windowLen
  exposed : store.getHighestFinalizedIndex secret < after.getHighestFinalizedIndex secret →
    logs (computeSiloedTag poseidon2 secret (after.getHighestFinalizedIndex secret) contract) ≠ []
  complete : ∀ i, store.getHighestFinalizedIndex secret < i →
    i ≤ after.getHighestFinalizedIndex secret →
    logs (computeSiloedTag poseidon2 secret i contract) ≠ [] →
    ∃ log ∈ out, log.tag = computeSiloedTag poseidon2 secret i contract
  moved : store.getHighestFinalizedIndex secret + windowLen < 2 ^ 64 →
    ∀ i, store.getHighestFinalizedIndex secret < i →
    i ≤ store.getHighestFinalizedIndex secret + windowLen →
    logs (computeSiloedTag poseidon2 secret i contract) ≠ [] →
    store.getHighestFinalizedIndex secret < after.getHighestFinalizedIndex secret
  stamped : store.getHighestFinalizedIndex secret + windowLen < 2 ^ 64 → ∀ log ∈ out,
    ∃ i, store.getHighestFinalizedIndex secret < i ∧
      i ≤ store.getHighestFinalizedIndex secret + windowLen ∧ logs log.tag ≠ [] ∧
      log.tag = computeSiloedTag poseidon2 secret i contract

/-- The turn of a secret at the end of the index space. -/
private theorem visited_unmoved {secret : Fr} {store after : RecipientTaggingStore}
    (bounded : store.getHighestFinalizedIndex secret < 2 ^ 64)
    (wraps : ¬ store.getHighestFinalizedIndex secret + windowLen < 2 ^ 64) (out : List TaggedLog)
    (unmoved : ∀ other, after.getHighestFinalizedIndex other = store.getHighestFinalizedIndex other) :
    Visited poseidon2 contract logs secret store out after where
  others other _ := unmoved other
  monotone := Nat.le_of_eq (unmoved secret).symm
  bounded := unmoved secret ▸ bounded
  within := by
    rw [unmoved secret]
    exact Nat.le_add_right _ _
  exposed moved := absurd moved (by rw [unmoved secret]; omega)
  complete i low high := absurd high (by rw [unmoved secret]; omega)
  moved room := absurd room wraps
  stamped room := absurd room wraps

/-- The logs a node has for the window of indexes from `first` on, tag by tag. -/
def windowLogs (poseidon2 : List Fr → Fr) (contract : AztecAddress) (logs : Fr → List Json)
    (secret : Fr) (first : Nat) : List (List TaggedLog) :=
  ((List.range' first windowLen).map (fun i => computeSiloedTag poseidon2 secret i contract)).map
    (parsed logs)

/-- A window is one request: the node fails on it, or every log of the window is
returned and the index follows the highest one found. -/
private theorem load_window (readable : Readable logs) (fails : List Fr → Option Error)
    (secret : Fr) (first : Nat) (store : RecipientTaggingStore) :
    (∃ tags e, fails tags = some e ∧
      loadLogsForRange poseidon2 (answer logs fails) contract secret first
        (first + windowLen - 1) store = (.error e, store)) ∨
    loadLogsForRange poseidon2 (answer logs fails) contract secret first (first + windowLen - 1)
      store = (.ok (windowLogs poseidon2 contract logs secret first).flatten,
        finalizeFound secret (highestFound first (windowLogs poseidon2 contract logs secret first))
          store) := by
  rw [load_one_request store (by decide) (by decide), windowLogs]
  generalize window : (List.range' first windowLen).map
    (fun i => computeSiloedTag poseidon2 secret i contract) = tags
  have asked : tags ≠ [] := by
    rw [← window]
    simp [windowLen]
  cases failure : fails tags with
  | some e =>
    rw [failed_answer asked failure]
    exact .inl ⟨tags, e, failure, rfl⟩
  | none =>
    rw [getPrivateLogs_answered readable failure]
    exact .inr rfl

/-- Every returned log carries the tag of an index of the window. -/
private theorem stamped_windowLogs (readable : Readable logs) {secret : Fr} {f : Nat}
    {log : TaggedLog} (inside : log ∈ (windowLogs poseidon2 contract logs secret (f + 1)).flatten) :
    ∃ i, f < i ∧ i ≤ f + windowLen ∧ logs log.tag ≠ [] ∧
      log.tag = computeSiloedTag poseidon2 secret i contract := by
  obtain ⟨ls, held, member⟩ := List.mem_flatten.mp inside
  obtain ⟨tag, listed, rfl⟩ := List.mem_map.mp held
  obtain ⟨i, ranged, rfl⟩ := List.mem_map.mp listed
  rw [List.mem_range'_1] at ranged
  have tagged := tag_of_mem_parsed readable member
  refine ⟨i, by omega, by omega, ?_, tagged⟩
  rw [tagged]
  intro empty
  rw [(parsed_eq_nil_iff readable _).mpr empty] at member
  cases member

/-- The logs of every index of the window are there. -/
private theorem parsed_mem_windowLogs {secret : Fr} {f i : Nat} (low : f < i)
    (high : i ≤ f + windowLen) :
    parsed logs (computeSiloedTag poseidon2 secret i contract) ∈
      windowLogs poseidon2 contract logs secret (f + 1) := by
  refine List.mem_map.mpr ⟨_, List.mem_map.mpr ⟨i, ?_, rfl⟩, rfl⟩
  rw [List.mem_range'_1]
  omega

/-- The highest index found is one of the window, and its logs were exposed. -/
private theorem highestFound_windowLogs (readable : Readable logs) {secret : Fr} {f h : Nat}
    (room : f + windowLen < 2 ^ 64)
    (reached : highestFound (f + 1) (windowLogs poseidon2 contract logs secret (f + 1)) = some h) :
    f < h ∧ h ≤ f + windowLen ∧ logs (computeSiloedTag poseidon2 secret h contract) ≠ [] := by
  obtain ⟨i, ⟨ls, held, nonempty⟩, same⟩ := highestFound_some reached
  have inside : i < windowLen := by
    have shorter := (List.getElem?_eq_some_iff.mp held).1
    simpa [windowLogs] using shorter
  simp only [windowLogs, List.getElem?_map, List.getElem?_range' inside, Option.map_some,
    Option.some.injEq, Nat.one_mul] at held
  have height : h = f + 1 + i := by
    rw [same, Nat.mod_eq_of_lt (by omega)]
  rw [← height] at held
  refine ⟨by omega, by omega, ?_⟩
  intro empty
  exact nonempty (held ▸ (parsed_eq_nil_iff readable _).mpr empty)

/-- The turn of a secret whose window is asked for in full. -/
private theorem visited_window (readable : Readable logs) {secret : Fr}
    {store : RecipientTaggingStore}
    (room : store.getHighestFinalizedIndex secret + windowLen < 2 ^ 64) :
    Visited poseidon2 contract logs secret store
      (windowLogs poseidon2 contract logs secret
        (store.getHighestFinalizedIndex secret + 1)).flatten
      (finalizeFound secret (highestFound (store.getHighestFinalizedIndex secret + 1)
        (windowLogs poseidon2 contract logs secret (store.getHighestFinalizedIndex secret + 1)))
        store) := by
  generalize current : store.getHighestFinalizedIndex secret = f at room ⊢
  cases reached : highestFound (f + 1) (windowLogs poseidon2 contract logs secret (f + 1)) with
  | none =>
    have empty := highestFound_none reached
    constructor
    case others => exact fun _ _ => rfl
    case monotone => exact Nat.le_refl _
    case bounded => exact current ▸ (show f < 2 ^ 64 by omega)
    case within => exact Nat.le_add_right _ _
    case exposed => exact fun moved => absurd moved (Nat.lt_irrefl _)
    case complete => exact fun i low high => absurd low (by simp only [finalizeFound] at high; omega)
    case moved =>
      intro _ i low high exposed
      rw [current] at low high
      have nothing := empty _ (parsed_mem_windowLogs low high)
      exact absurd ((parsed_eq_nil_iff readable _).mp nothing) exposed
    case stamped => exact fun _ log inside => current.symm ▸ stamped_windowLogs readable inside
  | some h =>
    obtain ⟨above, below, filled⟩ := highestFound_windowLogs readable room reached
    have highest : max f h = h := by omega
    have index := index_finalizeFound store secret secret (some h)
    rw [if_pos rfl, current, Option.getD_some, highest] at index
    constructor
    case others =>
      intro other different
      rw [index_finalizeFound, if_neg different]
    case monotone => omega
    case bounded => omega
    case within => omega
    case exposed =>
      intro _
      rw [index]
      exact filled
    case complete =>
      intro j low high exposed
      have listed : parsed logs (computeSiloedTag poseidon2 secret j contract) ∈
          windowLogs poseidon2 contract logs secret (f + 1) :=
        parsed_mem_windowLogs (by omega) (by omega)
      have nonempty : parsed logs (computeSiloedTag poseidon2 secret j contract) ≠ [] :=
        fun empty => exposed ((parsed_eq_nil_iff readable _).mp empty)
      obtain ⟨log, member⟩ := List.exists_mem_of_ne_nil _ nonempty
      exact ⟨log, List.mem_flatten.mpr ⟨_, listed, member⟩, tag_of_mem_parsed readable member⟩
    case moved =>
      intro _ _ _ _ _
      omega
    case stamped => exact fun _ log inside => current.symm ▸ stamped_windowLogs readable inside

/-- What the last index of all finds, after the sums have wrapped, is below it. -/
private theorem index_of_wrapped {secret : Fr} {store : RecipientTaggingStore}
    (top : store.getHighestFinalizedIndex secret = 2 ^ 64 - 1) (found : List (List TaggedLog))
    (other : Fr) :
    (finalizeFound secret (highestFound 0 found) store).getHighestFinalizedIndex other =
      store.getHighestFinalizedIndex other := by
  have small : (highestFound 0 found).getD 0 < 2 ^ 64 := by
    cases reached : highestFound 0 found with
    | none => simp
    | some h =>
      obtain ⟨i, -, rfl⟩ := highestFound_some reached
      exact Nat.mod_lt _ (by decide)
  rw [index_finalizeFound]
  split
  next same =>
    subst other
    omega
  next => rfl

/-- One secret's turn fails on the node and writes nothing, or succeeds. -/
theorem load_cases (readable : Readable logs) (fails : List Fr → Option Error) {secret : Fr}
    {store : RecipientTaggingStore} (bounded : store.getHighestFinalizedIndex secret < 2 ^ 64) :
    (∃ tags e, fails tags = some e ∧
      loadLogsForRange poseidon2 (answer logs fails) contract secret
        ((store.getHighestFinalizedIndex secret + 1) % 2 ^ 64)
        ((store.getHighestFinalizedIndex secret + windowLen) % 2 ^ 64) store = (.error e, store)) ∨
    ∃ out after, loadLogsForRange poseidon2 (answer logs fails) contract secret
        ((store.getHighestFinalizedIndex secret + 1) % 2 ^ 64)
        ((store.getHighestFinalizedIndex secret + windowLen) % 2 ^ 64) store = (.ok out, after) ∧
      Visited poseidon2 contract logs secret store out after := by
  generalize current : store.getHighestFinalizedIndex secret = f at bounded ⊢
  -- Near the end of the index space the sums wrap: the range is empty, or it
  -- starts again at 0 below the stored index.
  by_cases wraps : f + windowLen < 2 ^ 64
  · have first : f + 1 < 2 ^ 64 := by
      unfold windowLen at wraps
      omega
    have last : f + windowLen = f + 1 + windowLen - 1 := by omega
    rw [Nat.mod_eq_of_lt first, Nat.mod_eq_of_lt wraps, last]
    rcases load_window readable fails secret (f + 1) store with failed | done
    · exact .inl failed
    · refine .inr ⟨_, _, done, ?_⟩
      subst f
      exact visited_window readable wraps
  · by_cases last : f + 1 < 2 ^ 64
    · have wrapped : (f + windowLen) % 2 ^ 64 + 1 - (f + 1) % 2 ^ 64 = 0 := by
        unfold windowLen at wraps ⊢
        omega
      refine .inr ⟨[], store, ?_, visited_unmoved (by omega) (by omega) _ (fun _ => rfl)⟩
      unfold loadLogsForRange
      rw [wrapped]
      rfl
    · have top : f = 2 ^ 64 - 1 := by omega
      have first : (f + 1) % 2 ^ 64 = 0 := by omega
      have upper : (f + windowLen) % 2 ^ 64 = 0 + windowLen - 1 := by
        unfold windowLen
        omega
      rw [first, upper]
      rcases load_window readable fails secret 0 store with failed | done
      · exact .inl failed
      · refine .inr ⟨_, _, done, visited_unmoved (by omega) (by omega) _ ?_⟩
        exact index_of_wrapped (current.trans top) _

/-- What a whole fetch does to the index of one secret. -/
structure Fetched (poseidon2 : List Fr → Fr) (contract : AztecAddress) (logs : Fr → List Json)
    (fails : List Fr → Option Error) (secret : Fr) (secrets : List Fr)
    (before : List TaggedLog) (store : RecipientTaggingStore)
    (outcome : Except Error (List TaggedLog) × RecipientTaggingStore) : Prop where
  bounded : ∀ s, outcome.2.getHighestFinalizedIndex s < 2 ^ 64
  returned : ∀ {out}, outcome.1 = .ok out → before ⊆ out ∧
    ∀ i, store.getHighestFinalizedIndex secret < i →
      i ≤ outcome.2.getHighestFinalizedIndex secret →
      logs (computeSiloedTag poseidon2 secret i contract) ≠ [] →
      ∃ log ∈ out, log.tag = computeSiloedTag poseidon2 secret i contract
  unasked : secret ∉ secrets → outcome.2.getHighestFinalizedIndex secret =
    store.getHighestFinalizedIndex secret
  quiet : (∀ i < 2 ^ 64, store.getHighestFinalizedIndex secret < i →
      i ≤ store.getHighestFinalizedIndex secret + windowLen →
      logs (computeSiloedTag poseidon2 secret i contract) = []) →
    outcome.2.getHighestFinalizedIndex secret = store.getHighestFinalizedIndex secret
  answered : (∀ tags, fails tags = none) → ∃ out, outcome.1 = .ok out

/-- A secret whose window holds no exposed log keeps its index. -/
private theorem visited_quiet {asked secret : Fr} {store after : RecipientTaggingStore}
    {out : List TaggedLog} (visited : Visited poseidon2 contract logs asked store out after)
    (silent : ∀ i < 2 ^ 64, store.getHighestFinalizedIndex secret < i →
      i ≤ store.getHighestFinalizedIndex secret + windowLen →
      logs (computeSiloedTag poseidon2 secret i contract) = []) :
    after.getHighestFinalizedIndex secret = store.getHighestFinalizedIndex secret := by
  by_cases same : secret = asked
  · subst asked
    by_contra moved
    have higher : store.getHighestFinalizedIndex secret < after.getHighestFinalizedIndex secret :=
      Nat.lt_of_le_of_ne visited.monotone (Ne.symm moved)
    exact visited.exposed higher (silent _ visited.bounded higher visited.within)
  · exact visited.others secret same

/-- A turn that succeeds, and the fetch of the other secrets after it. -/
private theorem fetched_cons {fails : List Fr → Option Error} {secret asked : Fr}
    {rest : List Fr} {before out : List TaggedLog} {store after : RecipientTaggingStore}
    {outcome : Except Error (List TaggedLog) × RecipientTaggingStore}
    (visited : Visited poseidon2 contract logs asked store out after)
    (tail : Fetched poseidon2 contract logs fails secret rest (before ++ out) after outcome) :
    Fetched poseidon2 contract logs fails secret (asked :: rest) before store outcome where
  bounded := tail.bounded
  returned := by
    intro all ok
    obtain ⟨included, later⟩ := tail.returned ok
    refine ⟨fun log inside => included (List.mem_append_left _ inside), ?_⟩
    intro i low high exposed
    -- Up to where this turn moved the index its own logs answer, above the rest do.
    by_cases here : i ≤ after.getHighestFinalizedIndex secret
    · by_cases same : secret = asked
      · subst asked
        obtain ⟨log, member, tagged⟩ := visited.complete i low here exposed
        exact ⟨log, included (List.mem_append_right _ member), tagged⟩
      · rw [visited.others secret same] at here
        exact absurd here (by omega)
    · exact later i (by omega) high exposed
  unasked := by
    intro absent
    simp only [List.mem_cons, not_or] at absent
    rw [tail.unasked absent.2, visited.others secret absent.1]
  quiet := by
    intro silent
    have kept := visited_quiet visited silent
    rw [← kept] at silent
    rw [tail.quiet silent, kept]
  answered := tail.answered

theorem fetched_fetchSecrets (readable : Readable logs) (fails : List Fr → Option Error)
    (secret : Fr) (secrets : List Fr) (before : List TaggedLog) (store : RecipientTaggingStore)
    (bounded : ∀ s, store.getHighestFinalizedIndex s < 2 ^ 64) :
    Fetched poseidon2 contract logs fails secret secrets before store
      (fetchSecrets poseidon2 (answer logs fails) contract secrets before store) := by
  induction secrets generalizing before store with
  | nil =>
    constructor
    case bounded => exact bounded
    case returned =>
      rintro out ⟨⟩
      exact ⟨List.Subset.refl _, fun i low high => absurd high (by simp only [fetchSecrets]; omega)⟩
    case unasked => exact fun _ => rfl
    case quiet => exact fun _ => rfl
    case answered => exact fun _ => ⟨before, rfl⟩
  | cons asked rest ih =>
    unfold fetchSecrets
    dsimp only
    have turn := @load_cases poseidon2 contract logs readable fails asked store (bounded asked)
    rcases turn with ⟨tags, e, failure, failed⟩ | ⟨out, after, done, visited⟩
    · rw [failed]
      constructor
      case bounded => exact bounded
      case returned => exact fun impossible => nomatch impossible
      case unasked => exact fun _ => rfl
      case quiet => exact fun _ => rfl
      case answered =>
        intro answers
        rw [answers tags] at failure
        cases failure
    · rw [done]
      have boundedAfter : ∀ s, after.getHighestFinalizedIndex s < 2 ^ 64 := by
        intro s
        by_cases same : s = asked
        · subst s
          exact visited.bounded
        · rw [visited.others s same]
          exact bounded s
      exact fetched_cons visited (ih (before ++ out) after boundedAfter)

end Window

/-! ## Runs -/

/-- The node's logs by tag, the stored indexes, and every log a fetch has
returned so far. -/
structure World where
  logs : Fr → List Json := fun _ => []
  store : RecipientTaggingStore := {}
  returned : List TaggedLog := []

/-- The node exposes one more log, or a fetch is made while some of the node's
answers may fail. -/
inductive Step where
  | expose (tag : Fr) (entry : Json)
  | fetch (taggingSecrets : List Fr) (fails : List Fr → Option Error)

section Runs
variable (poseidon2 : List Fr → Fr) (contract : AztecAddress)

/-- The world after one step. -/
def step (world : World) : Step → World
  | .expose tag entry =>
    { world with logs := Function.update world.logs tag (world.logs tag ++ [entry]) }
  | .fetch taggingSecrets fails =>
    let outcome := fetchTaggedLogs poseidon2 (answer world.logs fails) contract taggingSecrets
      world.store
    { world with
      store := outcome.2
      returned := world.returned ++ outcome.1.toOption.getD [] }

/-- The world after a run. -/
def run (steps : List Step) : World := steps.foldl (step poseidon2 contract) {}

variable (secret : Fr)

/-- The node has a log for this index of the secret. -/
def Exposed (world : World) (i : Nat) : Prop :=
  world.logs (computeSiloedTag poseidon2 secret i contract) ≠ []

/-- Some fetch has returned a log of this index. -/
def Returned (world : World) (i : Nat) : Prop :=
  ∃ log ∈ world.returned, log.tag = computeSiloedTag poseidon2 secret i contract

/-- Every exposed index that is still to be returned can be reached. -/
def NoneSkipped (world : World) : Prop :=
  ∀ i < 2 ^ 64, Exposed poseidon2 contract secret world i →
    ¬ Returned poseidon2 contract secret world i →
    world.store.getHighestFinalizedIndex secret < i

/-- A log is exposed above the finalized index, or under an index already
returned, and can be read; a fetch is answered in full, unless it does not ask
for the secret or finds nothing in its window. -/
def Admits (world : World) : Step → Prop
  | .expose tag entry => (∃ log, parseEntry tag entry = .ok log) ∧
    ∀ i < 2 ^ 64, computeSiloedTag poseidon2 secret i contract = tag →
      Returned poseidon2 contract secret world i ∨ world.store.getHighestFinalizedIndex secret < i
  | .fetch taggingSecrets fails => (∀ tags, fails tags = none) ∨ secret ∉ taggingSecrets ∨
    ∀ i < 2 ^ 64, world.store.getHighestFinalizedIndex secret < i →
      i ≤ world.store.getHighestFinalizedIndex secret + windowLen →
      ¬ Exposed poseidon2 contract secret world i

/-- The invariant of admitted runs. -/
structure Safe (world : World) : Prop where
  readable : Readable world.logs
  bounded : ∀ s, world.store.getHighestFinalizedIndex s < 2 ^ 64
  noneSkipped : NoneSkipped poseidon2 contract secret world

variable {poseidon2 contract secret}

theorem safe_start : Safe poseidon2 contract secret {} where
  readable tag entry inside := by simp at inside
  bounded s := by simp [getHighestFinalizedIndex]
  noneSkipped i _ exposed := absurd rfl exposed

/-- One more readable entry keeps the logs readable. -/
private theorem readable_expose {logs : Fr → List Json} (readable : Readable logs) {tag : Fr}
    {entry : Json} (read : ∃ log, parseEntry tag entry = .ok log) :
    Readable (Function.update logs tag (logs tag ++ [entry])) := by
  intro other found inside
  by_cases same : other = tag
  · subst other
    simp only [Function.update_self, List.mem_append, List.mem_singleton] at inside
    rcases inside with older | rfl
    · exact readable _ found older
    · exact read
  · rw [Function.update_of_ne same] at inside
    exact readable other found inside

private theorem safe_expose {world : World} (safe : Safe poseidon2 contract secret world) {tag : Fr}
    {entry : Json} (admits : Admits poseidon2 contract secret world (.expose tag entry)) :
    Safe poseidon2 contract secret (step poseidon2 contract world (.expose tag entry)) where
  readable := readable_expose safe.readable admits.1
  bounded := safe.bounded
  noneSkipped i small exposed unreturned := by
    by_cases same : computeSiloedTag poseidon2 secret i contract = tag
    · exact (admits.2 i small same).resolve_left unreturned
    · refine safe.noneSkipped i small ?_ unreturned
      simpa only [Exposed, step, Function.update_of_ne same] using exposed

private theorem safe_fetch {world : World} (safe : Safe poseidon2 contract secret world)
    {taggingSecrets : List Fr} {fails : List Fr → Option Error}
    (admits : Admits poseidon2 contract secret world (.fetch taggingSecrets fails)) :
    Safe poseidon2 contract secret (step poseidon2 contract world (.fetch taggingSecrets fails)) := by
  have fetched : Fetched poseidon2 contract world.logs fails secret taggingSecrets [] world.store _ :=
    fetched_fetchSecrets safe.readable fails secret taggingSecrets [] world.store safe.bounded
  refine ⟨safe.readable, fetched.bounded, ?_⟩
  intro i small exposed unreturned
  have pending : ¬ Returned poseidon2 contract secret world i := by
    rintro ⟨log, inside, tagged⟩
    exact unreturned ⟨log, List.mem_append_left _ inside, tagged⟩
  have above := safe.noneSkipped i small exposed pending
  -- Either the index did not move, or the fetch returned what it moved over.
  have unmoved_or : (fetchSecrets poseidon2 (answer world.logs fails) contract taggingSecrets []
      world.store).2.getHighestFinalizedIndex secret = world.store.getHighestFinalizedIndex secret ∨
      ∃ out, (fetchSecrets poseidon2 (answer world.logs fails) contract taggingSecrets []
        world.store).1 = .ok out := by
    rcases admits with answers | absent | silent
    · exact .inr (fetched.answered answers)
    · exact .inl (fetched.unasked absent)
    · refine .inl (fetched.quiet fun j bound low high => ?_)
      exact Classical.not_not.mp (silent j bound low high)
  rcases unmoved_or with unmoved | ⟨out, ok⟩
  · change (fetchSecrets _ _ _ _ _ _).2.getHighestFinalizedIndex secret < i
    rw [unmoved]
    exact above
  · by_contra reached
    obtain ⟨log, inside, tagged⟩ := (fetched.returned ok).2 i above (Nat.not_lt.mp reached) exposed
    refine unreturned ⟨log, List.mem_append_right _ ?_, tagged⟩
    change log ∈ (fetchSecrets _ _ _ _ _ _).1.toOption.getD []
    rw [ok]
    exact inside

theorem safe_step {world : World} {s : Step} (safe : Safe poseidon2 contract secret world)
    (admits : Admits poseidon2 contract secret world s) :
    Safe poseidon2 contract secret (step poseidon2 contract world s) := by
  cases s with
  | expose tag entry => exact safe_expose safe admits
  | fetch taggingSecrets fails => exact safe_fetch safe admits

end Runs

/-- In every run whose steps are admitted, after every step each exposed index
that no fetch has returned lies above the stored finalized index. -/
theorem no_exposed_index_skipped (poseidon2 : List Fr → Fr) (contract : AztecAddress) (secret : Fr)
    (steps : List Step)
    (admitted : Run.Admitted (step poseidon2 contract) (Admits poseidon2 contract secret) {} steps)
    (before after : List Step) (split : steps = before ++ after) :
    NoneSkipped poseidon2 contract secret (run poseidon2 contract before) := by
  subst split
  exact (Run.invariant safe_start safe_step before (Run.admitted_append admitted)).noneSkipped

/-- The log of index 5 is exposed and fetched. -/
def exposeThenFetch (poseidon2 : List Fr → Fr) : List Step :=
  [.expose (computeSiloedTag poseidon2 7 5 ⟨1⟩) (.obj []), .fetch [7] (fun _ => none)]

/-- With a hash that keeps index 0 apart, the run is admitted and skips
nothing. -/
theorem exposeThenFetch_skips_none :
    ¬ ∃ poseidon2 : List Fr → Fr,
      computeSiloedTag poseidon2 7 0 ⟨1⟩ ≠ computeSiloedTag poseidon2 7 5 ⟨1⟩ ∧
      ¬ NoneSkipped poseidon2 ⟨1⟩ 7 (run poseidon2 ⟨1⟩ (exposeThenFetch poseidon2)) := by
  rintro ⟨poseidon2, apart, skipped⟩
  refine skipped (no_exposed_index_skipped poseidon2 ⟨1⟩ 7 (exposeThenFetch poseidon2) ?_ _ []
    (List.append_nil _).symm)
  refine Run.admitted_cons ⟨⟨_, rfl⟩, ?_⟩ (Run.admitted_cons (.inl fun _ => rfl) Run.admitted_nil)
  intro i _ same
  refine .inr (Nat.pos_of_ne_zero ?_)
  rintro rfl
  exact apart same

/-- The log of index 2 is fetched before the log of index 1 appears. -/
def lateLog (poseidon2 : List Fr → Fr) : List Step :=
  [.expose (computeSiloedTag poseidon2 7 2 ⟨1⟩) (.obj []), .fetch [7] (fun _ => none),
    .expose (computeSiloedTag poseidon2 7 1 ⟨1⟩) (.obj [])]

/-- A fetch for one secret, answered in full. -/
private theorem fetch_one {poseidon2 : List Fr → Fr} {contract : AztecAddress} {secret : Fr}
    {world : World} (safe : Readable world.logs)
    (bounded : world.store.getHighestFinalizedIndex secret < 2 ^ 64) :
    ∃ out after, step poseidon2 contract world (.fetch [secret] (fun _ => none)) =
        { world with store := after, returned := world.returned ++ out } ∧
      Visited poseidon2 contract world.logs secret world.store out after := by
  have turn := @load_cases poseidon2 contract world.logs safe (fun _ => none) secret world.store
    bounded
  rcases turn with ⟨tags, e, failure, -⟩ | ⟨out, after, done, visited⟩
  · cases failure
  · refine ⟨out, after, ?_, visited⟩
    simp only [step, fetchTaggedLogs, fetchSecrets, done]
    rfl

/-- For every hash that keeps the tags of the secret apart, some fetch leaves
an exposed index behind. -/
theorem late_log_is_skipped :
    ¬ ∃ poseidon2 : List Fr → Fr,
      (∀ i < 2 ^ 64, ∀ j < 2 ^ 64, computeSiloedTag poseidon2 7 i ⟨1⟩ =
        computeSiloedTag poseidon2 7 j ⟨1⟩ → i = j) ∧
      ∀ (steps : List Step) (taggingSecrets : List Fr) (fails : List Fr → Option Error),
        NoneSkipped poseidon2 ⟨1⟩ 7
          (run poseidon2 ⟨1⟩ (steps ++ [.fetch taggingSecrets fails])) := by
  rintro ⟨poseidon2, apart, claim⟩
  have different : computeSiloedTag poseidon2 7 1 ⟨1⟩ ≠ computeSiloedTag poseidon2 7 2 ⟨1⟩ :=
    fun same => absurd (apart 1 (by decide) 2 (by decide) same) (by decide)
  have small : ({} : RecipientTaggingStore).getHighestFinalizedIndex 7 < 2 ^ 64 := by decide
  have start : Readable (fun _ => []) := fun _ _ inside => nomatch inside
  -- The first fetch finds index 2 and nothing else.
  generalize logs : Function.update (fun _ => []) (computeSiloedTag poseidon2 7 2 ⟨1⟩) [Json.obj []]
    = early
  have readable : Readable early := logs ▸ readable_expose start ⟨_, rfl⟩
  have only : ∀ tag, early tag ≠ [] → tag = computeSiloedTag poseidon2 7 2 ⟨1⟩ := by
    intro tag exposed
    by_contra other
    rw [← logs, Function.update_of_ne other] at exposed
    exact exposed rfl
  obtain ⟨first, store, fetched, visited⟩ :=
    @fetch_one poseidon2 ⟨1⟩ 7 { logs := early } readable small
  replace visited : Visited poseidon2 ⟨1⟩ early 7 {} first store := visited
  have moved := visited.moved (by decide) 2 (by decide) (by decide) (by simp [← logs])
  have reached : store.getHighestFinalizedIndex 7 = 2 :=
    apart _ visited.bounded 2 (by decide) (only _ (visited.exposed moved))
  -- The second fetch starts above index 2, with index 1 exposed by now.
  generalize logs' : Function.update early (computeSiloedTag poseidon2 7 1 ⟨1⟩)
    (early (computeSiloedTag poseidon2 7 1 ⟨1⟩) ++ [Json.obj []]) = late
  obtain ⟨second, store', fetched', visited'⟩ := @fetch_one poseidon2 ⟨1⟩ 7
    { logs := late, store := store, returned := first } (logs' ▸ readable_expose readable ⟨_, rfl⟩)
    (by rw [reached]; decide)
  have final : run poseidon2 ⟨1⟩ (lateLog poseidon2 ++ [.fetch [7] (fun _ => none)]) =
      { logs := late, store := store', returned := first ++ second } := by
    have begun : step poseidon2 ⟨1⟩ {} (.expose (computeSiloedTag poseidon2 7 2 ⟨1⟩) (.obj [])) =
        { logs := early } := by
      rw [← logs]
      rfl
    have exposed : step poseidon2 ⟨1⟩ { logs := early, store := store, returned := first }
        (.expose (computeSiloedTag poseidon2 7 1 ⟨1⟩) (.obj [])) =
        { logs := late, store := store, returned := first } := by
      rw [← logs']
      rfl
    simp only [run, lateLog, List.cons_append, List.nil_append, List.foldl_cons, List.foldl_nil,
      begun, fetched, exposed, fetched']
  have skipped := claim (lateLog poseidon2) [7] (fun _ => none) 1 (by decide)
  rw [final] at skipped
  have index := skipped (by rw [Exposed, ← logs']; simp) (by
    rintro ⟨log, inside, tagged⟩
    rcases List.mem_append.mp inside with old | new
    · obtain ⟨i, -, -, exposed, -⟩ := visited.stamped (by decide) log old
      exact different (tagged ▸ only _ exposed)
    · obtain ⟨i, low, high, -, same⟩ := visited'.stamped (by rw [reached]; decide) log new
      rw [reached] at low high
      have one := apart i (by unfold windowLen at high; omega) 1 (by decide) (same ▸ tagged)
      omega)
  have monotone : store.getHighestFinalizedIndex 7 ≤ store'.getHighestFinalizedIndex 7 :=
    visited'.monotone
  rw [reached] at monotone
  exact absurd index (by simp only; omega)

end AztecPxe.TaggingSync
