import AztecPxe.Postings

/-! Operations that reach their result by several writes, with nothing around
them that takes the first writes back when a later one fails. Such an operation
is read as the states its writes leave behind, one after the other, so that the
state a failure leaves is a prefix of the trace. A sweep over posting lists is
the pattern that survives a failure anywhere: every member is treated before
its key goes, so what a second sweep still finds is what the first one left
undone. -/
namespace AztecPxe.WriteTrace
open Postings

variable {σ τ α : Type}

/-- The state after all writes of an operation. -/
def final (op : σ → List σ) (s : σ) : σ := (op s).getLastD s

/-- The state a failure of write `k` leaves: the writes before it are applied,
that one and all later ones are not. -/
def failedAt (op : σ → List σ) (k : Nat) (s : σ) : σ := ((op s).take k).getLastD s

/-- Repeating the operation after a failure at any of its writes ends where an
undisturbed run ends. -/
def Retriable (op : σ → List σ) (s : σ) : Prop :=
  ∀ k < (op s).length, final op (failedAt op k s) = final op s

/-- One operation after the other. -/
def andThen (first second : σ → List σ) (s : σ) : List σ := first s ++ second (final first s)

/-- A loop over a list. -/
def each (op : α → σ → List σ) : List α → σ → List σ
  | [], _ => []
  | x :: rest, s => andThen (op x) (each op rest) s

/-- An operation on one part of a larger state. -/
def within (get : τ → σ) (put : σ → τ → τ) (op : σ → List σ) (t : τ) : List τ :=
  (op (get t)).map (put · t)

/-! ## The last state of a trace -/

theorem final_congr {first second : σ → List σ} {s : σ} (same : first s = second s) :
    final first s = final second s := by
  unfold final
  rw [same]

private theorem getLastD_append (xs ys : List σ) (s : σ) :
    (xs ++ ys).getLastD s = ys.getLastD (xs.getLastD s) := by
  induction xs generalizing s with
  | nil => rfl
  | cons x rest ih => rw [List.cons_append, List.getLastD_cons, List.getLastD_cons, ih]

@[simp] theorem final_andThen (first second : σ → List σ) (s : σ) :
    final (andThen first second) s = final second (final first s) := by
  unfold final andThen
  rw [getLastD_append]
  rfl

@[simp] theorem final_each (op : α → σ → List σ) (xs : List α) (s : σ) :
    final (each op xs) s = xs.foldl (fun s x => final (op x) s) s := by
  induction xs generalizing s with
  | nil => rfl
  | cons x rest ih =>
    change final (andThen (op x) (each op rest)) s = _
    rw [final_andThen, ih, List.foldl_cons]

theorem final_within {get : τ → σ} {put : σ → τ → τ} (op : σ → List σ) (t : τ)
    (same : put (get t) t = t) : final (within get put op) t = put (final op (get t)) t := by
  unfold final within
  cases trace : op (get t) with
  | nil => simp [same]
  | cons first rest =>
    rw [List.map_cons, List.getLastD_cons, List.getLastD_cons]
    exact List.getLastD_map (f := (put · t))

/-- The final state is the last of the trace, or the first state when nothing
is written. -/
theorem final_mem (op : σ → List σ) (s : σ) : final op s = s ∨ final op s ∈ op s :=
  List.mem_cons.mp List.getLastD_mem_cons

theorem failedAt_mem (op : σ → List σ) (k : Nat) (s : σ) :
    failedAt op k s = s ∨ failedAt op k s ∈ op s := by
  rcases List.mem_cons.mp (List.getLastD_mem_cons (l := (op s).take k) (a := s)) with same | inside
  · exact .inl same
  · exact .inr (List.mem_of_mem_take inside)

/-- A failure never leaves the state that only the last write brings about. -/
theorem failedAt_before_last {op : σ → List σ} {s last : σ} {earlier : List σ} {k : Nat}
    (trace : op s = earlier ++ [last]) (failed : k < (op s).length) :
    failedAt op k s = s ∨ failedAt op k s ∈ earlier := by
  have below : k ≤ earlier.length := by
    rw [trace, List.length_append, List.length_singleton] at failed
    omega
  unfold failedAt
  rw [trace, List.take_append_of_le_length below]
  rcases List.mem_cons.mp (List.getLastD_mem_cons (l := earlier.take k) (a := s)) with same | inside
  · exact .inl same
  · exact .inr (List.mem_of_mem_take inside)

theorem mem_andThen {first second : σ → List σ} {s mid : σ} :
    mid ∈ andThen first second s ↔ mid ∈ first s ∨ mid ∈ second (final first s) :=
  List.mem_append

theorem each_append (op : α → σ → List σ) (xs ys : List α) (s : σ) :
    each op (xs ++ ys) s = andThen (each op xs) (each op ys) s := by
  induction xs generalizing s with
  | nil => rfl
  | cons x rest ih =>
    change op x s ++ each op (rest ++ ys) (final (op x) s) = _
    rw [ih]
    unfold andThen
    change _ = (op x s ++ each op rest (final (op x) s)) ++ _
    rw [List.append_assoc]
    simp only [final_each, List.foldl_cons]

/-! ## Invariants of a trace -/

/-- A property every turn of a loop keeps, in all the states it passes, is kept
by the loop. -/
theorem each_keeps {P : σ → Prop} {op : α → σ → List σ} {xs : List α} {s : σ} (held : P s)
    (keeps : ∀ x ∈ xs, ∀ s, P s → ∀ mid ∈ op x s, P mid) : ∀ mid ∈ each op xs s, P mid := by
  induction xs generalizing s with
  | nil =>
    intro mid inside
    cases inside
  | cons x rest ih =>
    have turn := keeps x List.mem_cons_self s held
    have reached : P (final (op x) s) := by
      rcases final_mem (op x) s with same | inside
      · rwa [same]
      · exact turn _ inside
    intro mid inside
    rcases mem_andThen.mp inside with here | later
    · exact turn mid here
    · exact ih reached (fun y member => keeps y (List.mem_cons_of_mem x member)) mid later

theorem final_keeps {P : σ → Prop} {op : σ → List σ} {s : σ} (held : P s)
    (keeps : ∀ mid ∈ op s, P mid) : P (final op s) := by
  rcases final_mem op s with same | inside
  · rwa [same]
  · exact keeps _ inside

/-! ## Retrying -/

/-- An operation is retriable when it ends in the same state from every state
it passes. -/
theorem retriable_of_passed {op : σ → List σ} {s : σ}
    (passed : ∀ mid ∈ op s, final op mid = final op s) : Retriable op s := by
  intro k _
  rcases failedAt_mem op k s with same | inside
  · rw [same]
  · exact passed _ inside

/-- A state from which the operation ends elsewhere, with a write still to come
after it, is where a failure shows. -/
theorem not_retriable {op : σ → List σ} {s mid next : σ} {before after : List σ}
    (trace : op s = before ++ mid :: next :: after) (differs : final op mid ≠ final op s) :
    ¬ Retriable op s := by
  intro retriable
  have cut : failedAt op (before.length + 1) s = mid := by
    unfold failedAt
    rw [trace, List.take_append, getLastD_append]
    simp
  apply differs
  rw [← cut]
  apply retriable
  rw [trace, List.length_append]
  simp

/-- A turn of a loop that can fail between two writes makes the loop fail there. -/
theorem each_not_retriable {op : α → σ → List σ} {front back : List α} {x : α} {s half next : σ}
    {after : List σ} (turn : op x (final (each op front) s) = half :: next :: after)
    (differs : final (each op (front ++ x :: back)) half ≠ final (each op (front ++ x :: back)) s) :
    ¬ Retriable (each op (front ++ x :: back)) s := by
  have trace : each op (front ++ x :: back) s = each op front s ++ half :: next ::
      (after ++ each op back (final (op x) (final (each op front) s))) := by
    rw [each_append]
    unfold andThen
    change _ ++ (op x (final (each op front) s) ++ _) = _
    rw [turn]
    rfl
  exact not_retriable trace differs

/-- A single write cannot be interrupted half way. -/
theorem retriable_of_single {op : σ → List σ} {s after : σ} (trace : op s = [after]) :
    Retriable op s := by
  intro k below
  rw [trace, List.length_singleton, Nat.lt_one_iff] at below
  subst k
  rfl

/-- A loop whose turns write at most once and leave an element settled, which
no later turn unsettles, passes only states from which it ends the same way. -/
theorem each_retriable {op : α → σ → List σ} (Fits : List α → σ → Prop) (Settled : α → σ → Prop)
    (single : ∀ {x rest s}, Fits (x :: rest) s → ∀ mid ∈ op x s, mid = final (op x) s)
    (next : ∀ {x rest s}, Fits (x :: rest) s → Fits rest (final (op x) s))
    (settles : ∀ {x rest s}, Fits (x :: rest) s → Settled x (final (op x) s))
    (stays : ∀ {x s}, Settled x s → ∀ y, ∀ mid ∈ op y s, Settled x mid)
    (skips : ∀ {x s}, Settled x s → final (op x) s = s)
    {xs : List α} {s : σ} (fits : Fits xs s) : Retriable (each op xs) s := by
  apply retriable_of_passed
  induction xs generalizing s with
  | nil =>
    intro mid inside
    cases inside
  | cons x rest ih =>
    intro mid inside
    rw [final_each, final_each, List.foldl_cons, List.foldl_cons]
    -- The state passed has the first element settled, so its turn does nothing.
    have done : Settled x mid ∧ final (each op rest) mid = final (each op rest) (final (op x) s) := by
      rcases mem_andThen.mp inside with here | later
      · rw [single fits mid here]
        exact ⟨settles fits, rfl⟩
      · have settled : Settled x mid :=
          each_keeps (settles fits) (fun y _ t held => stays held y) mid later
        exact ⟨settled, ih (next fits) mid later⟩
    rw [skips done.1]
    simpa using done.2

/-! ## Posting lists -/

section Members
variable {κ ι : Type} [Ord κ] [Std.TransOrd κ] [DecidableEq ι]

/-- Append a member to a posting list; nothing is written when it is there. -/
def listMember (get : σ → Postings κ ι) (put : Postings κ ι → σ → σ) (key : κ) (member : ι)
    (s : σ) : List σ :=
  if member ∈ listed (get s) key then [] else [put ((get s).add key member) s]

/-- Take a member off a posting list; written whenever the key is there. -/
def unlistMember (get : σ → Postings κ ι) (put : Postings κ ι → σ → σ) (key : κ) (member : ι)
    (s : σ) : List σ :=
  if (get s)[key]?.isSome then [put ((get s).remove key member) s] else []

variable {get : σ → Postings κ ι} {put : Postings κ ι → σ → σ} {s mid : σ} {key : κ} {member : ι}

theorem mem_listMember : mid ∈ listMember get put key member s ↔
    member ∉ listed (get s) key ∧ mid = put ((get s).add key member) s := by
  unfold listMember
  split <;> simp_all

theorem listMember_fresh (fresh : member ∉ listed (get s) key) :
    listMember get put key member s = [put ((get s).add key member) s] := by
  unfold listMember
  rw [if_neg fresh]

theorem mem_unlistMember : mid ∈ unlistMember get put key member s ↔
    (get s)[key]?.isSome ∧ mid = put ((get s).remove key member) s := by
  unfold unlistMember
  split <;> simp_all

theorem final_listMember (same : put (get s) s = s) (key : κ) (member : ι) :
    final (listMember get put key member) s = put ((get s).add key member) s := by
  unfold final listMember
  split
  · rename_i there
    rw [List.getLastD_nil]
    unfold add
    change s = put (if member ∈ listed (get s) key then _ else _) s
    rw [if_pos there, same]
  · rfl

theorem final_unlistMember (same : put (get s) s = s) (key : κ) (member : ι) :
    final (unlistMember get put key member) s = put ((get s).remove key member) s := by
  unfold final unlistMember
  split
  · rfl
  · rename_i absent
    rw [List.getLastD_nil]
    unfold remove
    rw [Option.not_isSome_iff_eq_none.mp absent, same]

end Members

end AztecPxe.WriteTrace
