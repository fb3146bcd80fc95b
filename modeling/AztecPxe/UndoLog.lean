import Mathlib.Data.List.Induction

/-! Stores that record events stamped with a height and can be rolled back to
one. The question asked of such a store is always the same: is rolling back
the same as never having recorded the events above the height? `Undoes` is the
one-event obligation a store has to meet, relative to the event lists it is
meant for, and `run_eq_replay` carries it to whole histories in which records
and rollbacks alternate. -/
namespace AztecPxe.UndoLog

/-- A store with recorded events and rollback. -/
structure Machine (σ ε : Type) where
  init : σ
  apply : σ → ε → σ
  height : ε → Nat
  rollback : σ → Nat → σ

/-- One call on the store: a batch of events or a rollback. -/
inductive Op (ε : Type) where
  | record (events : List ε)
  | rollback (height : Nat)

variable {σ ε : Type} (m : Machine σ ε)

/-- The state after recording these events on an empty store. -/
def replay (events : List ε) : σ := events.foldl m.apply m.init

/-- The events at or below a height. -/
def upTo (events : List ε) (height : Nat) : List ε :=
  events.filter (fun event => decide (m.height event ≤ height))

/-- One call of a history on the store. -/
def step (state : σ) : Op ε → σ
  | .record events => events.foldl m.apply state
  | .rollback height => m.rollback state height

/-- One call of a history on the list of events that still count. -/
def survive (events : List ε) : Op ε → List ε
  | .record more => events ++ more
  | .rollback height => upTo m events height

/-- The state after a history on an empty store. -/
def run (ops : List (Op ε)) : σ := ops.foldl (step m) m.init

/-- The events of a history that no later rollback of it removed. -/
def surviving (ops : List (Op ε)) : List ε := ops.foldl (survive m) []

/-- What one event owes to rollback, after any admissible list of events. -/
structure Undoes (Admissible : List ε → Prop) : Prop where
  initial : ∀ height, m.rollback m.init height = m.init
  front : ∀ {events : List ε} {event : ε}, Admissible (events ++ [event]) → Admissible events
  keeps : ∀ {events : List ε} {event : ε} {height : Nat}, Admissible (events ++ [event]) →
    m.height event ≤ height →
    m.rollback (m.apply (replay m events) event) height =
      m.apply (m.rollback (replay m events) height) event
  drops : ∀ {events : List ε} {event : ε} {height : Nat}, Admissible (events ++ [event]) →
    height < m.height event →
    m.rollback (m.apply (replay m events) event) height = m.rollback (replay m events) height

variable {m} {Admissible : List ε → Prop}

theorem replay_append (events more : List ε) :
    replay m (events ++ more) = more.foldl m.apply (replay m events) :=
  List.foldl_append

theorem replay_snoc (events : List ε) (event : ε) :
    replay m (events ++ [event]) = m.apply (replay m events) event :=
  replay_append events [event]

/-- Rolling back admissible events is replaying those at or below the height. -/
theorem rollback_replay (undoes : Undoes m Admissible) (events : List ε)
    (admissible : Admissible events) (height : Nat) :
    m.rollback (replay m events) height = replay m (upTo m events height) := by
  induction events using List.reverseRecOn with
  | nil => exact undoes.initial height
  | append_singleton events event ih =>
    have before := ih (undoes.front admissible)
    rw [replay_snoc]
    by_cases below : m.height event ≤ height
    · rw [undoes.keeps admissible below, before]
      simp [upTo, below, replay_snoc]
    · rw [undoes.drops admissible (by omega), before]
      simp [upTo, below]

/-- A history whose surviving events are admissible after every call leaves
the store in the state of its surviving events. -/
theorem run_eq_replay (undoes : Undoes m Admissible) (ops : List (Op ε))
    (admissible : ∀ k, Admissible (surviving m (ops.take k))) :
    run m ops = replay m (surviving m ops) := by
  induction ops using List.reverseRecOn with
  | nil => rfl
  | append_singleton ops op ih =>
    have earlier : ∀ k, Admissible (surviving m (ops.take k)) := by
      intro k
      by_cases short : k ≤ ops.length
      · have same := admissible k
        rwa [List.take_append_of_le_length short] at same
      · have same := admissible ops.length
        rw [List.take_append_of_le_length (Nat.le_refl _), List.take_length] at same
        rwa [List.take_of_length_le (by omega)]
    have last : Admissible (surviving m ops) := by
      simpa using earlier ops.length
    have state := ih earlier
    unfold run surviving at state ⊢
    rw [List.foldl_append, List.foldl_append, List.foldl_cons, List.foldl_nil,
      List.foldl_cons, List.foldl_nil, state]
    cases op with
    | record events => exact (replay_append _ events).symm
    | rollback height => exact rollback_replay undoes _ last height

end AztecPxe.UndoLog
