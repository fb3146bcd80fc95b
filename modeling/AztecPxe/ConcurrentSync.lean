import AztecPxe.Field
import Mathlib.Data.List.Induction
import Mathlib.Logic.Function.Basic

/-! `BlockStateSynchronizer::sync` called from many tasks. Between two awaits a
call runs undisturbed, so a history is a list of such stretches: the call is
made, it takes the lock on the flag, its `do_sync` ends, it lowers the flag, a
waiting call polls the flag. Whoever finds the flag raised waits for it to go
down and returns `Ok`, however the run it waited for has ended. -/
namespace AztecPxe.ConcurrentSync
open AztecPxe

/-- Where one call of `sync` stands. -/
inductive Phase where
  | idle
  | called
  | waiting
  | running
  | ended (result : Except Error Unit)
  | returnedRun (result : Except Error Unit)
  | returnedWaiting

/-- The flag, and all calls. -/
structure SyncState where
  syncing : Bool := false
  phase : Nat → Phase := fun _ => .idle

/-- One stretch of one call. -/
inductive Event where
  | call (c : Nat)
  | enter (c : Nat)
  | finish (c : Nat) (result : Except Error Unit)
  | release (c : Nat)
  | poll (c : Nat)

namespace SyncState

/-- The call moves on. -/
def goto (state : SyncState) (c : Nat) (phase : Phase) : SyncState :=
  { state with phase := Function.update state.phase c phase }

@[simp] theorem syncing_goto (state : SyncState) (c : Nat) (phase : Phase) :
    (state.goto c phase).syncing = state.syncing := rfl

@[simp] theorem phase_goto (state : SyncState) (c d : Nat) (phase : Phase) :
    (state.goto c phase).phase d = if d = c then phase else state.phase d := by
  simp [goto, Function.update_apply]

/-- `sync`, one stretch at a time; an event that no call is ready for changes
nothing. -/
def step (state : SyncState) : Event → SyncState
  | .call c => match state.phase c with
    | .idle => state.goto c .called
    | _ => state
  | .enter c => match state.phase c with
    | .called =>
      if state.syncing then state.goto c .waiting
      else { state.goto c .running with syncing := true }
    | _ => state
  | .finish c result => match state.phase c with
    | .running => state.goto c (.ended result)
    | _ => state
  | .release c => match state.phase c with
    | .ended result => { state.goto c (.returnedRun result) with syncing := false }
    | _ => state
  | .poll c => match state.phase c with
    | .waiting => if state.syncing then state else state.goto c .returnedWaiting
    | _ => state

end SyncState

/-- The state after a history. -/
def run (events : List Event) : SyncState := events.foldl SyncState.step {}

/-- What a call returned. -/
def Phase.answer : Phase → Option (Except Error Unit)
  | .returnedRun result => some result
  | .returnedWaiting => some (.ok ())
  | _ => none

/-- The call has been made and has not returned. -/
def Phase.InProgress : Phase → Prop
  | .called | .waiting | .running | .ended _ => True
  | _ => False

/-- The call's own `do_sync` has completed with `Ok`. -/
def Phase.RanOk : Phase → Prop
  | .ended (.ok ()) | .returnedRun (.ok ()) => True
  | _ => False

/-- At some moment of the history the `do_sync` of `r` ran while the call `c`
was in progress. -/
def ActiveDuring (events : List Event) (r c : Nat) : Prop :=
  ∃ before after, events = before ++ after ∧ (run before).phase r = .running ∧
    ((run before).phase c).InProgress

/-- A `do_sync` that was active during the call has completed with `Ok`. -/
def Synced (events : List Event) (c : Nat) : Prop :=
  ∃ r, ActiveDuring events r c ∧ ((run events).phase r).RanOk

/-- Every call that returned `Ok` was in progress while a `do_sync` ran that
completed with `Ok`. -/
def Truthful (events : List Event) : Prop :=
  ∀ c, ((run events).phase c).answer = some (.ok ()) → Synced events c

/-! ## One stretch -/

/-- What an event does when its call is ready for it. -/
inductive Moves (state : SyncState) : Event → SyncState → Prop
  | call {c : Nat} (idle : state.phase c = .idle) : Moves state (.call c) (state.goto c .called)
  | wait {c : Nat} (called : state.phase c = .called) (raised : state.syncing = true) :
      Moves state (.enter c) (state.goto c .waiting)
  | raise {c : Nat} (called : state.phase c = .called) (lowered : state.syncing = false) :
      Moves state (.enter c) { state.goto c .running with syncing := true }
  | finish {c : Nat} {result : Except Error Unit} (running : state.phase c = .running) :
      Moves state (.finish c result) (state.goto c (.ended result))
  | release {c : Nat} {result : Except Error Unit} (ended : state.phase c = .ended result) :
      Moves state (.release c) { state.goto c (.returnedRun result) with syncing := false }
  | poll {c : Nat} (waiting : state.phase c = .waiting) (lowered : state.syncing = false) :
      Moves state (.poll c) (state.goto c .returnedWaiting)

theorem step_moves (state : SyncState) (event : Event) :
    state.step event = state ∨ Moves state event (state.step event) := by
  cases event with
  | call c =>
    cases at_c : state.phase c with
    | idle =>
      rw [show state.step (.call c) = state.goto c .called by simp only [SyncState.step, at_c]]
      exact .inr (.call at_c)
    | _ => exact .inl (by simp only [SyncState.step, at_c])
  | enter c =>
    cases at_c : state.phase c with
    | called =>
      cases flag : state.syncing with
      | true =>
        rw [show state.step (.enter c) = state.goto c .waiting by
          simp only [SyncState.step, at_c, flag, ↓reduceIte]]
        exact .inr (.wait at_c flag)
      | false =>
        rw [show state.step (.enter c) = { state.goto c .running with syncing := true } by
          simp only [SyncState.step, at_c, flag, Bool.false_eq_true, ↓reduceIte]]
        exact .inr (.raise at_c flag)
    | _ => exact .inl (by simp only [SyncState.step, at_c])
  | finish c result =>
    cases at_c : state.phase c with
    | running =>
      rw [show state.step (.finish c result) = state.goto c (.ended result) by
        simp only [SyncState.step, at_c]]
      exact .inr (.finish at_c)
    | _ => exact .inl (by simp only [SyncState.step, at_c])
  | release c =>
    cases at_c : state.phase c with
    | ended result =>
      rw [show state.step (.release c) =
          { state.goto c (.returnedRun result) with syncing := false } by
        simp only [SyncState.step, at_c]]
      exact .inr (.release at_c)
    | _ => exact .inl (by simp only [SyncState.step, at_c])
  | poll c =>
    cases at_c : state.phase c with
    | waiting =>
      cases flag : state.syncing with
      | true => exact .inl (by simp only [SyncState.step, at_c, flag, ↓reduceIte])
      | false =>
        rw [show state.step (.poll c) = state.goto c .returnedWaiting by
          simp only [SyncState.step, at_c, flag, Bool.false_eq_true, ↓reduceIte]]
        exact .inr (.poll at_c flag)
    | _ => exact .inl (by simp only [SyncState.step, at_c])

/-! ## At most one run -/

/-- The call has raised the flag and not lowered it. -/
def Phase.Holds : Phase → Prop
  | .running | .ended _ => True
  | _ => False

/-- The flag is raised exactly while one call holds it. -/
structure Exclusive (state : SyncState) : Prop where
  raised : state.syncing = true ↔ ∃ c, (state.phase c).Holds
  unique : ∀ {c d}, (state.phase c).Holds → (state.phase d).Holds → c = d

theorem exclusive_initial : Exclusive {} where
  raised := by simp [Phase.Holds]
  unique holds := by cases holds

/-- A call that goes on holding the flag, or on not holding it, changes nothing here. -/
theorem exclusive_goto {state : SyncState} (exclusive : Exclusive state) {c : Nat} {phase : Phase}
    (same : phase.Holds ↔ (state.phase c).Holds) : Exclusive (state.goto c phase) := by
  have holders : ∀ d, ((state.goto c phase).phase d).Holds ↔ (state.phase d).Holds := by
    intro d
    rw [SyncState.phase_goto]
    split
    · rename_i here
      subst d
      exact same
    · rfl
  refine ⟨?_, fun first second => ?_⟩
  · simp only [SyncState.syncing_goto, holders]
    exact exclusive.raised
  · exact exclusive.unique ((holders _).mp first) ((holders _).mp second)

theorem exclusive_moves {state after : SyncState} {event : Event} (exclusive : Exclusive state)
    (moves : Moves state event after) : Exclusive after := by
  have nobody : state.syncing = false → ∀ d, ¬ (state.phase d).Holds := by
    intro lowered d holds
    rw [exclusive.raised.mpr ⟨d, holds⟩] at lowered
    cases lowered
  cases moves with
  | call idle => exact exclusive_goto exclusive (by simp [idle, Phase.Holds])
  | wait called _ => exact exclusive_goto exclusive (by simp [called, Phase.Holds])
  | poll waiting _ => exact exclusive_goto exclusive (by simp [waiting, Phase.Holds])
  | @raise c called lowered =>
    have only : ∀ {d}, ((state.goto c .running).phase d).Holds → d = c := by
      intro d holds
      rw [SyncState.phase_goto] at holds
      split at holds
      · assumption
      · exact absurd holds (nobody lowered d)
    refine ⟨⟨fun _ => ⟨c, ?_⟩, fun _ => rfl⟩, fun first second => ?_⟩
    · change ((state.goto c .running).phase c).Holds
      rw [SyncState.phase_goto, if_pos rfl]
      trivial
    · exact (only first).trans (only second).symm
  | finish running => exact exclusive_goto exclusive (by simp [running, Phase.Holds])
  | @release c result ended =>
    have none_left : ∀ d, ¬ ((state.goto c (.returnedRun result)).phase d).Holds := by
      intro d holds
      rw [SyncState.phase_goto] at holds
      split at holds
      · exact holds
      · rename_i other
        exact other (exclusive.unique holds (by simp [ended, Phase.Holds]))
    refine ⟨⟨fun raised => ?_, fun ⟨d, holds⟩ => absurd holds (none_left d)⟩, fun first => ?_⟩
    · cases raised
    · exact absurd first (none_left _)

theorem exclusive_step {state : SyncState} (exclusive : Exclusive state) (event : Event) :
    Exclusive (state.step event) := by
  rcases step_moves state event with same | moves
  · rw [same]
    exact exclusive
  · exact exclusive_moves exclusive moves

theorem run_snoc (events : List Event) (event : Event) :
    run (events ++ [event]) = (run events).step event := List.foldl_append

theorem exclusive_run (events : List Event) : Exclusive (run events) := by
  induction events using List.reverseRecOn with
  | nil => exact exclusive_initial
  | append_singleton events event ih =>
    rw [run_snoc]
    exact exclusive_step ih event

/-! ## What a waiting call has seen -/

/-- No `do_sync` fails while a call waits for it, and no call starts to wait
for one that has failed or had ended before the call was made. -/
def Admits (before : List Event) : Event → Prop
  | .finish _ (.error _) => ∀ w, (run before).phase w ≠ .waiting
  | .enter w => (run before).phase w = .called → ∀ h result,
      (run before).phase h = .ended result → result = .ok () ∧ ActiveDuring before h w
  | _ => True

/-- Every event of the history meets that condition where it happens. -/
def Admitted (events : List Event) : Prop :=
  ∀ before event after, events = before ++ event :: after → Admits before event

theorem activeDuring_snoc {events : List Event} {r c : Nat} (active : ActiveDuring events r c)
    (event : Event) : ActiveDuring (events ++ [event]) r c := by
  obtain ⟨before, after, split, running, inProgress⟩ := active
  exact ⟨before, after ++ [event], by rw [split, List.append_assoc], running, inProgress⟩

theorem activeDuring_now {events : List Event} {r c : Nat}
    (running : (run events).phase r = .running) (inProgress : ((run events).phase c).InProgress)
    (event : Event) : ActiveDuring (events ++ [event]) r c :=
  ⟨events, [event], rfl, running, inProgress⟩

/-- A `do_sync` that has completed with `Ok` stays so. -/
theorem ranOk_step {state : SyncState} {r : Nat} (ranOk : (state.phase r).RanOk) (event : Event) :
    ((state.step event).phase r).RanOk := by
  rcases step_moves state event with same | moves
  · rw [same]
    exact ranOk
  · have elsewhere : ∀ {c : Nat} {phase : Phase}, ¬ (state.phase c).RanOk →
        ((state.goto c phase).phase r).RanOk := by
      intro c phase not_c
      rw [SyncState.phase_goto, if_neg]
      · exact ranOk
      · rintro rfl
        exact not_c ranOk
    generalize state.step event = after at moves
    cases moves with
    | call idle => exact elsewhere (by simp [idle, Phase.RanOk])
    | wait called _ => exact elsewhere (by simp [called, Phase.RanOk])
    | raise called _ => exact elsewhere (by simp [called, Phase.RanOk])
    | finish running => exact elsewhere (by simp [running, Phase.RanOk])
    | poll waiting _ => exact elsewhere (by simp [waiting, Phase.RanOk])
    | @release c result ended =>
      change ((state.goto c (.returnedRun result)).phase r).RanOk
      rw [SyncState.phase_goto]
      split
      · rename_i same
        rw [same, ended] at ranOk
        cases result with
        | ok _ => trivial
        | error e => cases ranOk
      · exact ranOk

theorem synced_snoc {events : List Event} {c : Nat} (synced : Synced events c) (event : Event) :
    Synced (events ++ [event]) c := by
  obtain ⟨r, active, ranOk⟩ := synced
  refine ⟨r, activeDuring_snoc active event, ?_⟩
  rw [run_snoc]
  exact ranOk_step ranOk event

/-- The call has had a `do_sync` of its own. -/
def Phase.HasRun : Phase → Prop
  | .running | .ended _ | .returnedRun _ => True
  | _ => False

/-- What an admitted history has established for each call. -/
structure Served (events : List Event) : Prop where
  waits : ∀ {c}, (run events).phase c = .waiting →
    Synced events c ∨ ∃ r, (run events).phase r = .running
  waited : ∀ {c}, (run events).phase c = .returnedWaiting → Synced events c
  ownRun : ∀ {c}, (((run events).phase c).HasRun ∧ (run events).phase c ≠ .running) →
    ActiveDuring events c c

theorem served_nil : Served [] where
  waits waiting := by cases waiting
  waited returned := by cases returned
  ownRun hasRun := by cases hasRun.1

/-- The waiting calls after one stretch. -/
private theorem waits_moves {events : List Event} {event : Event} {after : SyncState}
    (served : Served events) (admits : Admits events event)
    (moves : Moves (run events) event after)
    (reached : run (events ++ [event]) = after) {c : Nat} (waiting : after.phase c = .waiting) :
    Synced (events ++ [event]) c ∨ ∃ r, after.phase r = .running := by
  -- A call that waited before still does so when the mover was not running.
  have still : ∀ {d : Nat} {phase : Phase}, (run events).phase d ≠ .running → phase ≠ .waiting →
      (∀ r, after.phase r = if r = d then phase else (run events).phase r) →
      Synced (events ++ [event]) c ∨ ∃ r, after.phase r = .running := by
    intro d phase notRunning notWaiting phases
    rw [phases] at waiting
    split at waiting
    · exact absurd waiting notWaiting
    · rcases served.waits waiting with synced | ⟨r, running⟩
      · exact .inl (synced_snoc synced event)
      · refine .inr ⟨r, ?_⟩
        rw [phases, if_neg, running]
        rintro rfl
        exact notRunning running
  cases moves with
  | @call d idle => exact still (by simp [idle]) (by simp) (SyncState.phase_goto _ d · _)
  | @poll d waitingThere lowered =>
    exact still (by simp [waitingThere]) (by simp) (SyncState.phase_goto _ d · _)
  | @release d result ended =>
    exact still (by simp [ended]) (by simp) (SyncState.phase_goto _ d · _)
  | @raise d called lowered =>
    refine .inr ⟨d, ?_⟩
    change ((run events).goto d .running).phase d = .running
    rw [SyncState.phase_goto, if_pos rfl]
  | @wait d called raised =>
    rw [SyncState.phase_goto] at waiting
    split at waiting
    · rename_i same
      subst same
      -- A new waiter: the flag is held by a call that runs, or has just ended.
      obtain ⟨h, holds⟩ := (exclusive_run events).raised.mp raised
      have other : h ≠ c := by
        rintro rfl
        rw [called] at holds
        exact holds
      cases at_h : (run events).phase h with
      | running =>
        refine .inr ⟨h, ?_⟩
        rw [SyncState.phase_goto, if_neg other, at_h]
      | ended result =>
        obtain ⟨rfl, active⟩ := admits called h result at_h
        exact .inl (synced_snoc ⟨h, active, by rw [at_h]; trivial⟩ _)
      | _ =>
        rw [at_h] at holds
        cases holds
    · rcases served.waits waiting with synced | ⟨r, running⟩
      · exact .inl (synced_snoc synced _)
      · refine .inr ⟨r, ?_⟩
        rw [SyncState.phase_goto, if_neg, running]
        rintro rfl
        rw [called] at running
        cases running
  | @finish d result running =>
    rw [SyncState.phase_goto] at waiting
    split at waiting
    · cases waiting
    · cases result with
      | error e => exact absurd waiting (admits c)
      | ok _ =>
        refine .inl ⟨d, activeDuring_now running (by rw [waiting]; trivial) _, ?_⟩
        rw [reached, SyncState.phase_goto, if_pos rfl]
        trivial

/-- The calls that have polled the lowered flag after one stretch. -/
private theorem waited_moves {events : List Event} {event : Event} {after : SyncState}
    (served : Served events) (moves : Moves (run events) event after) {c : Nat}
    (returned : after.phase c = .returnedWaiting) : Synced (events ++ [event]) c := by
  have before : ∀ {d : Nat} {phase : Phase}, phase ≠ .returnedWaiting →
      (∀ r, after.phase r = if r = d then phase else (run events).phase r) →
      Synced (events ++ [event]) c := by
    intro d phase differs phases
    rw [phases] at returned
    split at returned
    · exact absurd returned differs
    · exact synced_snoc (served.waited returned) event
  cases moves with
  | @call d idle => exact before (by simp) (SyncState.phase_goto _ d · _)
  | @wait d called raised => exact before (by simp) (SyncState.phase_goto _ d · _)
  | @raise d called lowered => exact before (by simp) (SyncState.phase_goto _ d · _)
  | @finish d result running => exact before (by simp) (SyncState.phase_goto _ d · _)
  | @release d result ended => exact before (by simp) (SyncState.phase_goto _ d · _)
  | @poll d waiting lowered =>
    rw [SyncState.phase_goto] at returned
    split at returned
    · rename_i same
      subst same
      rcases served.waits waiting with synced | ⟨r, running⟩
      · exact synced_snoc synced _
      · -- A lowered flag means that nobody runs.
        rw [(exclusive_run events).raised.mpr ⟨r, by rw [running]; trivial⟩] at lowered
        cases lowered
    · exact synced_snoc (served.waited returned) _

/-- The calls whose own `do_sync` has ended after one stretch. -/
private theorem ownRun_moves {events : List Event} {event : Event} {after : SyncState}
    (served : Served events) (moves : Moves (run events) event after) {c : Nat}
    (hasRun : (after.phase c).HasRun ∧ after.phase c ≠ .running) :
    ActiveDuring (events ++ [event]) c c := by
  have before : ∀ {d : Nat} {phase : Phase}, ¬ (phase.HasRun ∧ phase ≠ .running) →
      (∀ r, after.phase r = if r = d then phase else (run events).phase r) →
      ActiveDuring (events ++ [event]) c c := by
    intro d phase differs phases
    rw [phases] at hasRun
    split at hasRun
    · exact absurd hasRun differs
    · exact activeDuring_snoc (served.ownRun hasRun) event
  cases moves with
  | @call d idle => exact before (by simp [Phase.HasRun]) (SyncState.phase_goto _ d · _)
  | @wait d called raised => exact before (by simp [Phase.HasRun]) (SyncState.phase_goto _ d · _)
  | @raise d called lowered => exact before (by simp) (SyncState.phase_goto _ d · _)
  | @poll d waiting lowered => exact before (by simp [Phase.HasRun]) (SyncState.phase_goto _ d · _)
  | @finish d result running =>
    rw [SyncState.phase_goto] at hasRun
    split at hasRun
    · rename_i same
      subst same
      exact activeDuring_now running (by rw [running]; trivial) _
    · exact activeDuring_snoc (served.ownRun hasRun) _
  | @release d result ended =>
    by_cases same : c = d
    · subst same
      exact activeDuring_snoc (served.ownRun (by rw [ended]; exact ⟨trivial, by simp⟩)) _
    · change (((run events).goto d (.returnedRun result)).phase c).HasRun ∧
        ((run events).goto d (.returnedRun result)).phase c ≠ .running at hasRun
      rw [SyncState.phase_goto, if_neg same] at hasRun
      exact activeDuring_snoc (served.ownRun hasRun) _

theorem served_snoc {events : List Event} {event : Event} (served : Served events)
    (admits : Admits events event) : Served (events ++ [event]) := by
  have reached := run_snoc events event
  rcases step_moves (run events) event with same | moves
  · rw [same] at reached
    refine ⟨fun waiting => ?_, fun returned => ?_, fun hasRun => ?_⟩
    · rw [reached] at waiting ⊢
      exact (served.waits waiting).imp_left (synced_snoc · event)
    · rw [reached] at returned
      exact synced_snoc (served.waited returned) event
    · rw [reached] at hasRun
      exact activeDuring_snoc (served.ownRun hasRun) event
  · generalize (run events).step event = after at moves reached
    refine ⟨fun waiting => ?_, fun returned => ?_, fun hasRun => ?_⟩
    · rw [reached] at waiting ⊢
      exact waits_moves served admits moves reached waiting
    · rw [reached] at returned
      exact waited_moves served moves returned
    · rw [reached] at hasRun
      exact ownRun_moves served moves hasRun

theorem served_of_admitted {events : List Event} (admitted : Admitted events) : Served events := by
  induction events using List.reverseRecOn with
  | nil => exact served_nil
  | append_singleton events event ih =>
    refine served_snoc (ih ?_) (admitted events event [] rfl)
    intro before e after split
    exact admitted before e (after ++ [event]) (by rw [split]; simp)

theorem admitted_nil : Admitted [] := by
  intro before event after split
  cases before <;> cases split

theorem admitted_snoc {events : List Event} {event : Event} (admitted : Admitted events)
    (last : Admits events event) : Admitted (events ++ [event]) := by
  intro before e after split
  rcases List.eq_nil_or_concat after with rfl | ⟨after', e', rfl⟩
  · obtain ⟨rfl, same⟩ := List.append_inj' split rfl
    cases same
    exact last
  · rw [List.concat_eq_append, ← List.cons_append, ← List.append_assoc] at split
    obtain ⟨split', -⟩ := List.append_inj' split rfl
    exact admitted before e after' split'

/-- One call that meets nobody. -/
def loneCall : List Event := [.call 0, .enter 0, .finish 0 (.ok ()), .release 0]

/-- The second call waits for the first, whose `do_sync` fails. -/
def waitsForFailure : List Event :=
  [.call 0, .enter 0, .call 1, .enter 1, .finish 0 (.error (.transport "node is down")),
    .release 0, .poll 1]

end AztecPxe.ConcurrentSync
