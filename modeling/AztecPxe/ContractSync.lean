import AztecPxe.Field
import AztecPxe.Run
import Mathlib.Logic.Function.Basic

/-! The cache of `sync/contract_sync.rs`. A call compares its anchor hash with
the cached one, reads the set of synced scopes, runs the sync and marks the
scopes, and it awaits between any two of these; `wipe` clears the set and then
the hash. A call that was overtaken by a change of the hash marks its scopes in
a cache that is no longer its own.

The generation of the cache and the list of completed runs are kept for the
statements only; no step reads them. -/
namespace AztecPxe.ContractSync
open AztecPxe

/-- The arguments of one call of `ensure_contract_synced_with`. -/
structure SyncRequest where
  contract : AztecAddress
  scopes : List AztecAddress
  anchorBlockHash : String

/-- `sync_key` and `sync_key_wildcard`. -/
inductive SyncKey where
  | scope (contract scope : AztecAddress)
  | wildcard (contract : AztecAddress)
  deriving DecidableEq, Repr

/-- A `do_sync` that completed with `Ok` for this contract and scope: the anchor
hash of its call, and the generation of the cache in which it was started. -/
structure SyncRun where
  contract : AztecAddress
  scope : AztecAddress
  anchorBlockHash : String
  generation : Nat
  deriving DecidableEq, Repr

/-- Where one call stands. From its hash check on it carries the generation of
that check, from the start of its `do_sync` on also the generation of the start. -/
inductive SyncPhase where
  | idle
  | clearing
  | checked (since : Nat)
  | syncing (since startedIn : Nat) (unsynced : List AztecAddress)
  | marking (since startedIn : Nat) (unsynced : List AztecAddress)
  | returned (result : Except Error Unit)

/-- `ContractSyncService`, its calls and its wipes. The lock is the write lock
of `anchor_block_hash`, the only one held across an await. -/
structure CacheState where
  synced : List SyncKey := []
  anchorBlockHash : Option String := none
  hashLocked : Bool := false
  phase : Nat → SyncPhase := fun _ => .idle
  wiping : Nat → Bool := fun _ => false
  generation : Nat := 0
  completed : List SyncRun := []

/-- One stretch of one call or of one wipe. -/
inductive Event where
  | check (c : Nat)
  | clear (c : Nat)
  | read (c : Nat)
  | finish (c : Nat) (result : Except Error Unit)
  | mark (c : Nat)
  | wipeClear (w : Nat)
  | wipeHash (w : Nat)

namespace CacheState

/-- The call moves on. -/
def goto (state : CacheState) (c : Nat) (phase : SyncPhase) : CacheState :=
  { state with phase := Function.update state.phase c phase }

/-- The scopes of the request that the set does not cover. -/
def unsyncedScopes (state : CacheState) (request : SyncRequest) : List AztecAddress :=
  request.scopes.filter (fun scope =>
    decide (SyncKey.scope request.contract scope ∉ state.synced) &&
    decide (SyncKey.wildcard request.contract ∉ state.synced))

/-- `ensure_contract_synced_with` and `wipe`, one stretch at a time; an event
that its call is not ready for changes nothing. -/
def step (request : Nat → SyncRequest) (state : CacheState) : Event → CacheState
  | .check c => match state.phase c with
    | .idle =>
      if state.hashLocked then state
      else if state.anchorBlockHash = some (request c).anchorBlockHash then
        state.goto c (.checked state.generation)
      else { state.goto c .clearing with
        anchorBlockHash := some (request c).anchorBlockHash
        hashLocked := true
        generation := state.generation + 1 }
    | _ => state
  | .clear c => match state.phase c with
    | .clearing => { state.goto c (.checked state.generation) with
        synced := []
        hashLocked := false }
    | _ => state
  | .read c => match state.phase c with
    | .checked since =>
      let unsynced := state.unsyncedScopes (request c)
      if unsynced.isEmpty then state.goto c (.returned (.ok ()))
      else state.goto c (.syncing since state.generation unsynced)
    | _ => state
  | .finish c result => match state.phase c, result with
    | .syncing since startedIn unsynced, .ok () =>
      { state.goto c (.marking since startedIn unsynced) with
        completed := state.completed ++ unsynced.map (fun scope =>
          ⟨(request c).contract, scope, (request c).anchorBlockHash, startedIn⟩) }
    | .syncing _ _ _, .error e => state.goto c (.returned (.error e))
    | _, _ => state
  | .mark c => match state.phase c with
    | .marking _ _ unsynced => { state.goto c (.returned (.ok ())) with
        synced := state.synced ++ unsynced.map (.scope (request c).contract) }
    | _ => state
  | .wipeClear w =>
    if state.wiping w then state
    else { state with
      synced := []
      wiping := Function.update state.wiping w true
      generation := state.generation + 1 }
  | .wipeHash w =>
    if state.wiping w && !state.hashLocked then { state with
      anchorBlockHash := none
      wiping := Function.update state.wiping w false
      generation := state.generation + 1 }
    else state

end CacheState
open CacheState

/-- Whoever may read the cached hash finds every scope of the set backed by a
`do_sync` that a call with that very hash started in the cache's present
generation, and that completed with `Ok`. -/
def Backed (state : CacheState) : Prop :=
  state.hashLocked = false → ∀ h contract scope, state.anchorBlockHash = some h →
    SyncKey.scope contract scope ∈ state.synced →
      ⟨contract, scope, h, state.generation⟩ ∈ state.completed

/-- No call marks its scopes in a cache that was cleared since the call's own
hash check, unless the set is bound to be cleared again before the next use: no
hash is cached, or the call that changes it has yet to clear the set. -/
def Admits (state : CacheState) : Event → Prop
  | .mark c => ∀ since startedIn unsynced, state.phase c = .marking since startedIn unsynced →
      since = state.generation ∨ state.anchorBlockHash = none ∨ state.hashLocked = true
  | _ => True

/-! ## One stretch -/

/-- What an event does when its call is ready for it. -/
inductive Moves (request : Nat → SyncRequest) (state : CacheState) : Event → CacheState → Prop
  | checkSame {c : Nat} (idle : state.phase c = .idle) (unlocked : state.hashLocked = false)
      (same : state.anchorBlockHash = some (request c).anchorBlockHash) :
      Moves request state (.check c) (state.goto c (.checked state.generation))
  | checkNew {c : Nat} (idle : state.phase c = .idle) (unlocked : state.hashLocked = false) :
      Moves request state (.check c) { state.goto c .clearing with
        anchorBlockHash := some (request c).anchorBlockHash
        hashLocked := true
        generation := state.generation + 1 }
  | clear {c : Nat} (clearing : state.phase c = .clearing) :
      Moves request state (.clear c) { state.goto c (.checked state.generation) with
        synced := []
        hashLocked := false }
  | readNothing {c since : Nat} (checked : state.phase c = .checked since) :
      Moves request state (.read c) (state.goto c (.returned (.ok ())))
  | readSome {c since : Nat} (checked : state.phase c = .checked since)
      (unsynced : List AztecAddress) :
      Moves request state (.read c) (state.goto c (.syncing since state.generation unsynced))
  | succeed {c since startedIn : Nat} {unsynced : List AztecAddress}
      (syncing : state.phase c = .syncing since startedIn unsynced) :
      Moves request state (.finish c (.ok ()))
        { state.goto c (.marking since startedIn unsynced) with
          completed := state.completed ++ unsynced.map (fun scope =>
            ⟨(request c).contract, scope, (request c).anchorBlockHash, startedIn⟩) }
  | fail {c since startedIn : Nat} {unsynced : List AztecAddress} {e : Error}
      (syncing : state.phase c = .syncing since startedIn unsynced) :
      Moves request state (.finish c (.error e)) (state.goto c (.returned (.error e)))
  | mark {c since startedIn : Nat} {unsynced : List AztecAddress}
      (marking : state.phase c = .marking since startedIn unsynced) :
      Moves request state (.mark c) { state.goto c (.returned (.ok ())) with
        synced := state.synced ++ unsynced.map (.scope (request c).contract) }
  | wipeClear {w : Nat} :
      Moves request state (.wipeClear w) { state with
        synced := []
        wiping := Function.update state.wiping w true
        generation := state.generation + 1 }
  | wipeHash {w : Nat} (unlocked : state.hashLocked = false) :
      Moves request state (.wipeHash w) { state with
        anchorBlockHash := none
        wiping := Function.update state.wiping w false
        generation := state.generation + 1 }

theorem step_moves (request : Nat → SyncRequest) (state : CacheState) (event : Event) :
    state.step request event = state ∨ Moves request state event (state.step request event) := by
  cases event with
  | check c =>
    cases at_c : state.phase c with
    | idle =>
      cases unlocked : state.hashLocked with
      | true => exact .inl (by simp only [step, at_c, unlocked, ↓reduceIte])
      | false =>
        by_cases same : state.anchorBlockHash = some (request c).anchorBlockHash
        · have taken : state.step request (.check c) = state.goto c (.checked state.generation) := by
            simp only [step, at_c, unlocked, same, Bool.false_eq_true, ↓reduceIte]
          rw [taken]
          exact .inr (.checkSame at_c unlocked same)
        · have taken : state.step request (.check c) = { state.goto c .clearing with
              anchorBlockHash := some (request c).anchorBlockHash
              hashLocked := true
              generation := state.generation + 1 } := by
            simp only [step, at_c, unlocked, same, Bool.false_eq_true, ↓reduceIte]
          rw [taken]
          exact .inr (.checkNew at_c unlocked)
    | _ => exact .inl (by simp only [step, at_c])
  | clear c =>
    cases at_c : state.phase c with
    | clearing =>
      have taken : state.step request (.clear c) =
          { state.goto c (.checked state.generation) with synced := [], hashLocked := false } := by
        simp only [step, at_c]
      rw [taken]
      exact .inr (.clear at_c)
    | _ => exact .inl (by simp only [step, at_c])
  | read c =>
    cases at_c : state.phase c with
    | checked since =>
      by_cases nothing : (state.unsyncedScopes (request c)).isEmpty = true
      · have taken : state.step request (.read c) = state.goto c (.returned (.ok ())) := by
          simp only [step, at_c, nothing, ↓reduceIte]
        rw [taken]
        exact .inr (.readNothing at_c)
      · have taken : state.step request (.read c) =
            state.goto c (.syncing since state.generation (state.unsyncedScopes (request c))) := by
          simp only [step, at_c, nothing, Bool.false_eq_true, ↓reduceIte]
        rw [taken]
        exact .inr (.readSome at_c _)
    | _ => exact .inl (by simp only [step, at_c])
  | finish c result =>
    cases at_c : state.phase c with
    | syncing since startedIn unsynced =>
      cases result with
      | ok _ =>
        have taken : state.step request (.finish c (.ok ())) =
            { state.goto c (.marking since startedIn unsynced) with
              completed := state.completed ++ unsynced.map (fun scope =>
                ⟨(request c).contract, scope, (request c).anchorBlockHash, startedIn⟩) } := by
          simp only [step, at_c]
        rw [show state.step request (.finish c (.ok ())) = _ from taken]
        exact .inr (.succeed at_c)
      | error e =>
        have taken : state.step request (.finish c (.error e)) =
            state.goto c (.returned (.error e)) := by
          simp only [step, at_c]
        rw [taken]
        exact .inr (.fail at_c)
    | _ => exact .inl (by simp only [step, at_c])
  | mark c =>
    cases at_c : state.phase c with
    | marking since startedIn unsynced =>
      have taken : state.step request (.mark c) = { state.goto c (.returned (.ok ())) with
          synced := state.synced ++ unsynced.map (.scope (request c).contract) } := by
        simp only [step, at_c]
      rw [taken]
      exact .inr (.mark at_c)
    | _ => exact .inl (by simp only [step, at_c])
  | wipeClear w =>
    cases wiping : state.wiping w with
    | true => exact .inl (by simp only [step, wiping, ↓reduceIte])
    | false =>
      have taken : state.step request (.wipeClear w) = { state with
          synced := []
          wiping := Function.update state.wiping w true
          generation := state.generation + 1 } := by
        simp only [step, wiping, Bool.false_eq_true, ↓reduceIte]
      rw [taken]
      exact .inr .wipeClear
  | wipeHash w =>
    by_cases ready : (state.wiping w && !state.hashLocked) = true
    · have taken : state.step request (.wipeHash w) = { state with
          anchorBlockHash := none
          wiping := Function.update state.wiping w false
          generation := state.generation + 1 } := by
        simp only [step, ready, ↓reduceIte]
      rw [taken]
      exact .inr (.wipeHash (by simpa using (Bool.and_eq_true_iff.mp ready).2))
    · exact .inl (by simp only [step, ready, Bool.false_eq_true, ↓reduceIte])

/-! ## What a call may rely on -/

/-- A hash check of the cache's present generation saw the cached hash. -/
def Fresh (request : SyncRequest) (state : CacheState) (since : Nat) : Prop :=
  since ≤ state.generation ∧
    (since = state.generation → state.anchorBlockHash = some request.anchorBlockHash)

/-- What the phase of a call says about the cache. -/
def PhaseOk (request : SyncRequest) (state : CacheState) : SyncPhase → Prop
  | .clearing => state.hashLocked = true ∧ state.anchorBlockHash = some request.anchorBlockHash
  | .checked since => Fresh request state since
  | .syncing since startedIn _ =>
    Fresh request state since ∧ since ≤ startedIn ∧ startedIn ≤ state.generation
  | .marking since startedIn unsynced =>
    Fresh request state since ∧ since ≤ startedIn ∧ startedIn ≤ state.generation ∧
      ∀ scope ∈ unsynced,
        ⟨request.contract, scope, request.anchorBlockHash, startedIn⟩ ∈ state.completed
  | _ => True

/-- A stretch of another call: it keeps the hash, or it begins a new generation. -/
structure Aside (state after : CacheState) : Prop where
  generation : (after.generation = state.generation ∧
    after.anchorBlockHash = state.anchorBlockHash) ∨ state.generation < after.generation
  completed : ∀ record ∈ state.completed, record ∈ after.completed

theorem fresh_aside {request : SyncRequest} {state after : CacheState} {since : Nat}
    (aside : Aside state after) (fresh : Fresh request state since) :
    Fresh request after since := by
  obtain ⟨below, current⟩ := fresh
  rcases aside.generation with ⟨same, hash⟩ | later
  · refine ⟨by omega, fun now => ?_⟩
    rw [hash]
    exact current (by omega)
  · exact ⟨by omega, fun now => by omega⟩

/-- Nobody overtakes the call that holds the lock. -/
def Held (state after : CacheState) : Prop :=
  after.hashLocked = true ∧ after.anchorBlockHash = state.anchorBlockHash

theorem phaseOk_aside {request : SyncRequest} {state after : CacheState} {phase : SyncPhase}
    (aside : Aside state after) (held : phase = .clearing → Held state after)
    (ok : PhaseOk request state phase) : PhaseOk request after phase := by
  have grows : state.generation ≤ after.generation := by
    rcases aside.generation with ⟨same, -⟩ | later <;> omega
  cases phase with
  | idle => trivial
  | returned result => trivial
  | clearing =>
    obtain ⟨kept, same⟩ := held rfl
    exact ⟨kept, same.trans ok.2⟩
  | checked since => exact fresh_aside aside ok
  | syncing since startedIn unsynced =>
    obtain ⟨fresh, after_check, started⟩ := ok
    exact ⟨fresh_aside aside fresh, after_check, by omega⟩
  | marking since startedIn unsynced =>
    obtain ⟨fresh, after_check, started, ran⟩ := ok
    exact ⟨fresh_aside aside fresh, after_check, by omega,
      fun scope inside => aside.completed _ (ran scope inside)⟩

/-- Where an admitted run stands. -/
structure Tracked (request : Nat → SyncRequest) (state : CacheState) : Prop where
  phases : ∀ c, PhaseOk (request c) state (state.phase c)
  alone : ∀ {c d}, state.phase c = .clearing → state.phase d = .clearing → c = d
  backed : Backed state

theorem tracked_initial (request : Nat → SyncRequest) : Tracked request {} where
  phases _ := trivial
  alone clearing := by cases clearing
  backed := by
    intro _ h contract scope hash
    cases hash

section Step
variable {request : Nat → SyncRequest} {state after : CacheState}

theorem locked_of_clearing (tracked : Tracked request state) {d : Nat}
    (clearing : state.phase d = .clearing) : state.hashLocked = true := by
  have ok := tracked.phases d
  rw [clearing] at ok
  exact ok.1

/-- A stretch of one call keeps what all calls may rely on. -/
theorem tracked_goto (tracked : Tracked request state) {c : Nat} {phase : SyncPhase}
    (phases : after.phase = Function.update state.phase c phase) (aside : Aside state after)
    (held : ∀ d, d ≠ c → state.phase d = .clearing → Held state after)
    (own : PhaseOk (request c) after phase) (first : phase = .clearing → state.hashLocked = false)
    (backed : Backed after) : Tracked request after where
  phases d := by
    rw [phases, Function.update_apply]
    split
    · rename_i same
      subst same
      exact own
    · rename_i other
      exact phaseOk_aside aside (held d other) (tracked.phases d)
  alone := by
    have others : ∀ d, after.phase d = .clearing → d = c ∨ state.phase d = .clearing := by
      intro d clearing
      rw [phases, Function.update_apply] at clearing
      split at clearing
      · rename_i same
        exact .inl same
      · exact .inr clearing
    have mine : after.phase c = .clearing → state.hashLocked = false := by
      intro clearing
      rw [phases, Function.update_self] at clearing
      exact first clearing
    intro d e atD atE
    rcases others d atD with rfl | oldD
    · rcases others e atE with rfl | oldE
      · rfl
      · have lock := locked_of_clearing tracked oldE
        rw [mine atD] at lock
        cases lock
    · rcases others e atE with rfl | oldE
      · have lock := locked_of_clearing tracked oldD
        rw [mine atE] at lock
        cases lock
      · exact tracked.alone oldD oldE
  backed := backed

/-- A stretch that only moves the call on. -/
theorem tracked_move (tracked : Tracked request state) {c : Nat} {phase : SyncPhase}
    (own : PhaseOk (request c) (state.goto c phase) phase) (past : phase ≠ .clearing) :
    Tracked request (state.goto c phase) := by
  have locked := fun d => locked_of_clearing tracked (d := d)
  exact tracked_goto tracked rfl ⟨.inl ⟨rfl, rfl⟩, fun _ inside => inside⟩
    (fun d _ clearing => ⟨locked d clearing, rfl⟩) own (fun clearing => absurd clearing past)
    tracked.backed

/-- A wipe keeps what all calls may rely on. -/
theorem tracked_wipe (tracked : Tracked request state) (phases : after.phase = state.phase)
    (aside : Aside state after) (held : ∀ d, state.phase d = .clearing → Held state after)
    (backed : Backed after) : Tracked request after where
  phases d := by
    rw [phases]
    exact phaseOk_aside aside (held d) (tracked.phases d)
  alone := by
    rw [phases]
    exact tracked.alone
  backed := backed

theorem tracked_moves (tracked : Tracked request state) {event : Event}
    (admits : Admits state event) (moves : Moves request state event after) :
    Tracked request after := by
  have locked := fun d => locked_of_clearing tracked (d := d)
  cases moves with
  | @checkSame c idle unlocked same =>
    exact tracked_move tracked ⟨Nat.le_refl _, fun _ => same⟩ nofun
  | @checkNew c idle unlocked =>
    refine tracked_goto tracked rfl ⟨.inr (Nat.lt_succ_self _), fun _ inside => inside⟩
      (fun d _ clearing => ?_) ⟨rfl, rfl⟩ (fun _ => unlocked) ?_
    · rw [locked d clearing] at unlocked
      cases unlocked
    · intro lock
      cases lock
  | @clear c clearing =>
    have own := tracked.phases c
    rw [clearing] at own
    refine tracked_goto tracked rfl ⟨.inl ⟨rfl, rfl⟩, fun _ inside => inside⟩
      (fun d other atD => absurd (tracked.alone atD clearing) other)
      ⟨Nat.le_refl _, fun _ => own.2⟩ (fun h => by cases h) ?_
    intro _ h contract scope _ inside
    cases inside
  | @readNothing c since checked =>
    exact tracked_move tracked trivial nofun
  | @readSome c since checked unsynced =>
    have own := tracked.phases c
    rw [checked] at own
    exact tracked_move tracked ⟨own, own.1, Nat.le_refl _⟩ nofun
  | @succeed c since startedIn unsynced syncing =>
    obtain ⟨fresh, afterCheck, started⟩ : PhaseOk (request c) state (.syncing since startedIn unsynced) :=
      syncing ▸ tracked.phases c
    refine tracked_goto tracked rfl
      ⟨.inl ⟨rfl, rfl⟩, fun _ inside => List.mem_append_left _ inside⟩
      (fun d _ clearing => ⟨locked d clearing, rfl⟩) ⟨fresh, afterCheck, started, ?_⟩
      (fun h => by cases h) ?_
    · intro scope inside
      exact List.mem_append_right _ (List.mem_map.mpr ⟨scope, inside, rfl⟩)
    · intro unlocked h contract scope hash inside
      exact List.mem_append_left _ (tracked.backed unlocked h contract scope hash inside)
  | @fail c since startedIn unsynced e syncing =>
    exact tracked_move tracked trivial nofun
  | @mark c since startedIn unsynced marking =>
    obtain ⟨fresh, afterCheck, started, ran⟩ :
        PhaseOk (request c) state (.marking since startedIn unsynced) :=
      marking ▸ tracked.phases c
    refine tracked_goto tracked rfl ⟨.inl ⟨rfl, rfl⟩, fun _ inside => inside⟩
      (fun d _ clearing => ⟨locked d clearing, rfl⟩) trivial (fun h => by cases h) ?_
    intro unlocked h contract scope hash inside
    rcases List.mem_append.mp inside with before | added
    · exact tracked.backed unlocked h contract scope hash before
    · obtain ⟨marked, member, same⟩ := List.mem_map.mp added
      cases same
      -- The mark is admitted here only in the generation of the call's own check.
      rcases admits since startedIn unsynced marking with current | nothing | lock
      · have sameHash : h = (request c).anchorBlockHash :=
          Option.some.inj (hash.symm.trans (fresh.2 current))
        have sameStart : startedIn = state.generation := by omega
        rw [sameHash]
        have record := ran scope member
        rw [sameStart] at record
        exact record
      · exact absurd (hash.symm.trans nothing) (by simp)
      · exact absurd (unlocked.symm.trans lock) (by simp)
  | @wipeClear w =>
    refine tracked_wipe tracked rfl ⟨.inr (Nat.lt_succ_self _), fun _ inside => inside⟩
      (fun d clearing => ⟨locked d clearing, rfl⟩) ?_
    intro _ h contract scope _ inside
    cases inside
  | @wipeHash w unlocked =>
    refine tracked_wipe tracked rfl ⟨.inr (Nat.lt_succ_self _), fun _ inside => inside⟩
      (fun d clearing => ?_) ?_
    · rw [locked d clearing] at unlocked
      cases unlocked
    · intro _ h contract scope hash
      cases hash

theorem tracked_step (tracked : Tracked request state) {event : Event}
    (admits : Admits state event) : Tracked request (state.step request event) := by
  rcases step_moves request state event with same | moves
  · rw [same]
    exact tracked
  · exact tracked_moves tracked admits moves

end Step

/-- One scope of one contract under one anchor hash, and another anchor hash. -/
def twoAnchors : Nat → SyncRequest
  | 0 => ⟨AztecAddress.zero, [AztecAddress.zero], "0xaa"⟩
  | _ => ⟨AztecAddress.zero, [], "0xbb"⟩

/-- The first call syncs its scope while the second changes the cached hash; the
first then marks the scope under a hash no sync has run for. -/
def overtaken : List Event :=
  [.check 0, .clear 0, .read 0, .check 1, .clear 1, .finish 0 (.ok ()), .mark 0]

end AztecPxe.ContractSync
