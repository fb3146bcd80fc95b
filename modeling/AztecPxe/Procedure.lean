import AztecPxe.Fallible
import Mathlib.Logic.Relation

/-! Computations over a state that may fail, and may not come to their end within
the turns they are given. Two ways to reason about one: by what a single step may
do to the state, where a failure is a step too, and by comparing two runs from
related states. Both go through sequences and through loops. -/
namespace AztecPxe

/-- A computation that changes a state, fails, or runs out of turns. A failure
keeps what was done to the state before it. -/
abbrev Procedure (ε τ α : Type) := ExceptT ε (StateT τ Option) α

/-- One turn of a loop: another is needed, or the loop is done. -/
inductive Turn (σ ρ : Type) where
  | again (s : σ)
  | done (r : ρ)

namespace Procedure
variable {ε τ σ ρ α β : Type}

/-- The outcome of a computation from a state, if it comes to one. -/
def runFrom (x : Procedure ε τ α) (state : τ) : Option (Except ε α × τ) := x.run.run state

/-- A step given as a function of the state. -/
def lift (f : τ → Except ε α × τ) : Procedure ε τ α := fun state => some (f state)

/-- A computation out of turns. -/
def exhausted : Procedure ε τ α := fun _ => none

/-- A loop, for at most so many turns. -/
def loop (body : σ → Procedure ε τ (Turn σ ρ)) : Nat → σ → Procedure ε τ ρ
  | 0, _ => exhausted
  | turns + 1, s => do
    match ← body s with
    | .again next => loop body turns next
    | .done r => pure r

/-- A computation whose failure is its result. -/
def attempt (x : Procedure ε τ α) : Procedure ε τ (Except ε α) := fun state =>
  (x.runFrom state).map fun ended => (.ok ended.1, ended.2)

@[simp] theorem runFrom_pure (a : α) (state : τ) :
    (pure a : Procedure ε τ α).runFrom state = some (.ok a, state) := rfl

@[simp] theorem runFrom_throw (e : ε) (state : τ) :
    (throw e : Procedure ε τ α).runFrom state = some (.error e, state) := rfl

@[simp] theorem runFrom_lift (f : τ → Except ε α × τ) (state : τ) :
    (lift f : Procedure ε τ α).runFrom state = some (f state) := rfl

@[simp] theorem runFrom_exhausted (state : τ) :
    (exhausted : Procedure ε τ α).runFrom state = none := rfl

/-- A sequence goes on from where its first part ended, unless that failed. -/
theorem runFrom_bind (x : Procedure ε τ α) (f : α → Procedure ε τ β) (state : τ) :
    (x >>= f).runFrom state =
      match x.runFrom state with
      | none => none
      | some (.error e, next) => some (.error e, next)
      | some (.ok a, next) => (f a).runFrom next := by
  cases outcome : x.runFrom state with
  | none =>
    change (StateT.bind x.run (ExceptT.bindCont f)) state = none
    change x.run state = none at outcome
    simp [StateT.bind, outcome]
  | some pair =>
    obtain ⟨result, next⟩ := pair
    change x.run state = some (result, next) at outcome
    change (StateT.bind x.run (ExceptT.bindCont f)) state = _
    cases result with
    | error e =>
      simp [StateT.bind, outcome, ExceptT.bindCont]
      rfl
    | ok a =>
      simp [StateT.bind, outcome, ExceptT.bindCont]
      rfl

/-- A sequence that came to an outcome: its first part failed, or its second part
had the last word. -/
theorem runFrom_bind_some {x : Procedure ε τ α} {f : α → Procedure ε τ β} {state last : τ}
    {result : Except ε β} (ended : (x >>= f).runFrom state = some (result, last)) :
    (∃ e, x.runFrom state = some (.error e, last) ∧ result = .error e) ∨
      ∃ a next, x.runFrom state = some (.ok a, next) ∧
        (f a).runFrom next = some (result, last) := by
  rw [runFrom_bind] at ended
  cases outcome : x.runFrom state with
  | none =>
    rw [outcome] at ended
    cases ended
  | some pair =>
    obtain ⟨first, next⟩ := pair
    rw [outcome] at ended
    cases first with
    | error e =>
      cases ended
      exact .inl ⟨e, rfl, rfl⟩
    | ok a => exact .inr ⟨a, next, rfl, ended⟩

theorem runFrom_attempt_some {x : Procedure ε τ α} {state last : τ}
    {result : Except ε (Except ε α)} (ended : (attempt x).runFrom state = some (result, last)) :
    ∃ outcome, result = .ok outcome ∧ x.runFrom state = some (outcome, last) := by
  change (x.runFrom state).map _ = _ at ended
  obtain ⟨⟨outcome, next⟩, ran, same⟩ := Option.map_eq_some_iff.mp ended
  cases same
  exact ⟨outcome, rfl, ran⟩

/-- A sequence that goes on from the success or the failure of its first part. -/
theorem runFrom_bind_attempt {x : Procedure ε τ α} {f : Except ε α → Procedure ε τ β}
    {state last : τ} {result : Except ε β}
    (ended : (attempt x >>= f).runFrom state = some (result, last)) :
    ∃ answer next, x.runFrom state = some (answer, next) ∧
      (f answer).runFrom next = some (result, last) := by
  rcases runFrom_bind_some ended with ⟨e, failed, -⟩ | ⟨answer, next, ran, going⟩
  · obtain ⟨outcome, same, -⟩ := runFrom_attempt_some failed
    cases same
  · obtain ⟨outcome, same, ran⟩ := runFrom_attempt_some ran
    cases same
    exact ⟨answer, next, ran, going⟩

/-! ## Coming to an outcome -/

/-- The computation comes to an outcome from every state. -/
def Ends (x : Procedure ε τ α) : Prop := ∀ state, ∃ result last, x.runFrom state = some (result, last)

theorem ends_pure (a : α) : Ends (pure a : Procedure ε τ α) := fun state => ⟨.ok a, state, rfl⟩

theorem ends_throw (e : ε) : Ends (throw e : Procedure ε τ α) := fun state => ⟨.error e, state, rfl⟩

theorem ends_lift (f : τ → Except ε α × τ) : Ends (lift f) :=
  fun state => ⟨(f state).1, (f state).2, rfl⟩

theorem ends_attempt {x : Procedure ε τ α} (ends : Ends x) : Ends (attempt x) := by
  intro state
  obtain ⟨result, last, ended⟩ := ends state
  refine ⟨.ok result, last, ?_⟩
  change (x.runFrom state).map _ = _
  rw [ended]
  rfl

theorem ends_bind {x : Procedure ε τ α} {f : α → Procedure ε τ β} (first : Ends x)
    (later : ∀ a, Ends (f a)) : Ends (x >>= f) := by
  intro state
  obtain ⟨result, next, ended⟩ := first state
  rw [runFrom_bind, ended]
  cases result with
  | error e => exact ⟨.error e, next, rfl⟩
  | ok a => exact later a next

/-- A turn that asks for another. -/
def Again (body : σ → Procedure ε τ (Turn σ ρ)) (p q : σ × τ) : Prop :=
  (body p.1).runFrom p.2 = some (.ok (.again q.1), q.2)

/-- A loop that came to an outcome came by turns to one that failed or was done. -/
theorem loop_outcome {body : σ → Procedure ε τ (Turn σ ρ)} {turns : Nat} {s : σ} {state last : τ}
    {result : Except ε ρ} (ended : (loop body turns s).runFrom state = some (result, last)) :
    ∃ q : σ × τ, Relation.ReflTransGen (Again body) (s, state) q ∧
      ((∃ e, (body q.1).runFrom q.2 = some (.error e, last) ∧ result = .error e) ∨
        ∃ r, (body q.1).runFrom q.2 = some (.ok (.done r), last) ∧ result = .ok r) := by
  induction turns generalizing s state with
  | zero => cases ended
  | succ turns ih =>
    rcases runFrom_bind_some ended with ⟨e, failed, rfl⟩ | ⟨turn, next, turned, going⟩
    · exact ⟨(s, state), .refl, .inl ⟨e, failed, rfl⟩⟩
    · cases turn with
      | again s' =>
        obtain ⟨q, path, final⟩ := ih going
        have again : Again body (s, state) (s', next) := turned
        exact ⟨q, .head again path, final⟩
      | done r =>
        cases going
        exact ⟨(s, state), .refl, .inr ⟨r, turned, rfl⟩⟩

/-- A loop whose turns end, and whose further turns go down in rank, ends. -/
theorem loop_ends {body : σ → Procedure ε τ (Turn σ ρ)} (turn : ∀ s, Ends (body s))
    (rank : σ × τ → Nat) (down : ∀ {p q}, Again body p q → rank q < rank p) {turns : Nat} {s : σ}
    {state : τ} (enough : rank (s, state) < turns) :
    ∃ result last, (loop body turns s).runFrom state = some (result, last) := by
  induction turns generalizing s state with
  | zero => exact absurd enough (Nat.not_lt_zero _)
  | succ turns ih =>
    obtain ⟨result, next, ended⟩ := turn s state
    rw [loop, runFrom_bind, ended]
    cases result with
    | error e => exact ⟨.error e, next, rfl⟩
    | ok outcome =>
      cases outcome with
      | done r => exact ⟨.ok r, next, rfl⟩
      | again s' =>
        have lower : rank (s', next) < rank (s, state) := down ended
        exact ih (by omega)

/-! ## What a step may do -/

/-- What the steps of a computation may do to its state: nothing, nothing and
fail, and one thing after another. -/
structure Allows (R : τ → Except ε Unit → τ → Prop) : Prop where
  stay : ∀ state, R state (.ok ()) state
  fail : ∀ state e, R state (.error e) state
  both : ∀ {state next last result}, R state (.ok ()) next → R next result last →
    R state result last

/-- Every outcome of the computation is one a step may have. -/
def Keeps (R : τ → Except ε Unit → τ → Prop) (x : Procedure ε τ α) : Prop :=
  ∀ ⦃state result last⦄, x.runFrom state = some (result, last) →
    R state (result.map fun _ => ()) last

variable {R : τ → Except ε Unit → τ → Prop}

theorem keeps_pure (allows : Allows R) (a : α) : Keeps R (pure a : Procedure ε τ α) := by
  intro state result last ended
  cases ended
  exact allows.stay state

theorem keeps_throw (allows : Allows R) (e : ε) : Keeps R (throw e : Procedure ε τ α) := by
  intro state result last ended
  cases ended
  exact allows.fail state e

theorem keeps_lift {f : τ → Except ε α × τ}
    (step : ∀ state, R state ((f state).1.map fun _ => ()) (f state).2) :
    Keeps R (lift f) := by
  intro state result last ended
  rw [runFrom_lift, Option.some.injEq] at ended
  have stepped := step state
  rwa [ended] at stepped

theorem keeps_exhausted : Keeps R (exhausted : Procedure ε τ α) := by
  intro state result last ended
  cases ended

theorem keeps_bind (allows : Allows R) {x : Procedure ε τ α} {f : α → Procedure ε τ β}
    (first : Keeps R x) (later : ∀ a, Keeps R (f a)) : Keeps R (x >>= f) := by
  intro state result last ended
  rcases runFrom_bind_some ended with ⟨e, failed, rfl⟩ | ⟨a, next, done, ended⟩
  · exact first failed
  · exact allows.both (first done) (later a ended)

theorem keeps_attempt {x : Procedure ε τ α} (kept : Keeps R x)
    (recovers : ∀ {state e last}, R state (.error e) last → R state (.ok ()) last) :
    Keeps R (attempt x) := by
  intro state result last ended
  obtain ⟨outcome, rfl, ran⟩ := runFrom_attempt_some ended
  have step := kept ran
  cases outcome with
  | error e => exact recovers step
  | ok a => exact step

/-- What every turn of a loop may do, the loop may do. -/
theorem keeps_loop (allows : Allows R) {body : σ → Procedure ε τ (Turn σ ρ)}
    (turn : ∀ s, Keeps R (body s)) (turns : Nat) (s : σ) : Keeps R (loop body turns s) := by
  induction turns generalizing s with
  | zero => exact keeps_exhausted
  | succ turns ih =>
    refine keeps_bind allows (turn s) (fun ended => ?_)
    cases ended with
    | again next => exact ih next
    | done r => exact keeps_pure allows r

/-! ## What a computation leaves in a log -/

section Logged
variable {ω : Type} {log : τ → List ω}

/-- Every outcome adds events to the log, and of them and the result the relation holds. -/
def Adds (log : τ → List ω) (P : List ω → Except ε α → Prop) (x : Procedure ε τ α) : Prop :=
  ∀ ⦃state result last⦄, x.runFrom state = some (result, last) →
    ∃ events, log last = log state ++ events ∧ P events result

theorem adds_pure {P : List ω → Except ε α → Prop} {a : α} (nothing : P [] (.ok a)) :
    Adds log P (pure a) := by
  intro state result last ended
  cases ended
  exact ⟨[], (List.append_nil _).symm, nothing⟩

theorem adds_throw {P : List ω → Except ε α → Prop} {e : ε} (nothing : P [] (.error e)) :
    Adds log P (throw e) := by
  intro state result last ended
  cases ended
  exact ⟨[], (List.append_nil _).symm, nothing⟩

theorem adds_mono {P Q : List ω → Except ε α → Prop} {x : Procedure ε τ α} (adds : Adds log P x)
    (implies : ∀ {events result}, P events result → Q events result) : Adds log Q x := by
  intro state result last ended
  obtain ⟨events, added, said⟩ := adds ended
  exact ⟨events, added, implies said⟩

theorem adds_attempt {P : List ω → Except ε α → Prop} {x : Procedure ε τ α}
    (adds : Adds log P x) :
    Adds log (fun events result => ∃ outcome, result = .ok outcome ∧ P events outcome)
      (attempt x) := by
  intro state result last ended
  obtain ⟨outcome, rfl, ran⟩ := runFrom_attempt_some ended
  obtain ⟨events, added, said⟩ := adds ran
  exact ⟨events, added, outcome, rfl, said⟩

/-- The events of a sequence are those of its first part and then those of its second. -/
theorem adds_bind {P : List ω → Except ε α → Prop} {Q : α → List ω → Except ε β → Prop}
    {R : List ω → Except ε β → Prop} {x : Procedure ε τ α} {f : α → Procedure ε τ β}
    (first : Adds log P x) (later : ∀ a, Adds log (Q a) (f a))
    (failed : ∀ {events e}, P events (.error e) → R events (.error e))
    (both : ∀ {before a after result}, P before (.ok a) → Q a after result →
      R (before ++ after) result) : Adds log R (x >>= f) := by
  intro state result last ended
  rcases runFrom_bind_some ended with ⟨e, fails, rfl⟩ | ⟨a, next, ran, going⟩
  · obtain ⟨events, added, said⟩ := first fails
    exact ⟨events, added, failed said⟩
  · obtain ⟨before, added, said⟩ := first ran
    obtain ⟨after, added', said'⟩ := later a going
    exact ⟨before ++ after, by rw [added', added, List.append_assoc], both said said'⟩

/-- The computation leaves nothing in the log. -/
def Silent (log : τ → List ω) (x : Procedure ε τ α) : Prop :=
  Adds log (fun events _ => events = []) x

theorem silent_pure (a : α) : Silent log (pure a : Procedure ε τ α) := adds_pure rfl

theorem silent_throw (e : ε) : Silent log (throw e : Procedure ε τ α) := adds_throw rfl

theorem silent_bind {x : Procedure ε τ α} {f : α → Procedure ε τ β} (first : Silent log x)
    (later : ∀ a, Silent log (f a)) : Silent log (x >>= f) := by
  refine adds_bind first later (fun said => said) ?_
  rintro before a after result rfl rfl
  rfl

theorem silent_attempt {x : Procedure ε τ α} (silent : Silent log x) : Silent log (attempt x) := by
  refine adds_mono (adds_attempt silent) ?_
  rintro events result ⟨outcome, -, said⟩
  exact said

/-- What is said of an answer that is judged in silence. -/
theorem adds_judged {P : List ω → Except ε α → Prop} {x : Procedure ε τ α}
    {judge : Except ε α → Procedure ε τ β} (asks : Adds log P x)
    (silent : ∀ answer, Silent log (judge answer)) :
    Adds log (fun events result => ∃ answer, P events answer ∧
      ∃ asked last, (judge answer).runFrom asked = some (result, last)) (attempt x >>= judge) := by
  intro state result last ended
  obtain ⟨answer, asked, ran, going⟩ := runFrom_bind_attempt ended
  obtain ⟨events, added, said⟩ := asks ran
  obtain ⟨none, added', rfl⟩ := silent answer going
  refine ⟨events, ?_, answer, said, asked, last, going⟩
  rw [added', added, List.append_nil]

/-- What holds of the events of each turn, after those of the turns before it, holds of
the loop's. -/
theorem adds_loop {body : σ → Procedure ε τ (Turn σ ρ)} {I : σ → List ω → Prop}
    {T : List ω → Except ε (Turn σ ρ) → Prop} {R : List ω → Except ε ρ → Prop}
    (turn : ∀ s, Adds log T (body s))
    (again : ∀ {s s' before events}, I s before → T events (.ok (.again s')) →
      I s' (before ++ events))
    (done : ∀ {s before events r}, I s before → T events (.ok (.done r)) →
      R (before ++ events) (.ok r))
    (failed : ∀ {s before events e}, I s before → T events (.error e) →
      R (before ++ events) (.error e))
    {turns : Nat} {s : σ} {before : List ω} (held : I s before) :
    Adds log (fun events result => R (before ++ events) result) (loop body turns s) := by
  induction turns generalizing s before with
  | zero =>
    intro state result last ended
    cases ended
  | succ turns ih =>
    intro state result last ended
    rcases runFrom_bind_some ended with ⟨e, fails, rfl⟩ | ⟨outcome, next, ran, going⟩
    · obtain ⟨events, added, said⟩ := turn s fails
      exact ⟨events, added, failed held said⟩
    · obtain ⟨events, added, said⟩ := turn s ran
      cases outcome with
      | done r =>
        cases going
        exact ⟨events, added, done held said⟩
      | again s' =>
        obtain ⟨more, added', said'⟩ := ih (again held said) going
        refine ⟨events ++ more, by rw [added', added, List.append_assoc], ?_⟩
        rwa [List.append_assoc] at said'

end Logged

/-! ## Two runs compared -/

section Compared
variable {τ' : Type}

/-- From related states, both computations are out of turns, or both end with one
result and in related states. -/
def Agrees (S : τ → τ' → Prop) (x : Procedure ε τ α) (y : Procedure ε τ' α) : Prop :=
  ∀ ⦃state other⦄, S state other →
    (x.runFrom state = none ∧ y.runFrom other = none) ∨
      ∃ result last last', x.runFrom state = some (result, last) ∧
        y.runFrom other = some (result, last') ∧ S last last'

variable {S : τ → τ' → Prop}

theorem agrees_pure (a : α) : Agrees S (pure a : Procedure ε τ α) (pure a) :=
  fun state other related => .inr ⟨.ok a, state, other, rfl, rfl, related⟩

theorem agrees_throw (e : ε) : Agrees S (throw e : Procedure ε τ α) (throw e) :=
  fun state other related => .inr ⟨.error e, state, other, rfl, rfl, related⟩

theorem agrees_exhausted : Agrees S (exhausted : Procedure ε τ α) exhausted :=
  fun _ _ _ => .inl ⟨rfl, rfl⟩

theorem agrees_lift {f : τ → Except ε α × τ} {g : τ' → Except ε α × τ'}
    (step : ∀ {state other}, S state other →
      (f state).1 = (g other).1 ∧ S (f state).2 (g other).2) : Agrees S (lift f) (lift g) := by
  intro state other related
  obtain ⟨same, kept⟩ := step related
  refine .inr ⟨(f state).1, (f state).2, (g other).2, rfl, ?_, kept⟩
  rw [runFrom_lift, same]

theorem agrees_bind {x : Procedure ε τ α} {y : Procedure ε τ' α} {f : α → Procedure ε τ β}
    {g : α → Procedure ε τ' β} (first : Agrees S x y) (later : ∀ a, Agrees S (f a) (g a)) :
    Agrees S (x >>= f) (y >>= g) := by
  intro state other related
  rw [runFrom_bind, runFrom_bind]
  rcases first related with ⟨out, out'⟩ | ⟨result, next, next', ended, ended', kept⟩
  · rw [out, out']
    exact .inl ⟨rfl, rfl⟩
  · rw [ended, ended']
    cases result with
    | error e => exact .inr ⟨.error e, next, next', rfl, rfl, kept⟩
    | ok a => exact later a kept

/-- Loops whose turns agree agree. -/
theorem agrees_loop {body : σ → Procedure ε τ (Turn σ ρ)} {other : σ → Procedure ε τ' (Turn σ ρ)}
    (turn : ∀ s, Agrees S (body s) (other s)) (turns : Nat) (s : σ) :
    Agrees S (loop body turns s) (loop other turns s) := by
  induction turns generalizing s with
  | zero => exact agrees_exhausted
  | succ turns ih =>
    refine agrees_bind (turn s) (fun ended => ?_)
    cases ended with
    | again next => exact ih next
    | done r => exact agrees_pure r

/-- An outcome of the second computation is one of the first. -/
theorem outcome_of_agrees {x : Procedure ε τ α} {y : Procedure ε τ' α} (agrees : Agrees S x y)
    {state : τ} {other last' : τ'} {result : Except ε α} (related : S state other)
    (ended : y.runFrom other = some (result, last')) :
    ∃ last, x.runFrom state = some (result, last) ∧ S last last' := by
  rcases agrees related with ⟨-, out⟩ | ⟨result', last, other', ran, ran', kept⟩
  · rw [out] at ended
    cases ended
  · rw [ran'] at ended
    cases ended
    exact ⟨last, ran, kept⟩

/-- Wherever the first computation succeeds, the second does, from any state and with
a related result. -/
def Predicts (V : α → β → Prop) (x : Procedure ε τ α) (y : Procedure ε τ' β) : Prop :=
  ∀ ⦃state a last⦄, x.runFrom state = some (.ok a, last) → ∀ other,
    ∃ b last', y.runFrom other = some (.ok b, last') ∧ V a b

theorem predicts_pure {V : α → β → Prop} {a : α} {b : β} (related : V a b) :
    Predicts V (pure a : Procedure ε τ α) (pure b : Procedure ε τ' β) := by
  intro state a' last ended other
  cases ended
  exact ⟨b, other, rfl, related⟩

theorem predicts_bind {α' β' : Type} {V : α → α' → Prop} {W : β → β' → Prop}
    {x : Procedure ε τ α} {y : Procedure ε τ' α'} {f : α → Procedure ε τ β}
    {g : α' → Procedure ε τ' β'} (first : Predicts V x y)
    (later : ∀ {a a'}, V a a' → Predicts W (f a) (g a')) : Predicts W (x >>= f) (y >>= g) := by
  intro state b last ended other
  rcases runFrom_bind_some ended with ⟨e, -, failed⟩ | ⟨a, next, ran, going⟩
  · cases failed
  · obtain ⟨a', next', ran', related⟩ := first ran other
    obtain ⟨b', last', ended', related'⟩ := later related going next'
    refine ⟨b', last', ?_, related'⟩
    rw [runFrom_bind, ran']
    exact ended'

end Compared
end Procedure
end AztecPxe
